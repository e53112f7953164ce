import NetCore.TransitionRuns
import NetCore.SegmentedReceive
import Mathlib.Order.Interval.Set.Disjoint
import Mathlib.Data.Set.BooleanAlgebra
import Mathlib.Order.CompletePartialOrder

/-! `RecvBuffer` of RecvBuffer.h and RecvBuffer.cpp as a queue of bytes. Both sizes are
`uint32` differences of cursors, and `Write` and `Read` trust them. `FreeSize` is counted
from `_bufferSize`, a tenth of the capacity, so `Clear` finds less than a whole buffer free
whenever data are left and moves them to the front every time, however near they lie.
`memcpy` is taken to move the bytes faithfully here; whether its ranges are apart is a
separate statement. -/
namespace NetCore.ReceiveBuffer
open TransitionRuns ByteMemory SegmentedReceive

/-- What a call that returns false leaves in `ErrorHandler::SetLastError`. -/
inductive RecvError where
  | invalidData
  | overflow
  deriving DecidableEq, Repr

/-- `_writePos - _dataPos` in `uint32`. -/
def dataSize (recvBuffer : RecvBuffer) : Nat :=
  (recvBuffer.writePos + 2 ^ 32 - recvBuffer.dataPos) % 2 ^ 32

/-- `none` stands for true. -/
def read (recvBuffer : RecvBuffer) (size : UInt32) : RecvBuffer × Option RecvError :=
  if dataSize recvBuffer < size.toNat then (recvBuffer, some .invalidData)
  else ({ recvBuffer with dataPos := (recvBuffer.dataPos + size.toNat) % 2 ^ 32 }, none)

def write (recvBuffer : RecvBuffer) (size : UInt32) : RecvBuffer × Option RecvError :=
  if recvBuffer.freeSize < size.toNat then (recvBuffer, some .overflow)
  else ({ recvBuffer with writePos := (recvBuffer.writePos + size.toNat) % 2 ^ 32 }, none)

def compacts (recvBuffer : RecvBuffer) : Bool :=
  dataSize recvBuffer ≠ 0 ∧ recvBuffer.freeSize < recvBuffer.bufferSize

def clear (recvBuffer : RecvBuffer) : RecvBuffer :=
  if dataSize recvBuffer = 0 then { recvBuffer with dataPos := 0, writePos := 0 }
  else if recvBuffer.freeSize < recvBuffer.bufferSize then
    { recvBuffer with
      buffer :=
        store recvBuffer.buffer 0 (load recvBuffer.buffer recvBuffer.dataPos (dataSize recvBuffer))
      dataPos := 0
      writePos := dataSize recvBuffer }
  else recvBuffer

/-- `written` are the bytes that `Write` has accepted and `consumed` the number of them that
`Read` has passed, at the last `Clear` as many as `cleared`. -/
structure System where
  recvBuffer : RecvBuffer
  written : List UInt8
  consumed : Nat
  cleared : Nat

def System.construct (bufferSize : UInt32) : System where
  recvBuffer := RecvBuffer.construct bufferSize.toNat
  written := []
  consumed := 0
  cleared := 0

/-- `store` puts bytes at `WritePos()` and calls `Write` for them; `write` is a call without
bytes of its own, which takes what lies there. -/
inductive Label where
  | store (bytes : List UInt8)
  | write (size : UInt32)
  | read (size : UInt32)
  | clear
  deriving DecidableEq, Repr

def callWrite (system : System) (size : UInt32) : System :=
  { system with
    recvBuffer := (write system.recvBuffer size).1
    written := if (write system.recvBuffer size).2 = none then
      system.written ++ load system.recvBuffer.buffer system.recvBuffer.writePos size.toNat
      else system.written }

def callRead (system : System) (size : UInt32) : System :=
  { system with
    recvBuffer := (read system.recvBuffer size).1
    consumed := if (read system.recvBuffer size).2 = none then system.consumed + size.toNat
      else system.consumed }

def placed (system : System) (bytes : List UInt8) : System :=
  { system with recvBuffer := { system.recvBuffer with
      buffer := store system.recvBuffer.buffer system.recvBuffer.writePos bytes } }

def step : Step System Label := fun system label =>
  match label with
  | .store bytes =>
      if bytes.length ≤ system.recvBuffer.freeSize then
        some (callWrite (placed system bytes) (UInt32.ofNat bytes.length))
      else none
  | .write size => some (callWrite system size)
  | .read size => some (callRead system size)
  | .clear => some { system with recvBuffer := clear system.recvBuffer, cleared := system.consumed }

/-- The cursors are in order, and what lies between them is what was written and not read. -/
structure Invariant (bufferSize : UInt32) (system : System) : Prop where
  size : system.recvBuffer.bufferSize = bufferSize.toNat
  capacity : system.recvBuffer.capacity = bufferSize.toNat * bufferCount % 2 ^ 32
  ordered : system.recvBuffer.dataPos ≤ system.recvBuffer.writePos
  inside : system.recvBuffer.writePos ≤ bufferSize.toNat
  contents : load system.recvBuffer.buffer system.recvBuffer.dataPos
    (system.recvBuffer.writePos - system.recvBuffer.dataPos) = system.written.drop system.consumed
  counted : system.consumed + (system.recvBuffer.writePos - system.recvBuffer.dataPos) =
    system.written.length
  moved : system.cleared + system.recvBuffer.dataPos = system.consumed

section Sizes
variable (bufferSize : UInt32) (system : System) (holds : Invariant bufferSize system)
include holds

theorem data_size_exact :
    dataSize system.recvBuffer = system.recvBuffer.writePos - system.recvBuffer.dataPos := by
  have ordered := holds.ordered
  have inside := holds.inside
  have bound := bufferSize.toNat_lt
  simp only [dataSize]
  omega

theorem free_size_exact :
    system.recvBuffer.freeSize = bufferSize.toNat - system.recvBuffer.writePos := by
  have inside := holds.inside
  have bound := bufferSize.toNat_lt
  simp only [RecvBuffer.freeSize, holds.size]
  omega

/-- Data that are left keep the write cursor off the front, so `Clear` always moves them. -/
theorem compacts_exact :
    compacts system.recvBuffer =
        decide (system.recvBuffer.dataPos < system.recvBuffer.writePos) := by
  have ordered := holds.ordered
  have inside := holds.inside
  simp only [compacts, data_size_exact bufferSize system holds,
    free_size_exact bufferSize system holds, holds.size]
  congr 1
  simp only [eq_iff_iff]
  omega

end Sizes

theorem construct_invariant (bufferSize : UInt32) :
    Invariant bufferSize (System.construct bufferSize) where
  size := rfl
  capacity := rfl
  ordered := Nat.le_refl _
  inside := Nat.zero_le _
  contents := rfl
  counted := rfl
  moved := rfl

/-! A step of each operation. -/

section Operations
variable (bufferSize : UInt32) (system : System) (holds : Invariant bufferSize system)
include holds

/-- A cursor that `Write` may move stays within `_bufferSize`, so the sum does not wrap. -/
theorem write_accepted (size : UInt32) (fits : size.toNat ≤ system.recvBuffer.freeSize) :
    write system.recvBuffer size =
      ({ system.recvBuffer with writePos := system.recvBuffer.writePos + size.toNat }, none) := by
  have free := free_size_exact bufferSize system holds
  have inside := holds.inside
  have bound := bufferSize.toNat_lt
  have small : system.recvBuffer.writePos + size.toNat < 2 ^ 32 := by omega
  rw [write, if_neg (Nat.not_lt.mpr fits), Nat.mod_eq_of_lt small]

theorem read_accepted (size : UInt32) (fits : size.toNat ≤ dataSize system.recvBuffer) :
    read system.recvBuffer size =
      ({ system.recvBuffer with dataPos := system.recvBuffer.dataPos + size.toNat }, none) := by
  have data := data_size_exact bufferSize system holds
  have ordered := holds.ordered
  have inside := holds.inside
  have bound := bufferSize.toNat_lt
  have small : system.recvBuffer.dataPos + size.toNat < 2 ^ 32 := by omega
  rw [read, if_neg (Nat.not_lt.mpr fits), Nat.mod_eq_of_lt small]

omit holds in
theorem call_write_refused (size : UInt32) (excess : system.recvBuffer.freeSize < size.toNat) :
    callWrite system size = system := by
  have refused : write system.recvBuffer size = (system.recvBuffer, some .overflow) := by
    rw [write, if_pos excess]
  simp only [callWrite, refused, reduceCtorEq, if_false]

omit holds in
theorem call_read_refused (size : UInt32) (excess : dataSize system.recvBuffer < size.toNat) :
    callRead system size = system := by
  have refused : read system.recvBuffer size = (system.recvBuffer, some .invalidData) := by
    rw [read, if_pos excess]
  simp only [callRead, refused, reduceCtorEq, if_false]

theorem placed_invariant (bytes : List UInt8) : Invariant bufferSize (placed system bytes) where
  size := holds.size
  capacity := holds.capacity
  ordered := holds.ordered
  inside := holds.inside
  contents := by
    have ordered := holds.ordered
    have apart : load (store system.recvBuffer.buffer system.recvBuffer.writePos bytes)
        system.recvBuffer.dataPos (system.recvBuffer.writePos - system.recvBuffer.dataPos) =
        load system.recvBuffer.buffer system.recvBuffer.dataPos
          (system.recvBuffer.writePos - system.recvBuffer.dataPos) :=
      load_store_disjoint _ _ _ _ _ (Or.inl (by omega))
    exact apart.trans holds.contents
  counted := holds.counted
  moved := holds.moved

theorem call_write_invariant (size : UInt32) : Invariant bufferSize (callWrite system size) := by
  have ordered := holds.ordered
  have inside := holds.inside
  have counted := holds.counted
  rcases Nat.lt_or_ge system.recvBuffer.freeSize size.toNat with excess | fits
  · rw [call_write_refused system size excess]
    exact holds
  · have free := free_size_exact bufferSize system holds
    simp only [callWrite, write_accepted bufferSize system holds size fits, if_true]
    refine ⟨holds.size, holds.capacity, ?_, ?_, ?_, ?_, holds.moved⟩
    · exact Nat.le_add_right_of_le ordered
    · simp only
      omega
    · -- The unread bytes, then the ones behind the old cursor.
      have longer : system.recvBuffer.writePos + size.toNat - system.recvBuffer.dataPos =
          (system.recvBuffer.writePos - system.recvBuffer.dataPos) + size.toNat := by omega
      have joined : system.recvBuffer.dataPos +
          (system.recvBuffer.writePos - system.recvBuffer.dataPos) =
              system.recvBuffer.writePos := by
            omega
      have covered : system.consumed ≤ system.written.length := by omega
      simp only [longer, load_append, joined, holds.contents, List.drop_append_of_le_length covered]
    · simp only [List.length_append, load_length]
      omega

theorem call_read_invariant (size : UInt32) : Invariant bufferSize (callRead system size) := by
  have ordered := holds.ordered
  have inside := holds.inside
  have counted := holds.counted
  have moved := holds.moved
  rcases Nat.lt_or_ge (dataSize system.recvBuffer) size.toNat with excess | fits
  · rw [call_read_refused system size excess]
    exact holds
  · have data := data_size_exact bufferSize system holds
    simp only [callRead, read_accepted bufferSize system holds size fits, if_true]
    refine ⟨holds.size, holds.capacity, ?_, holds.inside, ?_, ?_, ?_⟩
    · simp only
      omega
    · -- What was unread is the part that is passed and the part that remains.
      have split : system.recvBuffer.writePos - system.recvBuffer.dataPos = size.toNat +
          (system.recvBuffer.writePos - (system.recvBuffer.dataPos + size.toNat)) := by omega
      have contents := holds.contents
      rw [split, load_append] at contents
      have tail := congrArg (List.drop size.toNat) contents
      rw [List.drop_left' (load_length _ _ _), List.drop_drop] at tail
      exact tail
    · simp only
      omega
    · simp only
      omega

theorem clear_exact :
    ∃ buffer, clear system.recvBuffer =
        { system.recvBuffer with
          buffer := buffer
          dataPos := 0
          writePos := system.recvBuffer.writePos - system.recvBuffer.dataPos } ∧
      load buffer 0 (system.recvBuffer.writePos - system.recvBuffer.dataPos) =
        load system.recvBuffer.buffer system.recvBuffer.dataPos
          (system.recvBuffer.writePos - system.recvBuffer.dataPos) := by
  have ordered := holds.ordered
  have inside := holds.inside
  have data := data_size_exact bufferSize system holds
  have free := free_size_exact bufferSize system holds
  have size := holds.size
  by_cases empty : dataSize system.recvBuffer = 0
  · have same : system.recvBuffer.writePos - system.recvBuffer.dataPos = 0 := by omega
    refine ⟨system.recvBuffer.buffer, ?_, ?_⟩
    · simp only [clear, empty, if_true, same]
    · simp only [same, load, List.range_zero, List.map_nil]
  · have short : system.recvBuffer.freeSize < system.recvBuffer.bufferSize := by omega
    refine ⟨store system.recvBuffer.buffer 0
      (load system.recvBuffer.buffer system.recvBuffer.dataPos (dataSize system.recvBuffer)),
      ?_, ?_⟩
    · rw [clear, if_neg empty, if_pos short, data]
    · have copied := load_store_same system.recvBuffer.buffer 0
        (load system.recvBuffer.buffer system.recvBuffer.dataPos (dataSize system.recvBuffer))
      rw [load_length, data] at copied
      rw [data]
      exact copied

theorem call_clear_invariant :
    Invariant bufferSize
      { system with recvBuffer := clear system.recvBuffer, cleared := system.consumed } := by
  have inside := holds.inside
  obtain ⟨buffer, cleared, copied⟩ := clear_exact bufferSize system holds
  simp only [cleared]
  refine ⟨holds.size, holds.capacity, Nat.zero_le _, ?_, ?_, ?_, Nat.add_zero _⟩
  · exact Nat.le_trans (Nat.sub_le _ _) inside
  · simp only [Nat.sub_zero]
    exact copied.trans holds.contents
  · simp only [Nat.sub_zero]
    exact holds.counted

end Operations

theorem step_invariant (bufferSize : UInt32) (before : System) (label : Label) (after : System)
    (holds : Invariant bufferSize before) (taken : step before label = some after) :
    Invariant bufferSize after := by
  cases label with
  | store bytes =>
      simp only [step, Option.ite_none_right_eq_some, Option.some.injEq] at taken
      obtain ⟨-, rfl⟩ := taken
      exact call_write_invariant bufferSize _ (placed_invariant bufferSize before holds bytes) _
  | write size =>
      simp only [step, Option.some.injEq] at taken
      subst taken
      exact call_write_invariant bufferSize before holds size
  | read size =>
      simp only [step, Option.some.injEq] at taken
      subst taken
      exact call_read_invariant bufferSize before holds size
  | clear =>
      simp only [step, Option.some.injEq] at taken
      subst taken
      exact call_clear_invariant bufferSize before holds

def anyStep : Condition System Label := fun _ _ _ => True

theorem reachable_cursors (bufferSize : UInt32) (system : System)
    (reached : Reachable step anyStep (System.construct bufferSize) system) :
    Invariant bufferSize system :=
  reachable_invariant step anyStep (Invariant bufferSize) _ (construct_invariant bufferSize)
    (fun before label after holds taken _ =>
      step_invariant bufferSize before label after holds taken)
    system reached

theorem store_appends (bufferSize : UInt32) (system : System) (holds : Invariant bufferSize system)
    (bytes : List UInt8) (fits : bytes.length ≤ system.recvBuffer.freeSize) :
    ∃ after, step system (.store bytes) = some after ∧
      after.written = system.written ++ bytes ∧ after.consumed = system.consumed := by
  have free := free_size_exact bufferSize system holds
  have bound := bufferSize.toNat_lt
  have small : bytes.length < 2 ^ 32 := by omega
  have size : (UInt32.ofNat bytes.length).toNat = bytes.length := by
    rw [UInt32.toNat_ofNat', Nat.mod_eq_of_lt small]
  have same : (placed system bytes).recvBuffer.freeSize = system.recvBuffer.freeSize := by
    simp only [RecvBuffer.freeSize, placed]
  have accepted := write_accepted bufferSize (placed system bytes)
    (placed_invariant bufferSize system holds bytes) (UInt32.ofNat bytes.length)
    (by rw [size, same]; exact fits)
  refine ⟨callWrite (placed system bytes) (UInt32.ofNat bytes.length), ?_, ?_, ?_⟩
  · simp only [step, fits, if_true]
  · simp only [callWrite, accepted, if_true, size]
    simp only [placed, load_store_same]
  · rw [callWrite, placed]

/-- In every run the receive buffer is a first-in first-out queue of bytes. -/
theorem recv_buffer_queues_bytes (bufferSize : UInt32) (positive : 0 < bufferSize.toNat)
    (capacity : bufferSize.toNat * bufferCount < 2 ^ 32) (system : System)
    (reached : Reachable step anyStep (System.construct bufferSize) system) :
    -- The cursors, and the sizes computed from them.
    (system.recvBuffer.dataPos ≤ system.recvBuffer.writePos ∧
      system.recvBuffer.writePos ≤ system.recvBuffer.bufferSize ∧
      system.recvBuffer.bufferSize < system.recvBuffer.capacity) ∧
    (dataSize system.recvBuffer = system.recvBuffer.writePos - system.recvBuffer.dataPos ∧
      system.recvBuffer.freeSize = system.recvBuffer.bufferSize - system.recvBuffer.writePos) ∧
    -- What lies between them.
    load system.recvBuffer.buffer system.recvBuffer.dataPos (dataSize system.recvBuffer) =
      system.written.drop system.consumed ∧
    -- What is stored and read.
    (∀ bytes : List UInt8, bytes.length ≤ system.recvBuffer.freeSize →
      system.recvBuffer.writePos + bytes.length < system.recvBuffer.capacity ∧
      ∃ after, step system (.store bytes) = some after ∧
        after.written = system.written ++ bytes ∧ after.consumed = system.consumed) ∧
    (∀ size : UInt32, size.toNat ≤ dataSize system.recvBuffer →
      ∃ after, step system (.read size) = some after ∧
        after.written = system.written ∧ after.consumed = system.consumed + size.toNat) ∧
    -- What is refused.
    (∀ size : UInt32, system.recvBuffer.freeSize < size.toNat →
      write system.recvBuffer size = (system.recvBuffer, some .overflow)) ∧
    (∀ size : UInt32, dataSize system.recvBuffer < size.toNat →
      read system.recvBuffer size = (system.recvBuffer, some .invalidData)) ∧
    -- `Clear` moves the unread bytes to the front.
    (clear system.recvBuffer).dataPos = 0 ∧
    load (clear system.recvBuffer).buffer 0 (dataSize (clear system.recvBuffer)) =
      system.written.drop system.consumed ∧
    (clear system.recvBuffer).freeSize =
      system.recvBuffer.bufferSize - dataSize system.recvBuffer := by
  have holds := reachable_cursors bufferSize system reached
  have cleared := call_clear_invariant bufferSize system holds
  have ordered := holds.ordered
  have inside := holds.inside
  have size := holds.size
  have data := data_size_exact bufferSize system holds
  have free := free_size_exact bufferSize system holds
  have room : system.recvBuffer.bufferSize < system.recvBuffer.capacity := by
    rw [holds.capacity, holds.size, Nat.mod_eq_of_lt capacity]
    simp only [bufferCount]
    omega
  obtain ⟨buffer, moved, copied⟩ := clear_exact bufferSize system holds
  refine ⟨⟨ordered, by omega, room⟩, ⟨data, by omega⟩, ?_, ?_, ?_, ?_, ?_, ?_, ?_, ?_⟩
  · rw [data]
    exact holds.contents
  · intro bytes fits
    exact ⟨by omega, store_appends bufferSize system holds bytes fits⟩
  · intro count fits
    refine ⟨callRead system count, ?_, ?_, ?_⟩
    · simp only [step]
    · rw [callRead]
    · simp only [callRead, read_accepted bufferSize system holds count fits, if_true]
  · intro count excess
    rw [write, if_pos excess]
  · intro count excess
    rw [read, if_pos excess]
  · rw [moved]
  · have unread := data_size_exact bufferSize _ cleared
    simp only [moved, Nat.sub_zero] at unread ⊢
    rw [unread, copied]
    exact holds.contents
  · have room := free_size_exact bufferSize _ cleared
    simp only [moved] at room ⊢
    rw [room, data, size]

/-- One byte is left at the first `Clear`, two at the second, behind bytes stored later. -/
theorem recv_buffer_queues_bytes_left_over :
    ∃ system, Reachable step anyStep (System.construct 65536) system ∧
      system.written = [7, 8, 9, 4, 5] ∧ system.consumed = 3 ∧
      load system.recvBuffer.buffer system.recvBuffer.dataPos (dataSize system.recvBuffer) =
        [4, 5] ∧
      (clear system.recvBuffer).dataPos = 0 ∧
      load (clear system.recvBuffer).buffer 0 (dataSize (clear system.recvBuffer)) = [4, 5] := by
  obtain ⟨system, reached, seen⟩ := replay_reachable step anyStep (fun _ _ _ => true)
    (fun _ _ _ _ => trivial) (fun system => (system.written, system.consumed))
    ([7, 8, 9, 4, 5], 3) [.store [7, 8, 9], .read 2, .clear, .store [4, 5], .read 1]
    (System.construct 65536) (by decide +kernel)
  rw [Prod.mk.injEq] at seen
  obtain ⟨written, consumed⟩ := seen
  obtain ⟨_, _, contents, _, _, _, _, front, moved, _⟩ :=
    recv_buffer_queues_bytes 65536 (by decide) (by decide) system reached
  rw [written, consumed] at contents moved
  exact ⟨system, reached, written, consumed, contents, front, moved⟩

def copySource (recvBuffer : RecvBuffer) : Set Nat :=
  Set.Ico recvBuffer.dataPos (recvBuffer.dataPos + dataSize recvBuffer)

def copyDestination (recvBuffer : RecvBuffer) : Set Nat :=
  Set.Ico 0 (dataSize recvBuffer)

/-- The unread bytes begin as many places from the front as were read since the last `Clear`,
so the copy is apart from them exactly if no more bytes are left than were read since. -/
theorem copy_ranges_disjoint_iff (bufferSize : UInt32) (system : System)
    (reached : Reachable step anyStep (System.construct bufferSize) system) :
    (compacts system.recvBuffer = true →
      Disjoint (copySource system.recvBuffer) (copyDestination system.recvBuffer)) ↔
    system.written.length - system.consumed ≤ system.consumed - system.cleared := by
  have holds := reachable_cursors bufferSize system reached
  have ordered := holds.ordered
  have counted := holds.counted
  have moved := holds.moved
  have data := data_size_exact bufferSize system holds
  rw [compacts_exact bufferSize system holds, decide_eq_true_eq]
  simp only [copySource, copyDestination, Set.Ico_disjoint_Ico, data]
  omega

theorem copy_ranges_disjoint_after_read :
    ∃ system, Reachable step anyStep (System.construct 65536) system ∧
      compacts system.recvBuffer = true ∧
      Disjoint (copySource system.recvBuffer) (copyDestination system.recvBuffer) := by
  obtain ⟨system, reached, seen⟩ := replay_reachable step anyStep (fun _ _ _ => true)
    (fun _ _ _ _ => trivial)
    (fun system =>
      (compacts system.recvBuffer, system.written.length, system.consumed, system.cleared))
    (true, 3, 2, 0) [.store [7, 8, 9], .read 2] (System.construct 65536) (by decide +kernel)
  simp only [Prod.mk.injEq] at seen
  obtain ⟨compacting, written, consumed, cleared⟩ := seen
  refine ⟨system, reached, compacting,
    (copy_ranges_disjoint_iff 65536 system reached).mpr ?_ compacting⟩
  omega

theorem copy_ranges_overlap_after_short_read :
    ¬ ∀ (bufferSize : UInt32) (system : System),
      Reachable step anyStep (System.construct bufferSize) system →
      compacts system.recvBuffer = true →
      Disjoint (copySource system.recvBuffer) (copyDestination system.recvBuffer) := by
  intro apart
  obtain ⟨system, reached, seen⟩ := replay_reachable step anyStep (fun _ _ _ => true)
    (fun _ _ _ _ => trivial)
    (fun system =>
      (compacts system.recvBuffer, system.recvBuffer.dataPos, dataSize system.recvBuffer))
    (true, 1, 2) [.store [7, 8, 9], .read 1] (System.construct 65536) (by decide +kernel)
  simp only [Prod.mk.injEq] at seen
  obtain ⟨compacting, position, data⟩ := seen
  have disjoint := apart 65536 system reached compacting
  simp only [copySource, copyDestination, Set.Ico_disjoint_Ico, position, data] at disjoint
  omega

end NetCore.ReceiveBuffer
