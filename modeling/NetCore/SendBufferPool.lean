import NetCore.TransitionRuns
import NetCore.PacketFraming

/-! The send buffers of SendBuffer.cpp and their pool in SendBufferManager.h and
.cpp, shared by any number of threads. The critical sections of `Push` and `Pop`
are single steps. Assigning `TLS_SendBuffer` swaps the new buffer in; the deleter
of the old `shared_ptr` then pushes the old buffer, so between the two a buffer is
in transit. `_usedSize` survives recycling: nothing in the source resets it, and
`Reserve` tests the free size of the buffer it is about to replace, not of the
one that `Pop` hands it. `_usedSize` lies right behind the array `_buffer`, so a
`memset` or a write that runs past the array goes into the bytes of the counter,
and `SendBuffer::Reserve` reads the counter after its `memset`. Memory beyond the
counter is outside the model. -/
namespace NetCore.SendBufferPool
open TransitionRuns ByteMemory PacketFraming

structure SendBuffer where
  buffer : Memory UInt8
  usedSize : Nat

def SendBuffer.construct : SendBuffer := { buffer := fun _ => 0, usedSize := 0 }

/-- `_buffer.size() - _usedSize`, narrowed to `uint32`. -/
def SendBuffer.freeSize (sendBuffer : SendBuffer) : Nat :=
  (maxBufferSize + 2 ^ 32 - sendBuffer.usedSize) % 2 ^ 32

inductive SendError where
  | sizeOverflow
  deriving DecidableEq, Repr

def littleEndian : Nat → Nat → List UInt8
  | 0, _ => []
  | count + 1, value => UInt8.ofNat value :: littleEndian count (value / 256)

def ofLittleEndian : List UInt8 → Nat
  | [] => 0
  | byte :: rest => byte.toNat + 256 * ofLittleEndian rest

theorem little_endian_length (count value : Nat) : (littleEndian count value).length = count := by
  induction count generalizing value with
  | zero => rfl
  | succ count ih => rw [littleEndian, List.length_cons, ih]

theorem of_little_endian (count value : Nat) :
    ofLittleEndian (littleEndian count value) = value % 256 ^ count := by
  induction count generalizing value with
  | zero => exact (Nat.mod_one value).symm
  | succ count ih =>
      have digits : value % 256 ^ (count + 1) =
          value % 256 + 256 * (value / 256 % 256 ^ count) := by
        rw [Nat.pow_succ', Nat.mod_mul]
      rw [littleEndian, ofLittleEndian, ih, UInt8.toNat_ofNat', digits]

/-- The object from `_buffer` on: the array, and the four bytes of the counter behind it. -/
def SendBuffer.object (sendBuffer : SendBuffer) : Memory UInt8 :=
  store sendBuffer.buffer maxBufferSize (littleEndian 4 sendBuffer.usedSize)

/-- A write of `size` bytes that starts at `offset` of `_buffer`, wherever it ends. -/
def SendBuffer.overwrite (sendBuffer : SendBuffer) (offset size : Nat) (bytes : List UInt8) :
    SendBuffer where
  buffer := store sendBuffer.buffer offset bytes
  usedSize :=
    if offset + size ≤ maxBufferSize then sendBuffer.usedSize
    else ofLittleEndian (load (store sendBuffer.object offset bytes) maxBufferSize 4)

/-- `SendBuffer::Reserve`: the offset returned, or `APP_SENDBUFFER_SIZE_OVERFLOW`. -/
def SendBuffer.reserve (size : Nat) (sendBuffer : SendBuffer) :
    Except SendError (SendBuffer × Nat) :=
  if maxBufferSize < size then .error .sizeOverflow
  else
    -- `ret` is `_usedSize` as the `memset` has left it.
    let zeroed := sendBuffer.overwrite sendBuffer.usedSize size (List.replicate size 0)
    .ok ({ zeroed with usedSize := (zeroed.usedSize + size) % 2 ^ 32 }, zeroed.usedSize)

theorem SendBuffer.free_size_exact (sendBuffer : SendBuffer)
    (inside : sendBuffer.usedSize ≤ maxBufferSize) :
    sendBuffer.freeSize + sendBuffer.usedSize = maxBufferSize := by
  simp only [SendBuffer.freeSize, maxBufferSize] at *
  omega

theorem SendBuffer.overwrite_inside (sendBuffer : SendBuffer) (offset size : Nat)
    (bytes : List UInt8) (inside : offset + size ≤ maxBufferSize) :
    sendBuffer.overwrite offset size bytes =
      { sendBuffer with buffer := store sendBuffer.buffer offset bytes } := by
  simp only [SendBuffer.overwrite, inside, if_true]

/-- Without the test, `overwrite` would read the same counter behind a write in the array. -/
theorem SendBuffer.counter_untouched (sendBuffer : SendBuffer) (offset : Nat) (bytes : List UInt8)
    (ranged : sendBuffer.usedSize < 2 ^ 32) (inside : offset + bytes.length ≤ maxBufferSize) :
    ofLittleEndian (load (store sendBuffer.object offset bytes) maxBufferSize 4) =
      sendBuffer.usedSize := by
  have counter : load sendBuffer.object maxBufferSize 4 = littleEndian 4 sendBuffer.usedSize := by
    have same := load_store_same sendBuffer.buffer maxBufferSize
      (littleEndian 4 sendBuffer.usedSize)
    rwa [little_endian_length] at same
  rw [load_store_disjoint _ _ _ _ _ (.inr inside), counter, of_little_endian]
  exact Nat.mod_eq_of_lt ranged

/-- A reservation that stays in the array begins at the counter and moves it on. -/
theorem SendBuffer.reserve_inside (sendBuffer : SendBuffer) (size : Nat)
    (inside : sendBuffer.usedSize + size ≤ maxBufferSize) :
    sendBuffer.reserve size = .ok
      ({ buffer := store sendBuffer.buffer sendBuffer.usedSize (List.replicate size 0)
         usedSize := sendBuffer.usedSize + size }, sendBuffer.usedSize) := by
  have accepted : ¬ maxBufferSize < size := by omega
  have exact : (sendBuffer.usedSize + size) % 2 ^ 32 = sendBuffer.usedSize + size :=
    Nat.mod_eq_of_lt (Nat.lt_of_le_of_lt inside (by decide))
  simp only [SendBuffer.reserve, accepted, if_false, sendBuffer.overwrite_inside _ _ _ inside,
    exact]

/-- Who called `Pop`: `_init_tls`, `SendBufferManager::Reserve(size)`, or code that
keeps the buffer in a variable of its own and drops it. -/
inductive Caller where
  | initTls
  | reserve (size : Nat)
  | holder
  deriving DecidableEq, Repr

inductive Phase where
  | idle
  | popping (caller : Caller)
  | creating (caller : Caller)
  | popped (caller : Caller) (sendBuffer : Nat)
  | releasing (caller : Caller) (sendBuffer : Nat)
  | reserving (size : Nat)
  | exiting (sendBuffer : Nat)
  | exited
  deriving DecidableEq, Repr

def Caller.resume : Caller → Phase
  | .initTls => .idle
  | .reserve size => .reserving size
  | .holder => .idle

def Phase.transit : Phase → Option Nat
  | .popped _ sendBuffer => some sendBuffer
  | .releasing _ sendBuffer => some sendBuffer
  | .exiting sendBuffer => some sendBuffer
  | _ => none

/-- An interval `[offset, offset + size)` of a buffer, as `Reserve` returned it. -/
structure Region where
  sendBuffer : Nat
  offset : Nat
  size : Nat
  deriving DecidableEq, Repr

def Region.Before (first second : Region) : Prop :=
  first.sendBuffer = second.sendBuffer → first.offset + first.size ≤ second.offset

def Region.Apart (first second : Region) : Prop :=
  first.sendBuffer = second.sendBuffer →
    first.offset + first.size ≤ second.offset ∨ second.offset + second.size ≤ first.offset

/-- Buffers are numbered in the order of their creation; `regions` records what
`Reserve` has returned so far. -/
structure System (Thread : Type) where
  buffers : Nat → SendBuffer
  created : Nat
  pool : List Nat
  tls : Thread → Option Nat
  phase : Thread → Phase
  regions : List Region
  crash : Option SendError

def Region.bytes {Thread : Type} (region : Region) (system : System Thread) : List UInt8 :=
  load (system.buffers region.sendBuffer).buffer region.offset region.size

def System.start {Thread : Type} : System Thread where
  buffers := fun _ => SendBuffer.construct
  created := 0
  pool := []
  tls := fun _ => none
  phase := fun _ => .idle
  regions := []
  crash := none

inductive Label (Thread : Type) where
  | initTls (thread : Thread)
  | pop (thread : Thread)
  | reserve (thread : Thread) (size : Nat)
  | exit (thread : Thread)
  | advance (thread : Thread)
  | write (region : Region) (bytes : List UInt8)

def Label.thread {Thread : Type} : Label Thread → Option Thread
  | .initTls thread => some thread
  | .pop thread => some thread
  | .reserve thread _ => some thread
  | .exit thread => some thread
  | .advance thread => some thread
  | .write _ _ => none

variable {Thread : Type} [DecidableEq Thread]

def enter (system : System Thread) (thread : Thread) (phase : Phase) : System Thread :=
  { system with phase := Function.update system.phase thread phase }

/-- `TLS_SendBuffer = …`: the new buffer is swapped in, the old one released. -/
def assign (system : System Thread) (thread : Thread) (caller : Caller) (sendBuffer : Nat) :
    System Thread :=
  let next := match system.tls thread with
    | some old => .releasing caller old
    | none => caller.resume
  { enter system thread next with tls := Function.update system.tls thread (some sendBuffer) }

def push (system : System Thread) (thread : Thread) (sendBuffer : Nat) (next : Phase) :
    System Thread :=
  { enter system thread next with pool := system.pool ++ [sendBuffer] }

def reserveFrom (system : System Thread) (thread : Thread) (sendBuffer size : Nat) :
    System Thread :=
  match (system.buffers sendBuffer).reserve size with
  | .error error => { system with crash := some error }
  | .ok (after, offset) =>
      { enter system thread .idle with
        buffers := Function.update system.buffers sendBuffer after
        regions := system.regions ++ [⟨sendBuffer, offset, size⟩] }

def advance (system : System Thread) (thread : Thread) : Option (System Thread) :=
  match system.phase thread with
  | .idle => none
  | .exited => none
  -- The pool is a stack: `back()` and `pop_back()`.
  | .popping caller =>
      match system.pool.getLast? with
      | some sendBuffer => some
          { enter system thread (.popped caller sendBuffer) with pool := system.pool.dropLast }
      | none => some (enter system thread (.creating caller))
  | .creating caller => some
      { enter system thread (.popped caller system.created) with
        buffers := Function.update system.buffers system.created SendBuffer.construct
        created := system.created + 1 }
  | .popped .initTls sendBuffer => some (assign system thread .initTls sendBuffer)
  | .popped (.reserve size) sendBuffer => some (assign system thread (.reserve size) sendBuffer)
  | .popped .holder sendBuffer => some (enter system thread (.releasing .holder sendBuffer))
  | .releasing caller sendBuffer => some (push system thread sendBuffer caller.resume)
  -- No second test of the free size, whichever buffer this is by now.
  | .reserving size =>
      (system.tls thread).map fun sendBuffer => reserveFrom system thread sendBuffer size
  | .exiting sendBuffer => some (push system thread sendBuffer .exited)

/-- A call from `idle`, or the next step of the call in progress. A `write` is the
caller of `Reserve` filling the region it was given. -/
def step : Step (System Thread) (Label Thread) := fun system label =>
  if system.crash.isSome then none
  else match label with
  | .initTls thread =>
      if system.phase thread = .idle then some (enter system thread (.popping .initTls)) else none
  | .pop thread =>
      if system.phase thread = .idle then some (enter system thread (.popping .holder)) else none
  | .reserve thread size =>
      match system.phase thread, system.tls thread with
      | .idle, some sendBuffer => some <| enter system thread <|
          if (system.buffers sendBuffer).freeSize < size then .popping (.reserve size)
            else .reserving size
      | _, _ => none
  | .exit thread =>
      if system.phase thread = .idle then
        some { enter system thread (((system.tls thread).map Phase.exiting).getD .exited) with
               tls := Function.update system.tls thread none }
      else none
  | .advance thread => advance system thread
  | .write region bytes =>
      if region ∈ system.regions ∧ bytes.length ≤ region.size then
        let filled :=
          (system.buffers region.sendBuffer).overwrite region.offset bytes.length bytes
        some { system with buffers := Function.update system.buffers region.sendBuffer filled }
      else none

end NetCore.SendBufferPool
