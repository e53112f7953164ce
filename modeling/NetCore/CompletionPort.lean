import NetCore.TransitionRuns
import Mathlib.Data.List.Basic

/-! The completion port and the two functions that serve it. The kernel side is a
queue of packets, one for each finished operation. The Win32 calls are described
by what they return: the single call removes the packet of a failed operation
too, fills in its event and byte count and answers FALSE; the batch call lists
failed and successful packets alike. `dispatched` records the calls of
`IOCPObject::Dispatch` in order, `logged` the error codes that were printed. -/
namespace NetCore.CompletionPort
open TransitionRuns

universe u
variable {Event : Type u}

def maxEntryCount : Nat := 10

def waitTimeout : BitVec 32 := 258#32

inductive Status where
  | success
  | failure (errCode : BitVec 32)
  deriving DecidableEq, Repr

structure Packet (Event : Type u) where
  event : Event
  bytes : BitVec 32
  status : Status
  deriving DecidableEq, Repr

def Packet.payload (packet : Packet Event) : Event × BitVec 32 :=
  (packet.event, packet.bytes)

/-- The answer of `GetQueuedCompletionStatus`: TRUE with an entry, or FALSE with
the error code and, when a packet was removed, the entry it carried. -/
inductive Dequeued (Event : Type u) where
  | entry (value : Event × BitVec 32)
  | failed (errCode : BitVec 32) (overlapped : Option (Event × BitVec 32))
  deriving DecidableEq, Repr

def getQueuedCompletionStatus :
    List (Packet Event) → Dequeued Event × List (Packet Event)
  | [] => (.failed waitTimeout none, [])
  | packet :: rest => match packet.status with
      | .success => (.entry packet.payload, rest)
      | .failure errCode => (.failed errCode (some packet.payload), rest)

/-- How many packets a call finds `ready` is up to the kernel: at least one unless
the queue is empty, at most `MAX_ENTRY_COUNT`. -/
def transferred (ready : Nat) : Nat :=
  min (max 1 ready) maxEntryCount

def getQueuedCompletionStatusEx (ready : Nat) (queue : List (Packet Event)) :
    Except (BitVec 32) (List (Event × BitVec 32)) × List (Packet Event) :=
  match queue with
  | [] => (.error waitTimeout, [])
  | _ :: _ => (.ok ((queue.take (transferred ready)).map Packet.payload),
      queue.drop (transferred ready))

structure Port (Event : Type u) where
  queue : List (Packet Event)
  dispatched : List (Event × BitVec 32)
  logged : List (BitVec 32)
  deriving DecidableEq, Repr

def Port.holding (queue : List (Packet Event)) : Port Event where
  queue := queue
  dispatched := []
  logged := []

def dispatch (value : Event × BitVec 32) (port : Port Event) : Port Event :=
  { port with dispatched := port.dispatched ++ [value] }

/-- The `switch` on `GetLastError`, the same in both functions. -/
def dequeueFailed (errCode : BitVec 32) (port : Port Event) : Bool × Port Event :=
  if errCode = waitTimeout then (false, port)
  else (false, { port with logged := port.logged ++ [errCode] })

-- The event and the byte count of a failed packet are in the out-parameters, and
-- the FALSE branch does not look at them.
def processQueuedCompletionStatus (port : Port Event) : Bool × Port Event :=
  match getQueuedCompletionStatus port.queue with
  | (.failed errCode _, rest) => dequeueFailed errCode { port with queue := rest }
  | (.entry value, rest) => (true, dispatch value { port with queue := rest })

def dispatchEntries : List (Event × BitVec 32) → Port Event → Port Event
  | [], port => port
  | entry :: entries, port => dispatchEntries entries (dispatch entry port)

def processQueuedCompletionStatusEx (ready : Nat) (port : Port Event) : Bool × Port Event :=
  match getQueuedCompletionStatusEx ready port.queue with
  | (.error errCode, rest) => dequeueFailed errCode { port with queue := rest }
  | (.ok entries, rest) => (true, dispatchEntries entries { port with queue := rest })

/-! Draining: one of the functions is called again and again until the queue is
empty, whatever it returns. -/
section Draining

def singleCall : Step (Port Event) Unit :=
  fun port _ => some (processQueuedCompletionStatus port).2

def batchCall : Step (Port Event) Nat :=
  fun port ready => some (processQueuedCompletionStatusEx ready port).2

def Drained {Label : Type} (call : Step (Port Event) Label) (queue : List (Packet Event))
    (final : Port Event) : Prop :=
  Reachable call (fun _ _ _ => True) (Port.holding queue) final ∧ final.queue = []

/-- Both ways of draining come to an end and hand the same entries, in the same
order, to `Dispatch`. -/
structure LoopsAgree (queue : List (Packet Event)) : Prop where
  singleEnds : ∃ final, Drained singleCall queue final
  batchEnds : ∃ final, Drained batchCall queue final
  same : ∀ single batch, Drained singleCall queue single → Drained batchCall queue batch →
    single.dispatched = batch.dispatched

end Draining

def Packet.succeeded (packet : Packet Event) : Bool :=
  decide (packet.status = .success)

@[simp] theorem dequeue_failed_queue (errCode : BitVec 32) (port : Port Event) :
    (dequeueFailed errCode port).2.queue = port.queue := by
  unfold dequeueFailed
  split <;> rfl

@[simp] theorem dequeue_failed_dispatched (errCode : BitVec 32) (port : Port Event) :
    (dequeueFailed errCode port).2.dispatched = port.dispatched := by
  unfold dequeueFailed
  split <;> rfl

theorem dispatch_entries_queue (entries : List (Event × BitVec 32)) (port : Port Event) :
    (dispatchEntries entries port).queue = port.queue := by
  induction entries generalizing port with
  | nil => rfl
  | cons entry entries ih => exact ih (dispatch entry port)

theorem dispatch_entries_dispatched (entries : List (Event × BitVec 32)) (port : Port Event) :
    (dispatchEntries entries port).dispatched = port.dispatched ++ entries := by
  induction entries generalizing port with
  | nil => simp [dispatchEntries]
  | cons entry entries ih =>
      simp only [dispatchEntries, ih, dispatch, List.append_assoc, List.singleton_append]

theorem single_call_takes (packet : Packet Event) (rest : List (Packet Event)) (port : Port Event)
    (waiting : port.queue = packet :: rest) :
    (processQueuedCompletionStatus port).2.queue = rest ∧
      (processQueuedCompletionStatus port).2.dispatched =
        port.dispatched ++ if packet.succeeded then [packet.payload] else [] := by
  unfold processQueuedCompletionStatus
  rw [waiting]
  cases status : packet.status with
  | success => simp [getQueuedCompletionStatus, status, dispatch, Packet.succeeded]
  | failure errCode => simp [getQueuedCompletionStatus, status, Packet.succeeded]

theorem single_call_empty (port : Port Event) (idle : port.queue = []) :
    (processQueuedCompletionStatus port).2.queue = [] ∧
      (processQueuedCompletionStatus port).2.dispatched = port.dispatched := by
  unfold processQueuedCompletionStatus
  rw [idle]
  simp [getQueuedCompletionStatus]

theorem batch_call_takes (ready : Nat) (port : Port Event) (waiting : port.queue ≠ []) :
    (processQueuedCompletionStatusEx ready port).2.queue = port.queue.drop (transferred ready) ∧
      (processQueuedCompletionStatusEx ready port).2.dispatched =
        port.dispatched ++ (port.queue.take (transferred ready)).map Packet.payload := by
  unfold processQueuedCompletionStatusEx
  cases queue : port.queue with
  | nil => exact absurd queue waiting
  | cons packet rest =>
      simp [getQueuedCompletionStatusEx, dispatch_entries_queue, dispatch_entries_dispatched]

theorem batch_call_empty (ready : Nat) (port : Port Event) (idle : port.queue = []) :
    (processQueuedCompletionStatusEx ready port).2.queue = [] ∧
      (processQueuedCompletionStatusEx ready port).2.dispatched = port.dispatched := by
  unfold processQueuedCompletionStatusEx
  rw [idle]
  simp [getQueuedCompletionStatusEx]

def singleTotal (port : Port Event) : List (Event × BitVec 32) :=
  port.dispatched ++ (port.queue.filter Packet.succeeded).map Packet.payload

def batchTotal (port : Port Event) : List (Event × BitVec 32) :=
  port.dispatched ++ port.queue.map Packet.payload

theorem single_call_total (port : Port Event) :
    singleTotal (processQueuedCompletionStatus port).2 = singleTotal port := by
  unfold singleTotal
  cases queue : port.queue with
  | nil =>
      obtain ⟨idle, kept⟩ := single_call_empty port queue
      rw [idle, kept]
  | cons packet rest =>
      obtain ⟨left, grown⟩ := single_call_takes packet rest port queue
      rw [left, grown]
      cases outcome : packet.succeeded with
      | true => simp [outcome]
      | false => simp [outcome]

theorem batch_call_total (ready : Nat) (port : Port Event) :
    batchTotal (processQueuedCompletionStatusEx ready port).2 = batchTotal port := by
  unfold batchTotal
  by_cases waiting : port.queue = []
  · obtain ⟨idle, kept⟩ := batch_call_empty ready port waiting
    rw [idle, kept, waiting]
  · obtain ⟨left, grown⟩ := batch_call_takes ready port waiting
    rw [left, grown, List.append_assoc, ← List.map_append, List.take_append_drop]

theorem drained_total {Label : Type} (call : Step (Port Event) Label)
    (total : Port Event → List (Event × BitVec 32))
    (kept : ∀ before label after, call before label = some after → total after = total before)
    (queue : List (Packet Event)) (final : Port Event) (drained : Drained call queue final) :
    total final = total (Port.holding queue) := by
  apply reachable_invariant call (fun _ _ _ => True)
    (fun port => total port = total (Port.holding queue)) (Port.holding queue) rfl
  case reached => exact drained.1
  case keeps =>
    intro before label after holds taken _
    exact (kept before label after taken).trans holds

theorem single_drained_dispatched (queue : List (Packet Event)) (final : Port Event)
    (drained : Drained singleCall queue final) :
    final.dispatched = (queue.filter Packet.succeeded).map Packet.payload := by
  have total := drained_total singleCall singleTotal
    (fun before _ after taken => by
      rw [← Option.some.inj taken]
      exact single_call_total before) queue final drained
  simpa [singleTotal, drained.2, Port.holding] using total

theorem batch_drained_dispatched (queue : List (Packet Event)) (final : Port Event)
    (drained : Drained batchCall queue final) : final.dispatched = queue.map Packet.payload := by
  have total := drained_total batchCall batchTotal
    (fun before ready after taken => by
      rw [← Option.some.inj taken]
      exact batch_call_total ready before) queue final drained
  simpa [batchTotal, drained.2, Port.holding] using total

theorem calls_end {Label : Type} (call : Step (Port Event) Label) (label : Label)
    (shortens : ∀ port, port.queue ≠ [] →
      ∃ after, call port label = some after ∧ after.queue.length < port.queue.length)
    (source : Port Event) :
    ∃ final, Reachable call (fun _ _ _ => True) source final ∧ final.queue = [] := by
  induction size : source.queue.length using Nat.strong_induction_on generalizing source with
  | _ size ih =>
      by_cases waiting : source.queue = []
      · exact ⟨source, .start, waiting⟩
      · obtain ⟨after, taken, shorter⟩ := shortens source waiting
        obtain ⟨final, reached, empty⟩ := ih after.queue.length (by omega) after rfl
        have first : Reachable call (fun _ _ _ => True) source after :=
          .next label .start taken trivial
        exact ⟨final, reachable_trans call _ source after final first reached, empty⟩

theorem single_drains (queue : List (Packet Event)) : ∃ final, Drained singleCall queue final := by
  apply calls_end singleCall ()
  intro port waiting
  obtain ⟨packet, rest, split⟩ := List.exists_cons_of_ne_nil waiting
  have left := (single_call_takes packet rest port split).1
  exact ⟨_, rfl, by rw [left, split, List.length_cons]; omega⟩

theorem batch_drains (queue : List (Packet Event)) : ∃ final, Drained batchCall queue final := by
  apply calls_end batchCall 1
  intro port waiting
  have left := (batch_call_takes 1 port waiting).1
  have positive : 0 < port.queue.length := List.length_pos_of_ne_nil waiting
  have one : transferred 1 = 1 := by decide
  exact ⟨_, rfl, by rw [left, one, List.length_drop]; omega⟩

/-- The two loops agree on a queue exactly when no packet in it reports failure:
the single loop drops such a packet, the batch loop dispatches it. -/
theorem loops_agree_iff_all_succeeded (queue : List (Packet Event)) :
    LoopsAgree queue ↔ ∀ packet ∈ queue, packet.status = .success := by
  have dropped : (queue.filter Packet.succeeded).map Packet.payload = queue.map Packet.payload ↔
      ∀ packet ∈ queue, packet.status = .success := by
    constructor
    · intro same
      have lengths := congrArg List.length same
      simp only [List.length_map] at lengths
      intro packet member
      have succeeded := List.length_filter_eq_length_iff.mp lengths packet member
      exact of_decide_eq_true succeeded
    · intro succeeded
      rw [List.filter_eq_self.mpr]
      intro packet member
      exact decide_eq_true (succeeded packet member)
  constructor
  · intro agree
    obtain ⟨single, singleDrained⟩ := agree.singleEnds
    obtain ⟨batch, batchDrained⟩ := agree.batchEnds
    apply dropped.mp
    rw [← single_drained_dispatched queue single singleDrained,
      ← batch_drained_dispatched queue batch batchDrained]
    exact agree.same single batch singleDrained batchDrained
  · intro succeeded
    constructor
    case singleEnds => exact single_drains queue
    case batchEnds => exact batch_drains queue
    case same =>
      intro single batch singleDrained batchDrained
      rw [single_drained_dispatched queue single singleDrained,
        batch_drained_dispatched queue batch batchDrained]
      exact dropped.mpr succeeded

/-- The packet of a receive that was cut off (`ERROR_NETNAME_DELETED`). -/
def resetReceive : Packet Unit where
  event := ()
  bytes := 0#32
  status := .failure 64#32

/-- The single loop retires the reset receive without a call of `Dispatch`, the
batch loop dispatches it with zero bytes. -/
theorem reset_receive_loops_disagree :
    ¬ LoopsAgree [resetReceive] ∧
      (∃ single, Drained singleCall [resetReceive] single ∧ single.dispatched = []) ∧
      ∃ batch, Drained batchCall [resetReceive] batch ∧ batch.dispatched = [((), 0#32)] := by
  have single : Drained singleCall [resetReceive] ⟨[], [], [64#32]⟩ :=
    ⟨.next () .start rfl trivial, rfl⟩
  have batch : Drained batchCall [resetReceive] ⟨[], [((), 0#32)], []⟩ :=
    ⟨.next 10 .start rfl trivial, rfl⟩
  refine ⟨?_, ⟨_, single, rfl⟩, ⟨_, batch, rfl⟩⟩
  intro agree
  have same := agree.same _ _ single batch
  simp at same

end NetCore.CompletionPort
