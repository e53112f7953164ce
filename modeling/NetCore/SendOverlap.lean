import NetCore.SendConservation

/-! Reuse of `_sendEvent`. `_register_send` clears the OVERLAPPED structure, sets its
owner and passes it to `WSASend`; the structure belongs to the kernel from an accepted
call until the completion of that call is dequeued. `_sending` is cleared when the call
has returned, not when it has completed, so the flag keeps two submitters apart and
leaves the completion out. The results need neither a connected session nor calls that
succeed: they hold from the construction of the session on. -/
namespace NetCore.SendOverlap
open TransitionRuns SegmentedReceive SendPipeline SendConservation

variable {Thread : Type}

/-- `WSASend` has taken the OVERLAPPED structure: it returned zero or `WSA_IO_PENDING`,
and either way a completion is queued later. -/
def Submission.accepted (call : Submission) : Bool :=
  match call.result with
  | .failed _ => false
  | _ => true

def acceptedCalls (system : System Thread) : Nat :=
  system.calls.countP Submission.accepted

def outstanding (system : System Thread) : Nat :=
  acceptedCalls system - system.completed

/-- The next step of the thread clears and re-assigns `_sendEvent` or passes it to
`WSASend`. -/
def touchesEvent : Phase → Bool
  | .draining | .submitting => true
  | _ => false

def EventFree (system : System Thread) : Prop :=
  ∀ thread, touchesEvent (system.phase thread) = true → outstanding system = 0

def Delivered : Condition (System Thread) (Label Thread) := fun before label _ =>
  ∀ numberOfBytesSent, label = .complete numberOfBytesSent → before.completed < acceptedCalls before

/-- A `_send` that finds `_sending` clear under its lock finds every earlier accepted call
completed. -/
structure Spaced (before : System Thread) (label : Label Thread) (after : System Thread) :
    Prop where
  delivered : Delivered before label after
  settled : ∀ thread tick result first rest, label = .advance thread tick result →
    before.phase thread = .sendEntry (first :: rest) → before.sending = false →
    outstanding before = 0

def spaced : Condition (System Thread) (Label Thread) := Spaced

def beforeCall : Phase → Bool
  | .registering | .refused | .draining | .submitting => true
  | _ => false

/-- One thread at a time is between the exchange and the store, and until it has made its
call nothing is outstanding. -/
structure Serial (system : System Thread) : Prop where
  busy : ∀ thread, holdsFlag (system.phase thread) = true → system.sending = true
  sole : ∀ first second, holdsFlag (system.phase first) = true →
    holdsFlag (system.phase second) = true → first = second
  free : ∀ thread, beforeCall (system.phase thread) = true → outstanding system = 0

theorem start_serial (tick : UInt64) : Serial (System.start tick : System Thread) where
  busy _ inside := by cases inside
  sole _ _ inside := by cases inside
  free _ inside := by cases inside

theorem before_call_holds (phase : Phase) (early : beforeCall phase = true) :
    holdsFlag phase = true := by
  cases phase <;> simp [beforeCall, holdsFlag] at *

theorem serial_event_free (system : System Thread) (holds : Serial system) : EventFree system := by
  intro thread touching
  apply holds.free thread
  cases stands : system.phase thread <;> simp [stands, touchesEvent, beforeCall] at *

theorem serial_frame (before after : System Thread) (holds : Serial before)
    (phases : after.phase = before.phase) (sending : after.sending = before.sending)
    (fewer : outstanding after ≤ outstanding before) : Serial after where
  busy thread inside := by
    rw [phases] at inside
    rw [sending]
    exact holds.busy thread inside
  sole first second left right := by
    rw [phases] at left right
    exact holds.sole first second left right
  free thread early := by
    rw [phases] at early
    have nothing := holds.free thread early
    omega

variable [DecidableEq Thread]

theorem serial_enter (before after : System Thread) (holds : Serial before) (thread : Thread)
    (phase : Phase) (phases : after.phase = Function.update before.phase thread phase)
    (sending : after.sending = before.sending) (calls : after.calls = before.calls)
    (completed : after.completed = before.completed)
    (inside : holdsFlag phase = true → holdsFlag (before.phase thread) = true)
    (early : beforeCall phase = true → beforeCall (before.phase thread) = true) : Serial after := by
  have flags : ∀ other, holdsFlag (after.phase other) = true →
      holdsFlag (before.phase other) = true := by
    intro other holding
    by_cases mine : other = thread
    · rw [mine]
      rw [phases, mine, Function.update_self] at holding
      exact inside holding
    · rwa [phases, Function.update_of_ne mine] at holding
  have same : outstanding after = outstanding before := by
    unfold outstanding acceptedCalls
    rw [calls, completed]
  constructor
  case busy =>
    intro other holding
    rw [sending]
    exact holds.busy other (flags other holding)
  case sole =>
    intro first second left right
    exact holds.sole first second (flags first left) (flags second right)
  case free =>
    intro other waiting
    rw [same]
    by_cases mine : other = thread
    · rw [phases, mine, Function.update_self] at waiting
      exact holds.free thread (early waiting)
    · rw [phases, Function.update_of_ne mine] at waiting
      exact holds.free other waiting

theorem serial_win (system : System Thread) (holds : Serial system) (thread : Thread)
    (buffers : List Queued) (idle : system.sending = false) (nothing : outstanding system = 0) :
    Serial (sendLocked system thread buffers) := by
  have nobody : ∀ other, holdsFlag (system.phase other) = false := by
    intro other
    by_contra inside
    have busy := holds.busy other (by simpa using inside)
    rw [idle] at busy
    cases busy
  have winner : ∀ other, holdsFlag ((sendLocked system thread buffers).phase other) = true →
      other = thread := by
    intro other inside
    by_contra different
    simp [sendLocked, enter, different, nobody other] at inside
  constructor
  case busy => exact fun _ _ => rfl
  case sole =>
    exact fun first second left right => (winner first left).trans (winner second right).symm
  case free => exact fun _ _ => nothing

theorem serial_past (before after : System Thread) (holds : Serial before) (thread : Thread)
    (phase : Phase) (phases : after.phase = Function.update before.phase thread phase)
    (was : holdsFlag (before.phase thread) = true) (past : beforeCall phase = false)
    (flag : holdsFlag phase = true → after.sending = true) : Serial after := by
  have others : ∀ other, other ≠ thread → holdsFlag (after.phase other) = false := by
    intro other different
    rw [phases, Function.update_of_ne different]
    by_contra inside
    exact different (holds.sole other thread (by simpa using inside) was)
  have own : after.phase thread = phase := by rw [phases, Function.update_self]
  have holder : ∀ other, holdsFlag (after.phase other) = true → other = thread := by
    intro other inside
    by_contra different
    rw [others other different] at inside
    cases inside
  constructor
  case busy =>
    intro other inside
    have mine := holder other inside
    rw [mine, own] at inside
    exact flag inside
  case sole =>
    exact fun first second left right => (holder first left).trans (holder second right).symm
  case free =>
    intro other early
    have mine := holder other (before_call_holds _ early)
    rw [mine, own, past] at early
    cases early

omit [DecidableEq Thread] in
theorem disconnect_by_frame (error : DisconnectError) (system : System Thread) :
    (disconnectBy error system).phase = system.phase ∧
      (disconnectBy error system).sending = system.sending ∧
      (disconnectBy error system).calls = system.calls ∧
      (disconnectBy error system).completed = system.completed := by
  unfold disconnectBy
  split <;> exact ⟨rfl, rfl, rfl, rfl⟩

section Phases
variable (before after : System Thread) (thread : Thread) (tick : UInt64) (result : WsaResult)
  (holds : Serial before) (taken : advance before thread tick result = some after)
include holds taken

theorem send_entry_serial (allowed : Spaced before (.advance thread tick result) after)
    (buffers : List Queued) (stands : before.phase thread = .sendEntry buffers) :
    Serial after := by
  unfold advance at taken
  cases buffers with
  | nil =>
      simp only [stands, Option.some.injEq] at taken
      subst taken
      exact serial_enter before _ holds thread _ rfl rfl rfl rfl (by simp [holdsFlag])
        (by simp [beforeCall])
  | cons first rest =>
      simp only [stands, Option.some.injEq] at taken
      subst taken
      cases busy : before.sending with
      | false =>
          exact serial_win before holds thread _ busy
            (allowed.settled thread tick result first rest rfl stands busy)
      | true =>
          apply serial_enter before _ holds thread .idle
          case phases => simp [sendLocked, enter, busy]
          case sending => exact busy.symm
          case calls => rfl
          case completed => rfl
          case inside => simp [holdsFlag]
          case early => simp [beforeCall]

theorem refused_serial (stands : before.phase thread = .refused) : Serial after := by
  unfold advance at taken
  simp only [stands, Option.some.injEq] at taken
  subst taken
  obtain ⟨phases, sending, calls, completed⟩ :=
    disconnect_by_frame .alreadyDisconnected (enter before thread .idle)
  exact serial_enter before _ holds thread .idle phases sending calls completed
    (by simp [holdsFlag]) (by simp [beforeCall])

end Phases

theorem advance_serial (before after : System Thread) (thread : Thread) (tick : UInt64)
    (result : WsaResult) (holds : Serial before)
    (taken : advance before thread tick result = some after)
    (allowed : Spaced before (.advance thread tick result) after) : Serial after := by
  unfold advance at taken
  cases stands : before.phase thread with
  | idle => simp [stands] at taken
  | flushBytes =>
      simp only [stands, Option.some.injEq] at taken
      subst taken
      split <;>
        exact serial_enter before _ holds thread _ rfl rfl rfl rfl (by simp [holdsFlag])
          (by simp [beforeCall])
  | flushLock =>
      simp only [stands, Option.some.injEq, flushReserved] at taken
      subst taken
      split <;>
        exact serial_enter before _ holds thread _ rfl rfl rfl rfl (by simp [holdsFlag])
          (by simp [beforeCall])
  | sendEntry buffers =>
      exact send_entry_serial before after thread tick result holds taken allowed buffers stands
  | registering =>
      simp only [stands, Option.some.injEq] at taken
      subst taken
      exact serial_enter before _ holds thread _ rfl rfl rfl rfl (by simp [stands, holdsFlag])
        (by simp [stands, beforeCall])
  | refused => exact refused_serial before after thread tick result holds taken stands
  | draining =>
      simp only [stands, Option.some.injEq] at taken
      subst taken
      exact serial_enter before _ holds thread .submitting rfl rfl rfl rfl
        (by simp [stands, holdsFlag])
        (by simp [stands, beforeCall])
  | submitting =>
      simp only [stands, Option.some.injEq] at taken
      subst taken
      have was : holdsFlag (before.phase thread) = true := by rw [stands]; rfl
      exact serial_past before _ holds thread .clearing rfl was rfl fun _ => holds.busy thread was
  | clearing =>
      simp only [stands, Option.some.injEq] at taken
      subst taken
      exact serial_enter before _ holds thread .storing rfl rfl rfl rfl
        (by simp [stands, holdsFlag])
        (by simp [beforeCall])
  | storing =>
      simp only [stands, Option.some.injEq] at taken
      subst taken
      have was : holdsFlag (before.phase thread) = true := by rw [stands]; rfl
      exact serial_past before _ holds thread .idle rfl was rfl (by simp [holdsFlag])

theorem step_serial (before after : System Thread) (label : Label Thread) (holds : Serial before)
    (taken : step before label = some after) (allowed : Spaced before label after) :
    Serial after := by
  cases label with
  | send thread size position =>
      simp only [step, Option.ite_none_right_eq_some, Option.some.injEq] at taken
      obtain ⟨_, rfl⟩ := taken
      exact serial_frame before _ holds rfl rfl (Nat.le_refl _)
  | sendRaw thread size =>
      simp only [step, Option.ite_none_right_eq_some, Option.some.injEq] at taken
      obtain ⟨_, rfl⟩ := taken
      exact serial_frame before _ holds rfl rfl (Nat.le_refl _)
  | flush thread tick =>
      simp only [step, Option.ite_none_right_eq_some, Option.some.injEq] at taken
      obtain ⟨_, rfl⟩ := taken
      split <;>
        exact serial_enter before _ holds thread _ rfl rfl rfl rfl (by simp [holdsFlag])
          (by simp [beforeCall])
  | sendList thread buffers =>
      simp only [step, Option.ite_none_right_eq_some, Option.some.injEq] at taken
      obtain ⟨_, rfl⟩ := taken
      exact serial_enter before _ holds thread _ rfl rfl rfl rfl (by simp [holdsFlag])
        (by simp [beforeCall])
  | advance thread tick result =>
      exact advance_serial before after thread tick result holds taken allowed
  | complete numberOfBytesSent =>
      simp only [step, Option.ite_none_right_eq_some, Option.some.injEq] at taken
      obtain ⟨_, rfl⟩ := taken
      have frame := disconnect_by_frame .sent0 { before with completed := before.completed + 1 }
      apply serial_frame before _ holds
      case phases =>
        split
        case isTrue => exact frame.1
        case isFalse => rfl
      case sending =>
        split
        case isTrue => exact frame.2.1
        case isFalse => rfl
      case fewer =>
        unfold outstanding acceptedCalls
        split
        case isTrue => rw [frame.2.2.1, frame.2.2.2]; simp only; omega
        case isFalse => simp only; omega
  | connect =>
      simp only [step, Option.some.injEq] at taken
      subst taken
      exact serial_frame before _ holds rfl rfl (Nat.le_refl _)
  | disconnect =>
      simp only [step, Option.some.injEq] at taken
      subst taken
      unfold SendPipeline.disconnect
      split <;> exact serial_frame before _ holds rfl rfl (Nat.le_refl _)
  | processDisconnect =>
      simp only [step, Option.some.injEq] at taken
      subst taken
      exact serial_frame before _ holds rfl rfl (Nat.le_refl _)

/-- In every run in which a `_send` that finds the flag clear finds nothing outstanding,
`_sendEvent` is touched only while no call has it. -/
theorem send_event_not_shared (tick : UInt64) (system : System Thread)
    (reached : Reachable step spaced (System.start tick) system) : EventFree system := by
  apply serial_event_free
  apply reachable_invariant step spaced Serial (System.start tick) (start_serial tick)
  case keeps =>
    intro before label after holds taken allowed
    exact step_serial before after label holds taken allowed
  case reached => exact reached

/-! Executable forms of the conditions. -/
section Replay

def deliveredStep (before : System Thread) (label : Label Thread) (_ : System Thread) : Bool :=
  match label with
  | .complete _ => decide (before.completed < acceptedCalls before)
  | _ => true

def settledStep (before : System Thread) : Label Thread → Bool
  | .advance _ _ _ => before.sending || decide (outstanding before = 0)
  | _ => true

def spacedStep (before : System Thread) (label : Label Thread) (after : System Thread) : Bool :=
  deliveredStep before label after && settledStep before label

omit [DecidableEq Thread] in
theorem delivered_step_sound (before : System Thread) (label : Label Thread) (after : System Thread)
    (checked : deliveredStep before label after = true) : Delivered before label after := by
  rintro numberOfBytesSent rfl
  exact of_decide_eq_true checked

omit [DecidableEq Thread] in
theorem spaced_step_sound (before : System Thread) (label : Label Thread) (after : System Thread)
    (checked : spacedStep before label after = true) : spaced before label after := by
  rw [spacedStep, Bool.and_eq_true] at checked
  constructor
  case delivered => exact delivered_step_sound before label after checked.1
  case settled =>
    rintro thread tick result first rest rfl _ idle
    have settled := checked.2
    simpa [settledStep, idle] using settled

end Replay

def pendingSend : List (Label Unit) :=
  [.send () 10 0, .flush () 2000, .advance () 2000 .done, .advance () 0 .done, .advance () 0 .done,
   .advance () 0 .done, .advance () 0 .pending, .advance () 0 .done, .advance () 0 .done]

/-- The second send is about to call `WSASend` after the first has completed. -/
theorem second_send_after_completion : ∃ system : System Unit,
    Reachable step spaced (System.start 0) system ∧ system.phase () = .submitting ∧
    acceptedCalls system = 1 ∧ EventFree system := by
  obtain ⟨system, reached, seen⟩ := replay_reachable step spaced spacedStep spaced_step_sound
    (fun system : System Unit => (system.phase (), acceptedCalls system)) (.submitting, 1)
    (.connect :: pendingSend ++
      [.complete 14, .send () 20 100, .flush () 4000, .advance () 4000 .done, .advance () 0 .done,
       .advance () 0 .done, .advance () 0 .done]) (System.start 0) (by decide)
  rw [Prod.mk.injEq] at seen
  exact ⟨system, reached, seen.1, seen.2, send_event_not_shared 0 system reached⟩

/-- The first `WSASend` pends and `_sending` is clear again, so the next `_send` clears
`_sendEvent` and is about to pass it to `WSASend` while the kernel still has it. -/
theorem send_event_reused : ∃ system : System Unit,
    Reachable step Delivered (System.start 0) system ∧ system.phase () = .submitting ∧
    outstanding system = 1 ∧ ¬ EventFree system := by
  obtain ⟨system, reached, seen⟩ :=
    replay_reachable step Delivered deliveredStep delivered_step_sound
    (fun system : System Unit => (system.phase (), outstanding system)) (.submitting, 1)
    (.connect :: pendingSend ++ [.send () 20 100, .flush () 4000, .advance () 4000 .done,
      .advance () 0 .done, .advance () 0 .done, .advance () 0 .done]) (System.start 0) (by decide)
  rw [Prod.mk.injEq] at seen
  refine ⟨system, reached, seen.1, seen.2, ?_⟩
  intro free
  have nothing := free () (by rw [seen.1]; rfl)
  rw [seen.2] at nothing
  cases nothing

end NetCore.SendOverlap
