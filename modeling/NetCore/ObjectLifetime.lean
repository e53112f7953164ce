import NetCore.ServiceObjects

/-! Whether the owner of a completion is alive. A completion carries a weak pointer, so the
object that owns the operation lives on the references others keep. An operation is begun
and a function of an object called only while the object is referenced; what the code does
not do is to wait with the release of the last reference until the operations are over. -/
namespace NetCore.ObjectLifetime
open TransitionRuns ServiceObjects

variable {Thread : Type}

structure OwnersAlive (system : System Thread) : Prop where
  outstanding : ∀ operation ∈ system.outstanding, Referenced system operation.owner
  dequeued : ∀ thread operation bytes, .dispatch operation bytes ∈ system.todo thread →
    Referenced system operation.owner
  locked : system.nullLocked = false

/-- An operation of the object is not over, or a thread has one of its functions still to
run. -/
def Busy (system : System Thread) (object : Nat) : Prop :=
  (∃ operation ∈ system.outstanding, operation.owner = object) ∨
    ∃ thread, ∃ action ∈ system.todo thread, action.object = some object

/-- The last strong reference to an object is given up only when the object is not busy. -/
def ReleasesIdle : Condition (System Thread) (Label Thread) := fun before _ after =>
  ∀ object, Referenced before object → ¬ Referenced after object → ¬ Busy after object

structure BusyReferenced (system : System Thread) : Prop where
  busy : ∀ object, Busy system object → Referenced system object
  locked : system.nullLocked = false

theorem start_busy_referenced : BusyReferenced (System.start : System Thread) where
  busy object busy := by
    rcases busy with ⟨operation, waits, _⟩ | ⟨thread, action, member, _⟩
    · exact absurd waits (Multiset.notMem_zero operation)
    · exact absurd member List.not_mem_nil
  locked := rfl

theorem busy_referenced_owners (system : System Thread) (kept : BusyReferenced system) :
    OwnersAlive system where
  outstanding operation waits := kept.busy _ (.inl ⟨operation, waits, rfl⟩)
  dequeued thread _ _ member := kept.busy _ (.inr ⟨thread, _, member, rfl⟩)
  locked := kept.locked

theorem busy_referenced_step (before after : System Thread) (label : Label Thread)
    (allowed : ReleasesIdle before label after)
    (grounded : ∀ object, Busy after object → Referenced before object ∨ Referenced after object)
    (locked : after.nullLocked = false) : BusyReferenced after where
  busy object busy := by
    rcases grounded object busy with referenced | referenced
    · by_contra lost
      exact allowed object referenced lost busy
    · exact referenced
  locked := locked

def Grasps (performed : System Thread × List Action) (object : Nat) : Prop :=
  performed.1.listener = some object ∨ performed.1.connector = some object ∨
  object ∈ performed.1.connectors ∨ .drop object ∈ performed.2

/-- What one call of a thread can make busy: the object it runs on, those of the calls the
thread had still to make, and others that are referenced. -/
structure Grounded (before : System Thread) (rest : List Action) (object : Option Nat)
    (performed : System Thread × List Action) : Prop where
  calls : ∀ action ∈ performed.2, ∀ called, action.object = some called →
    action ∈ rest ∨ object = some called ∨ Referenced before called ∨ Grasps performed called
  operations : ∀ operation ∈ performed.1.outstanding,
    operation ∈ before.outstanding ∨ object = some operation.owner
  todo : performed.1.todo = before.todo
  locked : performed.1.nullLocked = before.nullLocked

theorem unwind_subset (rest : List Action) (action : Action) (member : action ∈ unwind rest) :
    action ∈ rest := List.mem_of_mem_filter member

section Calls
variable (config : Config) (system : System Thread) (answer : Bool) (rest : List Action)

theorem service_calls_grounded (call : ServiceCall) (action : Action) (called : Nat)
    (member : action ∈ (performService config system rest call).2)
    (runs : action.object = some called) :
    action ∈ rest ∨ Referenced system called ∨
        Grasps (performService config system rest call) called := by
  cases call with
  | start => grind [performService, Action.object]
  | makeListener =>
      simp only [performService, List.mem_cons] at member
      rcases member with rfl | rfl | member
      · cases runs
        exact .inr (.inr (.inl rfl))
      · cases runs
      · exact .inl member
  | makeConnector =>
      simp only [performService, List.mem_cons] at member
      rcases member with rfl | rfl | member
      · cases runs
        exact .inr (.inr (.inr (.inl rfl)))
      · cases runs
      · exact .inl member
  | makeConnectors remaining =>
      cases remaining with
      | zero => grind [performService, Action.object]
      | succ remaining =>
          simp only [performService, List.mem_cons] at member
          rcases member with rfl | rfl | rfl | member
          · cases runs
            refine .inr (.inr (.inr (.inr (.inl ?_))))
            simp [performService]
          · cases runs
          · cases runs
          · exact .inl member
  | disconnectSessions =>
      -- The sessions are called through the container.
      simp only [performService, List.mem_append, List.mem_map] at member
      rcases member with ⟨session, contained, rfl⟩ | member
      · cases runs
        exact .inr (.inl (.inl (.inr (.inr (.inr (.inr (.inl contained)))))))
      · exact .inl member
  | releaseConnectors => grind [performService, Action.object]
  | releaseSessions => grind [performService, Action.object]
  | setOnGoing value => exact .inl member
  | releaseListener => exact .inl member
  | releaseConnector => exact .inl member

theorem service_grounded (call : ServiceCall) :
    Grounded system rest none (performService config system rest call) := by
  have same : (performService config system rest call).1.outstanding = system.outstanding ∧
      (performService config system rest call).1.todo = system.todo ∧
      (performService config system rest call).1.nullLocked = system.nullLocked := by
    fun_cases performService <;> exact ⟨rfl, rfl, rfl⟩
  constructor
  case calls =>
    intro action member called runs
    rcases service_calls_grounded config system rest call action called member runs with own | other
    · exact .inl own
    · exact .inr (.inr other)
  case operations =>
    intro operation waits
    rw [same.1] at waits
    exact .inl waits
  case todo => exact same.2.1
  case locked => exact same.2.2

theorem add_new_session_same : (addNewSession config system).outstanding = system.outstanding ∧
    (addNewSession config system).todo = system.todo ∧
    (addNewSession config system).nullLocked = system.nullLocked := by
  unfold addNewSession
  split <;> exact ⟨rfl, rfl, rfl⟩

theorem session_grounded (session : Nat) (call : SessionCall) :
    Grounded system rest (some session)
        (performSession config system answer rest session call) := by
  constructor
  case calls =>
    intro action member called runs
    cases call <;> grind [performSession, Action.object]
  case operations =>
    intro operation waits
    cases call <;> grind [performSession, submit, releaseSession, Operation.owner]
  case todo => cases call <;> grind [performSession, submit, releaseSession]
  case locked => cases call <;> grind [performSession, submit, releaseSession]

theorem listener_grounded (listener : Nat) (call : ListenerCall) :
    Grounded system rest (some listener)
        (performListener config system answer rest listener call) := by
  have added := add_new_session_same config system
  constructor
  case calls =>
    intro action member called runs
    cases call with
    | processAccept index =>
        simp only [performListener] at member ⊢
        cases found : system.acceptEvents.find? fun event => event.listener = listener ∧
          event.index = index with
        | none => grind
        | some event => grind [Action.object, Grasps]
    | startListen =>
        simp only [performListener] at member
        split at member
        case isTrue =>
          simp only [List.mem_append, List.mem_map] at member
          rcases member with ⟨index, _, rfl⟩ | member
          · exact .inr (.inl runs)
          · exact .inl member
        case isFalse => exact .inl (unwind_subset rest action member)
    | registerAccept index => grind [performListener, Action.object]
    | setSessionRef index session => exact .inl member
    | acceptEx index => grind [performListener, Action.object]
  case operations =>
    intro operation waits
    cases call <;> grind [performListener, Operation.owner]
  case todo => cases call <;> grind [performListener]
  case locked => cases call <;> grind [performListener]

theorem connector_grounded [Fintype Thread] (connector : Nat) (call : ConnectorCall) :
    Grounded system rest (some connector)
        (performConnector config system answer rest connector call) := by
  have added := add_new_session_same config system
  constructor
  case calls =>
    intro action member called runs
    cases call with
    | connect =>
        simp only [performConnector] at member
        split at member
        case isTrue => exact .inl member
        case isFalse => exact .inl (unwind_subset rest action member)
    | dispatch => grind [performConnector, Action.object]
    | processConnect session => grind [performConnector, Action.object, Grasps]
  case operations =>
    intro operation waits
    cases call <;> grind [performConnector, Operation.owner]
  case todo => cases call <;> grind [performConnector]
  case locked => cases call <;> grind [performConnector]

theorem dispatch_grounded [Fintype Thread] (operation : Operation) (bytes : Nat)
    (alive : Referenced system operation.owner) :
    Grounded system rest (some operation.owner)
      (perform config system answer rest (.dispatch operation bytes)) := by
  simp only [perform, alive, if_true]
  constructor
  case calls =>
    intro action member called runs
    simp only [List.mem_cons] at member
    rcases member with rfl | rfl | member
    · right
      left
      rw [← runs]
      cases operation <;> rfl
    · cases runs
    · exact .inl member
  case operations => exact fun operation waits => .inl waits
  case todo => rfl
  case locked => rfl

theorem perform_grounded [Fintype Thread] (action : Action)
    (alive : ∀ operation bytes, action = .dispatch operation bytes →
      Referenced system operation.owner) :
    Grounded system rest action.object (perform config system answer rest action) := by
  cases action with
  | service call => exact service_grounded config system rest call
  | listener object call => exact listener_grounded config system answer rest object call
  | connector object call => exact connector_grounded config system answer rest object call
  | session object call => exact session_grounded config system answer rest object call
  | dispatch operation bytes =>
      exact dispatch_grounded config system answer rest operation bytes (alive operation bytes rfl)
  | drop object =>
      exact ⟨fun action member _ _ => .inl member, fun operation waits => .inl waits, rfl, rfl⟩

end Calls

variable [DecidableEq Thread]

theorem grasps_referenced (thread : Thread) (performed : System Thread × List Action) (object : Nat)
    (grasps : Grasps performed object) :
    Referenced (give performed.1 thread performed.2) object := by
  left
  rcases grasps with listener | connector | connectors | dropped
  · exact .inl listener
  · exact .inr (.inl connector)
  · exact .inr (.inr (.inl connectors))
  · refine .inr (.inr (.inr (.inr (.inr ⟨thread, ?_⟩))))
    simpa [give] using dropped

theorem advance_grounded (before : System Thread) (kept : BusyReferenced before) (thread : Thread)
    (action : Action) (rest : List Action) (stands : before.todo thread = action :: rest)
    (performed : System Thread × List Action)
    (grounded : Grounded before rest action.object performed) (object : Nat)
    (busy : Busy (give performed.1 thread performed.2) object) :
    Referenced before object ∨ Referenced (give performed.1 thread performed.2) object := by
  have runs : ∀ called, action.object = some called → Referenced before called := by
    intro called own
    exact kept.busy called (.inr ⟨thread, action, by simp [stands], own⟩)
  rcases busy with ⟨operation, waits, rfl⟩ | ⟨other, call, member, called⟩
  · left
    rcases grounded.operations operation waits with old | own
    · exact kept.busy _ (.inl ⟨operation, old, rfl⟩)
    · exact runs _ own
  · by_cases mine : other = thread
    · simp only [give, mine, Function.update_self] at member
      rcases grounded.calls call member object called with old | own | referenced | grasps
      · exact .inl (kept.busy object (.inr ⟨thread, call, by simp [stands, old], called⟩))
      · exact .inl (runs object own)
      · exact .inl referenced
      · exact .inr (grasps_referenced thread performed object grasps)
    · simp only [give, Function.update_of_ne mine, grounded.todo] at member
      exact .inl (kept.busy object (.inr ⟨other, call, member, called⟩))

theorem begin_grounded (before : System Thread) (kept : BusyReferenced before) (thread : Thread)
    (actions : List Action) (outstanding : Multiset Operation)
    (old : ∀ operation ∈ outstanding, operation ∈ before.outstanding)
    (calls : ∀ action ∈ actions, ∀ called, action.object = some called → Referenced before called)
    (object : Nat)
    (busy : Busy { give before thread actions with outstanding := outstanding } object) :
    Referenced before object := by
  rcases busy with ⟨operation, waits, rfl⟩ | ⟨other, call, member, called⟩
  · exact kept.busy _ (.inl ⟨operation, old operation waits, rfl⟩)
  · by_cases mine : other = thread
    · simp only [give, mine, Function.update_self] at member
      exact calls call member object called
    · simp only [give, Function.update_of_ne mine] at member
      exact kept.busy object (.inr ⟨other, call, member, called⟩)

variable [Fintype Thread]

theorem step_busy_referenced (config : Config) (before after : System Thread) (label : Label Thread)
    (kept : BusyReferenced before) (taken : step config before label = some after)
    (allowed : ReleasesIdle before label after) : BusyReferenced after := by
  unfold step at taken
  split at taken
  case isTrue => simp at taken
  case isFalse =>
    cases label with
    | start thread =>
        simp only [Option.ite_none_right_eq_some, Option.some.injEq] at taken
        obtain ⟨_, rfl⟩ := taken
        refine busy_referenced_step before _ _ allowed (fun object busy => .inl ?_) kept.locked
        refine begin_grounded before kept thread [.service .start] _
          (fun _ waits => waits) ?_ object busy
        intro action member called runs
        rw [List.mem_singleton.mp member] at runs
        cases runs
    | stop thread =>
        simp only [Option.ite_none_right_eq_some, Option.some.injEq] at taken
        obtain ⟨_, rfl⟩ := taken
        refine busy_referenced_step before _ _ allowed (fun object busy => .inl ?_) kept.locked
        refine begin_grounded before kept thread (stopCalls config.kind) _
          (fun _ waits => waits) ?_ object busy
        intro action member called runs
        -- `Stop` begins with the service alone.
        cases kind : config.kind <;> simp only [kind, stopCalls, List.mem_cons, List.not_mem_nil,
          or_false] at member <;> rcases member with rfl | rfl | rfl | rfl <;> cases runs
    | send thread session | disconnect thread session =>
        simp only [Option.ite_none_right_eq_some, Option.some.injEq] at taken
        obtain ⟨⟨_, referenced⟩, rfl⟩ := taken
        refine busy_referenced_step before _ _ allowed (fun object busy => .inl ?_) kept.locked
        refine begin_grounded before kept thread [_] _ (fun _ waits => waits) ?_ object busy
        intro action member called runs
        rw [List.mem_singleton.mp member] at runs
        cases runs
        exact referenced
    | dequeue thread entries =>
        simp only [Option.ite_none_right_eq_some, Option.some.injEq] at taken
        obtain ⟨⟨_, _, waiting⟩, rfl⟩ := taken
        refine busy_referenced_step before _ _ allowed (fun object busy => .inl ?_) kept.locked
        refine begin_grounded before kept thread _ _ ?_ ?_ object busy
        · exact fun operation waits => Multiset.mem_of_le (Multiset.sub_le_self _ _) waits
        · intro action member called runs
          obtain ⟨entry, listed, rfl⟩ := List.mem_map.mp member
          cases runs
          have waits : entry.1 ∈ before.outstanding :=
            Multiset.mem_of_le waiting (List.mem_map_of_mem listed)
          exact kept.busy _ (.inl ⟨entry.1, waits, rfl⟩)
    | discard operation =>
        simp only [Option.ite_none_right_eq_some, Option.some.injEq] at taken
        obtain ⟨_, rfl⟩ := taken
        refine busy_referenced_step before _ _ allowed (fun object busy =>
          .inl (kept.busy object ?_)) kept.locked
        rcases busy with ⟨other, waits, owner⟩ | calls
        · exact .inl ⟨other, Multiset.mem_of_mem_erase waits, owner⟩
        · exact .inr calls
    | advance thread answer =>
        cases stands : before.todo thread with
        | nil => simp [stands] at taken
        | cons action rest =>
            simp only [stands, Option.some.injEq] at taken
            subst taken
            have grounded :=
              perform_grounded config before answer rest action fun operation bytes same =>
                kept.busy _ (.inr ⟨thread, action, by simp [stands], by rw [same]; rfl⟩)
            refine busy_referenced_step before _ _ allowed ?_ (grounded.locked.trans kept.locked)
            exact fun object busy =>
              advance_grounded before kept thread action rest stands _ grounded object busy

/-- In every run in which an object that has operations or calls left does not lose its last
strong reference, the owner of every completion that can be dequeued is strongly referenced. -/
theorem completion_owner_alive (config : Config) (system : System Thread)
    (reached : Reachable (step config) ReleasesIdle System.start system) : OwnersAlive system := by
  have kept : BusyReferenced system := by
    apply reachable_invariant (step config) ReleasesIdle BusyReferenced System.start
    case holds => exact start_busy_referenced
    case keeps =>
      intro before label after kept taken allowed
      exact step_busy_referenced config before after label kept taken allowed
    case reached => exact reached
  exact busy_referenced_owners system kept

def releasesIdleStep (before : System Thread) (_ : Label Thread) (after : System Thread) : Bool :=
  decide ((∀ operation ∈ after.outstanding, Referenced before operation.owner →
      Referenced after operation.owner) ∧
    ∀ thread, ∀ action ∈ after.todo thread, ∀ object ∈ action.object, Referenced before object →
      Referenced after object)

omit [DecidableEq Thread] in
theorem releases_idle_step_sound (before : System Thread) (label : Label Thread)
    (after : System Thread) (checked : releasesIdleStep before label after = true) :
    ReleasesIdle before label after := by
  obtain ⟨operations, calls⟩ := of_decide_eq_true checked
  intro object referenced lost busy
  rcases busy with ⟨operation, waits, rfl⟩ | ⟨thread, action, member, runs⟩
  · exact lost (operations operation waits referenced)
  · exact lost (calls thread action member object runs referenced)

def singleClient : Config := ⟨.client, 1, true⟩

def runs (count : Nat) : List (Label Unit) := List.replicate count (.advance () true)

/-- The client connects: object 0 is the connector, object 1 the session, and a receive of
the session is outstanding. -/
def connects : List (Label Unit) := .start () :: runs 4 ++ .dequeue () [(.connect 0, 0)] :: runs 8

/-- A message has been received and the session listens again. -/
theorem owner_alive_after_message : ∃ system : System Unit,
    Reachable (step singleClient) ReleasesIdle System.start system ∧
    system.outstanding = {.recv 1} ∧
    OwnersAlive system := by
  obtain ⟨system, reached, seen⟩ :=
    replay_reachable (step singleClient) ReleasesIdle releasesIdleStep
    releases_idle_step_sound (fun system : System Unit => system.outstanding) {.recv 1}
    (connects ++ .dequeue () [(.recv 1, 10)] :: runs 6) System.start (by decide +kernel)
  exact ⟨system, reached, seen, completion_owner_alive singleClient system reached⟩

def stopsWhileListening : List (Label Unit) :=
  connects ++ .stop () :: runs 3 ++ .dequeue () [(.recv 1, 0)] :: runs 1

/-- The completion of `DisconnectEx` is dequeued before that of the receive it aborts. -/
def disconnectsBeforeReceive : List (Label Unit) :=
  connects ++ .disconnect () 1 :: runs 2 ++ .dequeue () [(.disconnect 1, 0)] :: runs 5 ++
    .dequeue () [(.recv 1, 0)] :: runs 1

/-- After `Stop`, and after a `Disconnect()`, the receive's completion is dispatched through
a null pointer. -/
theorem completion_of_released_session :
    (replay (step singleClient) (fun _ _ _ => true) System.start stopsWhileListening).map
      System.nullLocked = some true ∧
    (replay (step singleClient) (fun _ _ _ => true) System.start disconnectsBeforeReceive).map
      System.nullLocked = some true ∧
    ∃ system : System Unit, Reachable (step singleClient) (fun _ _ _ => True) System.start system ∧
      system.nullLocked = true ∧ ¬ OwnersAlive system := by
  have stopped :
      (replay (step singleClient) (fun _ _ _ => true) System.start stopsWhileListening).map
      System.nullLocked = some true := by decide +kernel
  have disconnected : (replay (step singleClient) (fun _ _ _ => true) System.start
      disconnectsBeforeReceive).map System.nullLocked = some true := by decide +kernel
  obtain ⟨system, reached, seen⟩ := replay_reachable (step singleClient) (fun _ _ _ => True)
    (fun _ _ _ => true)
    (fun _ _ _ _ => trivial) System.nullLocked true stopsWhileListening System.start stopped
  refine ⟨stopped, disconnected, system, reached, seen, ?_⟩
  intro alive
  rw [alive.locked] at seen
  cases seen

end NetCore.ObjectLifetime
