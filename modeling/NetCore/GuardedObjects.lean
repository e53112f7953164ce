import NetCore.HeldGuards
import NetCore.Linearizations

/-! Objects whose member functions work under the guards of Lock.h. A member function constructs
its guard first, works on the members and constructs guards of the same lock on the way, and its
last guard is destroyed when it has what it returns. Every access of the members is a step, as is
every step inside the lock, and threads interleave between any two of them; an access that the
standard leaves undefined is no step. What a code has to satisfy speaks about one function running
alone; from it follows that every concurrent history of the object is linearizable, each operation
taking effect when its thread ceases to hold the lock, and that no access is undefined. -/
namespace NetCore.GuardedObjects
open TransitionRuns ReaderWriterLock LockExclusion GuardNesting HeldGuards Linearizations

inductive Instruction (Data Local Result : Type*) where
  | access (run : Data → Option (Local × Data))
  | construct (guard : Guard) (next : Local)
  | destroy (next : Local)
  | finish (result : Result)

structure Code (Data Op Local Result : Type*) where
  initial : Data
  offers : Op → Bool
  guard : Op → Guard
  first : Op → Local
  instruction : Local → Instruction Data Local Result

/-- A member function before the constructor of its guard, inside, and from the call in the
destructor of its guard on. -/
inductive Place (Local Result : Type*) where
  | entry
  | body (state : Local)
  | exit (result : Result)

structure Call (Op Local Result : Type*) where
  id : Nat
  op : Op
  place : Place Local Result

structure System (Thread : Type) (Data Op Local Result : Type*) where
  locking : GuardNesting.System Thread
  data : Data
  task : Thread → Option (Call Op Local Result)
  calls : Nat
  history : List (Event Op Result)

inductive Label (Thread : Type) (Op : Type*) where
  | call (thread : Thread) (op : Op)
  | advance (thread : Thread) (tick : Nat)

section Objects
variable {Thread : Type} {Data Op Local Result : Type*} [DecidableEq Thread]
variable (code : Code Data Op Local Result)

def System.start : System Thread Data Op Local Result where
  locking := GuardNesting.System.start
  data := code.initial
  task := fun _ => none
  calls := 0
  history := []

def goTo (system : System Thread Data Op Local Result) (thread : Thread)
    (call : Call Op Local Result) (place : Place Local Result)
    (locking : GuardNesting.System Thread) : System Thread Data Op Local Result :=
  { system with
    locking := locking
    task := Function.update system.task thread (some { call with place := place }) }

def execute (tlsId : Thread → BitVec 32) (system : System Thread Data Op Local Result)
    (thread : Thread) (call : Call Op Local Result) : Option (System Thread Data Op Local Result) :=
  match call.place with
  | .entry =>
      (GuardNesting.step tlsId system.locking (.construct thread (code.guard call.op))).map
        (goTo system thread call (.body (code.first call.op)))
  | .body state =>
      match code.instruction state with
      | .access run => (run system.data).map fun found =>
          { goTo system thread call (.body found.1) system.locking with data := found.2 }
      | .construct guard next =>
          (GuardNesting.step tlsId system.locking (.construct thread guard)).map
            (goTo system thread call (.body next))
      | .destroy next =>
          (GuardNesting.step tlsId system.locking (.destroy thread)).map
            (goTo system thread call (.body next))
      | .finish result =>
          (GuardNesting.step tlsId system.locking (.destroy thread)).map
            (goTo system thread call (.exit result))
  | .exit result =>
      some { system with
        task := Function.update system.task thread none
        history := system.history ++ [.answer call.id result] }

def step (tlsId : Thread → BitVec 32) :
    Step (System Thread Data Op Local Result) (Label Thread Op) := fun system label =>
  -- A failed assertion ends the process: nobody moves any more.
  if system.locking.shared.crash.isSome then none
  else match label with
  | .call thread op =>
      match system.task thread with
      | some _ => none
      | none =>
          if code.offers op then
            some { system with
              task :=
                Function.update system.task thread
                  (some { id := system.calls, op := op, place := .entry })
              calls := system.calls + 1
              history := system.history ++ [.call system.calls op] }
          else none
  | .advance thread tick =>
      match system.task thread with
      | none => none
      | some call =>
          if system.locking.shared.point thread = .outside then
            execute code tlsId system thread call
          else (GuardNesting.step tlsId system.locking (.advance thread tick)).map fun locking =>
            { system with locking := locking }

theorem execute_calls (tlsId : Thread → BitVec 32)
    (before after : System Thread Data Op Local Result) (thread : Thread)
    (call : Call Op Local Result) (taken : execute code tlsId before thread call = some after)
    (id : Nat) (op : Op) :
    .call id op ∈ after.history ↔ .call id op ∈ before.history := by
  obtain ⟨number, running, place⟩ := call
  cases place with
  | entry =>
      obtain ⟨locking, _, rfl⟩ := Option.map_eq_some_iff.mp taken
      rfl
  | body state =>
      simp only [execute] at taken
      cases next : code.instruction state <;> simp only [next] at taken <;>
        obtain ⟨found, _, rfl⟩ := Option.map_eq_some_iff.mp taken <;> rfl
  | exit result =>
      simp only [execute, Option.some.injEq] at taken
      subst after
      simp

theorem called_offered (tlsId : Thread → BitVec 32) (system : System Thread Data Op Local Result)
    (reached : Reachable (step code tlsId) (fun _ _ _ => True) (System.start code) system)
    (id : Nat) (op : Op) (called : .call id op ∈ system.history) : code.offers op = true := by
  induction reached with
  | start => cases called
  | @next before after label _ taken _ ih =>
      unfold step at taken
      split at taken
      · cases taken
      cases label with
      | call thread asked =>
          cases idle : before.task thread with
          | some call => simp [idle] at taken
          | none =>
              simp only [idle, Option.ite_none_right_eq_some, Option.some.injEq] at taken
              obtain ⟨offered, rfl⟩ := taken
              rcases List.mem_append.mp called with old | new
              · exact ih old
              · cases List.mem_singleton.mp new
                exact offered
      | advance thread tick =>
          cases running : before.task thread with
          | none => simp [running] at taken
          | some call =>
              simp only [running] at taken
              split at taken
              case isTrue =>
                exact ih ((execute_calls code tlsId before after thread call taken id op).mp called)
              case isFalse =>
                obtain ⟨locking, _, rfl⟩ := Option.map_eq_some_iff.mp taken
                exact ih called

def Accessing (system : System Thread Data Op Local Result) (thread : Thread) (state : Local)
    (run : Data → Option (Local × Data)) : Prop :=
  ∃ call, system.task thread = some call ∧ call.place = .body state ∧
    system.locking.shared.point thread = .outside ∧ code.instruction state = .access run

/-- What the code of one function running alone has to satisfy: `outcome` is what it will still
answer and leave behind, `ready` what it has learnt of the data, `guards` the guards it has. An
access that writes is made under a write guard, and a write guard is constructed over write guards
only. -/
structure Implements (apply : Op → Data → Result × Data) (outcome : Local → Data → Result × Data)
    (ready : Local → Data → Prop) (guards : Local → List Guard) : Prop where
  first : ∀ op data, outcome (code.first op) data = apply op data ∧ ready (code.first op) data
  firstGuards : ∀ op, guards (code.first op) = [code.guard op]
  access : ∀ state run, code.instruction state = .access run → ∀ data, ready state data →
    ∃ next after, run data = some (next, after) ∧ outcome next after = outcome state data ∧
      ready next after ∧ guards next = guards state ∧ (.write ∉ guards state → after = data)
  construct : ∀ state guard next, code.instruction state = .construct guard next →
    outcome next = outcome state ∧ ready next = ready state ∧ guards next = guard :: guards state ∧
      (guard = .write → .read ∉ guards state)
  destroy : ∀ state next, code.instruction state = .destroy next →
    outcome next = outcome state ∧ ready next = ready state ∧ ∃ guard,
    guards state = guard :: guards next
  finish : ∀ state result, code.instruction state = .finish result →
    (∀ data, outcome state data = (result, data)) ∧ ∃ guard, guards state = [guard]
  inside : ∀ state, guards state ≠ []
  few : ∀ state, (guards state).count .write < 65536 ∧ (guards state).count .read ≤ 1

def meaning (apply : Op → Data → Result × Data) : Object Data Op Result where
  initial := code.initial
  apply := apply

variable (apply : Op → Data → Result × Data) (outcome : Local → Data → Result × Data)
  (ready : Local → Data → Prop) (guards : Local → List Guard)

def current (log : List (Entry Op Result)) : Data := runFrom (meaning code apply) code.initial log

def guardsAt : Option (Call Op Local Result) → List Guard
  | none => []
  | some call =>
      match call.place with
      | .entry => []
      | .body state => guards state
      | .exit _ => []

/-- How far the operation of a thread is. It takes effect when its thread ceases to hold the
lock. -/
def Stage (log : List (Entry Op Result)) (data : Data) (holding : Prop) (point : Point) :
    Option (Call Op Local Result) → Prop
  | none => point = .outside ∧ ¬ holding
  | some call =>
      match call.place with
      | .entry => point = .outside ∧ ¬ holding ∧ call.id ∉ ids log
      | .body state =>
          call.id ∉ ids log ∧
            (holding → outcome state data = apply call.op (current code apply log) ∧
              ready state data) ∧
            (¬ holding → state = code.first call.op)
      | .exit result =>
          (holding → call.id ∉ ids log ∧ (result, data) = apply call.op (current code apply log)) ∧
            (¬ holding → point = .outside ∧ ∃ entry ∈ log, entry.id = call.id ∧
              entry.result = result)

structure Numbered (task : Thread → Option (Call Op Local Result)) (calls : Nat)
    (history : List (Event Op Result)) : Prop where
  called : ∀ thread call, task thread = some call → call.id < calls ∧
    .call call.id call.op ∈ history
  apart : ∀ first second call other, task first = some call → task second = some other →
    call.id = other.id → first = second

structure Coupled (system : System Thread Data Op Local Result) (log : List (Entry Op Result)) :
    Prop where
  logged : ∀ id ∈ ids log, id < system.calls
  settled : (∀ thread, system.locking.shared.depth thread = 0) →
    system.data = current code apply log
  stages : ∀ thread, Stage code apply outcome ready log system.data
    (Holding system.locking.shared thread) (system.locking.shared.point thread) (system.task thread)

structure Invariant [Fintype Thread] (tlsId : Thread → BitVec 32)
    (system : System Thread Data Op Local Result) :
    Prop where
  locked : Locked tlsId system.locking
  guarded : ∀ thread, system.locking.guards thread = guardsAt guards (system.task thread)
  numbered : Numbered system.task system.calls system.history
  linear : ∃ log, Linearization (meaning code apply) system.history log ∧
    (system.locking.shared.crash = none → Coupled code apply outcome ready system log)

section Parts
variable (log : List (Entry Op Result)) (data : Data) (holding : Prop) (point : Point)
  (task : Option (Call Op Local Result))

omit [DecidableEq Thread] in
theorem current_append (entry : Entry Op Result) :
    current code apply (log ++ [entry]) = (apply entry.op (current code apply log)).2 := by
  unfold current
  rw [run_append]
  rfl

omit [DecidableEq Thread] in
theorem stage_data (other : Data) (released : ¬ holding)
    (stage : Stage code apply outcome ready log data holding point task) :
    Stage code apply outcome ready log other holding point task := by
  cases task with
  | none => exact stage
  | some call =>
      obtain ⟨id, op, place⟩ := call
      cases place with
      | entry => exact stage
      | body state => exact ⟨stage.1, fun holds => absurd holds released, stage.2.2⟩
      | exit result => exact ⟨fun holds => absurd holds released, stage.2⟩

omit [DecidableEq Thread] in
/-- Another operation takes effect. A thread that holds the lock meanwhile only reads. -/
theorem stage_logged (entry : Entry Op Result)
    (other : ∀ call, task = some call → call.id ≠ entry.id)
    (same : holding → current code apply (log ++ [entry]) = current code apply log)
    (stage : Stage code apply outcome ready log data holding point task) :
    Stage code apply outcome ready (log ++ [entry]) data holding point task := by
  have unlogged : ∀ call, task = some call → call.id ∉ ids log →
      call.id ∉ ids (log ++ [entry]) := by
    intro call mine fresh member
    rw [ids_append, ids_singleton] at member
    rcases List.mem_append.mp member with old | new
    · exact fresh old
    · exact other call mine (List.mem_singleton.mp new)
  cases task with
  | none => exact stage
  | some call =>
      have fresh := unlogged call rfl
      obtain ⟨id, op, place⟩ := call
      cases place with
      | entry => exact ⟨stage.1, stage.2.1, fresh stage.2.2⟩
      | body state =>
          refine ⟨fresh stage.1, fun holds => ?_, stage.2.2⟩
          rw [same holds]
          exact stage.2.1 holds
      | exit result =>
          refine ⟨fun holds => ⟨fresh (stage.1 holds).1, ?_⟩,
            fun released => ⟨(stage.2 released).1, ?_⟩⟩
          · rw [same holds]
            exact (stage.1 holds).2
          · obtain ⟨done, member, answers⟩ := (stage.2 released).2
            exact ⟨done, List.mem_append_left _ member, answers⟩

theorem numbered_goTo (system : System Thread Data Op Local Result) (thread : Thread)
    (call : Call Op Local Result) (place : Place Local Result)
    (holds : Numbered system.task system.calls system.history)
    (running : system.task thread = some call) :
    Numbered (Function.update system.task thread (some { call with place := place })) system.calls
      system.history := by
  have origin : ∀ other found,
      Function.update system.task thread (some { call with place := place }) other =
      some found → ∃ old, system.task other = some old ∧ old.id = found.id ∧ old.op = found.op := by
    intro other found listed
    by_cases mine : other = thread
    · subst other
      rw [Function.update_self, Option.some.injEq] at listed
      exact ⟨call, running, by rw [← listed], by rw [← listed]⟩
    · rw [Function.update_of_ne mine] at listed
      exact ⟨found, listed, rfl, rfl⟩
  constructor
  · intro other found listed
    obtain ⟨old, before, sameId, sameOp⟩ := origin other found listed
    rw [← sameId, ← sameOp]
    exact holds.called other old before
  · intro first second found another firstListed secondListed same
    obtain ⟨old, before, sameId, _⟩ := origin first found firstListed
    obtain ⟨older, beforehand, otherId, _⟩ := origin second another secondListed
    exact holds.apart first second old older before beforehand (by rw [sameId, otherId, same])

section Calls
variable (running : Thread → Option (Call Op Local Result)) (calls : Nat)
  (history : List (Event Op Result)) (holds : Numbered running calls history) (thread : Thread)
include holds

theorem numbered_called (op : Op) :
    Numbered (Function.update running thread (some { id := calls, op := op, place := .entry }))
      (calls + 1)
      (history ++ [.call calls op]) where
  called other call listed := by
    by_cases mine : other = thread
    · subst other
      rw [Function.update_self, Option.some.injEq] at listed
      subst call
      exact ⟨Nat.lt_succ_self _, List.mem_append_right _ List.mem_cons_self⟩
    · rw [Function.update_of_ne mine] at listed
      obtain ⟨below, called⟩ := holds.called other call listed
      exact ⟨Nat.lt_succ_of_lt below, List.mem_append_left _ called⟩
  apart first second call other firstListed secondListed same := by
    by_cases firstMine : first = thread
    · by_cases secondMine : second = thread
      · rw [firstMine, secondMine]
      · subst first
        rw [Function.update_self, Option.some.injEq] at firstListed
        rw [Function.update_of_ne secondMine] at secondListed
        subst call
        exact absurd same (Nat.ne_of_gt (holds.called second other secondListed).1)
    · rw [Function.update_of_ne firstMine] at firstListed
      by_cases secondMine : second = thread
      · subst second
        rw [Function.update_self, Option.some.injEq] at secondListed
        subst other
        exact absurd same (Nat.ne_of_lt (holds.called first call firstListed).1)
      · rw [Function.update_of_ne secondMine] at secondListed
        exact holds.apart first second call other firstListed secondListed same

theorem numbered_answered (event : Event Op Result) :
    Numbered (Function.update running thread none) calls (history ++ [event]) := by
  have kept : ∀ other call, Function.update running thread none other = some call →
      running other = some call := by
    intro other call listed
    by_cases mine : other = thread
    · subst other
      simp at listed
    · rwa [Function.update_of_ne mine] at listed
  refine ⟨fun other call listed => ?_, fun first second call other firstListed secondListed => ?_⟩
  · obtain ⟨below, called⟩ := holds.called other call (kept other call listed)
    exact ⟨below, List.mem_append_left _ called⟩
  · exact holds.apart first second call other (kept first call firstListed)
      (kept second other secondListed)

end Calls

theorem coupled_entered (system : System Thread Data Op Local Result) (thread : Thread)
    (call : Call Op Local Result) (place : Place Local Result) (held : Thread → List Guard)
    (holds : Coupled code apply outcome ready system log)
    (stage : Stage code apply outcome ready log system.data (Holding system.locking.shared thread)
      point (some { call with place := place })) :
    Coupled code apply outcome ready (goTo system thread call place
      { shared := { system.locking.shared with
        point := Function.update system.locking.shared.point thread point }
        guards := held }) log where
  logged := holds.logged
  settled := holds.settled
  stages other := by
    by_cases mine : other = thread
    · subst other
      simp only [goTo, Function.update_self]
      exact stage
    · simp only [goTo, Function.update_of_ne mine]
      exact holds.stages other

end Parts

theorem guarded_goTo (system : System Thread Data Op Local Result) (thread : Thread)
    (call : Call Op Local Result) (place : Place Local Result)
    (locking : GuardNesting.System Thread)
    (holds : ∀ other, system.locking.guards other = guardsAt guards (system.task other))
    (others : ∀ other, other ≠ thread → locking.guards other = system.locking.guards other)
    (mine : locking.guards thread = guardsAt guards (some { call with place := place }))
    (other : Thread) :
    (goTo system thread call place locking).locking.guards other =
      guardsAt guards ((goTo system thread call place locking).task other) := by
  by_cases same : other = thread
  · subst other
    simpa only [goTo, Function.update_self] using mine
  · simpa only [goTo, Function.update_of_ne same] using (others other same).trans (holds other)

omit [DecidableEq Thread] in
theorem outside_holding (system : GuardNesting.System Thread) (nested : Nested system)
    (thread : Thread) (outside : system.shared.point thread = .outside) :
    system.shared.depth thread = (system.guards thread).count .write ∧
      system.shared.reads thread = (system.guards thread).count .read := by
  have held := nested.threads thread
  rw [outside] at held
  exact ⟨by simpa [awaited, owed] using held.writes, by simpa [awaited, owed] using held.reads⟩

omit [DecidableEq Thread] in
theorem guarded_holding (system : GuardNesting.System Thread) (nested : Nested system)
    (thread : Thread) (outside : system.shared.point thread = .outside)
    (inside : system.guards thread ≠ []) :
    Holding system.shared thread := by
  have counts := outside_holding system nested thread outside
  obtain ⟨guard, rest, top⟩ := List.exists_cons_of_ne_nil inside
  rw [top] at counts
  cases guard with
  | write =>
      rw [List.count_cons_self] at counts
      exact Or.inl (by omega)
  | read =>
      rw [List.count_cons_self] at counts
      exact Or.inr (by omega)

section Steps
variable [Fintype Thread] (tlsId : Thread → BitVec 32) (distinct : Function.Injective tlsId)
  (ranged : ∀ thread, 1 ≤ (tlsId thread).toNat ∧ (tlsId thread).toNat ≤ 65535)

omit [DecidableEq Thread] in
theorem shared_unwritten (system : ReaderWriterLock.System Thread) (owner : Option Thread)
    (rep : Represents tlsId system owner) (first second : Thread) (different : first ≠ second)
    (firstHolds : Holding system first) (secondHolds : Holding system second) (thread : Thread) :
    system.depth thread = 0 := by
  refine Nat.eq_zero_of_not_pos fun deep => different ?_
  rw [writer_alone system first tlsId owner rep thread deep firstHolds,
    writer_alone system second tlsId owner rep thread deep secondHolds]

omit [Fintype Thread] in
theorem acquired_settled [Fintype Thread] (before : System Thread Data Op Local Result)
    (log : List (Entry Op Result)) (holds : Coupled code apply outcome ready before log)
    (after : ReaderWriterLock.System Thread) (owner : Option Thread)
    (rep : Represents tlsId after owner) (thread : Thread)
    (others : ∀ other, other ≠ thread → after.depth other = before.locking.shared.depth other)
    (released : ¬ Holding before.locking.shared thread) (holding : Holding after thread) :
    before.data = current code apply log := by
  refine holds.settled fun other => Nat.eq_zero_of_not_pos fun deep => ?_
  by_cases mine : other = thread
  · subst other
    exact released (Or.inl deep)
  · have writing : 0 < after.depth other := by rw [others other mine]; exact deep
    exact mine (writer_alone after thread tlsId owner rep other writing holding).symm

variable (implements : Implements code apply outcome ready guards)

structure Turned (before after : ReaderWriterLock.System Thread) (id : BitVec 32) (tick : Nat)
    (thread : Thread) (lock : RWLock) (point : Point) (effect : Effect) : Prop where
  taken : advance id tick before.lock (before.point thread) = some (.next lock point effect)
  after : after = moved before thread lock point (depthAfter (before.depth thread) effect)
    (readsAfter (before.reads thread) effect)

omit [Fintype Thread] in
theorem turned_others (before after : ReaderWriterLock.System Thread) (id : BitVec 32) (tick : Nat)
    (thread : Thread) (lock : RWLock) (point : Point) (effect : Effect)
    (turned : Turned before after id tick thread lock point effect) (other : Thread)
    (different : other ≠ thread) :
    after.depth other = before.depth other ∧ after.reads other = before.reads other ∧
      after.point other = before.point other := by
  rw [turned.after]
  exact ⟨Function.update_of_ne different _ _, Function.update_of_ne different _ _,
    Function.update_of_ne different _ _⟩

omit [Fintype Thread] in
theorem turned_mine (before after : ReaderWriterLock.System Thread) (id : BitVec 32) (tick : Nat)
    (thread : Thread) (lock : RWLock) (point : Point) (effect : Effect)
    (turned : Turned before after id tick thread lock point effect) :
    after.depth thread = depthAfter (before.depth thread) effect ∧
      after.reads thread = readsAfter (before.reads thread) effect ∧
      after.point thread = point := by
  rw [turned.after]
  exact ⟨Function.update_self _ _ _, Function.update_self _ _ _, Function.update_self _ _ _⟩

variable (before : System Thread Data Op Local Result) (log : List (Entry Op Result))
  (holds : Coupled code apply outcome ready before log) (thread : Thread)
  (call : Call Op Local Result) (locking : GuardNesting.System Thread) (tick : Nat) (lock : RWLock)
  (point : Point) (effect : Effect)
  (turned :
    Turned before.locking.shared locking.shared (tlsId thread) tick thread lock point effect)
  (owner : Option Thread)

include implements holds turned in
theorem body_turned (state : Local) (rep : Represents tlsId locking.shared owner)
    (running : before.task thread = some { call with place := .body state })
    (held : Held (guards state) (before.locking.shared.depth thread)
      (before.locking.shared.reads thread) (before.locking.shared.point thread)) :
    Coupled code apply outcome ready { before with locking := locking } log := by
  obtain ⟨deeper, stays⟩ :=
    guarded_stays _ _ _ _ _ _ _ _ _ _ held (implements.inside state) turned.taken
  obtain ⟨depth, reads, _⟩ := turned_mine _ _ _ _ _ _ _ _ turned
  have others := turned_others _ _ _ _ _ _ _ _ turned
  rw [← depth] at deeper stays
  rw [← reads] at stays
  have mine := holds.stages thread
  rw [running] at mine
  constructor
  case logged => exact holds.logged
  case settled =>
    intro unwritten
    refine holds.settled fun other => Nat.eq_zero_of_not_pos fun deep => ?_
    have zero := unwritten other
    by_cases same : other = thread
    · subst other
      exact Nat.ne_of_gt (deeper deep) zero
    · rw [(others other same).1] at zero
      exact Nat.ne_of_gt deep zero
  case stages =>
    intro other
    by_cases same : other = thread
    · subst other
      simp only [running]
      refine ⟨mine.1, fun holding => ?_, fun released => mine.2.2 fun held => released (stays held)⟩
      by_cases held : Holding before.locking.shared thread
      · exact mine.2.1 held
      · -- The lock has just been taken, and nothing has been done yet.
        rw [mine.2.2 held, (implements.first call.op _).1]
        refine ⟨?_, (implements.first call.op _).2⟩
        rw [← acquired_settled code apply outcome ready tlsId before log holds locking.shared owner
          rep thread (fun other different => (others other different).1) held holding]
    · obtain ⟨depth, reads, point⟩ := others other same
      simpa only [Holding, depth, reads, point] using holds.stages other

section Exits
variable (result : Result) (running : before.task thread = some { call with place := .exit result })
include holds running

omit [Fintype Thread] in
theorem exit_holding
    (others : ∀ other, other ≠ thread →
      locking.shared.depth other = before.locking.shared.depth other ∧
      locking.shared.reads other = before.locking.shared.reads other ∧
      locking.shared.point other = before.locking.shared.point other)
    (holding : Holding before.locking.shared thread)
    (depth : locking.shared.depth thread = before.locking.shared.depth thread)
    (reads : locking.shared.reads thread = before.locking.shared.reads thread) :
    Coupled code apply outcome ready { before with locking := locking } log := by
  have mine := holds.stages thread
  rw [running] at mine
  have still : Holding locking.shared thread := by
    unfold Holding
    rw [depth, reads]
    exact holding
  refine ⟨holds.logged, fun unwritten => holds.settled fun other => ?_, fun other => ?_⟩
  · have zero := unwritten other
    by_cases same : other = thread
    · subst other
      rw [← depth]
      exact zero
    · rw [← (others other same).1]
      exact zero
  · by_cases same : other = thread
    · subst other
      simp only [running]
      exact ⟨fun _ => mine.1 holding, fun released => absurd still released⟩
    · obtain ⟨depth, reads, point⟩ := others other same
      simpa only [Holding, depth, reads, point] using holds.stages other

/-- The step inside the lock with which the thread ceases to hold it: its operation takes effect. -/
theorem exit_released (rep : Represents tlsId before.locking.shared owner)
    (linear : Linearization (meaning code apply) before.history log)
    (numbered : Numbered before.task before.calls before.history)
    (others : ∀ other, other ≠ thread →
      locking.shared.depth other = before.locking.shared.depth other ∧
      locking.shared.reads other = before.locking.shared.reads other ∧
      locking.shared.point other = before.locking.shared.point other)
    (holding : Holding before.locking.shared thread)
    (outside : locking.shared.point thread = .outside) (noDepth : locking.shared.depth thread = 0)
    (noReads : locking.shared.reads thread = 0) :
    ∃ later, Linearization (meaning code apply) before.history later ∧
      Coupled code apply outcome ready { before with locking := locking } later := by
  have mine := holds.stages thread
  rw [running] at mine
  obtain ⟨fresh, answers⟩ := mine.1 holding
  obtain ⟨numberedId, listed⟩ := numbered.called thread _ running
  have value : result = (apply call.op (current code apply log)).1 := congrArg Prod.fst answers
  have written : before.data = (apply call.op (current code apply log)).2 :=
    congrArg Prod.snd answers
  have leads : current code apply (log ++ [{ id := call.id, op := call.op, result := result }]) =
      before.data := by
    rw [current_append, written]
  have released : ¬ Holding locking.shared thread := by
    rintro (deep | reading)
    · exact Nat.ne_of_gt deep noDepth
    · exact Nat.ne_of_gt reading noReads
  refine ⟨log ++ [{ id := call.id, op := call.op, result := result }], ?_, ?_⟩
  · exact linearization_effect (meaning code apply) before.history log call.id call.op result linear
      fresh listed value
  · constructor
    case logged =>
      intro id member
      rw [ids_append, ids_singleton] at member
      rcases List.mem_append.mp member with old | new
      · exact holds.logged id old
      · rw [List.mem_singleton.mp new]
        exact numberedId
    case settled => exact fun _ => leads.symm
    case stages =>
      intro other
      by_cases same : other = thread
      · subst other
        simp only [running]
        refine ⟨fun holds => absurd holds released, fun _ => ⟨outside, ?_⟩⟩
        exact ⟨_, List.mem_append_right _ List.mem_cons_self, rfl, rfl⟩
      · obtain ⟨depth, reads, point⟩ := others other same
        simp only [Holding, depth, reads, point]
        refine stage_logged code apply outcome ready log before.data _ _ _ _ ?_ ?_
          (holds.stages other)
        · intro found listed sameId
          exact same (numbered.apart other thread found _ listed running sameId)
        · -- Two holders at once are readers, and found the data as the log left it.
          intro alsoHolds
          rw [leads]
          exact holds.settled
            (shared_unwritten tlsId _ owner rep other thread same alsoHolds holding)

end Exits

include holds turned in
/-- A step inside the lock of a thread that has destroyed its last guard: when it ceases to hold
the lock its operation takes effect. -/
theorem exit_turned (result : Result) (rep : Represents tlsId before.locking.shared owner)
    (linear : Linearization (meaning code apply) before.history log)
    (numbered : Numbered before.task before.calls before.history)
    (running : before.task thread = some { call with place := .exit result })
    (inside : before.locking.shared.point thread ≠ .outside)
    (held : Held [] (before.locking.shared.depth thread) (before.locking.shared.reads thread)
      (before.locking.shared.point thread)) :
    ∃ later, Linearization (meaning code apply) before.history later ∧
      Coupled code apply outcome ready { before with locking := locking } later := by
  have leaves := unguarded_leaves _ _ _ _ _ _ _ _ _ held turned.taken
  obtain ⟨depth, reads, stands⟩ := turned_mine _ _ _ _ _ _ _ _ turned
  have others := turned_others _ _ _ _ _ _ _ _ turned
  rw [← depth, ← reads] at leaves
  have mine := holds.stages thread
  rw [running] at mine
  have holding : Holding before.locking.shared thread := by
    by_contra released
    exact inside (mine.2 released).1
  rcases leaves with ⟨sameDepth, sameReads⟩ | ⟨outside, noDepth, noReads⟩
  · exact ⟨log, linear, exit_holding code apply outcome ready before log holds thread call locking
      result running others holding sameDepth sameReads⟩
  · exact exit_released code apply outcome ready tlsId before log holds thread call locking owner
      result running rep linear numbered others holding (stands.trans outside) noDepth noReads

end Steps

section Runs
variable [Fintype Thread] (tlsId : Thread → BitVec 32) (distinct : Function.Injective tlsId)
  (ranged : ∀ thread, 1 ≤ (tlsId thread).toNat ∧ (tlsId thread).toNat ≤ 65535)
  (implements : Implements code apply outcome ready guards)
variable (before : System Thread Data Op Local Result)
  (holds : Invariant code apply outcome ready guards tlsId before)
  (alive : before.locking.shared.crash = none) (thread : Thread) (call : Call Op Local Result)
  (running : before.task thread = some call)
include holds alive running

include distinct ranged implements in
theorem advance_keeps (tick : Nat) (locking : GuardNesting.System Thread)
    (inside : before.locking.shared.point thread ≠ .outside)
    (taken : GuardNesting.step tlsId before.locking (.advance thread tick) = some locking) :
    Invariant code apply outcome ready guards tlsId { before with locking := locking } := by
  obtain ⟨locked, sameGuards, moves⟩ :=
    advance_locked tlsId distinct ranged before.locking locking thread tick holds.locked taken
  have guarded : ∀ other, locking.guards other = guardsAt guards (before.task other) := by
    rw [sameGuards]
    exact holds.guarded
  obtain ⟨log, linear, coupled⟩ := holds.linear
  have coupled := coupled alive
  refine ⟨locked, guarded, holds.numbered, ?_⟩
  rcases moves with ended | ⟨lock, point, effect, stepped, shared⟩
  · exact ⟨log, linear, fun running => absurd running ended⟩
  · have turned :
        Turned before.locking.shared locking.shared (tlsId thread) tick thread lock point effect :=
      ⟨stepped, shared⟩
    have goesOn : locking.shared.crash = none := by rw [shared]; exact alive
    obtain ⟨owner, rep⟩ := holds.locked.known alive
    obtain ⟨next, repNext⟩ := locked.known goesOn
    have held := holds.locked.nested.threads thread
    rw [holds.guarded thread, running] at held
    obtain ⟨id, op, place⟩ := call
    cases place with
    | entry =>
        have mine := coupled.stages thread
        rw [running] at mine
        exact absurd mine.1 inside
    | body state =>
        exact ⟨log, linear, fun _ => body_turned code apply outcome ready guards tlsId implements
          before log coupled thread ⟨id, op, .body state⟩ locking tick lock point effect turned
          next state repNext running held⟩
    | exit result =>
        obtain ⟨later, linear, coupled⟩ := exit_turned code apply outcome ready tlsId before log
          coupled thread ⟨id, op, .exit result⟩ locking tick lock point effect turned owner result
          rep linear holds.numbered running inside held
        exact ⟨later, linear, fun _ => coupled⟩

theorem entered_keeps (place : Place Local Result) (locking : GuardNesting.System Thread)
    (point : Point) (held : List Guard) (locked : Locked tlsId locking)
    (moves : locking = { shared := { before.locking.shared with
                             point := Function.update before.locking.shared.point thread point }
                         guards := Function.update before.locking.guards thread held })
    (mine : held = guardsAt guards (some { call with place := place }))
    (stage : ∀ log,
        Stage code apply outcome ready log before.data (Holding before.locking.shared thread)
        (before.locking.shared.point thread) (some call) →
      Stage code apply outcome ready log before.data (Holding before.locking.shared thread) point
        (some { call with place := place })) :
    Invariant code apply outcome ready guards tlsId (goTo before thread call place locking) := by
  obtain ⟨log, linear, coupled⟩ := holds.linear
  have coupled := coupled alive
  have old := coupled.stages thread
  rw [running] at old
  subst locking
  refine ⟨locked, ?_, numbered_goTo before thread call place holds.numbered running, log,
    linear, fun _ => ?_⟩
  · apply guarded_goTo guards before thread call place _ holds.guarded
    case others => exact fun other different => Function.update_of_ne different _ _
    case mine => exact (Function.update_self _ _ _).trans mine
  · exact coupled_entered code apply outcome ready log point before thread call place _ coupled
      (stage log old)

include implements in
theorem access_keeps (state next : Local) (data : Data) (run : Data → Option (Local × Data))
    (outside : before.locking.shared.point thread = .outside) (stands : call.place = .body state)
    (accesses : code.instruction state = .access run)
    (found : run before.data = some (next, data)) :
    Invariant code apply outcome ready guards tlsId
        { goTo before thread call (.body next) before.locking with
      data := data } := by
  obtain ⟨log, linear, coupled⟩ := holds.linear
  have coupled := coupled alive
  obtain ⟨id, op, place⟩ := call
  subst stands
  have mine := coupled.stages thread
  have guardsMine : before.locking.guards thread = guards state := by
    rw [holds.guarded thread, running]
    rfl
  rw [running] at mine
  have holding := guarded_holding before.locking holds.locked.nested thread outside
    (by rw [guardsMine]; exact implements.inside state)
  obtain ⟨meant, knows⟩ := mine.2.1 holding
  obtain ⟨later, after, accessed, sameOutcome, stillReady, sameGuards, unwritten⟩ :=
    implements.access state run accesses before.data knows
  rw [found, Option.some.injEq, Prod.mk.injEq] at accessed
  obtain ⟨rfl, rfl⟩ := accessed
  have deep : .write ∈ guards state → 0 < before.locking.shared.depth thread := by
    intro writes
    rw [(outside_holding before.locking holds.locked.nested thread outside).1, guardsMine]
    exact List.count_pos_iff.mpr writes
  obtain ⟨owner, rep⟩ := holds.locked.known alive
  refine ⟨holds.locked, ?_, ?_, log, linear, fun _ => ?_⟩
  · apply guarded_goTo guards before thread _ _ before.locking holds.guarded
    case others => exact fun _ _ => rfl
    case mine => rw [guardsMine]; exact sameGuards.symm
  · exact numbered_goTo before thread _ _ holds.numbered running
  · constructor
    case logged => exact coupled.logged
    case settled =>
      intro unowned
      have reads : .write ∉ guards state :=
        fun writes => Nat.ne_of_gt (deep writes) (unowned thread)
      rw [← coupled.settled unowned]
      exact unwritten reads
    case stages =>
      intro other
      by_cases same : other = thread
      · subst other
        simp only [goTo, Function.update_self]
        exact ⟨mine.1, fun _ => ⟨sameOutcome.trans meant, stillReady⟩,
          fun released => absurd holding released⟩
      · simp only [goTo, Function.update_of_ne same]
        by_cases writes : .write ∈ guards state
        · -- Whoever writes is alone with the lock.
          refine stage_data code apply outcome ready log before.data _ _ _ _
            (fun alsoHolds => same ?_) (coupled.stages other)
          exact writer_alone before.locking.shared other tlsId owner rep thread
            (deep writes) alsoHolds
        · rw [unwritten writes]
          exact coupled.stages other

theorem answer_keeps (result : Result) (outside : before.locking.shared.point thread = .outside)
    (stands : call.place = .exit result) :
    Invariant code apply outcome ready guards tlsId { before with
      task := Function.update before.task thread none
      history := before.history ++ [.answer call.id result] } := by
  obtain ⟨log, linear, coupled⟩ := holds.linear
  have coupled := coupled alive
  obtain ⟨id, op, place⟩ := call
  subst stands
  have mine := coupled.stages thread
  have guardsMine : before.locking.guards thread = [] := by rw [holds.guarded thread, running]; rfl
  rw [running] at mine
  have released : ¬ Holding before.locking.shared thread := by
    have counts := outside_holding before.locking holds.locked.nested thread outside
    rw [guardsMine] at counts
    rintro (deep | reading)
    · exact Nat.ne_of_gt deep counts.1
    · exact Nat.ne_of_gt reading counts.2
  refine ⟨holds.locked, fun other => ?_, numbered_answered _ _ _ holds.numbered thread _, log,
    linearization_answer (meaning code apply) _ log id result linear (mine.2 released).2,
    fun _ => ?_⟩
  · by_cases same : other = thread
    · subst other
      simp only [Function.update_self]
      exact guardsMine
    · simpa only [Function.update_of_ne same] using holds.guarded other
  · refine ⟨coupled.logged, coupled.settled, fun other => ?_⟩
    by_cases same : other = thread
    · subst other
      simp only [Function.update_self]
      exact ⟨outside, released⟩
    · simp only [Function.update_of_ne same]
      exact coupled.stages other

end Runs

section Linearity
variable [Fintype Thread] (tlsId : Thread → BitVec 32) (distinct : Function.Injective tlsId)
  (ranged : ∀ thread, 1 ≤ (tlsId thread).toNat ∧ (tlsId thread).toNat ≤ 65535)
  (implements : Implements code apply outcome ready guards)

omit [DecidableEq Thread] in
theorem start_invariant :
    Invariant code apply outcome ready guards tlsId (System.start code :
      System Thread Data Op Local Result) where
  locked := start_locked tlsId
  guarded _ := rfl
  numbered := ⟨fun _ _ listed => (by cases listed), fun _ _ _ _ listed => (by cases listed)⟩
  linear := by
    refine ⟨[], linearization_nil _, fun _ => ⟨by simp [ids], fun _ => rfl, fun _ => ⟨rfl, ?_⟩⟩⟩
    simp [Holding, System.start, GuardNesting.System.start, ReaderWriterLock.System.start]

theorem called_keeps (before : System Thread Data Op Local Result) (thread : Thread) (op : Op)
    (holds : Invariant code apply outcome ready guards tlsId before)
    (alive : before.locking.shared.crash = none) (idle : before.task thread = none) :
    Invariant code apply outcome ready guards tlsId { before with
      task :=
        Function.update before.task thread (some { id := before.calls, op := op, place := .entry })
      calls := before.calls + 1
      history := before.history ++ [.call before.calls op] } := by
  obtain ⟨log, linear, coupled⟩ := holds.linear
  have coupled := coupled alive
  have fresh : before.calls ∉ ids log := fun listed => Nat.lt_irrefl _ (coupled.logged _ listed)
  refine ⟨holds.locked, fun other => ?_, numbered_called _ _ _ holds.numbered thread op, log,
    linearization_call (meaning code apply) _ log before.calls op linear fresh, fun _ => ?_⟩
  · by_cases mine : other = thread
    · subst other
      have free := holds.guarded thread
      rw [idle] at free
      simp only [Function.update_self]
      exact free
    · simpa only [Function.update_of_ne mine] using holds.guarded other
  · refine ⟨fun id listed => Nat.lt_succ_of_lt (coupled.logged id listed),
      coupled.settled, fun other => ?_⟩
    by_cases mine : other = thread
    · subst other
      have free := coupled.stages thread
      rw [idle] at free
      simp only [Function.update_self]
      exact ⟨free.1, free.2, fresh⟩
    · simp only [Function.update_of_ne mine]
      exact coupled.stages other

omit [DecidableEq Thread] in
include implements in
theorem accessing_stage (system : System Thread Data Op Local Result)
    (holds : Invariant code apply outcome ready guards tlsId system)
    (alive : system.locking.shared.crash = none) (thread : Thread) (state : Local)
    (run : Data → Option (Local × Data)) (accesses : Accessing code system thread state run) :
    ready state system.data ∧ system.locking.guards thread = guards state ∧
      Holding system.locking.shared thread := by
  obtain ⟨⟨id, op, _⟩, running, rfl, outside, _⟩ := accesses
  obtain ⟨log, _, coupled⟩ := holds.linear
  have stage := (coupled alive).stages thread
  have guardsMine := holds.guarded thread
  rw [running] at stage guardsMine
  have holding := guarded_holding system.locking holds.locked.nested thread outside
    (by rw [guardsMine]; exact implements.inside state)
  exact ⟨(stage.2.1 holding).2, guardsMine, holding⟩

include distinct ranged implements

section Bodies
variable (before after : System Thread Data Op Local Result) (thread : Thread)
  (call : Call Op Local Result) (holds : Invariant code apply outcome ready guards tlsId before)
  (alive : before.locking.shared.crash = none) (state : Local)
  (running : before.task thread = some { call with place := .body state })
  (outside : before.locking.shared.point thread = .outside)
  (taken : execute code tlsId before thread { call with place := .body state } = some after)
include holds alive running outside taken

theorem construct_keeps (guard : Guard) (later : Local)
    (next : code.instruction state = .construct guard later) :
    Invariant code apply outcome ready guards tlsId after := by
  have guardsMine : before.locking.guards thread = guards state := by
    rw [holds.guarded thread, running]
    rfl
  have holding := guarded_holding before.locking holds.locked.nested thread outside
    (by rw [guardsMine]; exact implements.inside state)
  simp only [execute, next] at taken
  obtain ⟨locking, stepped, rfl⟩ := Option.map_eq_some_iff.mp taken
  obtain ⟨sameOutcome, sameReady, sameGuards, nesting⟩ :=
    implements.construct state guard later next
  obtain ⟨few, single⟩ := implements.few later
  rw [sameGuards] at few single
  obtain ⟨locked, -, -, moves⟩ :=
    construct_locked tlsId distinct ranged before.locking locking thread _
    holds.locked stepped (by rw [guardsMine]; exact nesting) (by rw [guardsMine]; exact few)
    (by rw [guardsMine]; exact single)
  rw [guardsMine, ← sameGuards] at moves
  refine entered_keeps code apply outcome ready guards tlsId before holds alive thread _ running _
    locking _ _ locked moves rfl fun log stage => ?_
  refine ⟨stage.1, fun holds => ?_, fun released => absurd holding released⟩
  rw [sameOutcome, sameReady]
  exact stage.2.1 holds

theorem destroy_keeps (later : Local) (next : code.instruction state = .destroy later) :
    Invariant code apply outcome ready guards tlsId after := by
  have guardsMine : before.locking.guards thread = guards state := by
    rw [holds.guarded thread, running]
    rfl
  have holding := guarded_holding before.locking holds.locked.nested thread outside
    (by rw [guardsMine]; exact implements.inside state)
  simp only [execute, next] at taken
  obtain ⟨locking, stepped, rfl⟩ := Option.map_eq_some_iff.mp taken
  obtain ⟨sameOutcome, sameReady, guard, sameGuards⟩ := implements.destroy state later next
  obtain ⟨locked, -, -, moves⟩ := destroy_locked tlsId distinct ranged before.locking locking thread
    guard (guards later) holds.locked (guardsMine.trans sameGuards) stepped
  refine entered_keeps code apply outcome ready guards tlsId before holds alive thread _ running _
    locking _ _ locked moves rfl fun log stage => ?_
  refine ⟨stage.1, fun holds => ?_, fun released => absurd holding released⟩
  rw [sameOutcome, sameReady]
  exact stage.2.1 holds

theorem finish_keeps (result : Result) (next : code.instruction state = .finish result) :
    Invariant code apply outcome ready guards tlsId after := by
  have guardsMine : before.locking.guards thread = guards state := by
    rw [holds.guarded thread, running]
    rfl
  have holding := guarded_holding before.locking holds.locked.nested thread outside
    (by rw [guardsMine]; exact implements.inside state)
  simp only [execute, next] at taken
  obtain ⟨locking, stepped, rfl⟩ := Option.map_eq_some_iff.mp taken
  obtain ⟨sameOutcome, guard, sameGuards⟩ := implements.finish state result next
  obtain ⟨locked, -, -, moves⟩ := destroy_locked tlsId distinct ranged before.locking locking thread
    guard [] holds.locked (guardsMine.trans sameGuards) stepped
  refine entered_keeps code apply outcome ready guards tlsId before holds alive thread _ running _
    locking _ _ locked moves rfl fun log stage => ?_
  refine ⟨fun holds => ⟨stage.1, ?_⟩, fun released => absurd holding released⟩
  rw [← sameOutcome before.data]
  exact (stage.2.1 holds).1

end Bodies

theorem execute_keeps (before after : System Thread Data Op Local Result) (thread : Thread)
    (call : Call Op Local Result) (holds : Invariant code apply outcome ready guards tlsId before)
    (alive : before.locking.shared.crash = none) (running : before.task thread = some call)
    (outside : before.locking.shared.point thread = .outside)
    (taken : execute code tlsId before thread call = some after) :
    Invariant code apply outcome ready guards tlsId after := by
  obtain ⟨id, op, place⟩ := call
  cases place with
  | entry =>
      have guardsMine : before.locking.guards thread = [] := by
        rw [holds.guarded thread, running]
        rfl
      obtain ⟨locking, stepped, rfl⟩ := Option.map_eq_some_iff.mp taken
      obtain ⟨few, single⟩ := implements.few (code.first op)
      rw [implements.firstGuards] at few single
      obtain ⟨locked, -, -, moves⟩ :=
        construct_locked tlsId distinct ranged before.locking locking thread _
        holds.locked stepped (by rw [guardsMine]; simp) (by rw [guardsMine]; exact few)
        (by rw [guardsMine]; exact single)
      rw [guardsMine] at moves
      refine entered_keeps code apply outcome ready guards tlsId before holds alive thread _ running
        _ locking _ _ locked moves (implements.firstGuards op).symm fun log stage => ?_
      exact ⟨stage.2.2, fun holding => absurd holding stage.2.1, fun _ => rfl⟩
  | body state =>
      cases next : code.instruction state with
      | access run =>
          simp only [execute, next] at taken
          obtain ⟨⟨later, data⟩, found, rfl⟩ := Option.map_eq_some_iff.mp taken
          exact access_keeps code apply outcome ready guards tlsId implements before holds alive
            thread _ running state later data run outside rfl next found
      | construct guard later =>
          exact construct_keeps code apply outcome ready guards tlsId distinct ranged
            implements before after thread ⟨id, op, .body state⟩ holds alive state running outside
            taken guard later next
      | destroy later =>
          exact destroy_keeps code apply outcome ready guards tlsId distinct
            ranged implements before after thread ⟨id, op, .body state⟩ holds alive state running
            outside taken later next
      | finish result =>
          exact finish_keeps code apply outcome ready guards tlsId distinct ranged implements before
            after thread ⟨id, op, .body state⟩ holds alive state running outside taken result next
  | exit result =>
      simp only [execute, Option.some.injEq] at taken
      subst after
      exact answer_keeps code apply outcome ready guards tlsId before holds alive thread _ running
        result outside rfl

theorem step_keeps_invariant (before after : System Thread Data Op Local Result)
    (label : Label Thread Op) (holds : Invariant code apply outcome ready guards tlsId before)
    (taken : step code tlsId before label = some after) :
    Invariant code apply outcome ready guards tlsId after := by
  unfold step at taken
  split at taken
  · cases taken
  case isFalse goesOn =>
    have alive : before.locking.shared.crash = none := by simpa using goesOn
    cases label with
    | call thread op =>
        simp only at taken
        cases idle : before.task thread with
        | some call => simp [idle] at taken
        | none =>
            simp only [idle, Option.ite_none_right_eq_some, Option.some.injEq] at taken
            obtain ⟨_, rfl⟩ := taken
            exact called_keeps code apply outcome ready guards tlsId before thread
              op holds alive idle
    | advance thread tick =>
        simp only at taken
        cases running : before.task thread with
        | none => simp [running] at taken
        | some call =>
            simp only [running] at taken
            split at taken
            case isTrue outside =>
              exact execute_keeps code apply outcome ready guards tlsId distinct ranged implements
                before after thread call holds alive running outside taken
            case isFalse inside =>
              obtain ⟨locking, stepped, rfl⟩ := Option.map_eq_some_iff.mp taken
              exact advance_keeps code apply outcome ready guards tlsId distinct ranged implements
                before holds alive thread call running tick locking inside stepped

theorem reachable_keeps (system : System Thread Data Op Local Result)
    (reached : Reachable (step code tlsId) (fun _ _ _ => True) (System.start code) system) :
    Invariant code apply outcome ready guards tlsId system :=
  reachable_invariant (step code tlsId) (fun _ _ _ => True)
    (Invariant code apply outcome ready guards tlsId) _
    (start_invariant code apply outcome ready guards tlsId)
    (fun before label after holds taken _ =>
      step_keeps_invariant code apply outcome ready guards tlsId distinct ranged implements before
        after label holds taken)
    system reached

/-- Every history is linearizable, and when nobody is inside an operation the object is as the
operations leave it one after the other. -/
theorem reachable_linearizable (system : System Thread Data Op Local Result)
    (reached : Reachable (step code tlsId) (fun _ _ _ => True) (System.start code) system) :
    ∃ log, Linearization (meaning code apply) system.history log ∧
      (system.locking.shared.crash = none → (∀ thread, system.task thread = none) →
        system.data = current code apply log) := by
  have holds :=
    reachable_keeps code apply outcome ready guards tlsId distinct ranged implements system reached
  obtain ⟨log, linear, coupled⟩ := holds.linear
  refine ⟨log, linear, fun alive idle => (coupled alive).settled fun thread => ?_⟩
  have free := (coupled alive).stages thread
  rw [idle thread] at free
  exact Nat.eq_zero_of_not_pos fun deep => free.2 (Or.inl deep)

/-- Every access a thread comes to is defined, and when two threads come to an access at once
neither of them changes the members. -/
theorem reachable_accesses (system : System Thread Data Op Local Result)
    (reached : Reachable (step code tlsId) (fun _ _ _ => True) (System.start code) system)
    (alive : system.locking.shared.crash = none) (thread : Thread) (state : Local)
    (run : Data → Option (Local × Data)) (accesses : Accessing code system thread state run) :
    ∃ next after, run system.data = some (next, after) ∧
      ∀ other later meanwhile, other ≠ thread → Accessing code system other later meanwhile →
        after = system.data := by
  have holds :=
    reachable_keeps code apply outcome ready guards tlsId distinct ranged implements system reached
  obtain ⟨knows, guardsMine, _⟩ := accessing_stage code apply outcome ready guards tlsId implements
    system holds alive thread state run accesses
  obtain ⟨_, _, _, outside, instruction⟩ := accesses
  obtain ⟨next, after, found, _, _, _, unwritten⟩ :=
    implements.access state run instruction system.data knows
  refine ⟨next, after, found, fun other later meanwhile different otherAccesses =>
    unwritten fun writes => ?_⟩
  obtain ⟨_, _, holding⟩ := accessing_stage code apply outcome ready guards tlsId implements
    system holds alive other later meanwhile otherAccesses
  obtain ⟨owner, rep⟩ := holds.locked.known alive
  have deep : 0 < system.locking.shared.depth thread := by
    rw [(outside_holding system.locking holds.locked.nested thread outside).1, guardsMine]
    exact List.count_pos_iff.mpr writes
  exact different (writer_alone system.locking.shared other tlsId owner rep thread deep holding)

theorem reachable_asserted (system : System Thread Data Op Local Result)
    (reached : Reachable (step code tlsId) (fun _ _ _ => True) (System.start code) system) :
    system.locking.shared.crash = none ∨ system.locking.shared.crash = some .timeout := by
  have holds :=
    reachable_keeps code apply outcome ready guards tlsId distinct ranged implements system reached
  rcases holds.locked.nested.crash with alive | ⟨ended, _⟩
  · exact Or.inl alive
  · exact Or.inr ended

end Linearity

end Objects

end NetCore.GuardedObjects
