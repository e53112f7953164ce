import NetCore.JobEffects
import NetCore.JobSystem

/-! Reserved jobs from their reservation to their execution. A check hands a due job over by a
call of its owner's `Push` and goes on when that call has returned, so at most one reserved job
is on its way into a queue, and the reserved jobs in the queue of a serializer are those handed
over to it, in the order of the hand-over. A check also stands where its thread may call, so to
the serializers its call is a `Push` like any other: the serializers of the whole system run as
those of JobSerializer do. A reserved job is therefore executed by its owner, not before its
tick, once and in order, and none of those handed over is left behind. -/
namespace NetCore.ReservedExecution
open TransitionRuns PriorityQueue JobSerializer ExecutionRight SerializedExecution JobOrder

universe u v w x y
variable {Thread : Type u} {Handle : Type v} {Job : Type w} {Name : Type x}

def handleOf : JobSystem.Work Handle Job → Option Handle
  | .reserved handle => some handle
  | .plain _ => none

def reserved (entries : List (Entry Thread (JobSystem.Work Handle Job))) : List Handle :=
  entries.filterMap fun entry => handleOf entry.job

def onward (pair : Name × Option (Entry Thread (JobSystem.Work Handle Job))) :
    Option (Name × Handle) :=
  pair.2.bind fun entry => (handleOf entry.job).map (Prod.mk pair.1)

def coming (stack : List (Frame Thread Name (JobSystem.Work Handle Job))) : List (Name × Handle) :=
  (stack.filterMap entering).filterMap onward

theorem coming_nested (top : Frame Thread Name (JobSystem.Work Handle Job))
    (below : List (Frame Thread Name (JobSystem.Work Handle Job))) (shape : Nested (top :: below)) :
    coming (top :: below) = ((entering top).bind onward).toList := by
  unfold coming
  rw [List.filterMap_cons]
  cases entering top with
  | none => simp [(below_without top below shape).2]
  | some pair => cases found : onward pair <;> simp [(below_without top below shape).2, found]

theorem coming_free (stack : List (Frame Thread Name (JobSystem.Work Handle Job)))
    (shape : Nested stack) (free : JobSerializer.mayCall stack = true) : coming stack = [] := by
  cases stack with
  | nil => rfl
  | cons top below =>
      rw [coming_nested top below shape]
      cases top <;> first | rfl | cases free

theorem onward_reserved (name : Name) (entry : Option (Entry Thread (JobSystem.Work Handle Job))) :
    reserved entry.toList = (onward (name, entry)).toList.map Prod.snd := by
  cases entry with
  | none => rfl
  | some entry => cases found : handleOf entry.job <;> simp [reserved, onward, found]

theorem onward_name (name : Name) (entry : Option (Entry Thread (JobSystem.Work Handle Job)))
    (pair : Name × Handle) (found : onward (name, entry) = some pair) : pair.1 = name := by
  obtain ⟨given, -, goes⟩ := Option.bind_eq_some_iff.mp found
  obtain ⟨handle, -, rfl⟩ := Option.map_eq_some_iff.mp goes
  rfl

section Calls
variable [DecidableEq Thread] [DecidableEq Name]

def actor : JobSerializer.Label Thread Name Job → Option Thread
  | .push thread _ _ | .doJobs thread _ | .finish thread | .advance thread _
  | .setMaxTick thread _ => some thread
  | .clearJobs => none

theorem advance_above (before after : JobSerializer.System Thread Name Job) (thread : Thread)
    (tick : UInt64) (top : Frame Thread Name Job) (below : List (Frame Thread Name Job))
    (taken : advanceFrame before thread tick below top = some after) :
    ∃ above, after.stack = Function.update before.stack thread (above ++ below) := by
  cases top with
  | pushTest name prevCount =>
      simp only [advanceFrame] at taken
      split at taken
      · split at taken <;> cases taken
        · exact ⟨[_], rfl⟩
        · exact ⟨[], rfl⟩
      · cases taken
        exact ⟨[], rfl⟩
  | execLoop name startTick currentCount rest =>
      cases rest with
      | nil =>
          cases taken
          split
          · exact ⟨[_], rfl⟩
          · exact ⟨[_], rfl⟩
      | cons entry rest =>
          cases taken
          exact ⟨[_], rfl⟩
  | running => cases taken
  | execClock name startTick =>
      simp only [advanceFrame] at taken
      split at taken <;> cases taken <;> exact ⟨[_], rfl⟩
  | execLeave =>
      cases taken
      exact ⟨[], rfl⟩
  | doLoop start =>
      simp only [advanceFrame] at taken
      split at taken <;> cases taken
      · exact ⟨[], rfl⟩
      · exact ⟨[_], rfl⟩
  | doPop start =>
      simp only [advanceFrame] at taken
      split at taken <;> cases taken
      · exact ⟨[], rfl⟩
      · exact ⟨[_, _], rfl⟩
  | pushAdd | pushQueue | execEnter | execDrain | execHandOver =>
      cases taken
      exact ⟨[_], rfl⟩

theorem step_base (before after : JobSerializer.System Thread Name Job)
    (label : JobSerializer.Label Thread Name Job)
    (taken : JobSerializer.step before label = some after) (thread : Thread)
    (base : List (Frame Thread Name Job)) (lies : base <:+ before.stack thread)
    (deeper : actor label = some thread → base ≠ before.stack thread) :
    base <:+ after.stack thread := by
  have elsewhere : ∀ other stack, other ≠ thread →
      base <:+ Function.update before.stack other stack thread := by
    intro other stack different
    rw [Function.update_of_ne (Ne.symm different)]
    exact lies
  -- What the acting thread does to the frames above the base.
  have here : ∀ top below above, before.stack thread = top :: below → actor label = some thread →
      base <:+ above ++ below := by
    intro top below above stands acts
    rw [stands] at lies
    rcases List.suffix_cons_iff.mp lies with whole | part
    · exact absurd (whole.trans stands.symm) (deeper acts)
    · exact part.trans (List.suffix_append _ _)
  cases label with
  | push other name job =>
      simp only [JobSerializer.step, Option.ite_none_right_eq_some, Option.some.injEq] at taken
      obtain ⟨-, rfl⟩ := taken
      by_cases mine : other = thread
      · subst mine
        simp only [callPush, set_stack_self]
        exact lies.trans (List.suffix_cons _ _)
      · exact elsewhere other _ mine
  | doJobs other tick =>
      simp only [JobSerializer.step, Option.ite_none_right_eq_some, Option.some.injEq] at taken
      obtain ⟨-, rfl⟩ := taken
      by_cases mine : other = thread
      · subst mine
        rw [set_stack_self]
        exact lies.trans (List.suffix_cons _ _)
      · exact elsewhere other _ mine
  | finish other =>
      simp only [JobSerializer.step] at taken
      split at taken
      case h_1 name startTick currentCount entry rest below stands =>
        cases taken
        by_cases mine : other = thread
        · subst mine
          rw [set_stack_self]
          exact here _ below [_] stands rfl
        · exact elsewhere other _ mine
      case h_2 => cases taken
  | advance other tick =>
      simp only [JobSerializer.step] at taken
      split at taken
      case h_1 => cases taken
      case h_2 top below stands =>
        obtain ⟨above, stack⟩ := advance_above before after other tick top below taken
        rw [stack]
        by_cases mine : other = thread
        · subst mine
          rw [Function.update_self]
          exact here top below above stands rfl
        · exact elsewhere other _ mine
  | setMaxTick other value =>
      cases taken
      exact lies
  | clearJobs =>
      cases taken
      exact lies

theorem move_passes (before after : JobSerializer.System Thread Name Job)
    (label : JobSerializer.Label Thread Name Job) (move : Move before label after) :
    (∃ thread name job, label = .push thread name job ∧ after = callPush before thread name job) ∨
      after.calls = before.calls := by
  cases move with
  | call thread name job _ => exact .inl ⟨thread, name, job, rfl, rfl⟩
  | quiet _ _ _ _ _ _ _ _ calls _ => exact .inr calls
  | _ => exact .inr rfl

end Calls

variable {executionTick : Handle → UInt64}
variable {queue : Implementation.{v, y} Handle (ReservedJobs.reservableJobCompare executionTick)}

/-- A check in progress was called from a part of the stack from which its thread may call. -/
def Standing (system : JobSystem.System queue Thread Name Job) (thread : Thread) : Prop :=
  system.worker.phase thread ≠ .idle → ∃ base, base <:+ system.core.stack thread ∧
    base.length = system.depth thread ∧ JobSerializer.mayCall base = true

theorem checking_iff (system : JobSystem.System queue Thread Name Job) (thread : Thread) :
    JobSystem.checking system thread = true ↔
      system.worker.phase thread ≠ .idle ∧
      (system.core.stack thread).length = system.depth thread := by
  unfold JobSystem.checking
  cases system.worker.phase thread <;> simp

theorem checking_free (system : JobSystem.System queue Thread Name Job) (thread : Thread)
    (standing : Standing system thread) (checks : JobSystem.checking system thread = true) :
    JobSerializer.mayCall (system.core.stack thread) = true := by
  obtain ⟨busy, deep⟩ := (checking_iff system thread).mp checks
  obtain ⟨base, lies, length, may⟩ := standing busy
  rw [← lies.eq_of_length (length.trans deep.symm)]
  exact may

/-- The reserved job on its way into a queue: one that a check has handed over and waits for. -/
inductive Transit (owner : Handle → Name) (system : JobSystem.System queue Thread Name Job) :
    Option Handle → Prop where
  | settled (clear : ∀ thread, coming (system.core.stack thread) = []) : Transit owner system none
  | pushing (thread : Thread) (now : UInt64) (handle : Handle) (rest : List Handle)
      (stands : system.worker.phase thread = .pushing now handle rest)
      (comes : coming (system.core.stack thread) = [(owner handle, handle)])
      (others : ∀ other, other ≠ thread → coming (system.core.stack other) = []) :
      Transit owner system (some handle)

variable [DecidableEq Name]

def handedTo (owner : Handle → Name) (system : JobSystem.System queue Thread Name Job)
    (name : Name) :
    List Handle :=
  (system.worker.handedOver.map Prod.fst).filter fun handle => owner handle = name

/-- What was handed over to a serializer is in its queue, but for the job on its way. -/
structure Line (owner : Handle → Name) (system : JobSystem.System queue Thread Name Job)
    (transit : Option Handle) : Prop where
  place : Transit owner system transit
  arrived : ∀ name, handedTo owner system name =
    reserved (system.core.serializers name).enqueued ++ transit.toList.filter fun handle =>
      owner handle = name

variable [DecidableEq Thread]

/-- The runs in question: no null job, no `ClearJobs`, `ExecuteJobs` and `AddJobSerializer` called
by the library only, each reservable job added once, and fewer than `2 ^ 31` jobs of a serializer
counted and not yet started. -/
structure Orderly (before : JobSystem.System queue Thread Name Job)
    (label : JobSystem.Label Thread Handle Name Job)
    (after : JobSystem.System queue Thread Name Job) : Prop where
  notNull : ∀ thread name, label ≠ .push thread name none
  notCleared : label ≠ .clearJobs
  internal : (∀ thread name, label ≠ .executeJobs thread name) ∧ ∀ name,
    label ≠ .addJobSerializer name
  once : ∀ handle, label = .addReservableJob handle → handle ∉ before.worker.added
  bounded : ∀ name, pending (after.core.serializers name) < 2 ^ 31

def orderly :
    Condition (JobSystem.System queue Thread Name Job) (JobSystem.Label Thread Handle Name Job) :=
  Orderly

structure Coupled (owner : Handle → Name) (system : JobSystem.System queue Thread Name Job) :
    Prop where
  core : Reachable JobSerializer.step disciplined JobSerializer.System.start system.core
  worker : ReservationOrder.Invariant system.worker
  standing : ∀ thread, Standing system thread
  line : ∃ transit, Line owner system transit

section Lines
variable (owner : Handle → Name)

omit [DecidableEq Name] [DecidableEq Thread] in
theorem standing_frame (before after : JobSystem.System queue Thread Name Job) (thread : Thread)
    (standing : Standing before thread)
    (phase : after.worker.phase thread ≠ .idle → before.worker.phase thread ≠ .idle)
    (depth : after.depth thread = before.depth thread)
    (kept : ∀ base, base.length = before.depth thread → before.worker.phase thread ≠ .idle →
      base <:+ before.core.stack thread → base <:+ after.core.stack thread) :
    Standing after thread := by
  intro busy
  obtain ⟨base, lies, length, may⟩ := standing (phase busy)
  exact ⟨base, kept base length (phase busy) lies, length.trans depth.symm, may⟩

theorem checking_settled (system : JobSystem.System queue Thread Name Job)
    (coupled : Coupled owner system) (transit : Option Handle)
    (place : Transit owner system transit) (thread : Thread)
    (checks : JobSystem.checking system thread = true) : transit = none := by
  obtain ⟨busy, -⟩ := (checking_iff system thread).mp checks
  cases place with
  | settled => rfl
  | pushing other now handle rest stands comes _ =>
      obtain ⟨active, sole, -⟩ := coupled.worker.accounted
      obtain ⟨-, -, alone⟩ := ReservationOrder.sole_active system.worker active sole other now
        (by rw [stands]; rfl)
      have same : thread = other := by
        by_contra different
        exact busy (alone thread different)
      subst same
      have shape := (SerializedExecution.run_invariant _ coupled.core).arrivals.nested thread
      rw [coming_free _ shape (checking_free system thread (coupled.standing thread) checks)]
        at comes
      cases comes

omit [DecidableEq Thread] in
theorem line_frame (before after : JobSystem.System queue Thread Name Job) (transit : Option Handle)
    (line : Line owner before transit)
    (flows : ∀ thread, coming (after.core.stack thread) = coming (before.core.stack thread))
    (phases : ∀ handle, transit = some handle → after.worker.phase = before.worker.phase)
    (handed : after.worker.handedOver = before.worker.handedOver)
    (queued : ∀ name, reserved (after.core.serializers name).enqueued =
      reserved (before.core.serializers name).enqueued) : Line owner after transit where
  place := by
    cases line.place with
    | settled clear => exact .settled fun thread => (flows thread).trans (clear thread)
    | pushing thread now handle rest stands comes others =>
        refine .pushing thread now handle rest ?_ ((flows thread).trans comes) ?_
        · rw [phases handle rfl]
          exact stands
        · intro other different
          exact (flows other).trans (others other different)
  arrived name := by
    rw [queued]
    unfold handedTo
    rw [handed]
    exact line.arrived name

theorem reserved_enqueue (core : System Thread Name (JobSystem.Work Handle Job)) (thread : Thread)
    (name : Name) (entry : Option (Entry Thread (JobSystem.Work Handle Job))) (other : Name) :
    reserved ((setSerializer core name ((core.serializers name).enqueue thread entry)).serializers
      other).enqueued =
      reserved (core.serializers other).enqueued ++
        if other = name then (onward (name, entry)).toList.map Prod.snd else [] := by
  by_cases this : other = name
  · subst this
    rw [set_serializer_self, if_pos rfl, ← onward_reserved]
    exact List.filterMap_append
  · rw [set_serializer_other _ _ _ _ this, if_neg this, List.append_nil]

theorem queue_arrived (before after : JobSystem.System queue Thread Name Job)
    (transit : Option Handle) (line : Line owner before transit) (thread : Thread)
    (pair : Name × Handle) (name : Name) (stood : coming (before.core.stack thread) = [pair])
    (here : pair.1 = name) (left : coming (after.core.stack thread) = [])
    (frame : ∀ other, other ≠ thread →
      coming (after.core.stack other) = coming (before.core.stack other))
    (handed : after.worker.handedOver = before.worker.handedOver)
    (queued : ∀ other, reserved (after.core.serializers other).enqueued =
      reserved (before.core.serializers other).enqueued ++ if other = name then [pair.2] else []) :
    Line owner after none := by
  have arrived := line.arrived
  cases line.place with
  | settled clear =>
      rw [clear thread] at stood
      cases stood
  | pushing actor now handle rest busy comes others =>
      -- Only one thread has a reserved job in hand, so it is this one.
      have mine : thread = actor := by
        by_contra different
        rw [others thread different] at stood
        cases stood
      subst mine
      rw [comes, List.singleton_inj] at stood
      subst stood
      replace here : owner handle = name := here
      refine ⟨.settled ?_, ?_⟩
      · intro other
        by_cases this : other = thread
        · rw [this, left]
        · rw [frame other this, others other this]
      · intro other
        have line := arrived other
        rw [queued]
        unfold handedTo at line ⊢
        rw [handed, line]
        by_cases this : other = name
        · simp [this, here]
        · simp [this, here, Ne.symm this]

theorem queue_line (before : JobSystem.System queue Thread Name Job) (transit : Option Handle)
    (line : Line owner before transit) (thread : Thread) (name : Name)
    (entry : Option (Entry Thread (JobSystem.Work Handle Job))) (prevCount : BitVec 32)
    (below : List (Frame Thread Name (JobSystem.Work Handle Job)))
    (stands : before.core.stack thread = .pushQueue name entry prevCount :: below)
    (shape : Nested (before.core.stack thread)) :
    ∃ transit, Line owner { before with
      core :=
        setStack (setSerializer before.core name ((before.core.serializers name).enqueue
          thread entry)) thread
          (.pushTest name prevCount :: below) } transit := by
  rw [stands] at shape
  have stood : coming (before.core.stack thread) = (onward (name, entry)).toList := by
    rw [stands, coming_nested _ below shape]
    rfl
  have left : coming (Frame.pushTest name prevCount :: below) = [] := coming_nested _ below shape
  have queued := reserved_enqueue before.core thread name entry
  -- The stacks of the other threads stay.
  have frame : ∀ other, other ≠ thread → coming ((setStack (setSerializer before.core name
      ((before.core.serializers name).enqueue thread entry)) thread
        (.pushTest name prevCount :: below)).stack
        other) = coming (before.core.stack other) := by
    intro other different
    rw [set_stack_other _ _ _ _ different]
    rfl
  cases goes : onward (name, entry) with
  | none =>
      refine ⟨transit, line_frame owner before _ transit line ?_ (fun _ _ => rfl) rfl ?_⟩
      · intro other
        by_cases mine : other = thread
        · subst mine
          rw [stood, goes, set_stack_self, left]
          rfl
        · exact frame other mine
      · intro other
        rw [set_stack_serializers, queued, goes]
        simp
  | some pair =>
      rw [goes] at stood
      refine ⟨none,
        queue_arrived owner before _ transit line thread pair name stood ?_ ?_ frame rfl ?_⟩
      · exact onward_name name entry _ goes
      · rw [set_stack_self]
        exact left
      · intro other
        rw [set_stack_serializers, queued, goes]
        rfl

theorem call_line (before : JobSystem.System queue Thread Name Job) (transit : Option Handle)
    (line : Line owner before transit) (thread : Thread) (name : Name)
    (job : Option (JobSystem.Work Handle Job)) (plain : ∀ handle, job ≠ some (.reserved handle)) :
    Line owner { before with core := callPush before.core thread name job } transit := by
  have nothing : onward (name, job.map fun job => ⟨job, thread, before.core.calls thread⟩) =
      (none : Option (Name × Handle)) := by
    rcases job with _ | ⟨handle⟩ | job
    · rfl
    · exact absurd rfl (plain handle)
    · rfl
  refine line_frame owner before _ transit line ?_ (fun _ _ => rfl) rfl fun _ => rfl
  intro other
  by_cases mine : other = thread
  · subst mine
    simp only [callPush, set_stack_self, coming, List.filterMap_cons, entering, nothing]
  · simp only [callPush, set_stack_other _ _ _ _ mine]

theorem core_line (before : JobSystem.System queue Thread Name Job)
    (core : JobSerializer.System Thread Name (JobSystem.Work Handle Job))
    (inner : JobSerializer.Label Thread Name (JobSystem.Work Handle Job))
    (move : Move before.core inner core)
    (own : ∀ thread name handle, inner ≠ .push thread name (some (.reserved handle)))
    (nested : ∀ thread, Nested (before.core.stack thread)) (transit : Option Handle)
    (line : Line owner before transit) :
    ∃ transit, Line owner { before with core := core } transit := by
  rcases move_passes before.core core inner move with ⟨thread, name, job, rfl, rfl⟩ | calls
  · exact ⟨transit, call_line owner before transit line thread name job
      fun handle same => own thread name handle (by rw [same])⟩
  · cases move_traffic before.core core inner move with
    | call thread name job _ =>
        have counted := congrFun calls thread
        simp only [callPush, Function.update_self] at counted
        omega
    | queue thread name entry prevCount below stands =>
        exact queue_line owner before transit line thread name entry prevCount below stands
          (nested thread)
    | steady _ enters _ _ enqueued =>
        refine ⟨transit, line_frame owner before _ transit line ?_ (fun _ _ => rfl) rfl ?_⟩
        · intro thread
          unfold coming
          rw [enters]
        · intro name
          rw [enqueued]

/-- A step of the serializers is one of a disciplined run. -/
theorem core_coupled (before after : JobSystem.System queue Thread Name Job)
    (coupled : Coupled owner before) (thread : Thread)
    (inner : JobSerializer.Label Thread Name (JobSystem.Work Handle Job))
    (acts : actor inner = some thread) (taken : JobSystem.coreStep before thread inner = some after)
    (own : ∀ thread name handle, inner ≠ .push thread name (some (.reserved handle)))
    (allowed : Disciplined inner after.core) : Coupled owner after := by
  unfold JobSystem.coreStep at taken
  split at taken
  case isTrue => cases taken
  case isFalse unchecked =>
    obtain ⟨core, moved, rfl⟩ := Option.map_eq_some_iff.mp taken
    have nested := (SerializedExecution.run_invariant _ coupled.core).arrivals.nested
    obtain ⟨transit, line⟩ := coupled.line
    refine ⟨.next inner coupled.core moved allowed, coupled.worker, ?_,
      core_line owner before core inner (step_move _ _ _ moved) own nested transit line⟩
    intro other
    refine standing_frame before _ other (coupled.standing other) id rfl ?_
    intro base length busy lies
    refine step_base before.core core inner moved other base lies ?_
    rintro same rfl
    rw [acts, Option.some.injEq] at same
    subst same
    exact unchecked ((checking_iff before thread).mpr ⟨busy, length⟩)

theorem gave_line (before : JobSystem.System queue Thread Name Job) (line : Line owner before none)
    (thread : Thread) (now : UInt64) (handle : Handle) (rest : List Handle) :
    Line owner { before with
      worker :=
        { ReservedJobs.enter before.worker thread (.pushing now handle rest) with
          handedOver := before.worker.handedOver ++ [(handle, now)] }
      core :=
          callPush before.core thread (owner handle) (some (.reserved handle)) } (some handle) := by
  obtain ⟨place, arrived⟩ := line
  cases place with
  | settled clear =>
      constructor
      case place =>
        refine .pushing thread now handle rest (Function.update_self ..) ?_ ?_
        · have empty := clear thread
          unfold coming at empty ⊢
          simp only [callPush, set_stack_self, List.filterMap_cons, entering, empty]
          rfl
        · intro other different
          simp only [callPush, set_stack_other _ _ _ _ different]
          exact clear other
      case arrived =>
        intro name
        have before := arrived name
        unfold handedTo at before ⊢
        simp only [List.map_append, List.filter_append, before, Option.toList_none, List.filter_nil,
          List.append_nil]
        rfl

section Checks
variable [DecidableEq Handle]

omit [DecidableEq Name] [DecidableEq Thread] [DecidableEq Handle] in
theorem fewer_invariant (worker : ReservedJobs.System queue Thread)
    (holds : ReservationOrder.Invariant worker) (heap : queue.Heap)
    (fewer : queue.contents heap ≤ queue.contents worker.heap) :
    ReservationOrder.Invariant { worker with heap := heap } where
  waiting := Multiset.nodup_of_le fewer holds.waiting
  once := holds.once
  apart job member kept := holds.apart job member (Multiset.mem_of_le fewer kept)
  known job found := holds.known job (found.imp_left fun kept => Multiset.mem_of_le fewer kept)
  timely := holds.timely
  accounted := by
    obtain ⟨active, sole, account⟩ := holds.accounted
    exact ⟨active, ReservationOrder.sole_frame worker _ active sole rfl rfl, account.collected,
      account.tested, account.handed, account.due⟩

omit [DecidableEq Handle] in
theorem worker_coupled (before : JobSystem.System queue Thread Name Job)
    (coupled : Coupled owner before) (worker : ReservedJobs.System queue Thread)
    (holds : ReservationOrder.Invariant worker) (depth : Thread → Nat)
    (handed : worker.handedOver = before.worker.handedOver)
    (standing : ∀ thread, Standing { before with worker := worker, depth := depth } thread)
    (waits : ∀ transit, Transit owner before transit → transit ≠ none →
      worker.phase = before.worker.phase) :
    Coupled owner { before with worker := worker, depth := depth } := by
  obtain ⟨transit, line⟩ := coupled.line
  refine ⟨coupled.core, holds, standing, transit,
    line_frame owner before _ transit line (fun _ => rfl) ?_ handed fun _ => rfl⟩
  rintro handle rfl
  exact waits _ line.place (Option.some_ne_none handle)

omit [DecidableEq Handle] in
theorem quiet_coupled (before : JobSystem.System queue Thread Name Job)
    (coupled : Coupled owner before) (worker : ReservedJobs.System queue Thread)
    (holds : ReservationOrder.Invariant worker)
    (handed : worker.handedOver = before.worker.handedOver)
    (phase : worker.phase = before.worker.phase) :
    Coupled owner { before with worker := worker } := by
  refine worker_coupled owner before coupled worker holds before.depth handed ?_ fun _ _ _ => phase
  intro thread
  refine standing_frame before _ thread (coupled.standing thread) ?_ rfl fun _ _ _ lies => lies
  rw [phase]
  exact id

theorem begin_coupled (before : JobSystem.System queue Thread Name Job)
    (coupled : Coupled owner before) (thread : Thread) (now : UInt64)
    (may : JobSystem.mayCall before thread = true) :
    Coupled owner { before with
      worker := ReservedJobs.checkReservedJob before.worker thread now
      depth := if before.worker.executing then before.depth
        else Function.update before.depth thread (before.core.stack thread).length } := by
  have holds :=
    ReservationOrder.move_invariant before.worker _ (.checkReservedJob thread now) coupled.worker
      (ReservationOrder.step_move before.worker _ (.checkReservedJob thread now) rfl)
      (fun _ same => by cases same)
  unfold ReservedJobs.checkReservedJob at holds ⊢
  split
  case isTrue busy => simpa [busy] using coupled
  case isFalse free =>
    rw [if_neg free] at holds
    have idle : ∀ other, before.worker.phase other = .idle := by
      obtain ⟨active, sole, -⟩ := coupled.worker.accounted
      cases sole with
      | free _ idle => exact idle
      | busy _ set => exact absurd set free
    refine worker_coupled owner before coupled _ holds _ rfl ?_ ?_
    · intro other
      by_cases mine : other = thread
      · subst mine
        simp only [JobSystem.mayCall, Bool.and_eq_true] at may
        exact fun _ => ⟨before.core.stack other, List.suffix_refl _, by simp, may.1⟩
      · intro busy
        exact absurd ((Function.update_of_ne mine ..).trans (idle other)) busy
    · intro transit place waits
      cases place with
      | settled => exact absurd rfl waits
      | pushing actor tick handle rest stands _ _ =>
          rw [idle actor] at stands
          cases stands

/-- A step of a check: the hand-over is a call of `Push`, the others call nobody. -/
theorem check_coupled (before after : JobSystem.System queue Thread Name Job)
    (coupled : Coupled owner before) (thread : Thread) (alive : Bool)
    (taken : JobSystem.advanceCheck owner before thread alive = some after)
    (bounded : ∀ name, pending (after.core.serializers name) < 2 ^ 31) : Coupled owner after := by
  unfold JobSystem.advanceCheck at taken
  split at taken
  case isFalse => cases taken
  case isTrue checks =>
    obtain ⟨worker, moved, rfl⟩ := Option.map_eq_some_iff.mp taken
    have busy := ((checking_iff before thread).mp checks).1
    have move := ReservationOrder.step_move before.worker worker (.advance thread alive) moved
    have holds := ReservationOrder.move_invariant before.worker worker _ coupled.worker move
      (fun _ same => by cases same)
    have kept : ∀ other, worker.phase other ≠ .idle → before.worker.phase other ≠ .idle := by
      intro other still
      by_cases mine : other = thread
      · exact mine ▸ busy
      · have frame : worker.phase other = before.worker.phase other := by
          cases move <;> simp [ReservedJobs.enter, mine]
        rwa [frame] at still
    revert bounded
    split <;> intro bounded
    case h_1 now handle rest stands =>
      have free := checking_free before thread (coupled.standing thread) checks
      have pushed :
        JobSerializer.step before.core (.push thread (owner handle) (some (.reserved handle))) =
        some (callPush before.core thread (owner handle) (some (.reserved handle))) := if_pos free
      simp only [ReservedJobs.advance, stands, Option.some.injEq] at moved
      subst moved
      obtain ⟨transit, line⟩ := coupled.line
      have settled := checking_settled owner before coupled transit line.place thread checks
      subst settled
      refine ⟨.next _ coupled.core pushed ⟨by simp, by simp, bounded⟩, holds, ?_, some handle,
        gave_line owner before line thread now handle rest⟩
      intro other
      refine standing_frame before _ other (coupled.standing other) (kept other) rfl ?_
      intro base _ _ lies
      by_cases mine : other = thread
      · subst mine
        simp only [callPush, set_stack_self]
        exact lies.trans (List.suffix_cons _ _)
      · simp only [callPush, set_stack_other _ _ _ _ mine]
        exact lies
    case h_2 giving =>
      have handed : worker.handedOver = before.worker.handedOver := by
        cases move with
        | given _ _ now handle rest stands => exact absurd stands (giving now handle rest)
        | _ => rfl
      refine worker_coupled owner before coupled worker holds before.depth handed ?_ ?_
      · intro other
        exact standing_frame before _ other (coupled.standing other) (kept other) rfl
          fun _ _ _ lies => lies
      · intro transit place waits
        exact absurd (checking_settled owner before coupled transit place thread checks) waits

omit [DecidableEq Name] [DecidableEq Thread] [DecidableEq Handle] in
theorem cleared_fewer (before after : ReservedJobs.System queue Thread)
    (taken : ReservedJobs.clearReservedJobs before = some after) :
    ∃ heap, queue.contents heap ≤ queue.contents before.heap ∧
      after = { before with heap := heap } := by
  obtain ⟨final, popped, rfl⟩ := Option.map_eq_some_iff.mp taken
  obtain ⟨last, same, parts, -⟩ :=
    take_while_spec queue (fun _ => true) before.heap fun _ _ _ accepted => accepted
  rw [popped, Option.some.injEq] at same
  subst same
  exact ⟨final.heap, parts.splits ▸ Multiset.le_add_left _ _, rfl⟩

theorem step_coupled (before after : JobSystem.System queue Thread Name Job)
    (label : JobSystem.Label Thread Handle Name Job) (coupled : Coupled owner before)
    (taken : JobSystem.step owner before label = some after)
    (allowed : orderly before label after) :
    Coupled owner after := by
  cases label with
  | push thread name job =>
      refine core_coupled owner before after coupled thread
        (.push thread name (job.map .plain)) rfl taken ?_
        ⟨?_, by simp, allowed.bounded⟩
      · intro actor other handle same
        cases job <;> cases same
      · intro actor other same
        cases job with
        | none => exact allowed.notNull thread name rfl
        | some job => cases same
  | doJobs thread tick =>
      exact core_coupled owner before after coupled thread (.doJobs thread tick) rfl taken (by simp)
        ⟨by simp, by simp, allowed.bounded⟩
  | finish thread =>
      exact core_coupled owner before after coupled thread (.finish thread) rfl taken (by simp)
        ⟨by simp, by simp, allowed.bounded⟩
  | advance thread tick =>
      exact core_coupled owner before after coupled thread
        (.advance thread tick) rfl taken (by simp)
        ⟨by simp, by simp, allowed.bounded⟩
  | setMaxTick thread value =>
      exact core_coupled owner before after coupled thread
        (.setMaxTick thread value) rfl taken (by simp)
        ⟨by simp, by simp, allowed.bounded⟩
  | executeJobs thread name => exact absurd rfl (allowed.internal.1 thread name)
  | addJobSerializer name => exact absurd rfl (allowed.internal.2 name)
  | clearJobs => exact absurd rfl allowed.notCleared
  | addReservableJob handle =>
      cases taken
      exact quiet_coupled owner before coupled _
        (ReservationOrder.added_invariant before.worker handle coupled.worker
          (allowed.once handle rfl)) rfl rfl
  | cancel handle =>
      cases taken
      have holds :=
        ReservationOrder.move_invariant before.worker _ _ coupled.worker (.canceled handle)
          (fun _ same => by cases same)
      exact quiet_coupled owner before coupled _ holds rfl rfl
  | checkReservedJob thread now =>
      simp only [JobSystem.step, Option.ite_none_right_eq_some, Option.some.injEq] at taken
      obtain ⟨may, rfl⟩ := taken
      exact begin_coupled owner before coupled thread now may
  | advanceCheck thread alive =>
      exact check_coupled owner before after coupled thread alive taken allowed.bounded
  | clearReservedJobs =>
      obtain ⟨worker, emptied, rfl⟩ := Option.map_eq_some_iff.mp taken
      obtain ⟨heap, fewer, rfl⟩ := cleared_fewer before.worker worker emptied
      exact quiet_coupled owner before coupled _
        (fewer_invariant before.worker coupled.worker heap fewer) rfl rfl

theorem run_coupled (system : JobSystem.System queue Thread Name Job)
    (reached : Reachable (JobSystem.step owner) orderly (JobSystem.System.start queue) system) :
    Coupled owner system :=
  reachable_invariant (JobSystem.step owner) orderly (Coupled owner) (JobSystem.System.start queue)
    ⟨.start, ReservationOrder.start_invariant, fun _ busy => absurd rfl busy, none,
      .settled fun _ => rfl, fun _ => rfl⟩
    (fun before label after holds taken allowed =>
      step_coupled owner before after label holds taken allowed)
    system reached

omit [DecidableEq Thread] [DecidableEq Handle] in
theorem handed_collected (system : JobSystem.System queue Thread Name Job)
    (holds : ReservationOrder.Invariant system.worker) (name : Name) :
    (handedTo owner system name).Sublist system.worker.collected :=
  List.filter_sublist.trans (ReservationOrder.handed_sublist_collected system.worker holds)

omit [DecidableEq Handle] in
theorem started_first (system : JobSystem.System queue Thread Name Job)
    (coupled : Coupled owner system) (name : Name) :
    reserved (system.core.serializers name).started <+: handedTo owner system name := by
  obtain ⟨batch, represents⟩ := (SerializedExecution.run_invariant _ coupled.core).represented
  obtain ⟨transit, line⟩ := coupled.line
  have first := started_are_first _ _ (represents.accounts name)
  rw [line.arrived]
  exact (first.filterMap _).trans (List.prefix_append _ _)

/-- The serializers of the whole system run as JobSerializer has them. The reserved jobs that a
serializer has started are the first of those handed over to it, which are its own and different
jobs whose ticks had come, and with nothing left to do it has finished all of them. -/
theorem reserved_jobs_executed (system : JobSystem.System queue Thread Name Job)
    (reached : Reachable (JobSystem.step owner) orderly (JobSystem.System.start queue) system)
    (name : Name) :
    Reachable JobSerializer.step disciplined JobSerializer.System.start system.core ∧
    reserved (system.core.serializers name).started <+: handedTo owner system name ∧
    (handedTo owner system name).Nodup ∧
    (∀ handle ∈ handedTo owner system name, owner handle = name ∧
      ∃ now, (handle, now) ∈ system.worker.handedOver ∧ executionTick handle ≤ now) ∧
    ((∀ thread, system.core.stack thread = []) → system.core.jobQueue = [] →
      reserved (system.core.serializers name).finished = handedTo owner system name) := by
  have coupled := run_coupled owner system reached
  refine ⟨coupled.core, started_first owner system coupled name, ?_, ?_, ?_⟩
  · exact (handed_collected owner system coupled.worker name).nodup coupled.worker.once
  · intro handle member
    obtain ⟨listed, mine⟩ := List.mem_filter.mp member
    obtain ⟨pair, given, rfl⟩ := List.mem_map.mp listed
    exact ⟨of_decide_eq_true mine, pair.2, given, coupled.worker.timely pair given⟩
  · intro outside drained
    obtain ⟨transit, line⟩ := coupled.line
    rw [JobEffects.idle_finished system.core coupled.core outside drained name, line.arrived]
    cases line.place with
    | settled => exact (List.append_nil _).symm
    | pushing thread now handle rest _ comes _ =>
        rw [outside thread] at comes
        cases comes

theorem step_worker (before after : JobSystem.System queue Thread Name Job)
    (label : JobSystem.Label Thread Handle Name Job)
    (taken : JobSystem.step owner before label = some after)
    (allowed : orderly before label after) :
    after.worker = before.worker ∨
    (∃ inner, ReservationOrder.Move before.worker inner after.worker ∧
      ReservedJobs.once before.worker inner after.worker) ∨
    ∃ heap, queue.contents heap ≤ queue.contents before.worker.heap ∧
      after.worker = { before.worker with heap := heap } := by
  have core : ∀ thread inner, JobSystem.coreStep before thread inner = some after →
      after.worker = before.worker := by
    intro thread inner moves
    unfold JobSystem.coreStep at moves
    split at moves
    case isTrue => cases moves
    case isFalse =>
      obtain ⟨core, -, rfl⟩ := Option.map_eq_some_iff.mp moves
      rfl
  cases label with
  | push thread name job => exact .inl (core thread _ taken)
  | doJobs thread tick => exact .inl (core thread _ taken)
  | finish thread => exact .inl (core thread _ taken)
  | advance thread tick => exact .inl (core thread _ taken)
  | setMaxTick thread value => exact .inl (core thread _ taken)
  | executeJobs thread name => exact absurd rfl (allowed.internal.1 thread name)
  | addJobSerializer name => exact absurd rfl (allowed.internal.2 name)
  | clearJobs => exact absurd rfl allowed.notCleared
  | addReservableJob handle =>
      cases taken
      refine .inr (.inl ⟨_, .added handle, ?_⟩)
      rintro other same
      cases same
      exact allowed.once handle rfl
  | cancel handle =>
      cases taken
      exact .inr (.inl ⟨_, .canceled handle, fun _ same => by cases same⟩)
  | checkReservedJob thread now =>
      simp only [JobSystem.step, Option.ite_none_right_eq_some, Option.some.injEq] at taken
      obtain ⟨-, rfl⟩ := taken
      exact .inr (.inl ⟨_,
        ReservationOrder.step_move before.worker _ (.checkReservedJob thread now) rfl,
        fun _ same => by cases same⟩)
  | advanceCheck thread alive =>
      simp only [JobSystem.step] at taken
      unfold JobSystem.advanceCheck at taken
      split at taken
      case isFalse => cases taken
      case isTrue =>
        obtain ⟨worker, moved, same⟩ := Option.map_eq_some_iff.mp taken
        have goes : after.worker = worker := by
          rw [← same]
          split <;> rfl
        rw [goes]
        exact .inr
          (.inl ⟨_, ReservationOrder.step_move before.worker worker (.advance thread alive) moved,
            fun _ same => by cases same⟩)
  | clearReservedJobs =>
      obtain ⟨worker, emptied, rfl⟩ := Option.map_eq_some_iff.mp taken
      exact .inr (.inr (cleared_fewer before.worker worker emptied))

theorem step_ahead (first second : Handle) (sooner : executionTick first < executionTick second)
    (before after : JobSystem.System queue Thread Name Job)
    (label : JobSystem.Label Thread Handle Name Job)
    (ahead : ReservationOrder.Ahead first second before.worker)
    (taken : JobSystem.step owner before label = some after)
    (allowed : orderly before label after) :
    ReservationOrder.Ahead first second after.worker := by
  rcases step_worker owner before after label taken
    allowed with same | ⟨inner, move, once⟩ | ⟨heap, fewer, same⟩
  · exact same ▸ ahead
  · exact ReservationOrder.move_ahead first second sooner before.worker after.worker
      inner ahead move once
  · rw [same]
    exact ⟨ahead.known, ahead.order, fun kept => ahead.behind (Multiset.mem_of_le fewer kept)⟩

/-- Of two jobs of one serializer that wait together, the one with the lower tick is executed
first, however many checks, threads and other jobs come in between. -/
theorem lower_tick_starts_first (system later : JobSystem.System queue Thread Name Job)
    (reached : Reachable (JobSystem.step owner) orderly (JobSystem.System.start queue) system)
    (continued : Reachable (JobSystem.step owner) orderly system later) (first second : Handle)
    (sooner : executionTick first < executionTick second) (same : owner first = owner second)
    (firstWaits : first ∈ queue.contents system.worker.heap)
    (secondWaits : second ∈ queue.contents system.worker.heap)
    (handed : first ∈ later.worker.handedOver.map Prod.fst)
    (begun : second ∈ reserved (later.core.serializers (owner second)).started) :
    ∃ earlier rest, reserved (later.core.serializers (owner first)).started =
      earlier ++ first :: rest ∧
      second ∈ rest := by
  have ahead := reachable_invariant (JobSystem.step owner) orderly
    (fun system => ReservationOrder.Ahead first second system.worker) system
    (ReservationOrder.queued_ahead system.worker (run_coupled owner system reached).worker first
      second firstWaits secondWaits)
    (fun before label after holds taken allowed =>
      step_ahead owner first second sooner before after label holds taken allowed) later continued
  have coupled := run_coupled owner later (reachable_trans _ _ _ _ _ reached continued)
  have ordered := ahead.order.sublist (handed_collected owner later coupled.worker (owner second))
  obtain ⟨waiting, whole⟩ := started_first owner later coupled (owner second)
  have listed : first ∈ handedTo owner later (owner second) :=
    List.mem_filter.mpr ⟨handed, decide_eq_true same⟩
  rw [← whole] at ordered listed
  obtain ⟨started, -, apart⟩ := List.pairwise_append.mp ordered
  rw [same]
  refine ReservationOrder.comes_after first second ?_ _ started ?_ begun
  · exact fun equal => UInt64.ne_of_lt sooner (congrArg executionTick equal)
  · rcases List.mem_append.mp listed with there | waits
    · exact there
    · exact absurd ⟨rfl, rfl⟩ (apart second begun first waits)

end Checks

end Lines

/-- Two threads and two serializers, of which `true` owns the jobs below 100; reserved jobs are
named by their ticks. -/
abbrev Reservations := JobSystem.System ReservationOrder.leastTick Bool Bool Nat

def ownedBy (handle : Nat) : Bool := decide (handle < 100)

def reservationStep : Step Reservations (JobSystem.Label Bool Nat Bool Nat) :=
  JobSystem.step ownedBy

def orderlyStep (before : Reservations) (label : JobSystem.Label Bool Nat Bool Nat)
    (after : Reservations) : Bool :=
  decide (pending (after.core.serializers true) < 2 ^ 31 ∧
    pending (after.core.serializers false) < 2 ^ 31) &&
  match label with
  | .push _ _ none | .clearJobs | .executeJobs _ _ | .addJobSerializer _ => false
  | .addReservableJob handle => !before.worker.added.contains handle
  | _ => true

theorem orderly_step_sound (before : Reservations) (label : JobSystem.Label Bool Nat Bool Nat)
    (after : Reservations) (checked : orderlyStep before label after = true) :
    orderly before label after := by
  unfold orderlyStep at checked
  obtain ⟨small, plain⟩ := Bool.and_eq_true_iff.mp checked
  obtain ⟨first, second⟩ := of_decide_eq_true small
  refine ⟨?_, ?_, ⟨?_, ?_⟩, ?_, fun name => by cases name <;> assumption⟩
  · rintro thread name rfl
    cases plain
  · rintro rfl
    cases plain
  · rintro thread name rfl
    cases plain
  · rintro name rfl
    cases plain
  · rintro handle rfl
    simpa using plain

def twoReserved : List (JobSystem.Label Bool Nat Bool Nat) :=
  [.push false true (some 1), .advance false 0, .advance false 0, .advance false 0,
   .advance false 0, .advance false 0, .advance false 0, .addReservableJob 30, .addReservableJob 10]

/-- The other thread hands both over, and the first one executes them. -/
def bothExecuted : List (JobSystem.Label Bool Nat Bool Nat) :=
  [.checkReservedJob true 40, .advanceCheck true true, .advanceCheck true true,
   .advanceCheck true true, .advance true 0, .advance true 0, .advance true 0,
   .advanceCheck true true, .advanceCheck true true, .advanceCheck true true, .advance true 0,
   .advance true 0, .advance true 0, .advanceCheck true true, .advanceCheck true true,
   .finish false, .advance false 0, .advance false 0, .advance false 0, .advance false 0,
   .finish false, .advance false 0, .finish false, .advance false 0, .advance false 0]

theorem reserved_jobs_executed_both : ∃ system : Reservations,
    Reachable reservationStep orderly (JobSystem.System.start _) system ∧
    reserved (system.core.serializers true).finished = [10, 30] := by
  obtain ⟨system, reached, seen⟩ :=
    replay_reachable reservationStep orderly orderlyStep orderly_step_sound
    (fun system : Reservations => (handedTo ownedBy system true, system.core.jobQueue,
      (system.core.stack true).length, (system.core.stack false).length))
    ([10, 30], [], 0, 0) (twoReserved ++ bothExecuted) (JobSystem.System.start _) (by decide)
  simp only [Prod.mk.injEq, List.length_eq_zero_iff] at seen
  obtain ⟨handed, drained, first, second⟩ := seen
  have outside : ∀ thread, system.core.stack thread = [] := by
    intro thread
    cases thread with
    | true => exact first
    | false => exact second
  have result := reserved_jobs_executed ownedBy system reached true
  exact ⟨system, reached, (result.2.2.2.2 outside drained).trans handed⟩

theorem lower_tick_starts_first_ten : ∃ system later : Reservations,
    Reachable reservationStep orderly (JobSystem.System.start _) system ∧
    Reachable reservationStep orderly system later ∧
    ∃ earlier rest, reserved (later.core.serializers true).started =
      earlier ++ 10 :: rest ∧ 30 ∈ rest := by
  obtain ⟨system, reached, seen⟩ :=
    replay_reachable reservationStep orderly orderlyStep orderly_step_sound
    (fun system : Reservations =>
      (decide (10 ∈ ReservationOrder.leastTick.contents system.worker.heap),
        decide (30 ∈ ReservationOrder.leastTick.contents system.worker.heap),
        (replay reservationStep orderlyStep system bothExecuted).map fun later =>
          (later.worker.handedOver.map Prod.fst, reserved (later.core.serializers true).started)))
    (true, true, some ([10, 30], [10, 30])) twoReserved (JobSystem.System.start _) (by decide)
  simp only [Prod.mk.injEq, decide_eq_true_eq] at seen
  obtain ⟨ten, thirty, rest⟩ := seen
  obtain ⟨later, continued, shown⟩ :=
    replay_reachable reservationStep orderly orderlyStep orderly_step_sound
    (fun later : Reservations =>
      (later.worker.handedOver.map Prod.fst,
        reserved (later.core.serializers true).started)) _ _ _ rest
  simp only [Prod.mk.injEq] at shown
  refine ⟨system, later, reached, continued,
    lower_tick_starts_first ownedBy system later reached continued 10 30
      (by decide) rfl ten thirty ?_ ?_⟩
  · rw [shown.1]
    exact List.mem_cons_self
  · have begun := shown.2
    exact begun ▸ List.mem_cons_of_mem _ List.mem_cons_self

end NetCore.ReservedExecution
