import NetCore.JobOrder

/-! What the jobs of a serializer do to it. A job calls a member function of the object that its
serializer is, so it works on members that no lock guards. The functions are given as code that
makes one access at a time, and between two accesses any other thread may move; a function may call
`Push` and `DoJobs` on the way. The object is nevertheless always as if its jobs had been run one
after the other, in the order of the queue. Its members belong to its jobs: code that works on them
from elsewhere is left out. -/
namespace NetCore.JobEffects
open TransitionRuns UniquePlacement JobSerializer ExecutionRight SerializedExecution JobOrder

universe u v w x y
variable {Thread : Type u} {Name : Type v} {Job : Type w} {Data : Type x} {Local : Type y}

/-- The functions behind the jobs. One that has returned makes no more accesses. -/
structure Body (Data : Type x) (Local : Type y) (Job : Type w) where
  first : Job → Local
  access : Local → Option (Data → Local × Data)

inductive Leads (body : Body Data Local Job) (place : Local) (data : Data) :
    Local → Data → Prop where
  | start : Leads body place data place data
  | access {later : Local} {after : Data} (run : Data → Local × Data) :
      Leads body place data later after → body.access later = some run →
      Leads body place data (run after).1 (run after).2

def RunsTo (body : Body Data Local Job) (job : Job) (before after : Data) : Prop :=
  ∃ place, Leads body (body.first job) before place after ∧ body.access place = none

inductive Processed (body : Body Data Local Job) (initial : Data) :
    List (Entry Thread Job) → Data → Prop where
  | start : Processed body initial [] initial
  | next {done : List (Entry Thread Job)} {before after : Data} (entry : Entry Thread Job) :
      Processed body initial done before → RunsTo body entry.job before after →
      Processed body initial (done ++ [entry]) after

/-- `place` is where the job of the serializer that is being executed stands. -/
structure System (Thread : Type u) (Name : Type v) (Job : Type w) (Data : Type x) (Local : Type y)
    where
  jobs : JobSerializer.System Thread Name Job
  data : Name → Data
  place : Name → Option Local

inductive Label (Thread : Type u) (Name : Type v) (Job : Type w) where
  | inner (label : JobSerializer.Label Thread Name Job)
  | work (thread : Thread)

def System.start (initial : Name → Data) : System Thread Name Job Data Local where
  jobs := JobSerializer.System.start
  data := initial
  place := fun _ => none

def begun : List (Frame Thread Name Job) → Option (Name × Entry Thread Job)
  | .execLoop name _ _ (entry :: _) :: _ => some (name, entry)
  | _ => none

def inside : List (Frame Thread Name Job) → Option Name
  | .running name _ _ _ _ :: _ => some name
  | _ => none

variable [DecidableEq Thread] [DecidableEq Name]

def returned (body : Body Data Local Job) (system : System Thread Name Job Data Local)
    (name : Name) : Bool :=
  match system.place name with
  | none => true
  | some place => (body.access place).isNone

def step (body : Body Data Local Job) :
    Step (System Thread Name Job Data Local) (Label Thread Name Job) := fun system label =>
  match label with
  | .inner (.advance thread tick) =>
      (JobSerializer.step system.jobs (.advance thread tick)).map fun jobs =>
        match begun (system.jobs.stack thread) with
        | none => { system with jobs := jobs }
        | some (name, entry) =>
            { system with
              jobs := jobs
              place := Function.update system.place name (some (body.first entry.job)) }
  -- A job ends when its function has returned.
  | .inner (.finish thread) =>
      match inside (system.jobs.stack thread) with
      | none => none
      | some name =>
          if returned body system name then
            (JobSerializer.step system.jobs (.finish thread)).map fun jobs =>
              { system with jobs := jobs, place := Function.update system.place name none }
          else none
  | .inner label =>
      (JobSerializer.step system.jobs label).map fun jobs => { system with jobs := jobs }
  | .work thread =>
      match inside (system.jobs.stack thread) with
      | none => none
      | some name =>
          match system.place name with
          | none => none
          | some place =>
              (body.access place).map fun run =>
                { system with
                  data := Function.update system.data name (run (system.data name)).2
                  place := Function.update system.place name (some (run (system.data name)).1) }

def disciplinedInside (before : System Thread Name Job Data Local) (label : Label Thread Name Job)
    (after : System Thread Name Job Data Local) : Prop :=
  match label with
  | .inner label => disciplined before.jobs label after.jobs
  | .work _ => True

variable (body : Body Data Local Job) (initial : Name → Data)

/-- The members of one object, between its jobs or in the middle of one. -/
def Serial (serializer : Serializer Thread Job) (start data : Data) : Option Local → Prop
  | none => serializer.started = serializer.finished ∧ Processed body start serializer.finished data
  | some place => ∃ entry before, serializer.started = serializer.finished ++ [entry] ∧
      Processed body start serializer.finished before ∧
      Leads body (body.first entry.job) before place data

structure Invariant (system : System Thread Name Job Data Local) : Prop where
  reached : Reachable JobSerializer.step disciplined JobSerializer.System.start system.jobs
  serial : ∀ name, Serial body (system.jobs.serializers name) (initial name) (system.data name)
    (system.place name)

omit [DecidableEq Thread] [DecidableEq Name] in
theorem serial_same (serializer other : Serializer Thread Job) (start data : Data)
    (place : Option Local) (started : other.started = serializer.started)
    (finished : other.finished = serializer.finished)
    (holds : Serial body serializer start data place) : Serial body other start data place := by
  cases place with
  | none =>
      simp only [Serial, started, finished]
      exact holds
  | some place =>
      simp only [Serial, started, finished]
      exact holds

def progress (serializer : Serializer Thread Job) :
    List (Entry Thread Job) × List (Entry Thread Job) :=
  (serializer.started, serializer.finished)

theorem uneventful (before after : JobSerializer.System Thread Name Job)
    (label : JobSerializer.Label Thread Name Job)
    (taken : JobSerializer.step before label = some after)
    (begins : ∀ thread tick, label = .advance thread tick → begun (before.stack thread) = none)
    (ends : ∀ thread, label ≠ .finish thread) (name : Name) :
    progress (after.serializers name) = progress (before.serializers name) := by
  cases step_move before after label taken with
  | quiet _ thread stack _ inert stacked serializers _ _ _ => rw [serializers]
  | call thread name job free => rfl
  | add thread tick owner entry below stands =>
      exact set_serializer_part progress before owner _ (by rfl) name
  | queue thread tick owner entry prevCount below stands =>
      exact set_serializer_part progress before owner _ (by rfl) name
  | drain thread tick owner startTick below stands =>
      exact set_serializer_part progress before owner _ (by rfl) name
  | begin thread tick owner startTick currentCount entry rest below stands =>
      have none := begins thread tick rfl
      rw [stands] at none
      cases none
  | complete thread owner startTick currentCount entry rest below stands =>
      exact absurd rfl (ends thread)
  | subtract thread tick owner startTick currentCount below stands =>
      split <;> exact set_serializer_part progress before owner _ (by rfl) name
  | handOver thread tick owner top below stack stands source => rfl
  | takeOver thread tick owner rest start below stands waiting => rfl
  | cleared => rfl

theorem loop_idle (system : JobSerializer.System Thread Name Job)
    (reached : Reachable JobSerializer.step disciplined JobSerializer.System.start system)
    (thread : Thread) (name : Name) (startTick : UInt64) (currentCount : Nat)
    (jobs : List (Entry Thread Job)) (below : List (Frame Thread Name Job))
    (stands : system.stack thread = .execLoop name startTick currentCount jobs :: below) :
    (system.serializers name).started = (system.serializers name).finished := by
  obtain ⟨batch, represents⟩ := (run_invariant system reached).represented
  have hand :=
    represents.held thread (.execLoop name startTick currentCount jobs)
      (by rw [stands]; simp) name rfl
  have done := (represents.accounts name).done
  rw [hand] at done
  simpa [inHand] using done

theorem running_last (system : JobSerializer.System Thread Name Job)
    (reached : Reachable JobSerializer.step disciplined JobSerializer.System.start system)
    (thread : Thread) (name : Name) (startTick : UInt64) (currentCount : Nat)
    (entry : Entry Thread Job) (jobs : List (Entry Thread Job))
    (below : List (Frame Thread Name Job))
    (stands : system.stack thread = .running name startTick currentCount entry jobs :: below) :
    (system.serializers name).started = (system.serializers name).finished ++ [entry] := by
  obtain ⟨batch, represents⟩ := (run_invariant system reached).represented
  have hand :=
    represents.held thread (.running name startTick currentCount entry jobs) (by rw [stands]; simp)
      name rfl
  have done := (represents.accounts name).done
  rw [hand] at done
  simpa [inHand] using done

omit [DecidableEq Thread] [DecidableEq Name] in
theorem inside_running (stack : List (Frame Thread Name Job)) (name : Name)
    (stands : inside stack = some name) :
    ∃ startTick currentCount entry rest below,
      stack = .running name startTick currentCount entry rest :: below := by
  unfold inside at stands
  split at stands
  case h_1 owner startTick currentCount entry rest below =>
    cases stands
    exact ⟨_, _, _, _, _, rfl⟩
  case h_2 => cases stands

omit [DecidableEq Thread] [DecidableEq Name] in
theorem begun_loop (stack : List (Frame Thread Name Job)) (name : Name) (entry : Entry Thread Job)
    (stands : begun stack = some (name, entry)) :
    ∃ startTick currentCount rest below,
      stack = .execLoop name startTick currentCount (entry :: rest) :: below := by
  unfold begun at stands
  split at stands
  case h_1 owner startTick currentCount first rest below =>
    cases stands
    exact ⟨_, _, _, _, rfl⟩
  case h_2 => cases stands

section Steps
variable (before : System Thread Name Job Data Local) (holds : Invariant body initial before)
include holds

theorem others_serial (jobs : JobSerializer.System Thread Name Job) (data : Name → Data)
    (place : Name → Option Local) (name : Name)
    (reached : Reachable JobSerializer.step disciplined JobSerializer.System.start jobs)
    (others : ∀ other, other ≠ name →
      progress (jobs.serializers other) = progress (before.jobs.serializers other) ∧
      data other = before.data other ∧ place other = before.place other)
    (mine : Serial body (jobs.serializers name) (initial name) (data name) (place name)) :
    Invariant body initial { jobs := jobs, data := data, place := place } := by
  refine ⟨reached, fun other => ?_⟩
  by_cases this : other = name
  · subst other
    exact mine
  · obtain ⟨same, sameData, samePlace⟩ := others other this
    simp only [progress, Prod.mk.injEq] at same
    simp only [sameData, samePlace]
    exact serial_same body _ _ _ _ _ same.1 same.2 (holds.serial other)

theorem quiet_serial (label : JobSerializer.Label Thread Name Job)
    (jobs : JobSerializer.System Thread Name Job)
    (taken : JobSerializer.step before.jobs label = some jobs)
    (allowed : disciplined before.jobs label jobs)
    (begins : ∀ thread tick, label = .advance thread tick → begun (before.jobs.stack thread) = none)
    (ends : ∀ thread, label ≠ .finish thread) :
    Invariant body initial { before with jobs := jobs } := by
  refine ⟨.next _ holds.reached taken allowed, fun name => ?_⟩
  have same := uneventful before.jobs jobs label taken begins ends name
  simp only [progress, Prod.mk.injEq] at same
  exact serial_same body _ _ _ _ _ same.1 same.2 (holds.serial name)

theorem begin_serial (thread : Thread) (tick : UInt64) (jobs : JobSerializer.System Thread Name Job)
    (name : Name) (entry : Entry Thread Job)
    (begins : begun (before.jobs.stack thread) = some (name, entry))
    (taken : JobSerializer.step before.jobs (.advance thread tick) = some jobs)
    (allowed : disciplined before.jobs (.advance thread tick) jobs) :
    Invariant body initial { before with
      jobs := jobs
      place := Function.update before.place name (some (body.first entry.job)) } := by
  obtain ⟨startTick, currentCount, rest, below, stands⟩ := begun_loop _ name entry begins
  have reached := Reachable.next _ holds.reached taken allowed
  have idle := loop_idle before.jobs holds.reached thread name startTick currentCount _ below stands
  simp only [JobSerializer.step, stands, advanceFrame, Option.some.injEq] at taken
  subst jobs
  have old := holds.serial name
  refine others_serial body initial before holds _ before.data _ name reached
    (fun other different => ?_) ?_
  · exact ⟨by rw [set_stack_serializers, set_serializer_other _ _ _ _ different], rfl,
      Function.update_of_ne different _ _⟩
  · rw [Function.update_self, set_stack_serializers, set_serializer_self]
    cases stood : before.place name with
    | some place =>
        rw [stood] at old
        obtain ⟨last, _, started, _⟩ := old
        rw [idle] at started
        simp at started
    | none =>
        rw [stood] at old
        refine ⟨entry, before.data name, ?_, old.2, .start⟩
        simp only [Serializer.begin, idle]

theorem finish_serial (thread : Thread) (jobs : JobSerializer.System Thread Name Job) (name : Name)
    (within : inside (before.jobs.stack thread) = some name)
    (done : returned body before name = true)
    (taken : JobSerializer.step before.jobs (.finish thread) = some jobs)
    (allowed : disciplined before.jobs (.finish thread) jobs) :
    Invariant body initial { before with
        jobs := jobs, place := Function.update before.place name none } := by
  obtain ⟨startTick, currentCount, entry, rest, below, stands⟩ := inside_running _ name within
  have reached := Reachable.next _ holds.reached taken allowed
  have last :=
    running_last before.jobs holds.reached thread name startTick currentCount
      entry rest below stands
  simp only [JobSerializer.step, stands, Option.some.injEq] at taken
  subst jobs
  have old := holds.serial name
  refine others_serial body initial before holds _ before.data _ name reached
    (fun other different => ?_) ?_
  · exact ⟨by rw [set_stack_serializers, set_serializer_other _ _ _ _ different], rfl,
      Function.update_of_ne different _ _⟩
  · rw [Function.update_self, set_stack_serializers, set_serializer_self]
    cases stood : before.place name with
    | none =>
        rw [stood] at old
        rw [old.1] at last
        simp at last
    | some place =>
        rw [stood] at old
        obtain ⟨job, start, started, processed, leads⟩ := old
        rw [started, List.append_cancel_left_eq, List.singleton_inj] at last
        subst job
        simp only [returned, stood, Option.isNone_iff_eq_none] at done
        exact ⟨started, .next entry processed ⟨place, leads, done⟩⟩

theorem work_serial (name : Name) (place : Local) (run : Data → Local × Data)
    (stood : before.place name = some place) (accesses : body.access place = some run) :
    Invariant body initial { before with
      data := Function.update before.data name (run (before.data name)).2
      place := Function.update before.place name (some (run (before.data name)).1) } := by
  have old := holds.serial name
  rw [stood] at old
  obtain ⟨entry, start, started, processed, leads⟩ := old
  refine others_serial body initial before holds before.jobs _ _ name holds.reached
    (fun other different => ?_) ?_
  · exact ⟨rfl, Function.update_of_ne different _ _, Function.update_of_ne different _ _⟩
  · rw [Function.update_self, Function.update_self]
    exact ⟨entry, start, started, processed, .access run leads accesses⟩

theorem step_serial (after : System Thread Name Job Data Local) (label : Label Thread Name Job)
    (taken : step body before label = some after) (allowed : disciplinedInside before label after) :
    Invariant body initial after := by
  cases label with
  | work thread =>
      simp only [step] at taken
      cases within : inside (before.jobs.stack thread) with
      | none => simp [within] at taken
      | some name =>
          cases stood : before.place name with
          | none => simp [within, stood] at taken
          | some place =>
              simp only [within, stood] at taken
              obtain ⟨run, accesses, rfl⟩ := Option.map_eq_some_iff.mp taken
              exact work_serial body initial before holds name place run stood accesses
  | inner label =>
      cases label with
      | advance thread tick =>
          obtain ⟨jobs, moved, rfl⟩ := Option.map_eq_some_iff.mp taken
          cases begins : begun (before.jobs.stack thread) with
          | none =>
              have allowed : disciplined before.jobs (.advance thread tick) jobs := by
                simpa only [disciplinedInside, begins] using allowed
              refine quiet_serial body initial before holds _ jobs moved allowed ?_
                (fun _ same => by cases same)
              intro other _ same
              cases same
              exact begins
          | some pair =>
              obtain ⟨name, entry⟩ := pair
              have allowed : disciplined before.jobs (.advance thread tick) jobs := by
                simpa only [disciplinedInside, begins] using allowed
              exact begin_serial body initial before holds thread tick jobs name entry
                begins moved allowed
      | finish thread =>
          simp only [step] at taken
          cases within : inside (before.jobs.stack thread) with
          | none => simp [within] at taken
          | some name =>
              simp only [within, Option.ite_none_right_eq_some] at taken
              obtain ⟨done, taken⟩ := taken
              obtain ⟨jobs, moved, rfl⟩ := Option.map_eq_some_iff.mp taken
              exact finish_serial body initial before holds thread jobs name within
                done moved allowed
      | push thread name job =>
          simp only [step] at taken
          obtain ⟨jobs, moved, rfl⟩ := Option.map_eq_some_iff.mp taken
          exact quiet_serial body initial before holds _ jobs moved allowed (by simp) (by simp)
      | doJobs thread tick =>
          simp only [step] at taken
          obtain ⟨jobs, moved, rfl⟩ := Option.map_eq_some_iff.mp taken
          exact quiet_serial body initial before holds _ jobs moved allowed (by simp) (by simp)
      | setMaxTick thread value =>
          simp only [step] at taken
          obtain ⟨jobs, moved, rfl⟩ := Option.map_eq_some_iff.mp taken
          exact quiet_serial body initial before holds _ jobs moved allowed (by simp) (by simp)
      | clearJobs =>
          simp only [step] at taken
          obtain ⟨jobs, moved, rfl⟩ := Option.map_eq_some_iff.mp taken
          exact quiet_serial body initial before holds _ jobs moved allowed (by simp) (by simp)

end Steps

theorem start_serial :
    Invariant body initial (System.start initial : System Thread Name Job Data Local) where
  reached := .start
  serial _ := And.intro rfl .start

theorem reachable_serial (system : System Thread Name Job Data Local)
    (reached : Reachable (step body) disciplinedInside (System.start initial) system) :
    Invariant body initial system :=
  reachable_invariant (step body) disciplinedInside (Invariant body initial) _
    (start_serial body initial)
    (fun before label after holds taken allowed =>
      step_serial body initial before holds after label taken allowed)
    system reached

theorem idle_finished (system : JobSerializer.System Thread Name Job)
    (reached : Reachable JobSerializer.step disciplined JobSerializer.System.start system)
    (outside : ∀ thread, system.stack thread = []) (drained : system.jobQueue = []) (name : Name) :
    (system.serializers name).finished = (system.serializers name).enqueued := by
  obtain ⟨batch, represents⟩ := (run_invariant system reached).represented
  have account := represents.accounts name
  have dead : counted (system.serializers name) (batch name) = 0 := by
    by_contra live
    obtain ⟨place, member⟩ := (represents.placed.covers name).mp (Nat.pos_of_ne_zero live)
    cases place with
    | global => simp [contents, drained] at member
    | thread thread => simp [contents, outside thread] at member
  have idle := batch_empty _ _ account dead
  have empty : (system.serializers name).jobs = [] := by
    unfold counted at dead
    exact List.length_eq_zero_iff.mp (by omega)
  have order := account.order
  have done := account.done
  simp only [idle, Batch.empty, empty, List.append_nil] at order done
  rw [← done]
  exact (List.map_injective_iff.mpr (fun _ _ same => Option.some.inj same) order).symm

/-- The members of every serializer are what its jobs make of them one after the other in the order
of its queue: all the finished ones, and the one in execution as far as it has come, as if nothing
else had run meanwhile. With nothing left to do these are all the jobs. -/
theorem jobs_run_serially (system : System Thread Name Job Data Local)
    (reached : Reachable (step body) disciplinedInside (System.start initial) system)
    (name : Name) :
    Serial body (system.jobs.serializers name) (initial name) (system.data name)
      (system.place name) ∧
    (system.jobs.serializers name).started <+: (system.jobs.serializers name).enqueued ∧
    ((∀ thread, system.jobs.stack thread = []) → system.jobs.jobQueue = [] →
      Processed body (initial name) (system.jobs.serializers name).enqueued
        (system.data name)) := by
  have holds := reachable_serial body initial system reached
  obtain ⟨batch, represents⟩ := (run_invariant system.jobs holds.reached).represented
  have first := started_are_first _ _ (represents.accounts name)
  refine ⟨holds.serial name, first, fun outside drained => ?_⟩
  have all := idle_finished system.jobs holds.reached outside drained name
  have serial := holds.serial name
  cases stood : system.place name with
  | none =>
      rw [stood] at serial
      rw [← all]
      exact serial.2
  | some place =>
      rw [stood] at serial
      obtain ⟨entry, _, started, _⟩ := serial
      have shorter := first.length_le
      rw [started, all, List.length_append, List.length_singleton] at shorter
      omega

inductive Adding where
  | read (amount : Nat)
  | write (sum : Nat)
  | done
  deriving DecidableEq

def adder : Body Nat Adding Nat where
  first amount := .read amount
  access
    | .read amount => some fun counter => (.write (counter + amount), counter)
    | .write sum => some fun _ => (.done, sum)
    | .done => none

def disciplinedInsideStep (before : System Bool Bool Nat Nat Adding) (label : Label Bool Bool Nat)
    (after : System Bool Bool Nat Nat Adding) : Bool :=
  match label with
  | .inner label => disciplinedStep before.jobs label after.jobs
  | .work _ => true

/-- The second thread pushes while the first one is between the two accesses of its job. -/
def addingLabels : List (Label Bool Bool Nat) :=
  [.inner (.push true true (some 1)), .inner (.advance true 0), .inner (.advance true 0),
   .inner (.advance true 0), .inner (.advance true 5), .inner (.advance true 5),
   .inner (.advance true 5), .work true, .inner (.push false true (some 3)),
   .inner (.advance false 5), .inner (.advance false 5), .inner (.advance false 5), .work true,
   .inner (.finish true), .inner (.advance true 6), .inner (.advance true 6),
   .inner (.advance true 6), .inner (.advance true 6), .work true, .work true,
   .inner (.finish true), .inner (.advance true 6), .inner (.advance true 6)]

theorem jobs_run_serially_adding : ∃ system : System Bool Bool Nat Nat Adding,
    system.data true = 4 ∧ (system.jobs.serializers true).enqueued = [⟨1, true, 0⟩, ⟨3, false, 0⟩] ∧
    Processed adder 0 (system.jobs.serializers true).enqueued (system.data true) := by
  obtain ⟨system, reached, seen⟩ :=
    replay_reachable (step adder) disciplinedInside disciplinedInsideStep
    (fun before label after checked => by
      cases label with
      | inner label => exact disciplined_step_sound before.jobs label after.jobs checked
      | work thread => trivial)
    (fun system : System Bool Bool Nat Nat Adding =>
      (system.data true, (system.jobs.serializers true).enqueued, system.jobs.jobQueue,
        (system.jobs.stack true).length, (system.jobs.stack false).length))
    (4, [⟨1, true, 0⟩, ⟨3, false, 0⟩], [], 0, 0) addingLabels (System.start fun _ => 0) (by decide)
  simp only [Prod.mk.injEq, List.length_eq_zero_iff] at seen
  obtain ⟨sum, enqueued, drained, first, second⟩ := seen
  have outside : ∀ thread, system.jobs.stack thread = [] := by
    intro thread
    cases thread with
    | true => exact first
    | false => exact second
  exact ⟨system, sum, enqueued,
    (jobs_run_serially adder (fun _ => 0) system reached true).2.2 outside drained⟩

end NetCore.JobEffects
