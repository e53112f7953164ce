import NetCore.JobSystem

/-! A serializer with counted jobs can be reached. Its name is in the global queue, or a
thread carries the right to execute it: the `Push` that found the count at zero, or an
execution that has not brought it back to zero. Nothing else is needed of the counts, so
this holds under overflow, null jobs and direct calls of `ExecuteJobs` as well. The one
operation that drops a name without a thread to take over is `ClearJobs`. -/
namespace NetCore.Schedulability
open TransitionRuns PriorityQueue JobSerializer ExecutionRight SerializedExecution
open ReservationOrder (leastTick)

universe u v w x y
variable {Thread : Type u} {Name : Type x} {Job : Type w}

def Held (core : JobSerializer.System Thread Name Job) (name : Name) : Prop :=
  ∃ thread, name ∈ (core.stack thread).filterMap right

def Schedulable (core : JobSerializer.System Thread Name Job) : Prop :=
  ∀ name, (core.serializers name).queuedCount ≠ 0 → name ∈ core.jobQueue ∨ Held core name

theorem rights_below (top : Frame Thread Name Job) (below : List (Frame Thread Name Job))
    (name : Name) (carried : name ∈ below.filterMap right) :
    name ∈ (top :: below).filterMap right := by
  rw [List.filterMap_cons]
  split
  · exact carried
  · exact List.mem_cons_of_mem _ carried

variable [DecidableEq Thread]

/-- A step of one thread: a name that leaves the queue goes to the thread, a right that
leaves the thread goes to the queue or is not needed any more, and who raises a count from
zero has the right. -/
theorem schedulable_step (before after : JobSerializer.System Thread Name Job)
    (holds : Schedulable before) (thread : Thread) (stack : List (Frame Thread Name Job))
    (stacked : after.stack = Function.update before.stack thread stack)
    (queued : ∀ name ∈ before.jobQueue, name ∈ after.jobQueue ∨ name ∈ stack.filterMap right)
    (rights : ∀ name ∈ (before.stack thread).filterMap right, name ∈ stack.filterMap right ∨
      name ∈ after.jobQueue ∨ (after.serializers name).queuedCount = 0)
    (counts : ∀ name, (after.serializers name).queuedCount ≠ 0 →
      (before.serializers name).queuedCount ≠ 0 ∨ name ∈ stack.filterMap right) :
    Schedulable after := by
  have taken : ∀ name, name ∈ stack.filterMap right → Held after name := by
    intro name member
    exact ⟨thread, by rw [stacked, Function.update_self]; exact member⟩
  intro name pending
  rcases counts name pending with counted | obtained
  · rcases holds name counted with waiting | ⟨actor, carried⟩
    · exact (queued name waiting).imp_right (taken name)
    · by_cases mine : actor = thread
      · rcases rights name (mine ▸ carried) with kept | passed | done
        · exact .inr (taken name kept)
        · exact .inl passed
        · exact absurd done pending
      · exact .inr ⟨actor, by rw [stacked, Function.update_of_ne mine]; exact carried⟩
  · exact .inr (taken name obtained)

theorem schedulable_frame (before after : JobSerializer.System Thread Name Job)
    (holds : Schedulable before) (thread : Thread) (stack : List (Frame Thread Name Job))
    (stacked : after.stack = Function.update before.stack thread stack)
    (jobQueue : after.jobQueue = before.jobQueue)
    (rights : ∀ name ∈ (before.stack thread).filterMap right, name ∈ stack.filterMap right)
    (counts : ∀ name, (after.serializers name).queuedCount =
      (before.serializers name).queuedCount) :
    Schedulable after :=
  schedulable_step before after holds thread stack stacked
    (fun _ waiting => .inl (by rw [jobQueue]; exact waiting))
    (fun name carried => .inl (rights name carried))
    (fun name pending => .inl (by rw [← counts]; exact pending))

variable [DecidableEq Name]

theorem call_schedulable (core : JobSerializer.System Thread Name Job) (holds : Schedulable core)
    (thread : Thread) (name : Name) (job : Option Job) :
    Schedulable (callPush core thread name job) :=
  schedulable_frame core _ holds thread _ rfl rfl (fun _ carried => carried) fun _ => rfl

theorem schedulable_serializer (before : JobSerializer.System Thread Name Job)
    (holds : Schedulable before) (thread : Thread) (name : Name)
    (serializer : Serializer Thread Job) (stack : List (Frame Thread Name Job))
    (counted : serializer.queuedCount = (before.serializers name).queuedCount)
    (rights : (before.stack thread).filterMap right = stack.filterMap right) :
    Schedulable (setStack (setSerializer before name serializer) thread stack) := by
  refine schedulable_frame before _ holds thread stack rfl rfl ?_
    (set_serializer_part (·.queuedCount) before name serializer counted)
  intro other carried
  rwa [← rights]

omit [DecidableEq Thread] [DecidableEq Name] in
/-- When the counts compare equal, the subtraction leaves zero. -/
theorem matched_zero (serializer : Serializer Thread Job) (currentCount : Nat)
    (matched : countMatches serializer.queuedCount currentCount = true) :
    (serializer.fetchSub currentCount).queuedCount = 0 := by
  have same : serializer.queuedCount.signExtend 64 = BitVec.ofNat 64 currentCount := by
    simpa [countMatches] using matched
  have low : serializer.queuedCount = BitVec.ofNat 32 currentCount := by
    have truncated := congrArg (BitVec.setWidth 32) same
    rw [BitVec.setWidth_ofNat_of_le (by decide)] at truncated
    rw [← truncated]
    ext bit inside
    have wide : bit < 64 := by omega
    simp [BitVec.getElem_signExtend, inside, wide]
  simp only [Serializer.fetchSub, low, BitVec.sub_self]
  rfl

theorem add_schedulable (before : JobSerializer.System Thread Name Job)
    (holds : Schedulable before) (thread : Thread) (name : Name)
    (entry : Option (Entry Thread Job)) (below : List (Frame Thread Name Job))
    (stands : before.stack thread = .pushAdd name entry :: below) :
    Schedulable
      (setStack (setSerializer before name ((before.serializers name).fetchAdd thread)) thread
        (.pushQueue name entry (before.serializers name).queuedCount :: below)) := by
  refine schedulable_step before _ holds thread _ rfl (fun _ waiting => .inl waiting) ?_ ?_
  · intro other carried
    rw [stands] at carried
    exact .inl (rights_below _ below other carried)
  · intro other pending
    by_cases this : other = name
    · subst this
      by_cases first : (before.serializers other).queuedCount = 0
      · exact .inr (by simp [right, first])
      · exact .inl first
    · rw [set_stack_serializers, set_serializer_other _ _ _ _ this] at pending
      exact .inl pending

theorem subtract_schedulable (before : JobSerializer.System Thread Name Job)
    (holds : Schedulable before) (thread : Thread) (name : Name) (startTick : UInt64)
    (currentCount : Nat) (below : List (Frame Thread Name Job))
    (stands : before.stack thread = .execLoop name startTick currentCount [] :: below) :
    Schedulable
      (setStack (setSerializer before name ((before.serializers name).fetchSub currentCount)) thread
        (if countMatches (before.serializers name).queuedCount currentCount then .execLeave :: below
        else .execClock name startTick :: below)) := by
  -- The right is given up only when the count has come back to zero.
  cases matched : countMatches (before.serializers name).queuedCount currentCount with
  | true =>
      have zero := matched_zero (before.serializers name) currentCount matched
      refine schedulable_step before _ holds thread _ rfl (fun _ waiting => .inl waiting) ?_ ?_
      · intro other carried
        rw [stands] at carried
        rcases List.mem_cons.mp carried with rfl | deeper
        · right
          right
          rw [set_stack_serializers, set_serializer_self]
          exact zero
        · exact .inl deeper
      · intro other pending
        rw [set_stack_serializers] at pending
        by_cases this : other = name
        · subst this
          rw [set_serializer_self] at pending
          exact absurd zero pending
        · rw [set_serializer_other _ _ _ _ this] at pending
          exact .inl pending
  | false =>
      refine schedulable_step before _ holds thread _ rfl (fun _ waiting => .inl waiting) ?_ ?_
      · intro other carried
        rw [stands] at carried
        exact .inl carried
      · intro other pending
        rw [set_stack_serializers] at pending
        by_cases this : other = name
        · exact .inr (this ▸ List.mem_cons_self)
        · rw [set_serializer_other _ _ _ _ this] at pending
          exact .inl pending

omit [DecidableEq Name] in
theorem hand_over_schedulable (before : JobSerializer.System Thread Name Job)
    (holds : Schedulable before) (thread : Thread) (name : Name) (top : Frame Thread Name Job)
    (below stack : List (Frame Thread Name Job)) (stands : before.stack thread = top :: below)
    (source : top = .pushTest name 0 ∧ stack = below ∨ top = .execHandOver name ∧
      stack = .execLeave :: below) :
    Schedulable (setStack (addJobSerializer before name) thread stack) := by
  refine schedulable_step before _ holds thread stack rfl
    (fun _ waiting => .inl (List.mem_append_left _ waiting)) ?_ (fun _ pending => .inl pending)
  intro other carried
  rw [stands] at carried
  have passed : other = name ∨ other ∈ stack.filterMap right := by
    rcases source with ⟨rfl, rfl⟩ | ⟨rfl, rfl⟩ <;> exact List.mem_cons.mp carried
  rcases passed with rfl | deeper
  · exact .inr (.inl (List.mem_append_right _ (List.mem_singleton.mpr rfl)))
  · exact .inl deeper

omit [DecidableEq Name] in
theorem take_over_schedulable (before : JobSerializer.System Thread Name Job)
    (holds : Schedulable before) (thread : Thread) (name : Name) (rest : List Name)
    (start : UInt64) (below : List (Frame Thread Name Job))
    (stands : before.stack thread = .doPop start :: below)
    (waiting : before.jobQueue = name :: rest) :
    Schedulable (setStack { before with jobQueue := rest } thread
        (.execEnter name :: .doLoop start :: below)) := by
  refine schedulable_step before _ holds thread _ rfl ?_ ?_ (fun _ pending => .inl pending)
  · intro other queued
    rw [waiting] at queued
    rcases List.mem_cons.mp queued with rfl | later
    · exact .inr List.mem_cons_self
    · exact .inl later
  · intro other carried
    rw [stands] at carried
    exact .inl (List.mem_cons_of_mem _ carried)

theorem move_schedulable (before after : JobSerializer.System Thread Name Job)
    (label : JobSerializer.Label Thread Name Job) (holds : Schedulable before)
    (move : Move before label after) (kept : label ≠ .clearJobs) : Schedulable after := by
  cases move with
  | quiet _ thread stack _ inert stacked serializers jobQueue _ _ =>
      refine schedulable_frame before after holds thread stack stacked jobQueue ?_ fun name =>
        by rw [serializers]
      intro name carried
      rw [inert.rights]
      exact carried
  | call thread name job _ => exact call_schedulable before holds thread name job
  | add thread _ name entry below stands =>
      exact add_schedulable before holds thread name entry below stands
  | queue thread _ name entry prevCount below stands =>
      exact schedulable_serializer before holds thread name _ _ rfl (by rw [stands]; rfl)
  | drain thread _ name startTick below stands =>
      exact schedulable_serializer before holds thread name _ _ rfl (by rw [stands]; rfl)
  | begin thread _ name startTick currentCount entry rest below stands =>
      exact schedulable_serializer before holds thread name _ _ rfl (by rw [stands]; rfl)
  | complete thread name startTick currentCount entry rest below stands =>
      exact schedulable_serializer before holds thread name _ _ rfl (by rw [stands]; rfl)
  | subtract thread _ name startTick currentCount below stands =>
      exact subtract_schedulable before holds thread name startTick currentCount below stands
  | handOver thread _ name top below stack stands source =>
      exact hand_over_schedulable before holds thread name top below stack stands source
  | takeOver thread _ name rest start below stands waiting =>
      exact take_over_schedulable before holds thread name rest start below stands waiting
  | cleared => exact absurd rfl kept

section Runs
variable {Handle : Type v} [DecidableEq Handle] {executionTick : Handle → UInt64}
variable {queue : Implementation.{v, y} Handle (ReservedJobs.reservableJobCompare executionTick)}
variable (owner : Handle → Name)

/-- `ClearJobs` drops only serializers without counted jobs, or such that a thread is at
work on. -/
def sparing :
    Condition (JobSystem.System queue Thread Name Job) (JobSystem.Label Thread Handle Name Job) :=
  fun before label _ => label = .clearJobs → ∀ name ∈ before.core.jobQueue,
    (before.core.serializers name).queuedCount ≠ 0 → Held before.core name

theorem step_schedulable (before after : JobSystem.System queue Thread Name Job)
    (label : JobSystem.Label Thread Handle Name Job) (holds : Schedulable before.core)
    (taken : JobSystem.step owner before label = some after)
    (allowed : sparing before label after) :
    Schedulable after.core := by
  cases JobSystem.step_effect owner before after label taken with
  | core _ inner core moved kept _ =>
      exact move_schedulable before.core core inner holds
        (SerializedExecution.step_move _ _ _ moved) kept
  | executed thread name _ =>
      exact schedulable_frame before.core _ holds thread _ rfl rfl
        (fun other carried => rights_below _ _ other carried) fun _ => rfl
  | scheduled name =>
      intro other pending
      exact (holds other pending).imp_left (List.mem_append_left _)
  | cleared =>
      intro name pending
      rcases holds name pending with waiting | held
      · exact .inr (allowed rfl name waiting pending)
      · exact .inr held
  | worker | forgot => exact holds
  | gave thread _ _ handle _ _ => exact call_schedulable before.core holds thread (owner handle) _

/-- When every thread has returned from `Push`, `ExecuteJobs` and `DoJobs`, a serializer
with counted jobs is in the global queue. -/
theorem pending_serializer_queued (system : JobSystem.System queue Thread Name Job)
    (reached : Reachable (JobSystem.step owner) sparing (JobSystem.System.start queue) system)
    (returned : ∀ thread, system.core.stack thread = []) (name : Name)
    (pending : (system.core.serializers name).queuedCount ≠ 0) : name ∈ system.core.jobQueue := by
  have starts :
      Schedulable (JobSystem.System.start queue : JobSystem.System queue Thread Name Job).core :=
    fun _ counted => absurd rfl counted
  have holds := reachable_invariant (JobSystem.step owner) sparing
    (fun system => Schedulable system.core) (JobSystem.System.start queue) starts
    (fun before label after => step_schedulable owner before after label) system reached
  rcases holds name pending with waiting | ⟨thread, carried⟩
  · exact waiting
  · rw [returned thread] at carried
    cases carried

end Runs

/-- A job of one serializer pushes to another one, which is left to the global queue. -/
def leftBehind : List (JobSystem.Label Unit Nat Bool Nat) :=
  [.push () true (some 1), .advance () 0, .advance () 0, .advance () 0, .advance () 0,
   .advance () 0, .advance () 0, .push () false (some 2), .advance () 0, .advance () 0,
   .advance () 0, .finish (), .advance () 0, .advance () 0]

/-- `ClearJobs` is called while the queue holds only a serializer without jobs. -/
def idleCleared : List (JobSystem.Label Unit Nat Bool Nat) :=
  [.addJobSerializer false, .clearJobs] ++ leftBehind

theorem left_behind_queued : ∃ system : JobSystem.System leastTick Unit Bool Nat,
    Reachable (JobSystem.step fun _ => true) sparing (JobSystem.System.start _) system ∧
    (system.core.serializers false).queuedCount = 1 ∧ false ∈ system.core.jobQueue := by
  obtain ⟨system, reached, seen⟩ := replay_reachable (JobSystem.step fun _ => true) sparing
    (fun before label _ => match label with
      | .clearJobs => before.core.jobQueue.all fun name =>
          (before.core.serializers name).queuedCount == 0
      | _ => true)
    (fun before label _ checked same name member pending => by
      rw [same] at checked
      exact absurd (eq_of_beq (List.all_eq_true.mp checked name member)) pending)
    (fun system : JobSystem.System leastTick Unit Bool Nat =>
      ((system.core.stack ()).length, (system.core.serializers false).queuedCount))
    (0, 1) idleCleared (JobSystem.System.start _) (by decide)
  simp only [Prod.mk.injEq, List.length_eq_zero_iff] at seen
  obtain ⟨returned, counted⟩ := seen
  refine ⟨system, reached, counted, ?_⟩
  exact pending_serializer_queued (fun _ => true) system reached (fun _ => returned) false
    (by rw [counted]; decide)

/-- After `ClearJobs` the same serializer keeps its job and is nowhere to be found. -/
theorem cleared_serializer_lost :
    ¬ ∀ system : JobSystem.System leastTick Unit Bool Nat,
      Reachable (JobSystem.step fun _ => true) (fun _ _ _ => True)
        (JobSystem.System.start _) system →
      (∀ thread, system.core.stack thread = []) →
      ∀ name, (system.core.serializers name).queuedCount ≠ 0 → name ∈ system.core.jobQueue := by
  intro promised
  obtain ⟨system, reached, seen⟩ :=
    replay_reachable (JobSystem.step fun _ => true) (fun _ _ _ => True)
    (fun _ _ _ => true) (fun _ _ _ _ => trivial)
    (fun system : JobSystem.System leastTick Unit Bool Nat =>
      ((system.core.stack ()).length, (system.core.serializers false).queuedCount,
        system.core.jobQueue))
    (0, 1, []) (leftBehind ++ [.clearJobs]) (JobSystem.System.start _) (by decide)
  simp only [Prod.mk.injEq, List.length_eq_zero_iff] at seen
  obtain ⟨returned, counted, nowhere⟩ := seen
  have member := promised system reached (fun _ => returned) false (by rw [counted]; decide)
  rw [nowhere] at member
  cases member

end NetCore.Schedulability
