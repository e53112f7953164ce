import NetCore.QueueDraining
import NetCore.JobSerializer
import NetCore.PendingViews
import Mathlib.Data.Fintype.BigOperators

/-! What a drain of `_jobs` loses stays counted in `_queuedCount`. The jobs of a serializer that are
pending stand between the two first statements of `Push`, in `_jobs`, or in a batch that has been
drained and not been subtracted yet. No step changes the difference between the count and their
number, except a drain that meets a null job, which raises it by one. -/
namespace NetCore.DrainedJobs
open TransitionRuns JobSerializer PriorityQueue QueueDraining

universe u v w x y

variable {Thread : Type w} {Name : Type x} {Job : Type y}

theorem no_null_iff (queue : List (Option (Entry Thread Job))) :
    (queue.any Option.isNone).toNat = 0 ↔ none ∉ queue := by
  rw [Bool.toNat_eq_zero, List.any_eq_false]
  constructor
  · exact fun all member => all none member rfl
  · intro absent item member null
    exact absent (Option.isNone_iff_eq_none.mp null ▸ member)

/-- As many jobs are drained as are removed, unless one of them is null. -/
theorem drained_removed_iff (serializer : Serializer Thread Job) :
    serializer.clear.1.length + serializer.clear.2.jobs.length = serializer.jobs.length ↔
      none ∉ serializer.jobs := by
  have counts := clear_counts serializer.jobs
  rw [← no_null_iff]
  simp only [Serializer.clear]
  omega

def drainsNoNull :
    Condition (System Thread Name Job) (Label Thread Name Job) := fun before label _ =>
  ∀ thread tick name startTick below, label = .advance thread tick →
    before.stack thread = .execDrain name startTick :: below → none ∉ (before.serializers name).jobs

variable [DecidableEq Name]

def weight (name : Name) : Frame Thread Name Job → Nat
  | .pushQueue other _ _ => if other = name then 1 else 0
  | .execLoop other _ currentCount _ => if other = name then currentCount else 0
  | .running other _ currentCount _ _ => if other = name then currentCount else 0
  | _ => 0

def load (name : Name) (stack : List (Frame Thread Name Job)) : Nat := (stack.map (weight name)).sum

@[simp] theorem load_cons (name : Name) (top : Frame Thread Name Job)
    (below : List (Frame Thread Name Job)) :
    load name (top :: below) = weight name top + load name below := by
  rw [load, List.map_cons, List.sum_cons, load]

/-- The jobs that a step removes from `_jobs` and does not hand over: the null one that ends a
drain. -/
def lost (system : System Thread Name Job) (label : Label Thread Name Job) (name : Name) : Nat :=
  match label with
  | .advance thread _ =>
      match system.stack thread with
      | .execDrain other _ :: _ =>
          if other = name then ((system.serializers name).jobs.any Option.isNone).toNat else 0
      | _ => 0
  | _ => 0

theorem lost_small (system : System Thread Name Job) (label : Label Thread Name Job)
    (name : Name) : lost system label name ≤ 1 := by
  unfold lost
  split
  case h_1 =>
    split
    case h_1 =>
      split
      case isTrue => exact Bool.toNat_le _
      case isFalse => exact Nat.zero_le 1
    case h_2 => exact Nat.zero_le 1
  case h_2 => exact Nat.zero_le 1

theorem drains_no_null_iff (before after : System Thread Name Job) (label : Label Thread Name Job) :
    drainsNoNull before label after ↔ ∀ name, lost before label name = 0 := by
  constructor
  · intro clean name
    unfold lost
    split
    case h_1 thread tick =>
      split
      case h_1 other startTick below stands =>
        split
        case isTrue same =>
          rw [no_null_iff, ← same]
          exact clean thread tick other startTick below rfl stands
        case isFalse => rfl
      case h_2 => rfl
    case h_2 => rfl
  · rintro nothing thread tick name startTick below rfl stands
    have none := nothing name
    simp only [lost, stands, if_true] at none
    exact (no_null_iff _).mp none

variable [Fintype Thread]

def pendingJobs (system : System Thread Name Job) (name : Name) : Nat :=
  (system.serializers name).jobs.length + ∑ thread, load name (system.stack thread)

/-- How far `_queuedCount` is above the pending jobs, in its 32 bits. -/
def gap (system : System Thread Name Job) (name : Name) : BitVec 32 :=
  (system.serializers name).queuedCount - BitVec.ofNat 32 (pendingJobs system name)

def CountExact (system : System Thread Name Job) : Prop :=
  ∀ name, (system.serializers name).queuedCount = BitVec.ofNat 32 (pendingJobs system name)

theorem count_exact_iff (system : System Thread Name Job) :
    CountExact system ↔ ∀ name, gap system name = 0 := by
  refine forall_congr' fun name => ?_
  unfold gap
  constructor
  · intro same
    rw [same]
    exact BitVec.sub_self _
  · intro none
    bv_omega

theorem start_exact : CountExact (System.start : System Thread Name Job) := by
  intro name
  simp [pendingJobs, System.start, Serializer.construct, load]

theorem add_zero_gap (before after : System Thread Name Job) (label : Label Thread Name Job)
    (name : Name) (nothing : lost before label name = 0) (same : gap after name = gap before name) :
    gap after name = gap before name + BitVec.ofNat 32 (lost before label name) := by
  rw [nothing, same]
  exact (BitVec.add_zero _).symm

variable [DecidableEq Thread]

theorem load_update (name : Name) (stack : Thread → List (Frame Thread Name Job)) (thread : Thread)
    (new : List (Frame Thread Name Job)) :
    ∑ other, load name (Function.update stack thread new other) + load name (stack thread) =
      ∑ other, load name (stack other) + load name new := by
  have exchange := PendingViews.sum_exchange (fun other => load name (stack other))
    (fun other => load name (Function.update stack thread new other)) thread
    (fun other different => by rw [Function.update_of_ne different])
  simpa only [Function.update_self] using exchange

theorem gap_change (before after : System Thread Name Job) (thread : Thread)
    (new : List (Frame Thread Name Job)) (name : Name) (amount : Nat)
    (stacked : after.stack = Function.update before.stack thread new)
    (balance : (after.serializers name).queuedCount +
        BitVec.ofNat 32 ((before.serializers name).jobs.length + load name (before.stack thread)) =
      (before.serializers name).queuedCount +
        BitVec.ofNat 32 ((after.serializers name).jobs.length + load name new + amount)) :
    gap after name = gap before name + BitVec.ofNat 32 amount := by
  have total := load_update name before.stack thread new
  unfold gap pendingJobs
  rw [stacked]
  bv_omega

theorem gap_steady (before after : System Thread Name Job) (thread : Thread)
    (new : List (Frame Thread Name Job)) (name : Name)
    (stacked : after.stack = Function.update before.stack thread new)
    (count : (after.serializers name).queuedCount = (before.serializers name).queuedCount)
    (jobs : (after.serializers name).jobs = (before.serializers name).jobs)
    (loads : load name new = load name (before.stack thread)) :
    gap after name = gap before name := by
  have unchanged :=
    gap_change before after thread new name 0 stacked (by rw [count, jobs, loads, Nat.add_zero])
  rw [unchanged]
  exact BitVec.add_zero _

theorem gap_serializer (before : System Thread Name Job) (thread : Thread) (other : Name)
    (serializer : Serializer Thread Job) (new : List (Frame Thread Name Job)) (name : Name)
    (amount : Nat)
    (balance : serializer.queuedCount + BitVec.ofNat 32 ((before.serializers other).jobs.length +
      load other (before.stack thread)) = (before.serializers other).queuedCount +
      BitVec.ofNat 32 (serializer.jobs.length + load other new + amount))
    (elsewhere : other ≠ name → load name new = load name (before.stack thread)) :
    gap (setStack (setSerializer before other serializer) thread new) name =
      gap before name + BitVec.ofNat 32 (if other = name then amount else 0) := by
  by_cases this : other = name
  · subst this
    rw [if_pos rfl]
    refine gap_change before _ thread new other amount rfl ?_
    rw [set_stack_serializers, set_serializer_self]
    exact balance
  · have same : (setStack (setSerializer before other serializer) thread new).serializers name =
        before.serializers name :=
      set_serializer_other before other name serializer fun equal => this equal.symm
    rw [if_neg this,
      gap_steady before _ thread new name rfl (by rw [same]) (by rw [same]) (elsewhere this)]
    exact (BitVec.add_zero _).symm

theorem balanced_gap (before : System Thread Name Job) (label : Label Thread Name Job)
    (thread : Thread) (other : Name) (serializer : Serializer Thread Job)
    (new : List (Frame Thread Name Job)) (name : Name) (nothing : lost before label name = 0)
    (balance : serializer.queuedCount + BitVec.ofNat 32 ((before.serializers other).jobs.length +
      load other (before.stack thread)) = (before.serializers other).queuedCount +
      BitVec.ofNat 32 (serializer.jobs.length + load other new))
    (elsewhere : other ≠ name → load name new = load name (before.stack thread)) :
    gap (setStack (setSerializer before other serializer) thread new) name =
      gap before name + BitVec.ofNat 32 (lost before label name) := by
  have kept := gap_serializer before thread other serializer new name 0 balance elsewhere
  rw [kept, ite_self, nothing]

theorem quiet_gap (before after : System Thread Name Job) (label : Label Thread Name Job)
    (thread : Thread) (new : List (Frame Thread Name Job)) (name : Name)
    (nothing : lost before label name = 0)
    (stacked : after.stack = Function.update before.stack thread new)
    (serializers : after.serializers = before.serializers)
    (loads : load name new = load name (before.stack thread)) :
    gap after name = gap before name + BitVec.ofNat 32 (lost before label name) :=
  add_zero_gap before after label name nothing
    (gap_steady before after thread new name stacked (by rw [serializers])
      (by rw [serializers]) loads)

theorem drain_gap (system : System Thread Name Job) (thread : Thread) (tick : UInt64) (other : Name)
    (startTick : UInt64) (below : List (Frame Thread Name Job))
    (stands : system.stack thread = .execDrain other startTick :: below) (name : Name) :
    gap (setStack (setSerializer system other (system.serializers other).clear.2) thread
      (.execLoop other startTick (system.serializers other).clear.1.length
        (system.serializers other).clear.1 ::
        below)) name =
          gap system name + BitVec.ofNat 32 (lost system (.advance thread tick) name) := by
  have counts := clear_counts (system.serializers other).jobs
  have amount : lost system (.advance thread tick) name =
      if other = name then ((system.serializers other).jobs.any Option.isNone).toNat else 0 := by
    simp only [lost, stands]
    split
    case isTrue same => rw [same]
    case isFalse => rfl
  rw [amount]
  refine gap_serializer system thread other _ _ name _ ?_ ?_
  · simp only [stands, load_cons, weight, if_true, Serializer.clear]
    congr 2
    omega
  · intro different
    simp only [stands, load_cons, weight, if_neg different]

section Frames
variable (before after : System Thread Name Job) (thread : Thread) (tick : UInt64)
  (below : List (Frame Thread Name Job)) (name : Name)

theorem push_add_gap (other : Name) (entry : Option (Entry Thread Job))
    (stands : before.stack thread = .pushAdd other entry :: below)
    (taken : advanceFrame before thread tick below (.pushAdd other entry) = some after) :
    gap after name =
        gap before name + BitVec.ofNat 32 (lost before (.advance thread tick) name) := by
  simp only [advanceFrame, Option.some.injEq] at taken
  subst taken
  refine balanced_gap before _ thread other _ _ name (by simp only [lost, stands]) ?_ ?_
  · simp only [stands, load_cons, weight, if_true, Serializer.fetchAdd]
    bv_omega
  · intro different
    simp only [stands, load_cons, weight, if_neg different]

theorem push_queue_gap (other : Name) (entry : Option (Entry Thread Job)) (prevCount : BitVec 32)
    (stands : before.stack thread = .pushQueue other entry prevCount :: below)
    (taken :
      advanceFrame before thread tick below (.pushQueue other entry prevCount) = some after) :
    gap after name =
        gap before name + BitVec.ofNat 32 (lost before (.advance thread tick) name) := by
  simp only [advanceFrame, Option.some.injEq] at taken
  subst taken
  refine balanced_gap before _ thread other _ _ name (by simp only [lost, stands]) ?_ ?_
  · simp only [stands, load_cons, weight, if_true, Serializer.enqueue, LockQueue.push,
      List.length_append, List.length_singleton]
    bv_omega
  · intro different
    simp only [stands, load_cons, weight, if_neg different]

theorem push_test_gap (other : Name) (prevCount : BitVec 32)
    (stands : before.stack thread = .pushTest other prevCount :: below)
    (taken : advanceFrame before thread tick below (.pushTest other prevCount) = some after) :
    gap after name =
        gap before name + BitVec.ofNat 32 (lost before (.advance thread tick) name) := by
  have nothing : lost before (.advance thread tick) name = 0 := by simp only [lost, stands]
  by_cases first : prevCount = 0
  · cases nesting : before.current thread with
    | none =>
        simp only [advanceFrame, first, nesting, if_true, Option.some.injEq] at taken
        subst taken
        exact quiet_gap before _ _ thread _ name nothing rfl rfl (by simp [stands, weight])
    | some current =>
        simp only [advanceFrame, first, nesting, if_true, Option.some.injEq] at taken
        subst taken
        exact quiet_gap before _ _ thread _ name nothing rfl rfl (by simp [stands, weight])
  · simp only [advanceFrame, if_neg first, Option.some.injEq] at taken
    subst taken
    exact quiet_gap before _ _ thread _ name nothing rfl rfl (by simp [stands, weight])

theorem exec_loop_gap (other : Name) (startTick : UInt64) (currentCount : Nat)
    (jobs : List (Entry Thread Job))
    (stands : before.stack thread = .execLoop other startTick currentCount jobs :: below)
    (taken : advanceFrame before thread tick below (.execLoop other startTick currentCount jobs) =
      some after) :
    gap after name =
        gap before name + BitVec.ofNat 32 (lost before (.advance thread tick) name) := by
  cases jobs with
  | nil =>
      simp only [advanceFrame, Option.some.injEq] at taken
      subst taken
      refine balanced_gap before _ thread other _ _ name (by simp only [lost, stands]) ?_ ?_
      · split <;>
          simp only [stands, load_cons, weight, if_true, Serializer.fetchSub] <;>
          bv_omega
      · intro different
        split <;> simp only [stands, load_cons, weight, if_neg different]
  | cons entry rest =>
      simp only [advanceFrame, Option.some.injEq] at taken
      subst taken
      refine balanced_gap before _ thread other _ _ name (by simp only [lost, stands]) ?_ ?_
      · simp only [stands, load_cons, weight, Serializer.begin]
      · intro _
        simp only [stands, load_cons, weight]

theorem exec_clock_gap (other : Name) (startTick : UInt64)
    (stands : before.stack thread = .execClock other startTick :: below)
    (taken : advanceFrame before thread tick below (.execClock other startTick) = some after) :
    gap after name =
        gap before name + BitVec.ofNat 32 (lost before (.advance thread tick) name) := by
  have nothing : lost before (.advance thread tick) name = 0 := by simp only [lost, stands]
  simp only [advanceFrame] at taken
  split at taken
  · rw [Option.some.injEq] at taken
    subst taken
    exact quiet_gap before _ _ thread _ name nothing rfl rfl (by simp [stands, weight])
  · rw [Option.some.injEq] at taken
    subst taken
    exact quiet_gap before _ _ thread _ name nothing rfl rfl (by simp [stands, weight])

theorem do_loop_gap (start : UInt64) (stands : before.stack thread = .doLoop start :: below)
    (taken : advanceFrame before thread tick below (.doLoop start) = some after) :
    gap after name =
        gap before name + BitVec.ofNat 32 (lost before (.advance thread tick) name) := by
  have nothing : lost before (.advance thread tick) name = 0 := by simp only [lost, stands]
  simp only [advanceFrame] at taken
  split at taken
  · rw [Option.some.injEq] at taken
    subst taken
    exact quiet_gap before _ _ thread _ name nothing rfl rfl (by simp [stands, weight])
  · rw [Option.some.injEq] at taken
    subst taken
    exact quiet_gap before _ _ thread _ name nothing rfl rfl (by simp [stands, weight])

theorem do_pop_gap (start : UInt64) (stands : before.stack thread = .doPop start :: below)
    (taken : advanceFrame before thread tick below (.doPop start) = some after) :
    gap after name =
        gap before name + BitVec.ofNat 32 (lost before (.advance thread tick) name) := by
  have nothing : lost before (.advance thread tick) name = 0 := by simp only [lost, stands]
  cases waiting : before.jobQueue with
  | nil =>
      simp only [advanceFrame, waiting, LockQueue.tryPop, Option.some.injEq] at taken
      subst taken
      exact quiet_gap before _ _ thread _ name nothing rfl rfl (by simp [stands, weight])
  | cons other rest =>
      simp only [advanceFrame, waiting, LockQueue.tryPop, Option.some.injEq] at taken
      subst taken
      exact quiet_gap before _ _ thread _ name nothing rfl rfl (by simp [stands, weight])

end Frames

theorem advance_gap (before after : System Thread Name Job) (thread : Thread) (tick : UInt64)
    (top : Frame Thread Name Job) (below : List (Frame Thread Name Job))
    (stands : before.stack thread = top :: below)
    (taken : advanceFrame before thread tick below top = some after) (name : Name) :
    gap after name =
        gap before name + BitVec.ofNat 32 (lost before (.advance thread tick) name) := by
  cases top with
  | pushAdd other entry =>
      exact push_add_gap before after thread tick below name other entry stands taken
  | pushQueue other entry prevCount =>
      exact push_queue_gap before after thread tick below name other entry prevCount stands taken
  | pushTest other prevCount =>
      exact push_test_gap before after thread tick below name other prevCount stands taken
  | execEnter other =>
      simp only [advanceFrame, Option.some.injEq] at taken
      subst taken
      exact quiet_gap before _ _ thread _ name (by simp only [lost, stands]) rfl rfl
        (by simp [stands, weight])
  | execDrain other startTick =>
      simp only [advanceFrame, Option.some.injEq] at taken
      subst taken
      exact drain_gap before thread tick other startTick below stands name
  | execLoop other startTick currentCount jobs =>
      exact exec_loop_gap before after thread tick below name other startTick currentCount jobs
        stands taken
  | running other startTick currentCount entry rest => simp [advanceFrame] at taken
  | execClock other startTick =>
      exact exec_clock_gap before after thread tick below name other startTick stands taken
  | execHandOver other =>
      simp only [advanceFrame, Option.some.injEq] at taken
      subst taken
      exact quiet_gap before _ _ thread _ name (by simp only [lost, stands]) rfl rfl
        (by simp [stands, weight])
  | execLeave =>
      simp only [advanceFrame, Option.some.injEq] at taken
      subst taken
      exact quiet_gap before _ _ thread _ name (by simp only [lost, stands]) rfl rfl
        (by simp [stands, weight])
  | doLoop start => exact do_loop_gap before after thread tick below name start stands taken
  | doPop start => exact do_pop_gap before after thread tick below name start stands taken

/-- Every step leaves the gap of every serializer as it is, except a drain that meets a null job. -/
theorem step_gap (before after : System Thread Name Job) (label : Label Thread Name Job)
    (taken : step before label = some after) (name : Name) :
    gap after name = gap before name + BitVec.ofNat 32 (lost before label name) := by
  cases label with
  | push thread other job =>
      simp only [step, Option.ite_none_right_eq_some, Option.some.injEq] at taken
      obtain ⟨_, rfl⟩ := taken
      exact quiet_gap before _ _ thread _ name rfl rfl rfl (by simp [weight])
  | doJobs thread tick =>
      simp only [step, Option.ite_none_right_eq_some, Option.some.injEq] at taken
      obtain ⟨_, rfl⟩ := taken
      exact quiet_gap before _ _ thread _ name rfl rfl rfl (by simp [weight])
  | finish thread =>
      simp only [step] at taken
      split at taken
      case h_1 other startTick currentCount entry rest below stands =>
        rw [Option.some.injEq] at taken
        subst taken
        refine balanced_gap before _ thread other _ _ name rfl ?_ ?_
        · simp only [stands, load_cons, weight, Serializer.complete]
        · intro _
          simp only [stands, load_cons, weight]
      case h_2 => simp at taken
  | advance thread tick =>
      simp only [step] at taken
      split at taken
      · simp at taken
      case h_2 top below stands =>
        exact advance_gap before after thread tick top below stands taken name
  | setMaxTick thread value =>
      simp only [step, Option.some.injEq] at taken
      subst taken
      exact quiet_gap before _ _ thread _ name rfl (Function.update_eq_self _ _).symm rfl rfl
  | clearJobs =>
      simp only [step, Option.some.injEq] at taken
      subst taken
      exact add_zero_gap _ _ _ name rfl rfl

theorem step_exact_iff (before after : System Thread Name Job) (label : Label Thread Name Job)
    (holds : CountExact before) (taken : step before label = some after) :
    CountExact after ↔ drainsNoNull before label after := by
  rw [count_exact_iff] at holds ⊢
  rw [drains_no_null_iff]
  refine forall_congr' fun name => ?_
  have small := lost_small before label name
  rw [step_gap before after label taken name, holds name]
  constructor
  · intro none
    bv_omega
  · intro none
    rw [none]
    rfl

theorem run_exact (system : System Thread Name Job)
    (reached : Reachable step drainsNoNull System.start system) :
    CountExact system :=
  reachable_invariant step drainsNoNull CountExact System.start start_exact
    (fun before label after holds taken allowed =>
      (step_exact_iff before after label holds taken).mpr allowed)
    system reached

/-- `Clear` drains a container of any type exactly when no item of it converts to false and `T()`
does. A drain of a JobSerializer hands over as many jobs as it removes exactly when it meets no
null, and in every run whose drains meet none the count is that of the pending jobs; the next step
keeps it so exactly when it is no drain that meets one. -/
theorem clear_drains_iff {Item : Type u} {less : Item → Item → Bool} (truth : Item → Bool)
    (default : Item) (popped queue : List Item) (priority : Implementation.{u, v} Item less)
    (heap : priority.Heap) (system : System Thread Name Job)
    (reached : Reachable step drainsNoNull System.start system) :
    (LockQueueDrains truth default popped queue ↔
      (∀ item ∈ queue, truth item = true) ∧ truth default = false) ∧
    (LockPriorityQueueDrains priority truth default popped heap ↔
      (∀ item ∈ priority.contents heap, truth item = true) ∧ truth default = false) ∧
    (∀ serializer : Serializer Thread Job,
      serializer.clear.1.length + serializer.clear.2.jobs.length = serializer.jobs.length ↔
        none ∉ serializer.jobs) ∧
    CountExact system ∧
    ∀ label after, step system label = some after →
      (CountExact after ↔ drainsNoNull system label after) := by
  have holds := run_exact system reached
  exact ⟨lock_queue_drains_iff truth default popped queue,
    lock_priority_queue_drains_iff priority truth default popped heap,
    drained_removed_iff, holds,
    fun label after taken => step_exact_iff system after label holds taken⟩

def drainsNoNullStep (before : System Unit Unit Nat) (label : Label Unit Unit Nat)
    (_ : System Unit Unit Nat) :
    Bool :=
  lost before label () == 0

theorem drains_no_null_sound (before : System Unit Unit Nat) (label : Label Unit Unit Nat)
    (after : System Unit Unit Nat) (checked : drainsNoNullStep before label after = true) :
    drainsNoNull before label after :=
  (drains_no_null_iff before after label).mpr fun _ => beq_iff_eq.mp checked

def pushAndDrain (job : Option Nat) : List (Label Unit Unit Nat) :=
  [.push () () job, .advance () 0, .advance () 0, .advance () 0, .advance () 0, .advance () 0]

theorem truthy_items_drained : ∃ system : System Unit Unit Nat,
    Reachable step drainsNoNull System.start system ∧ (system.serializers ()).queuedCount = 1 ∧
    CountExact system ∧
    LockQueueDrains (fun item : Int => item != 0) 0 [7] [1, -2, 3] ∧
    LockPriorityQueueDrains
      (leastKey (fun left right : Int => decide (right.natAbs < left.natAbs)) Int.natAbs
        fun _ _ => rfl) (fun item => item != 0) 0 [7] [3, 1, -2] := by
  obtain ⟨system, reached, seen⟩ :=
    replay_reachable step drainsNoNull drainsNoNullStep drains_no_null_sound
    (fun system => (system.serializers ()).queuedCount) 1
      (pushAndDrain (some 4)) System.start (by decide)
  have drains := clear_drains_iff (fun item : Int => item != 0) 0 [7] [1, -2, 3]
    (leastKey (fun left right : Int => decide (right.natAbs < left.natAbs)) Int.natAbs
      fun _ _ => rfl)
    [3, 1, -2] system reached
  refine ⟨system, reached, seen, drains.2.2.2.1, drains.1.mpr (by decide),
    drains.2.1.mpr ⟨?_, by decide⟩⟩
  change ∀ item ∈ ([3, 1, -2] : List Int), (item != 0) = true
  decide

/-- A zero among integers ends the drain, and a null job stays counted for ever. -/
theorem default_item_ends_drain :
    (¬ ∀ queue : List Int, LockQueueDrains (fun item => item != 0) 0 [] queue) ∧
    ¬ ∀ system : System Unit Unit Nat, Reachable step (fun _ _ _ => True) System.start system →
      CountExact system := by
  constructor
  · intro promised
    have drained := (lock_queue_drains_iff _ _ _ _).mp (promised [1, 0, 2])
    exact absurd (drained.1 0 (by decide)) (by decide)
  · intro promised
    obtain ⟨system, reached, seen⟩ := replay_reachable step (fun _ _ _ => True) (fun _ _ _ => true)
      (fun _ _ _ _ => trivial)
      (fun system : System Unit Unit Nat =>
        ((system.serializers ()).queuedCount, pendingJobs system ())) (1, 0)
      (pushAndDrain none) System.start (by decide)
    rw [Prod.mk.injEq] at seen
    have counted := promised system reached ()
    rw [seen.1, seen.2] at counted
    revert counted
    decide

end NetCore.DrainedJobs
