import NetCore.EndingRuns
import NetCore.JobEffects
import NetCore.PendingViews
import Mathlib.Data.Fintype.BigOperators

/-! How the work of the job system comes to an end. With no `Push` before its `_jobs.Push`, each
drain takes at least one job, so that every step takes something off a sum over the jobs that wait,
the activations and the global queue: no schedule and no clock readings keep the threads busy for
longer. From any other state the calls of `Push` are finished first, and `DoJobs` empties what was
handed over. The jobs of this module call nothing. -/
namespace NetCore.JobCompletion
open TransitionRuns EndingRuns JobSerializer ExecutionRight SerializedExecution JobOrder JobEffects

universe u v w
variable {Thread : Type u} {Name : Type v} {Job : Type w}

def Quiet (system : JobSerializer.System Thread Name Job) : Prop :=
  ∀ thread, (system.stack thread).filterMap entering = []

/-- The steps a frame can take by itself, with what the jobs it has drained take. -/
def base : Frame Thread Name Job → Nat
  | .pushAdd _ _ => 0
  | .pushQueue _ _ _ => 0
  | .pushTest _ _ => 7
  | .execEnter _ => 3
  | .execDrain _ _ => 2
  | .execLoop _ _ _ rest => 10 + 2 * rest.length
  | .running _ _ _ _ rest => 11 + 2 * rest.length
  | .execClock _ _ => 9
  | .execHandOver _ => 8
  | .execLeave => 1
  | .doLoop _ => 2
  | .doPop _ => 1

/-- The jobs that wait in `_jobs` go with the right to execute them. -/
def worth (waiting : Name → Nat) (frame : Frame Thread Name Job) : Nat :=
  base frame + ((right frame).map fun name => 11 * waiting name).getD 0

def stackWorth (waiting : Name → Nat) (stack : List (Frame Thread Name Job)) : Nat :=
  (stack.map (worth waiting)).sum

def queueWorth (waiting : Name → Nat) (jobQueue : List Name) : Nat :=
  (jobQueue.map fun name => 6 + 11 * waiting name).sum

def waiting (system : JobSerializer.System Thread Name Job) (name : Name) : Nat :=
  (system.serializers name).jobs.length

@[simp] theorem stack_worth_cons (waiting : Name → Nat) (top : Frame Thread Name Job)
    (below : List (Frame Thread Name Job)) :
    stackWorth waiting (top :: below) = worth waiting top + stackWorth waiting below := by
  rw [stackWorth, List.map_cons, List.sum_cons, stackWorth]

@[simp] theorem queue_worth_cons (waiting : Name → Nat) (name : Name) (rest : List Name) :
    queueWorth waiting (name :: rest) = 6 + 11 * waiting name + queueWorth waiting rest := by
  rw [queueWorth, List.map_cons, List.sum_cons, queueWorth]

@[simp] theorem queue_worth_push (waiting : Name → Nat) (name : Name) (queue : List Name) :
    queueWorth waiting (LockQueue.push queue name) = queueWorth waiting queue +
        (6 + 11 * waiting name) := by
  simp [LockQueue.push, queueWorth]

theorem stack_worth_congr (before after : Name → Nat) (stack : List (Frame Thread Name Job))
    (same : ∀ frame ∈ stack, ∀ name, right frame = some name → after name = before name) :
    stackWorth after stack = stackWorth before stack := by
  refine congrArg List.sum (List.map_congr_left fun frame member => ?_)
  unfold worth
  cases carried : right frame with
  | none => rfl
  | some name => simp only [Option.map_some, Option.getD_some, same frame member name carried]

theorem queue_worth_congr (before after : Name → Nat) (queue : List Name)
    (same : ∀ name ∈ queue, after name = before name) :
    queueWorth after queue = queueWorth before queue := by
  refine congrArg List.sum (List.map_congr_left fun name member => ?_)
  rw [same name member]

def work [Fintype Thread] (system : JobSerializer.System Thread Name Job) : Nat :=
  ∑ thread,
    stackWorth (waiting system) (system.stack thread) + queueWorth (waiting system) system.jobQueue

def proceeds : JobSerializer.Label Thread Name Job → Prop
  | .advance _ _ => True
  | .finish _ => True
  | _ => False

variable [DecidableEq Thread] [DecidableEq Name]

section Work
variable [Fintype Thread]

omit [DecidableEq Name] in
theorem work_falls (before after : JobSerializer.System Thread Name Job) (thread : Thread)
    (stack : List (Frame Thread Name Job))
    (stacked : after.stack = Function.update before.stack thread stack)
    (others : ∀ other, other ≠ thread → stackWorth (waiting after) (before.stack other) =
      stackWorth (waiting before) (before.stack other))
    (less : stackWorth (waiting after) stack + queueWorth (waiting after) after.jobQueue <
      stackWorth (waiting before) (before.stack thread) +
        queueWorth (waiting before) before.jobQueue) :
    work after < work before := by
  have exchange :=
    PendingViews.sum_exchange (fun other => stackWorth (waiting before) (before.stack other))
      (fun other => stackWorth (waiting after) (after.stack other)) thread
      (fun other different => by
        rw [stacked, Function.update_of_ne different, others other different])
  simp only [stacked, Function.update_self] at exchange
  unfold work
  simp only [stacked]
  omega

omit [DecidableEq Name] in
theorem work_falls_steady (before after : JobSerializer.System Thread Name Job) (thread : Thread)
    (stack : List (Frame Thread Name Job))
    (stacked : after.stack = Function.update before.stack thread stack)
    (jobs : ∀ name, (after.serializers name).jobs = (before.serializers name).jobs)
    (less : stackWorth (waiting before) stack + queueWorth (waiting before) after.jobQueue <
      stackWorth (waiting before) (before.stack thread) +
        queueWorth (waiting before) before.jobQueue) :
    work after < work before := by
  have same : waiting after = waiting before := by
    funext name
    rw [waiting, jobs, waiting]
  refine work_falls before after thread stack stacked (fun _ _ => by rw [same]) ?_
  rw [same]
  exact less

variable (before after : JobSerializer.System Thread Name Job) (thread : Thread)
  (top : Frame Thread Name Job) (below : List (Frame Thread Name Job))
  (stands : before.stack thread = top :: below)
include stands

omit [DecidableEq Name] in
theorem replace_falls (next : Frame Thread Name Job)
    (stacked : after.stack = Function.update before.stack thread (next :: below))
    (jobs : ∀ name, (after.serializers name).jobs = (before.serializers name).jobs)
    (jobQueue : after.jobQueue = before.jobQueue)
    (less : worth (waiting before) next < worth (waiting before) top) :
    work after < work before := by
  refine work_falls_steady before after thread _ stacked jobs ?_
  rw [jobQueue, stands, stack_worth_cons, stack_worth_cons]
  omega

omit [DecidableEq Name] in
theorem return_falls (stacked : after.stack = Function.update before.stack thread below)
    (serializers : after.serializers = before.serializers)
    (jobQueue : after.jobQueue = before.jobQueue) (some : 0 < base top) :
    work after < work before := by
  refine work_falls_steady before after thread _ stacked (fun name => by rw [serializers]) ?_
  rw [jobQueue, stands, stack_worth_cons, worth]
  omega

end Work

omit [DecidableEq Thread] [DecidableEq Name] in
/-- With no batch in hand all that waits has been queued, so nothing in `_jobs` is null. -/
theorem clear_whole (serializer : Serializer Thread Job) (account : Account serializer .empty) :
    serializer.clear.1.length = serializer.jobs.length ∧ serializer.clear.2.jobs = [] := by
  have order := account.order
  obtain ⟨_, queued, _, _, jobs⟩ := List.map_eq_append_iff.mp order
  simp only [Serializer.clear, ← jobs, LockQueue.clear_some, List.length_map, and_self]

section Steps
variable (system : JobSerializer.System Thread Name Job)
  (holds : SerializedExecution.Invariant system) (quiet : Quiet system)

omit [DecidableEq Thread] [DecidableEq Name] in
theorem quiet_top (quiet : Quiet system) (thread : Thread) (top : Frame Thread Name Job)
    (below : List (Frame Thread Name Job)) (stands : system.stack thread = top :: below) :
    entering top = none := by
  have nothing := quiet thread
  rw [stands, List.filterMap_eq_nil_iff] at nothing
  exact nothing top List.mem_cons_self

include holds quiet

omit [DecidableEq Thread] [DecidableEq Name] in
theorem quiet_unarrived (name : Name) : (system.serializers name).arriving = [] := by
  rw [List.eq_nil_iff_forall_not_mem]
  intro thread member
  obtain ⟨frame, inside, arrives⟩ :=
    List.mem_filterMap.mp ((holds.arrivals.standing name thread).mp member)
  have outside := List.filterMap_eq_nil_iff.mp (quiet thread) frame inside
  cases frame with
  | pushQueue => cases outside
  | _ => cases arrives

omit [DecidableEq Thread] [DecidableEq Name] in
theorem quiet_waiting (thread : Thread) (top : Frame Thread Name Job)
    (below : List (Frame Thread Name Job)) (stands : system.stack thread = top :: below)
    (name : Name) (carried : right top = some name) (nothing : inHand top = .empty) :
    0 < waiting system name := by
  obtain ⟨batch, represents⟩ := holds.represented
  have hand := represents.held thread top (by rw [stands]; exact List.mem_cons_self) name carried
  have live : 0 < counted (system.serializers name) (batch name) :=
    (represents.placed.covers name).mpr ⟨.thread thread, by simp [contents, stands, carried]⟩
  rw [hand, nothing, counted, quiet_unarrived system holds quiet name] at live
  simpa [Batch.empty, waiting] using live

theorem drain_falls [Fintype Thread] (after : JobSerializer.System Thread Name Job)
    (thread : Thread) (name : Name) (startTick : UInt64) (below : List (Frame Thread Name Job))
    (stands : system.stack thread = .execDrain name startTick :: below)
    (stacked : after.stack = Function.update system.stack thread (.execLoop name startTick
      (system.serializers name).clear.1.length (system.serializers name).clear.1 :: below))
    (serializers :
      after.serializers = Function.update system.serializers name (system.serializers name).clear.2)
    (jobQueue : after.jobQueue = system.jobQueue) : work after < work system := by
  have positive := quiet_waiting system holds quiet thread _ below stands name rfl rfl
  obtain ⟨batch, represents⟩ := holds.represented
  obtain ⟨notBelow, notElsewhere, absent⟩ :=
    right_exclusive system batch represents thread _ below stands name rfl
  have hand : batch name = .empty :=
    represents.held thread (.execDrain name startTick)
      (by rw [stands]; exact List.mem_cons_self) name rfl
  obtain ⟨whole, left⟩ := clear_whole (system.serializers name) (hand ▸ represents.accounts name)
  have here : waiting after name = 0 := by
    rw [waiting, serializers, Function.update_self, left, List.length_nil]
  -- Nobody but the executor counts the jobs of its serializer.
  have elsewhere : ∀ other, other ≠ name → waiting after other = waiting system other := by
    intro other different
    rw [waiting, serializers, Function.update_of_ne different, waiting]
  refine work_falls system after thread _ stacked (fun other different => ?_) ?_
  · refine stack_worth_congr _ _ _ fun frame member owner carries => elsewhere owner ?_
    rintro rfl
    exact notElsewhere other different frame member carries
  · have deeper :=
      stack_worth_congr (waiting system) (waiting after) below fun frame member owner carries =>
        elsewhere owner fun same => notBelow frame member (same ▸ carries)
    have queued :=
      queue_worth_congr (waiting system) (waiting after) system.jobQueue fun owner member =>
        elsewhere owner fun same => absent (same ▸ member)
    have size : (system.serializers name).clear.1.length = waiting system name := whole
    rw [stack_worth_cons, deeper, jobQueue, queued, stands, stack_worth_cons]
    simp only [worth, right, base, Option.map_some, Option.getD_some, here, size]
    omega

section Frames
variable [Fintype Thread] (after : JobSerializer.System Thread Name Job) (thread : Thread)
  (tick : UInt64) (below : List (Frame Thread Name Job))
omit holds quiet

theorem push_test_falls (name : Name) (prevCount : BitVec 32)
    (stands : system.stack thread = .pushTest name prevCount :: below)
    (taken : advanceFrame system thread tick below (.pushTest name prevCount) = some after) :
    work after < work system := by
  simp only [advanceFrame] at taken
  split at taken
  case isTrue first =>
    split at taken
    case h_1 =>
      cases taken
      exact replace_falls system _ thread _ below stands _ rfl (fun _ => rfl) rfl
        (by simp [worth, right, base, first])
    case h_2 =>
      cases taken
      refine work_falls_steady system _ thread below rfl (fun _ => rfl) ?_
      simp only [stands, stack_worth_cons, worth, right, base, first, if_true, Option.map_some,
        Option.getD_some, setStack, addJobSerializer, queue_worth_push]
      omega
  case isFalse later =>
    cases taken
    exact return_falls system _ thread _ below stands rfl rfl rfl (Nat.succ_pos _)

theorem exec_loop_falls (name : Name) (startTick : UInt64) (currentCount : Nat)
    (jobs : List (Entry Thread Job))
    (stands : system.stack thread = .execLoop name startTick currentCount jobs :: below)
    (taken : advanceFrame system thread tick below (.execLoop name startTick currentCount jobs) =
      some after) :
    work after < work system := by
  cases jobs with
  | nil =>
      cases taken
      split
      case isTrue =>
        exact replace_falls system _ thread _ below stands _ rfl
          (set_serializer_part (·.jobs) system name _ rfl)
          rfl (by simp [worth, right, base]; omega)
      case isFalse =>
        exact replace_falls system _ thread _ below stands _ rfl
          (set_serializer_part (·.jobs) system name _ rfl)
          rfl (by simp [worth, right, base])
  | cons entry rest =>
      cases taken
      exact replace_falls system _ thread _ below stands _ rfl
        (set_serializer_part (·.jobs) system name _ rfl)
        rfl (by simp [worth, right, base]; omega)

theorem exec_clock_falls (name : Name) (startTick : UInt64)
    (stands : system.stack thread = .execClock name startTick :: below)
    (taken : advanceFrame system thread tick below (.execClock name startTick) = some after) :
    work after < work system := by
  simp only [advanceFrame] at taken
  split at taken
  case isTrue =>
    cases taken
    exact replace_falls system _ thread _ below stands _ rfl (fun _ => rfl) rfl
      (by simp [worth, right, base])
  case isFalse =>
    cases taken
    exact replace_falls system _ thread _ below stands _ rfl (fun _ => rfl) rfl
      (by simp [worth, right, base])

theorem exec_hand_over_falls (name : Name)
    (stands : system.stack thread = .execHandOver name :: below)
    (taken : advanceFrame system thread tick below (.execHandOver name) = some after) :
    work after < work system := by
  cases taken
  refine work_falls_steady system _ thread (.execLeave :: below) rfl (fun _ => rfl) ?_
  simp only [stands, stack_worth_cons, worth, right, base, Option.map_some, Option.map_none,
    Option.getD_some, Option.getD_none, setStack, addJobSerializer, queue_worth_push]
  omega

theorem do_loop_falls (start : UInt64) (stands : system.stack thread = .doLoop start :: below)
    (taken : advanceFrame system thread tick below (.doLoop start) = some after) :
    work after < work system := by
  simp only [advanceFrame] at taken
  split at taken
  case isTrue =>
    cases taken
    exact return_falls system _ thread _ below stands rfl rfl rfl (Nat.succ_pos _)
  case isFalse =>
    cases taken
    exact replace_falls system _ thread _ below stands _ rfl (fun _ => rfl) rfl
      (by simp [worth, right, base])

theorem do_pop_falls (start : UInt64) (stands : system.stack thread = .doPop start :: below)
    (taken : advanceFrame system thread tick below (.doPop start) = some after) :
    work after < work system := by
  cases queued : system.jobQueue with
  | nil =>
      simp only [advanceFrame, queued, LockQueue.tryPop] at taken
      cases taken
      exact return_falls system _ thread _ below stands rfl rfl rfl (Nat.succ_pos _)
  | cons name rest =>
      simp only [advanceFrame, queued, LockQueue.tryPop] at taken
      cases taken
      refine work_falls_steady system _ thread (.execEnter name :: .doLoop start :: below) rfl
        (fun _ => rfl) ?_
      simp only [stands, stack_worth_cons, worth, right, base, Option.map_some, Option.map_none,
        Option.getD_some, Option.getD_none, setStack, queued, queue_worth_cons]
      omega

end Frames

theorem advance_falls [Fintype Thread] (after : JobSerializer.System Thread Name Job)
    (thread : Thread) (tick : UInt64) (top : Frame Thread Name Job)
    (below : List (Frame Thread Name Job)) (stands : system.stack thread = top :: below)
    (taken : advanceFrame system thread tick below top = some after) :
    work after < work system := by
  have outside := quiet_top system quiet thread top below stands
  cases top with
  | pushAdd name entry => cases outside
  | pushQueue name entry prevCount => cases outside
  | running name startTick currentCount entry rest => cases taken
  | pushTest name prevCount =>
      exact push_test_falls system after thread tick below name prevCount stands taken
  | execEnter name =>
      cases taken
      exact replace_falls system _ thread _ below stands _ rfl (fun _ => rfl) rfl
        (by simp [worth, right, base])
  | execDrain name startTick =>
      cases taken
      exact drain_falls system holds quiet _ thread name startTick below stands rfl rfl rfl
  | execLoop name startTick currentCount jobs =>
      exact exec_loop_falls system after thread tick below name startTick currentCount
        jobs stands taken
  | execClock name startTick =>
      exact exec_clock_falls system after thread tick below name startTick stands taken
  | execHandOver name =>
      exact exec_hand_over_falls system after thread tick below name stands taken
  | execLeave =>
      cases taken
      exact return_falls system _ thread _ below stands rfl rfl rfl (Nat.succ_pos _)
  | doLoop start =>
      exact do_loop_falls system after thread tick below start stands taken
  | doPop start => exact do_pop_falls system after thread tick below start stands taken

end Steps

omit [DecidableEq Name] in
theorem quiet_update (before after : JobSerializer.System Thread Name Job) (quiet : Quiet before)
    (thread : Thread) (stack : List (Frame Thread Name Job))
    (stacked : after.stack = Function.update before.stack thread stack)
    (enters : stack.filterMap entering = []) : Quiet after := by
  intro other
  by_cases mine : other = thread
  · rw [stacked, mine, Function.update_self, enters]
  · rw [stacked, Function.update_of_ne mine]
    exact quiet other

omit [DecidableEq Name] in
theorem quiet_replace (before after : JobSerializer.System Thread Name Job) (quiet : Quiet before)
    (thread : Thread) (top next : Frame Thread Name Job) (below : List (Frame Thread Name Job))
    (stands : before.stack thread = top :: below)
    (stacked : after.stack = Function.update before.stack thread (next :: below))
    (outside : entering next = none) : Quiet after := by
  refine quiet_update before after quiet thread _ stacked ?_
  have nothing := quiet thread
  rw [stands, List.filterMap_cons, quiet_top before quiet thread top below stands] at nothing
  rw [List.filterMap_cons, outside]
  exact nothing

theorem quiet_step (before after : JobSerializer.System Thread Name Job)
    (label : JobSerializer.Label Thread Name Job) (quiet : Quiet before)
    (noPush : ∀ thread name job, label ≠ .push thread name job) (move : Move before label after) :
    Quiet after ∧ ∀ name, pending (after.serializers name) ≤ pending (before.serializers name) := by
  cases move with
  | quiet _ thread stack _ inert stacked serializers _ _ _ =>
      refine ⟨quiet_update before after quiet thread stack stacked
        (inert.enters.trans (quiet thread)), fun name => ?_⟩
      rw [serializers]
  | call thread name job free => exact absurd rfl (noPush thread name job)
  | add thread tick name entry below stands => cases quiet_top before quiet thread _ below stands
  | queue thread tick name entry prevCount below stands =>
      cases quiet_top before quiet thread _ below stands
  | drain thread tick name startTick below stands =>
      exact ⟨quiet_replace before _ quiet thread _ _ below stands rfl rfl,
        fun other => Nat.le_of_eq (set_serializer_part pending before name
          (before.serializers name).clear.2 rfl other)⟩
  | begin thread tick name startTick currentCount entry rest below stands =>
      refine ⟨quiet_replace before _ quiet thread _ _ below stands rfl rfl, fun other => ?_⟩
      rw [set_stack_serializers]
      by_cases this : other = name
      · rw [this, set_serializer_self]
        simp only [pending, Serializer.begin, List.length_append, List.length_singleton]
        omega
      · rw [set_serializer_other _ _ _ _ this]
  | complete thread name startTick currentCount entry rest below stands =>
      exact ⟨quiet_replace before _ quiet thread _ _ below stands rfl rfl,
        fun other => Nat.le_of_eq (set_serializer_part pending before name
          ((before.serializers name).complete entry) rfl other)⟩
  | subtract thread tick name startTick currentCount below stands =>
      split <;> exact ⟨quiet_replace before _ quiet thread _ _ below stands rfl rfl,
        fun other => Nat.le_of_eq (set_serializer_part pending before name
          ((before.serializers name).fetchSub currentCount) rfl other)⟩
  | handOver thread tick name top below stack stands source =>
      refine ⟨?_, fun _ => Nat.le_refl _⟩
      rcases source with ⟨rfl, rfl⟩ | ⟨rfl, rfl⟩
      · refine quiet_update before _ quiet thread stack rfl ?_
        have nothing := quiet thread
        rw [stands] at nothing
        exact nothing
      · exact quiet_replace before _ quiet thread _ _ below stands rfl rfl
  | takeOver thread tick name rest start below stands waiting =>
      refine ⟨quiet_update before _ quiet thread _ rfl ?_, fun _ => Nat.le_refl _⟩
      have nothing := quiet thread
      rw [stands] at nothing
      exact nothing
  | cleared => exact ⟨quiet, fun _ => Nat.le_refl _⟩

structure Settled (system : JobSerializer.System Thread Name Job) : Prop where
  reached : Reachable JobSerializer.step disciplined JobSerializer.System.start system
  quiet : Quiet system

def harmless (label : JobSerializer.Label Thread Name Job) : Prop :=
  proceeds label ∨ ∃ thread tick, label = .doJobs thread tick

theorem settled_step (before after : JobSerializer.System Thread Name Job)
    (label : JobSerializer.Label Thread Name Job) (settled : Settled before) (goes : harmless label)
    (taken : JobSerializer.step before label = some after) :
    disciplined before label after ∧ Settled after := by
  have noPush : ∀ thread name job, label ≠ .push thread name job := by
    rintro thread name job rfl
    rcases goes with goes | ⟨_, _, same⟩
    · exact goes
    · cases same
  obtain ⟨quiet, fewer⟩ :=
    quiet_step before after label settled.quiet noPush (step_move before after label taken)
  have bounded := (run_invariant before settled.reached).bounded
  have allowed : disciplined before label after := by
    refine ⟨fun thread name => noPush thread name none, ?_,
      fun name => (fewer name).trans_lt (bounded name)⟩
    rintro rfl
    rcases goes with goes | ⟨_, _, same⟩
    · exact goes
    · cases same
  exact ⟨allowed, .next label settled.reached taken allowed, quiet⟩

theorem settled_falls [Fintype Thread] (before after : JobSerializer.System Thread Name Job)
    (label : JobSerializer.Label Thread Name Job) (settled : Settled before) (goes : proceeds label)
    (taken : JobSerializer.step before label = some after) : work after < work before := by
  have holds := run_invariant before settled.reached
  cases label with
  | advance thread tick =>
      simp only [JobSerializer.step] at taken
      split at taken
      case h_1 => cases taken
      case h_2 top below stands =>
        exact advance_falls before holds settled.quiet after thread tick top below stands taken
  | finish thread =>
      simp only [JobSerializer.step] at taken
      split at taken
      case h_1 name startTick currentCount entry rest below stands =>
        cases taken
        exact replace_falls before _ thread _ below stands _ rfl
          (set_serializer_part (·.jobs) before name _ rfl) rfl (by simp [worth, right, base])
      case h_2 => cases taken
  | push => exact goes.elim
  | doJobs => exact goes.elim
  | setMaxTick => exact goes.elim
  | clearJobs => exact goes.elim

theorem advance_defined (system : JobSerializer.System Thread Name Job) (thread : Thread)
    (tick : UInt64) (top : Frame Thread Name Job) (below : List (Frame Thread Name Job))
    (executes : ∀ name startTick currentCount entry rest,
      top ≠ .running name startTick currentCount entry rest) :
    ∃ after, advanceFrame system thread tick below top = some after := by
  cases top with
  | running => exact absurd rfl (executes _ _ _ _ _)
  | pushTest name prevCount =>
      simp only [advanceFrame]
      split
      case isTrue => split <;> exact ⟨_, rfl⟩
      case isFalse => exact ⟨_, rfl⟩
  | execLoop name startTick currentCount rest => cases rest <;> exact ⟨_, rfl⟩
  | execClock name startTick =>
      simp only [advanceFrame]
      split <;> exact ⟨_, rfl⟩
  | doLoop start =>
      simp only [advanceFrame]
      split <;> exact ⟨_, rfl⟩
  | doPop start =>
      simp only [advanceFrame]
      split <;> exact ⟨_, rfl⟩
  | _ => exact ⟨_, rfl⟩

/-- A thread inside the library or in a job can go on: it never waits for another thread. -/
theorem thread_proceeds (system : JobSerializer.System Thread Name Job) (thread : Thread)
    (tick : UInt64) (inside : system.stack thread ≠ []) :
    ∃ label after, proceeds label ∧ JobSerializer.step system label = some after := by
  obtain ⟨top, below, stands⟩ := List.exists_cons_of_ne_nil inside
  by_cases executes : ∃ name startTick currentCount entry rest,
    top = .running name startTick currentCount entry rest
  · obtain ⟨name, startTick, currentCount, entry, rest, rfl⟩ := executes
    refine ⟨.finish thread, setStack (setSerializer system name ((system.serializers name).complete
      entry)) thread (.execLoop name startTick currentCount rest :: below), trivial, ?_⟩
    simp only [JobSerializer.step, stands]
  · obtain ⟨after, taken⟩ := advance_defined system thread tick top below
      (fun name startTick currentCount entry rest same =>
        executes ⟨name, startTick, currentCount, entry, rest, same⟩)
    refine ⟨.advance thread tick, after, trivial, ?_⟩
    simp only [JobSerializer.step, stands]
    exact taken

section Completion
variable [Fintype Thread]

def proceeding :
    Condition (JobSerializer.System Thread Name Job) (JobSerializer.Label Thread Name Job) :=
  fun _ label _ => proceeds label

/-- Once no call of `Push` has a job to queue, what is under way ends under every schedule and every
clock reading: no run is longer than `work`, and until its last step no thread is stuck. -/
theorem started_work_ends (system : JobSerializer.System Thread Name Job)
    (reached : Reachable JobSerializer.step disciplined JobSerializer.System.start system)
    (quiet : Quiet system) (count : Nat) (later : JobSerializer.System Thread Name Job)
    (path : Path JobSerializer.step proceeding system count later) :
    count + work later ≤ work system ∧
    (∀ thread, later.stack thread ≠ [] → ∃ label after, proceeds label ∧
      JobSerializer.step later label = some after) ∧
    ((∀ thread, later.stack thread = []) → later.jobQueue = [] → ∀ name,
      (later.serializers name).finished = (later.serializers name).enqueued) := by
  obtain ⟨settled, bound⟩ :=
    path_bounded JobSerializer.step proceeding Settled work system ⟨reached, quiet⟩
    (fun before label after settled taken goes =>
      ⟨(settled_step before after label settled (Or.inl goes) taken).2,
        settled_falls before after label settled goes taken⟩) count later path
  exact ⟨bound, fun thread => thread_proceeds later thread 0, idle_finished later settled.reached⟩

def finishing :
    Condition (JobSerializer.System Thread Name Job) (JobSerializer.Label Thread Name Job) :=
  fun before label after => disciplined before label after ∧ harmless label

omit [Fintype Thread] in
theorem settled_finishing (first before after : JobSerializer.System Thread Name Job)
    (label : JobSerializer.Label Thread Name Job)
    (taken : JobSerializer.step before label = some after) (goes : harmless label)
    (stands : Reachable JobSerializer.step finishing first before ∧ Settled before) :
    Reachable JobSerializer.step finishing first after ∧ Settled after := by
  obtain ⟨allowed, kept⟩ := settled_step before after label stands.2 goes taken
  exact ⟨.next label stands.1 taken ⟨allowed, goes⟩, kept⟩

theorem serializer_taken (system : JobSerializer.System Thread Name Job) (settled : Settled system)
    (thread : Thread) (outside : system.stack thread = []) (name : Name) (rest : List Name)
    (queued : system.jobQueue = name :: rest) :
    ∃ later, Reachable JobSerializer.step finishing system later ∧ Settled later ∧
      work later < work system := by
  have called : JobSerializer.step system (.doJobs thread 0) =
      some (setStack system thread [.doLoop 0]) := by
    simp only [JobSerializer.step, outside, mayCall, if_true]
  have inTime : ¬ system.maxTick thread < 0 - 0 := by simp
  have looped : JobSerializer.step (setStack system thread [.doLoop 0]) (.advance thread 0) =
      some (setStack (setStack system thread [.doLoop 0]) thread [.doPop 0]) := by
    simp only [JobSerializer.step, set_stack_self, advanceFrame]
    exact if_neg inTime
  have popped : JobSerializer.step (setStack (setStack system thread [.doLoop 0]) thread [.doPop 0])
      (.advance thread 0) =
      some (setStack { setStack (setStack system thread [.doLoop 0]) thread [.doPop 0] with
        jobQueue := rest } thread
        [.execEnter name, .doLoop 0]) := by
    simp only [JobSerializer.step, set_stack_self, advanceFrame]
    simp only [setStack, queued, LockQueue.tryPop]
  have first :=
    settled_finishing system system _ _ called (Or.inr ⟨thread, 0, rfl⟩) ⟨.start, settled⟩
  have second := settled_finishing system _ _ _ looped (Or.inl trivial) first
  obtain ⟨reached, kept⟩ := settled_finishing system _ _ _ popped (Or.inl trivial) second
  refine ⟨_, reached, kept, ?_⟩
  refine work_falls_steady system _ thread [.execEnter name, .doLoop 0]
    (by simp [setStack]) (fun _ => rfl) ?_
  rw [outside, queued]
  simp only [stack_worth_cons, queue_worth_cons, worth, right, base, Option.map_some,
    Option.map_none, Option.getD_some, Option.getD_none, setStack]
  omega

theorem settled_drains [Nonempty Thread] (system : JobSerializer.System Thread Name Job)
    (settled : Settled system) :
    ∃ final, Reachable JobSerializer.step finishing system final ∧ Settled final ∧
      (∀ thread, final.stack thread = []) ∧ final.jobQueue = [] := by
  refine goal_reached JobSerializer.step finishing Settled work
    (fun system => (∀ thread, system.stack thread = []) ∧ system.jobQueue = []) ?_ system settled
  intro before holds unfinished
  by_cases outside : ∀ thread, before.stack thread = []
  · obtain ⟨name, rest, queued⟩ :=
      List.exists_cons_of_ne_nil (fun empty => unfinished ⟨outside, empty⟩)
    obtain ⟨thread⟩ := ‹Nonempty Thread›
    exact serializer_taken before holds thread (outside thread) name rest queued
  · obtain ⟨thread, inside⟩ := not_forall.mp outside
    obtain ⟨label, after, goes, taken⟩ := thread_proceeds before thread 0 inside
    obtain ⟨reached, kept⟩ :=
      settled_finishing before before after label taken (Or.inl goes) ⟨.start, holds⟩
    exact ⟨after, reached, kept, settled_falls before after label holds goes taken⟩

end Completion

structure Pushed (before later : JobSerializer.System Thread Name Job) (thread : Thread)
    (more : Nat) : Prop where
  moved : Reachable JobSerializer.step finishing before later
  reached : Reachable JobSerializer.step disciplined JobSerializer.System.start later
  outside : (later.stack thread).filterMap entering = []
  others : ∀ other, other ≠ thread → later.stack other = before.stack other
  grown : ∀ name, pending (later.serializers name) ≤ pending (before.serializers name) + more

section Pushes
variable (system : JobSerializer.System Thread Name Job)
  (reached : Reachable JobSerializer.step disciplined JobSerializer.System.start system)
  (thread : Thread)
include reached

theorem job_queued (name : Name) (entry : Option (Entry Thread Job)) (prevCount : BitVec 32)
    (below : List (Frame Thread Name Job))
    (stands : system.stack thread = .pushQueue name entry prevCount :: below) :
    ∃ later, Pushed system later thread 0 := by
  have holds := run_invariant system reached
  obtain ⟨batch, represents⟩ := holds.represented
  have shape : Nested (.pushQueue name entry prevCount :: below) :=
    stands ▸ holds.arrivals.nested thread
  have arrives : thread ∈ (system.serializers name).arriving := by
    rw [holds.arrivals.standing, stands]
    exact List.mem_cons_self
  have given : entry ≠ none :=
    holds.arrivals.present thread (name, entry) (by rw [stands]; exact List.mem_cons_self)
  obtain ⟨job, rfl⟩ := Option.ne_none_iff_exists'.mp given
  have begun := (started_are_first _ _ (represents.accounts name)).length_le
  have shorter := List.length_erase_of_mem arrives
  have positive := List.length_pos_of_mem arrives
  have same : ∀ other, pending ((setSerializer system name
      ((system.serializers name).enqueue thread (some job))).serializers other) =
      pending (system.serializers other) := by
    refine set_serializer_part pending system name _ ?_
    simp only [pending, Serializer.enqueue, Option.toList_some, List.length_append,
      List.length_singleton]
    omega
  have taken : JobSerializer.step system (.advance thread 0) =
      some (setStack
        (setSerializer system name ((system.serializers name).enqueue thread (some job))) thread
        (.pushTest name prevCount :: below)) := by
    simp only [JobSerializer.step, stands, advanceFrame]
  have allowed : disciplined system (.advance thread 0)
      (setStack (setSerializer system name ((system.serializers name).enqueue thread (some job)))
        thread (.pushTest name prevCount :: below)) :=
    ⟨by simp, by simp, fun other => (same other).trans_lt (holds.bounded other)⟩
  refine ⟨_, .next _ .start taken ⟨allowed, Or.inl trivial⟩,
    .next _ reached taken allowed, ?_, ?_, ?_⟩
  · rw [set_stack_self]
    exact (below_without _ below shape).2
  · intro other different
    exact set_stack_other _ _ _ _ different
  · intro other
    exact (same other).le

theorem job_counted (name : Name) (entry : Option (Entry Thread Job))
    (below : List (Frame Thread Name Job))
    (stands : system.stack thread = .pushAdd name entry :: below)
    (room : pending (system.serializers name) + 1 < 2 ^ 31) :
    ∃ later, Pushed system later thread 1 := by
  have holds := run_invariant system reached
  have grown : ∀ other, pending ((setSerializer system name
      ((system.serializers name).fetchAdd thread)).serializers other) ≤ pending
      (system.serializers other) + 1 := by
    intro other
    by_cases this : other = name
    · rw [this, set_serializer_self]
      simp only [pending, Serializer.fetchAdd, List.length_append, List.length_singleton]
      omega
    · rw [set_serializer_other _ _ _ _ this]
      exact Nat.le_succ _
  have bounded : ∀ other, pending ((setSerializer system name
      ((system.serializers name).fetchAdd thread)).serializers other) < 2 ^ 31 := by
    intro other
    by_cases this : other = name
    · rw [this]
      exact (grown name).trans_lt room
    · rw [set_serializer_other _ _ _ _ this]
      exact holds.bounded other
  have taken : JobSerializer.step system (.advance thread 0) =
      some (setStack (setSerializer system name ((system.serializers name).fetchAdd thread)) thread
        (.pushQueue name entry (system.serializers name).queuedCount :: below)) := by
    simp only [JobSerializer.step, stands, advanceFrame]
  have allowed : disciplined system (.advance thread 0)
      (setStack (setSerializer system name ((system.serializers name).fetchAdd thread)) thread
        (.pushQueue name entry (system.serializers name).queuedCount :: below)) :=
    ⟨by simp, by simp, bounded⟩
  obtain ⟨later, pushed⟩ := job_queued _ (.next _ reached taken allowed) thread name entry _ below
    (set_stack_self _ _ _)
  refine ⟨later, ?_, pushed.reached, pushed.outside, ?_, ?_⟩
  · exact reachable_trans _ _ _ _ _ (.next _ .start taken ⟨allowed, Or.inl trivial⟩) pushed.moved
  · intro other different
    exact (pushed.others other different).trans (set_stack_other _ _ _ _ different)
  · intro other
    exact (pushed.grown other).trans (grown other)

theorem push_completed (room : ∀ name, pending (system.serializers name) + 1 < 2 ^ 31) :
    ∃ later, Pushed system later thread 1 := by
  have stays : (system.stack thread).filterMap entering = [] →
      ∃ later, Pushed system later thread 1 :=
    fun outside => ⟨system, .start, reached, outside, fun _ _ => rfl, fun _ => Nat.le_succ _⟩
  cases stands : system.stack thread with
  | nil => exact stays (by rw [stands]; rfl)
  | cons top below =>
      have shape : Nested (top :: below) :=
        stands ▸ (run_invariant system reached).arrivals.nested thread
      have deeper := (below_without top below shape).2
      cases top with
      | pushAdd name entry =>
          exact job_counted system reached thread name entry below stands (room name)
      | pushQueue name entry prevCount =>
          obtain ⟨later, pushed⟩ :=
            job_queued system reached thread name entry prevCount below stands
          exact ⟨later, pushed.moved, pushed.reached, pushed.outside, pushed.others,
            fun other => (pushed.grown other).trans (Nat.le_succ _)⟩
      | _ => exact stays (by rw [stands]; exact deeper)

end Pushes

theorem pushes_completed (threads : Finset Thread) (system : JobSerializer.System Thread Name Job)
    (reached : Reachable JobSerializer.step disciplined JobSerializer.System.start system)
    (others : ∀ thread, thread ∉ threads → (system.stack thread).filterMap entering = [])
    (room : ∀ name, pending (system.serializers name) + threads.card < 2 ^ 31) :
    ∃ later, Reachable JobSerializer.step finishing system later ∧ Settled later := by
  induction threads using Finset.induction_on generalizing system with
  | empty =>
      exact ⟨system, .start, reached, fun thread => others thread (Finset.notMem_empty thread)⟩
  | insert thread rest fresh ih =>
      rw [Finset.card_insert_of_notMem fresh] at room
      obtain ⟨middle, pushed⟩ := push_completed system reached thread fun name => by
        have enough := room name
        omega
      have outside : ∀ other, other ∉ rest → (middle.stack other).filterMap entering = [] := by
        intro other absent
        by_cases this : other = thread
        · rw [this]
          exact pushed.outside
        · rw [pushed.others other this]
          exact others other fun member => (Finset.mem_insert.mp member).elim this absent
      have less : ∀ name, pending (middle.serializers name) + rest.card < 2 ^ 31 := by
        intro name
        have enough := room name
        have grown := pushed.grown name
        omega
      obtain ⟨later, moved, settled⟩ := ih middle pushed.reached outside less
      exact ⟨later, reachable_trans _ _ _ _ _ pushed.moved moved, settled⟩

theorem pushed_kept (before after : JobSerializer.System Thread Name Job)
    (label : JobSerializer.Label Thread Name Job) (move : Move before label after) (name : Name)
    (entry : Entry Thread Job) (member : entry ∈ before.pushed name) :
    entry ∈ after.pushed name := by
  cases move_traffic before after label move with
  | call thread owner job _ =>
      by_cases this : name = owner
      · subst owner
        simp only [callPush, Function.update_self]
        exact List.mem_append_left _ member
      · simp only [callPush, Function.update_of_ne this]
        exact member
  | queue thread owner entry prevCount below stands => exact member
  | steady _ _ _ pushed _ => exact pushed ▸ member

theorem pushed_queued (system : JobSerializer.System Thread Name Job)
    (reached : Reachable JobSerializer.step disciplined JobSerializer.System.start system)
    (outside : ∀ thread, system.stack thread = []) (name : Name) (entry : Entry Thread Job)
    (member : entry ∈ system.pushed name) : entry ∈ (system.serializers name).enqueued := by
  have covered : Covered system :=
    reachable_invariant JobSerializer.step disciplined Covered JobSerializer.System.start
      (fun _ _ member => by cases member)
      (fun before label after holds taken _ => move_covered before after label holds
        (step_move before after label taken)) system reached
  rcases covered name entry member with queued | ⟨thread, coming⟩
  · exact queued
  · rw [outside thread] at coming
    cases coming

/-- Whatever has happened, the threads can finish everything that was pushed without any further
`Push`, if there is room for the jobs that are still on their way. -/
theorem always_drainable [Fintype Thread] [Nonempty Thread]
    (system : JobSerializer.System Thread Name Job)
    (reached : Reachable JobSerializer.step disciplined JobSerializer.System.start system)
    (room : ∀ name, pending (system.serializers name) + Fintype.card Thread < 2 ^ 31) :
    ∃ final, Reachable JobSerializer.step finishing system final ∧
      (∀ thread, final.stack thread = []) ∧ final.jobQueue = [] ∧
      ∀ name, (final.serializers name).finished = (final.serializers name).enqueued ∧
        ∀ entry ∈ system.pushed name, entry ∈ (final.serializers name).finished := by
  obtain ⟨middle, moved, settled⟩ := pushes_completed Finset.univ system reached
    (fun thread absent => absurd (Finset.mem_univ thread) absent) room
  obtain ⟨final, drained, kept, outside, empty⟩ := settled_drains middle settled
  refine ⟨final, reachable_trans _ _ _ _ _ moved drained, outside, empty, fun name => ?_⟩
  have all := idle_finished final kept.reached outside empty name
  refine ⟨all, fun entry pushed => ?_⟩
  have still := reachable_invariant JobSerializer.step finishing
    (fun later => entry ∈ later.pushed name) system pushed
    (fun before label after member taken _ =>
      pushed_kept before after label (step_move before after label taken) name entry member)
    final (reachable_trans _ _ _ _ _ moved drained)
  rw [all]
  exact pushed_queued final kept.reached outside name entry still

omit [DecidableEq Name] in
theorem set_stack_again (system : JobSerializer.System Thread Name Job) (thread : Thread)
    (first second : List (Frame Thread Name Job)) :
    setStack (setStack system thread first) thread second = setStack system thread second := by
  simp [setStack]

omit [DecidableEq Name] in
theorem set_stack_same (system : JobSerializer.System Thread Name Job) (thread : Thread)
    (stack : List (Frame Thread Name Job)) (stands : system.stack thread = stack) :
    setStack system thread stack = system := by
  simp [setStack, ← stands]

omit [DecidableEq Thread] in
theorem set_serializer_same (system : JobSerializer.System Thread Name Job) (name : Name)
    (serializer : Serializer Thread Job) (same : serializer = system.serializers name) :
    setSerializer system name serializer = system := by
  simp [setSerializer, same]

/-- Between the two first statements of a `Push` the executor of its serializer can turn in its loop
without getting anywhere, as long as its clock allows. -/
theorem executor_turns (system : JobSerializer.System Thread Name Job)
    (reached : Reachable JobSerializer.step disciplined JobSerializer.System.start system)
    (thread : Thread) (tick : UInt64) (name : Name) (startTick : UInt64)
    (below : List (Frame Thread Name Job))
    (stands : system.stack thread = .execDrain name startTick :: below)
    (empty : (system.serializers name).jobs = [])
    (inTime : ¬ system.maxTick thread ≤ tick - startTick) :
    Path JobSerializer.step proceeding system 3 system := by
  have holds := run_invariant system reached
  obtain ⟨batch, represents⟩ := holds.represented
  have live : 0 < counted (system.serializers name) (batch name) :=
    (represents.placed.covers name).mpr ⟨.thread thread, by simp [contents, stands, right]⟩
  have account := represents.accounts name
  -- The count is not zero, so it is not the size of the empty batch.
  have differs : countMatches (system.serializers name).queuedCount 0 = false := by
    have compared :=
      count_matches_iff _ 0 (counted_small _ _ account (holds.bounded name)) (Nat.two_pow_pos 31)
    rw [← account.count] at compared
    rw [Bool.eq_false_iff]
    intro equal
    have none := compared.mp equal
    omega
  have nothing : (system.serializers name).clear = ([], system.serializers name) := by
    simp only [Serializer.clear, empty, LockQueue.clear]
    rw [← empty]
  have kept : (system.serializers name).fetchSub 0 = system.serializers name := by
    simp [Serializer.fetchSub]
  have drained : JobSerializer.step system (.advance thread tick) =
      some (setStack system thread (.execLoop name startTick 0 [] :: below)) := by
    simp only [JobSerializer.step, stands, advanceFrame, nothing,
      set_serializer_same, List.length_nil]
  have subtracted :
      JobSerializer.step (setStack system thread (.execLoop name startTick 0 [] :: below))
      (.advance thread tick) =
        some (setStack system thread (.execClock name startTick :: below)) := by
    simp only [JobSerializer.step, set_stack_self, advanceFrame,
      set_stack_serializers, kept, differs]
    rw [set_serializer_same (setStack system thread (.execLoop name startTick 0 [] :: below)) name
      (system.serializers name) rfl, set_stack_again]
    rfl
  have again : JobSerializer.step (setStack system thread (.execClock name startTick :: below))
      (.advance thread tick) = some system := by
    simp only [JobSerializer.step, set_stack_self, advanceFrame, set_stack_again]
    rw [set_stack_same system thread _ stands]
    exact if_neg inTime
  exact .next _ (.next _ (.next _ .start drained trivial) subtracted trivial) again trivial

theorem contended_reached : ∃ system : JobSerializer.System Bool Bool Nat,
    Reachable JobSerializer.step disciplined JobSerializer.System.start system ∧ Quiet system ∧
    (system.stack true ≠ []) ∧ system.pushed false = [⟨2, true, 1⟩] ∧
    ∀ name, pending (system.serializers name) + 2 < 2 ^ 31 := by
  obtain ⟨system, reached, seen⟩ := replay_reachable JobSerializer.step disciplined disciplinedStep
    disciplined_step_sound
    (fun system : JobSerializer.System Bool Bool Nat =>
      (system.pushed false, [((system.stack true).filterMap entering).length,
        ((system.stack false).filterMap entering).length, (system.stack true).length,
        pending (system.serializers true), pending (system.serializers false)]))
    ([⟨2, true, 1⟩], [0, 0, 1, 1, 1]) contendedLabels JobSerializer.System.start (by decide)
  simp only [Prod.mk.injEq, List.cons.injEq, List.length_eq_zero_iff] at seen
  obtain ⟨pushed, first, second, standing, one, other, _⟩ := seen
  refine ⟨system, reached, ?_, ?_, pushed, ?_⟩
  · intro thread
    cases thread with
    | true => exact first
    | false => exact second
  · exact List.ne_nil_of_length_pos (by omega)
  · intro name
    cases name with
    | true => rw [one]; decide
    | false => rw [other]; decide

theorem started_work_ends_contended : ∃ system later : JobSerializer.System Bool Bool Nat,
    Path JobSerializer.step proceeding system 1 later ∧ 1 + work later ≤ work system := by
  obtain ⟨system, reached, quiet, inside, _⟩ := contended_reached
  obtain ⟨label, later, goes, taken⟩ := thread_proceeds system true 0 inside
  have path : Path JobSerializer.step proceeding system 1 later := .next label .start taken goes
  exact ⟨system, later, path, (started_work_ends system reached quiet 1 later path).1⟩

theorem always_drainable_contended : ∃ system final : JobSerializer.System Bool Bool Nat,
    system.pushed false = [⟨2, true, 1⟩] ∧ Reachable JobSerializer.step finishing system final ∧
    ⟨2, true, 1⟩ ∈ (final.serializers false).finished := by
  obtain ⟨system, reached, _, _, pushed, room⟩ := contended_reached
  obtain ⟨final, moved, _, _, all⟩ := always_drainable system reached room
  exact ⟨system, final, pushed, moved,
    (all false).2 _ (by rw [pushed]; exact List.mem_singleton_self _)⟩

end NetCore.JobCompletion
