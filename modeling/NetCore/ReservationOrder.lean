import NetCore.ReservedJobs
import Mathlib.Data.Multiset.UnionInter

/-! Reserved jobs are handed over in time, in order and once. The exchange of
`_executingReservables` lets one thread at a time through, so all jobs taken off the
queue form one line: released, in hand, still to be handed over. `CheckReservedJob` takes
the due jobs in the order of their ticks and appends them to the line, and a job is given
to its owner only from the place in the line where the check stands. -/
namespace NetCore.ReservationOrder
open TransitionRuns PriorityQueue ReservedJobs

universe u v w
variable {Handle : Type v} {executionTick : Handle → UInt64}
variable {queue : Implementation.{v, w} Handle (reservableJobCompare executionTick)}
  {Thread : Type u}

theorem due_iff (now : UInt64) (job : Handle) :
    due executionTick now job = true ↔ executionTick job ≤ now := by
  simp only [due, Bool.not_eq_true', decide_eq_false_iff_not, UInt64.not_lt]

theorem compare_false_iff (lhs rhs : Handle) :
    reservableJobCompare executionTick lhs rhs = false ↔ executionTick lhs ≤ executionTick rhs := by
  simp only [reservableJobCompare, decide_eq_false_iff_not, UInt64.not_lt]

/-- The critical section always ends, and what it leaves in the queue is not due. -/
theorem collect_spec (now : UInt64) (heap : queue.Heap) :
    ∃ final, collect queue now heap = some final ∧ Taken queue (due executionTick now) heap final ∧
      ∀ job ∈ queue.contents final.heap, now < executionTick job := by
  have inherited : ∀ first second, reservableJobCompare executionTick first second = false →
      due executionTick now second = true → due executionTick now first = true := by
    intro first second ordered late
    rw [compare_false_iff] at ordered
    rw [due_iff] at late ⊢
    exact UInt64.le_trans ordered late
  obtain ⟨final, ended, taken, refused⟩ :=
    take_while_spec queue (due executionTick now) heap inherited
  refine ⟨final, ended, taken, ?_⟩
  intro job member
  rw [← UInt64.not_le, ← due_iff, refused job member]
  exact Bool.false_ne_true

variable [DecidableEq Thread] [DecidableEq Handle]

inductive Move (before : System queue Thread) :
    Label Thread Handle → System queue Thread → Prop where
  | added (job : Handle) : Move before (.addReservableJob job) (addReservableJob before job)
  | canceled (job : Handle) : Move before (.cancel job) (cancel before job)
  | refused (thread : Thread) (now : UInt64) (busy : before.executing = true) :
      Move before (.checkReservedJob thread now) before
  | entered (thread : Thread) (now : UInt64) (free : before.executing = false) :
      Move before (.checkReservedJob thread now)
        { enter before thread (.collecting now) with executing := true }
  | collected (thread : Thread) (alive : Bool) (now : UInt64) (final : Taking queue)
      (stands : before.phase thread = .collecting now)
      (taken : Taken queue (due executionTick now) before.heap final)
      (left : ∀ job ∈ queue.contents final.heap, now < executionTick job) :
      Move before (.advance thread alive)
        { enter before thread (.handing now final.taken) with
          heap := final.heap
          collected := before.collected ++ final.taken }
  | skipped (thread : Thread) (alive : Bool) (now : UInt64) (job : Handle) (rest : List Handle)
      (stands : before.phase thread = .handing now (job :: rest)) :
      Move before (.advance thread alive)
        { enter before thread (.handing now rest) with
          tested := before.tested ++ [job]
          released := before.released ++ [job] }
  | passed (thread : Thread) (alive : Bool) (now : UInt64) (job : Handle) (rest : List Handle)
      (stands : before.phase thread = .handing now (job :: rest))
      (kept : before.canceled job = false) :
      Move before (.advance thread alive)
        { enter before thread (.giving now job rest) with tested := before.tested ++ [job] }
  | given (thread : Thread) (alive : Bool) (now : UInt64) (job : Handle) (rest : List Handle)
      (stands : before.phase thread = .giving now job rest) :
      Move before (.advance thread alive)
        { enter before thread (.pushing now job rest) with
          handedOver := before.handedOver ++ [(job, now)] }
  | returned (thread : Thread) (alive : Bool) (now : UInt64) (job : Handle) (rest : List Handle)
      (stands : before.phase thread = .pushing now job rest) :
      Move before (.advance thread alive)
        { enter before thread (.handing now rest) with released := before.released ++ [job] }
  | ended (thread : Thread) (alive : Bool) (now : UInt64)
      (stands : before.phase thread = .handing now []) :
      Move before (.advance thread alive) { enter before thread .idle with executing := false }

theorem step_move (before after : System queue Thread) (label : Label Thread Handle)
    (taken : step before label = some after) : Move before label after := by
  cases label with
  | addReservableJob job =>
      cases taken
      exact .added job
  | cancel job =>
      cases taken
      exact .canceled job
  | checkReservedJob thread now =>
      cases taken
      unfold checkReservedJob
      split
      case isTrue busy => exact .refused thread now busy
      case isFalse free => exact .entered thread now (Bool.eq_false_iff.mpr free)
  | advance thread alive =>
      unfold step advance at taken
      simp only at taken
      split at taken
      case h_1 => cases taken
      case h_2 now stands =>
        obtain ⟨final, ended, some, left⟩ := collect_spec now before.heap
        rw [ended] at taken
        cases taken
        exact .collected thread alive now final stands some left
      case h_3 now stands =>
        cases taken
        exact .ended thread alive now stands
      case h_4 now job rest stands =>
        split at taken
        case isTrue => cases taken; exact .skipped thread alive now job rest stands
        case isFalse kept =>
          cases taken
          rw [Bool.not_eq_true, Bool.or_eq_false_iff] at kept
          exact .passed thread alive now job rest stands kept.1
      case h_5 now job rest stands =>
        cases taken
        exact .given thread alive now job rest stands
      case h_6 now job rest stands =>
        cases taken
        exact .returned thread alive now job rest stands

/-- The jobs a check has still to test, the one it is dealing with, and that one again
once it has been given to its owner. -/
def rest : Phase Handle → List Handle
  | .handing _ rest => rest
  | .giving _ _ rest => rest
  | .pushing _ _ rest => rest
  | _ => []

def current : Phase Handle → List Handle
  | .giving _ job _ => [job]
  | .pushing _ job _ => [job]
  | _ => []

def given : Phase Handle → List Handle
  | .pushing _ job _ => [job]
  | _ => []

def now : Phase Handle → Option UInt64
  | .idle => none
  | .collecting now => some now
  | .handing now _ => some now
  | .giving now _ _ => some now
  | .pushing now _ _ => some now

inductive Sole (system : System queue Thread) : Phase Handle → Prop where
  | free (unset : system.executing = false) (idle : ∀ thread, system.phase thread = .idle) :
      Sole system .idle
  | busy (thread : Thread) (set : system.executing = true)
      (inside : (now (system.phase thread)).isSome)
      (others : ∀ other, other ≠ thread → system.phase other = .idle) :
      Sole system (system.phase thread)

structure Account (system : System queue Thread) (active : Phase Handle) : Prop where
  collected : system.collected = system.tested ++ rest active
  tested : system.tested = system.released ++ current active
  handed : (system.handedOver.map Prod.fst).Sublist (system.released ++ given active)
  due : ∀ tick, now active = some tick → ∀ job ∈ current active ++ rest active,
    executionTick job ≤ tick

structure Invariant (system : System queue Thread) : Prop where
  waiting : (queue.contents system.heap).Nodup
  once : system.collected.Nodup
  apart : ∀ job ∈ system.collected, job ∉ queue.contents system.heap
  known : ∀ job, job ∈ queue.contents system.heap ∨ job ∈ system.collected → job ∈ system.added
  timely : ∀ pair ∈ system.handedOver, executionTick pair.1 ≤ pair.2
  accounted : ∃ active, Sole system active ∧ Account system active

omit [DecidableEq Thread] [DecidableEq Handle] in
theorem start_invariant : Invariant (System.start queue : System queue Thread) where
  waiting := by simp [System.start, queue.contents_empty]
  once := .nil
  apart _ member := by cases member
  known job found := by simp [System.start, queue.contents_empty] at found
  timely _ member := by cases member
  accounted :=
    ⟨.idle, .free rfl fun _ => rfl, rfl, rfl, List.nil_sublist _, fun _ inside => by cases inside⟩

omit [DecidableEq Thread] [DecidableEq Handle] in
theorem sole_active (system : System queue Thread) (active : Phase Handle)
    (sole : Sole system active) (thread : Thread) (tick : UInt64)
    (inside : now (system.phase thread) = some tick) :
    active = system.phase thread ∧ system.executing = true ∧
      ∀ other, other ≠ thread → system.phase other = .idle := by
  cases sole with
  | free _ idle =>
      rw [idle thread] at inside
      cases inside
  | busy actor set _ others =>
      have same : thread = actor := by
        by_contra different
        rw [others thread different] at inside
        cases inside
      subst same
      exact ⟨rfl, set, others⟩

omit [DecidableEq Handle] in
theorem sole_next (after : System queue Thread) (phases : Thread → Phase Handle) (thread : Thread)
    (next : Phase Handle) (moved : after.phase = Function.update phases thread next)
    (others : ∀ other, other ≠ thread → phases other = .idle) (set : after.executing = true)
    (inside : (now next).isSome) : Sole after next := by
  have stands : after.phase thread = next := by rw [moved, Function.update_self]
  have frame : ∀ other, other ≠ thread → after.phase other = .idle := by
    intro other different
    rw [moved, Function.update_of_ne different]
    exact others other different
  rw [← stands] at inside ⊢
  exact .busy thread set inside frame

omit [DecidableEq Thread] [DecidableEq Handle] in
theorem sole_frame (before after : System queue Thread) (active : Phase Handle)
    (sole : Sole before active) (executing : after.executing = before.executing)
    (phase : after.phase = before.phase) :
    Sole after active := by
  cases sole with
  | free unset idle =>
      exact .free (executing.trans unset) fun thread => by rw [phase]; exact idle thread
  | busy thread set inside others =>
      rw [← phase] at inside others ⊢
      exact .busy thread (executing.trans set) inside others

omit [DecidableEq Thread] [DecidableEq Handle] in
theorem added_invariant (before : System queue Thread) (job : Handle) (holds : Invariant before)
    (fresh : job ∉ before.added) : Invariant (addReservableJob before job) where
  waiting := by
    have absent : job ∉ queue.contents before.heap :=
      fun member => fresh (holds.known job (.inl member))
    exact (queue.contents_push before.heap job) ▸ Multiset.nodup_cons.mpr ⟨absent, holds.waiting⟩
  once := holds.once
  apart other member := by
    have different : other ≠ job := fun same => fresh (same ▸ holds.known other (.inr member))
    simp only [addReservableJob, queue.contents_push, Multiset.mem_cons, not_or]
    exact ⟨different, holds.apart other member⟩
  known other found := by
    simp only [addReservableJob, queue.contents_push, Multiset.mem_cons, List.mem_append,
      List.mem_singleton] at found ⊢
    rcases found with (same | queued) | taken
    · exact .inr same
    · exact .inl (holds.known other (.inl queued))
    · exact .inl (holds.known other (.inr taken))
  timely := holds.timely
  accounted := by
    obtain ⟨active, sole, account⟩ := holds.accounted
    exact ⟨active, sole_frame before _ active sole rfl rfl, account.collected, account.tested,
      account.handed, account.due⟩

omit [DecidableEq Thread] [DecidableEq Handle] in
theorem inside_invariant (before after : System queue Thread) (holds : Invariant before)
    (thread : Thread) (tick : UInt64) (inside : now (before.phase thread) = some tick)
    (heap : after.heap = before.heap) (collected : after.collected = before.collected)
    (added : after.added = before.added)
    (timely : ∀ pair ∈ after.handedOver, executionTick pair.1 ≤ pair.2)
    (accounted : Account before (before.phase thread) → before.executing = true → (∀ other, other ≠
      thread → before.phase other = .idle) → ∃ active, Sole after active ∧ Account after active) :
    Invariant after where
  waiting := heap ▸ holds.waiting
  once := collected ▸ holds.once
  apart := by
    rw [heap, collected]
    exact holds.apart
  known := by
    rw [heap, collected, added]
    exact holds.known
  timely := timely
  accounted := by
    obtain ⟨active, sole, account⟩ := holds.accounted
    obtain ⟨same, set, others⟩ := sole_active before active sole thread tick inside
    exact accounted (same ▸ account) set others

omit [DecidableEq Handle] in
theorem collected_invariant (before : System queue Thread) (holds : Invariant before)
    (thread : Thread) (tick : UInt64) (final : Taking queue)
    (stands : before.phase thread = .collecting tick)
    (taken : Taken queue (due executionTick tick) before.heap final) :
    Invariant { enter before thread (.handing tick final.taken) with
      heap := final.heap
      collected := before.collected ++ final.taken } := by
  have whole : ((final.taken : Multiset Handle) + queue.contents final.heap).Nodup :=
    taken.splits ▸ holds.waiting
  obtain ⟨fresh, left, separate⟩ := Multiset.nodup_add.mp whole
  have queued : ∀ job, job ∈ queue.contents before.heap ↔
      job ∈ final.taken ∨ job ∈ queue.contents final.heap := by
    intro job
    rw [taken.splits, Multiset.mem_add, Multiset.mem_coe]
  obtain ⟨active, sole, account⟩ := holds.accounted
  obtain ⟨same, set, others⟩ := sole_active before active sole thread tick (by rw [stands]; rfl)
  rw [same, stands] at account
  constructor
  case waiting => exact left
  case once =>
    refine List.nodup_append.mpr ⟨holds.once, Multiset.coe_nodup.mp fresh, ?_⟩
    rintro job old other new rfl
    exact holds.apart job old ((queued job).mpr (.inl new))
  case apart =>
    intro job member kept
    rcases List.mem_append.mp member with old | new
    · exact holds.apart job old ((queued job).mpr (.inr kept))
    · exact Multiset.disjoint_left.mp separate new kept
  case known =>
    intro job found
    rcases found with kept | line
    · exact holds.known job (.inl ((queued job).mpr (.inr kept)))
    · rcases List.mem_append.mp line with old | new
      · exact holds.known job (.inr old)
      · exact holds.known job (.inl ((queued job).mpr (.inl new)))
  case timely => exact holds.timely
  case accounted =>
    refine ⟨.handing tick final.taken, sole_next _ before.phase thread _ rfl others set rfl, ?_⟩
    constructor
    case collected =>
      have line := account.collected
      simp only [rest, List.append_nil] at line
      simp only [rest, line]
      rfl
    case tested => exact account.tested
    case handed => exact account.handed
    case due =>
      intro limit reached job member
      simp only [now, Option.some.injEq] at reached
      subst reached
      exact (due_iff tick job).mp (taken.accepted job member)

section Steps
variable (before : System queue Thread) (holds : Invariant before) (thread : Thread) (tick : UInt64)
omit [DecidableEq Handle]
include holds

theorem entered_invariant (free : before.executing = false) :
    Invariant { enter before thread (.collecting tick) with executing := true } := by
  obtain ⟨active, sole, account⟩ := holds.accounted
  cases sole with
  | busy _ set => exact absurd (free.symm.trans set) Bool.false_ne_true
  | free _ idle =>
      have entered :=
        sole_next { enter before thread (.collecting tick) with executing := true } before.phase
          thread (.collecting tick) rfl (fun other _ => idle other) rfl rfl
      exact ⟨holds.waiting, holds.once, holds.apart, holds.known, holds.timely,
        .collecting tick, entered,
        account.collected, account.tested, account.handed, fun _ _ _ member => by cases member⟩

theorem skipped_invariant (job : Handle) (later : List Handle)
    (stands : before.phase thread = .handing tick (job :: later)) :
    Invariant { enter before thread (.handing tick later) with
      tested := before.tested ++ [job]
      released := before.released ++ [job] } := by
  refine inside_invariant before _ holds thread tick (by rw [stands]; rfl) rfl rfl rfl
    holds.timely ?_
  intro account set others
  rw [stands] at account
  have line := account.collected
  have done := account.tested
  refine ⟨.handing tick later, sole_next _ before.phase thread _ rfl others set rfl, ?_, ?_, ?_, ?_⟩
  · simp only [rest, List.append_assoc, List.singleton_append]
    exact line
  · simp only [current, List.append_nil] at done ⊢
    rw [done]
  · simp only [given, List.append_nil]
    exact (account.handed.trans (by simp [given])).trans (List.sublist_append_left _ _)
  · intro limit reached other member
    exact account.due limit reached other (List.mem_cons_of_mem _ member)

theorem passed_invariant (job : Handle) (later : List Handle)
    (stands : before.phase thread = .handing tick (job :: later)) :
    Invariant { enter before thread (.giving tick job later) with
        tested := before.tested ++ [job] } := by
  refine inside_invariant before _ holds thread tick (by rw [stands]; rfl) rfl rfl rfl
    holds.timely ?_
  intro account set others
  rw [stands] at account
  have line := account.collected
  have done := account.tested
  refine ⟨.giving tick job later, sole_next _ before.phase thread _ rfl others set rfl,
    ?_, ?_, account.handed, account.due⟩
  · simp only [rest, List.append_assoc, List.singleton_append]
    exact line
  · simp only [current, List.append_nil] at done ⊢
    rw [done]
    rfl

theorem given_invariant (job : Handle) (later : List Handle)
    (stands : before.phase thread = .giving tick job later) :
    Invariant { enter before thread (.pushing tick job later) with
      handedOver := before.handedOver ++ [(job, tick)] } := by
  have timely : ∀ pair ∈ before.handedOver ++ [(job, tick)], executionTick pair.1 ≤ pair.2 := by
    obtain ⟨active, sole, account⟩ := holds.accounted
    have same := (sole_active before active sole thread tick (by rw [stands]; rfl)).1
    rw [same, stands] at account
    intro pair member
    rcases List.mem_append.mp member with old | new
    · exact holds.timely pair old
    · rw [List.mem_singleton.mp new]
      exact account.due tick rfl job (List.mem_cons_self)
  refine inside_invariant before _ holds thread tick (by rw [stands]; rfl) rfl rfl rfl
    timely ?_
  intro account set others
  rw [stands] at account
  refine ⟨.pushing tick job later, sole_next _ before.phase thread _ rfl others set rfl,
    account.collected, account.tested, ?_, account.due⟩
  have handed := account.handed
  simp only [given, List.append_nil] at handed
  simp only [List.map_append]
  exact handed.append (List.Sublist.refl _)

theorem returned_invariant (job : Handle) (later : List Handle)
    (stands : before.phase thread = .pushing tick job later) :
    Invariant { enter before thread (.handing tick later) with
        released := before.released ++ [job] } := by
  refine inside_invariant before _ holds thread tick (by rw [stands]; rfl) rfl rfl rfl
    holds.timely ?_
  intro account set others
  rw [stands] at account
  refine ⟨.handing tick later, sole_next _ before.phase thread _ rfl others set rfl,
    account.collected, ?_, ?_, ?_⟩
  · simp only [current, List.append_nil]
    exact account.tested
  · simp only [given, List.append_nil]
    exact account.handed
  · intro limit reached other member
    exact account.due limit reached other (List.mem_cons_of_mem _ member)

theorem ended_invariant (stands : before.phase thread = .handing tick []) :
    Invariant { enter before thread .idle with executing := false } := by
  refine inside_invariant before _ holds thread tick (by rw [stands]; rfl) rfl rfl rfl
    holds.timely ?_
  intro account _ others
  rw [stands] at account
  have idle : ∀ other, Function.update before.phase thread .idle other = .idle := by
    intro other
    by_cases mine : other = thread
    · rw [mine, Function.update_self]
    · rw [Function.update_of_ne mine]
      exact others other mine
  exact ⟨.idle, .free rfl idle, account.collected, account.tested, account.handed,
    fun _ inside => by cases inside⟩

end Steps

theorem move_invariant (before after : System queue Thread) (label : Label Thread Handle)
    (holds : Invariant before) (move : Move before label after)
    (allowed : ReservedJobs.once before label after) :
    Invariant after := by
  cases move with
  | added job => exact added_invariant before job holds (allowed job rfl)
  | canceled job =>
      obtain ⟨active, sole, account⟩ := holds.accounted
      exact ⟨holds.waiting, holds.once, holds.apart, holds.known, holds.timely, active,
        sole_frame before _ active sole rfl rfl, account.collected, account.tested,
        account.handed, account.due⟩
  | refused => exact holds
  | entered thread tick free => exact entered_invariant before holds thread tick free
  | collected thread alive tick final stands taken _ =>
      exact collected_invariant before holds thread tick final stands taken
  | skipped thread _ tick job later stands =>
      exact skipped_invariant before holds thread tick job later stands
  | passed thread _ tick job later stands _ =>
      exact passed_invariant before holds thread tick job later stands
  | given thread _ tick job later stands =>
      exact given_invariant before holds thread tick job later stands
  | returned thread _ tick job later stands =>
      exact returned_invariant before holds thread tick job later stands
  | ended thread _ tick stands => exact ended_invariant before holds thread tick stands

theorem run_invariant (system : System queue Thread)
    (reached : Reachable step ReservedJobs.once (System.start queue) system) : Invariant system :=
  reachable_invariant step ReservedJobs.once Invariant (System.start queue) start_invariant
    (fun before label after holds taken allowed =>
      move_invariant before after label holds
        (step_move before after label taken) allowed) system reached

omit [DecidableEq Thread] [DecidableEq Handle] in
theorem handed_sublist_tested (system : System queue Thread) (holds : Invariant system) :
    (system.handedOver.map Prod.fst).Sublist system.tested := by
  obtain ⟨active, _, account⟩ := holds.accounted
  have grows : (given active).Sublist (current active) := by
    cases active <;> simp [given, current]
  rw [account.tested]
  exact account.handed.trans ((List.Sublist.refl _).append grows)

omit [DecidableEq Thread] [DecidableEq Handle] in
theorem handed_sublist_collected (system : System queue Thread) (holds : Invariant system) :
    (system.handedOver.map Prod.fst).Sublist system.collected := by
  obtain ⟨active, _, account⟩ := holds.accounted
  rw [account.collected]
  exact (handed_sublist_tested system holds).trans (List.sublist_append_left _ _)

structure Withdrawn (job : Handle) (system : System queue Thread) : Prop where
  canceled : system.canceled job = true
  kept : job ∉ system.handedOver.map Prod.fst
  untouched : ∀ thread tick later, system.phase thread ≠ .giving tick job later

omit [DecidableEq Handle] in
theorem untouched_frame (before after : System queue Thread) (job : Handle) (thread : Thread)
    (next : Phase Handle) (moved : after.phase = Function.update before.phase thread next)
    (untouched : ∀ thread tick later, before.phase thread ≠ .giving tick job later)
    (other : ∀ tick later, next ≠ .giving tick job later) (actor : Thread) (tick : UInt64)
    (later : List Handle) : after.phase actor ≠ .giving tick job later := by
  rw [moved]
  by_cases mine : actor = thread
  · rw [mine, Function.update_self]
    exact other tick later
  · rw [Function.update_of_ne mine]
    exact untouched actor tick later

theorem move_withdrawn (job : Handle) (before after : System queue Thread)
    (label : Label Thread Handle) (holds : Withdrawn job before) (move : Move before label after) :
    Withdrawn job after := by
  cases move with
  | added | refused => exact ⟨holds.canceled, holds.kept, holds.untouched⟩
  | canceled other =>
      refine ⟨?_, holds.kept, holds.untouched⟩
      by_cases same : job = other
      · rw [same]
        exact Function.update_self ..
      · exact (Function.update_of_ne same ..).trans holds.canceled
  | entered thread | collected thread | skipped thread | returned thread | ended thread =>
      exact ⟨holds.canceled, holds.kept,
        untouched_frame before _ job thread _ rfl holds.untouched fun _ _ same => by cases same⟩
  | passed thread alive tick other later stands kept =>
      refine ⟨holds.canceled, holds.kept,
        untouched_frame before _ job thread _ rfl holds.untouched ?_⟩
      -- The test has just found the flag unset.
      rintro limit rest same
      cases same
      exact absurd (kept.symm.trans holds.canceled) Bool.false_ne_true
  | given thread alive tick other later stands =>
      refine ⟨holds.canceled, ?_, untouched_frame before _ job thread _ rfl holds.untouched
        fun _ _ same => by cases same⟩
      simp only [List.map_append, List.mem_append, List.map_cons, List.map_nil,
        List.mem_singleton, not_or]
      refine ⟨holds.kept, ?_⟩
      rintro rfl
      exact holds.untouched thread tick later stands

/-- `first` was queued together with the later `second`: it is not overtaken. -/
structure Ahead (first second : Handle) (system : System queue Thread) : Prop where
  known : first ∈ system.added
  order : system.collected.Pairwise fun earlier later => ¬ (earlier = second ∧ later = first)
  behind : first ∈ queue.contents system.heap → second ∉ system.collected

omit [DecidableEq Thread] [DecidableEq Handle] in
theorem queued_ahead (system : System queue Thread) (holds : Invariant system)
    (first second : Handle) (firstQueued : first ∈ queue.contents system.heap)
    (secondQueued : second ∈ queue.contents system.heap) :
    Ahead first second system where
  known := holds.known first (.inl firstQueued)
  order := List.pairwise_of_forall_mem_list fun _ member _ _ same =>
    holds.apart second (same.1 ▸ member) secondQueued
  behind _ member := holds.apart second member secondQueued

theorem move_ahead (first second : Handle) (sooner : executionTick first < executionTick second)
    (before after : System queue Thread) (label : Label Thread Handle)
    (holds : Ahead first second before) (move : Move before label after)
    (allowed : ReservedJobs.once before label after) :
    Ahead first second after := by
  cases move with
  | canceled | refused | entered | skipped | passed | given | returned | ended =>
      exact ⟨holds.known, holds.order, holds.behind⟩
  | added job =>
      refine ⟨List.mem_append_left _ holds.known, holds.order, ?_⟩
      intro member
      simp only [addReservableJob, queue.contents_push, Multiset.mem_cons] at member
      rcases member with same | queued
      · exact absurd (same ▸ holds.known) (allowed job rfl)
      · exact holds.behind queued
  | collected thread alive tick final stands taken left =>
      have queued : ∀ job, job ∈ queue.contents before.heap ↔
          job ∈ final.taken ∨ job ∈ queue.contents final.heap := by
        intro job
        rw [taken.splits, Multiset.mem_add, Multiset.mem_coe]
      constructor
      case known => exact holds.known
      case order =>
        refine List.pairwise_append.mpr ⟨holds.order, taken.sorted.imp ?_, ?_⟩
        · rintro earlier later ordered ⟨rfl, rfl⟩
          rw [compare_false_iff] at ordered
          exact absurd sooner (UInt64.not_lt.mpr ordered)
        · rintro earlier old later new ⟨rfl, rfl⟩
          exact holds.behind ((queued later).mpr (.inl new)) old
      case behind =>
        -- What stays in the queue is later than `tick`, and so is `second`.
        intro member gone
        have late := UInt64.lt_trans (left first member) sooner
        rcases List.mem_append.mp gone with old | new
        · exact holds.behind ((queued first).mpr (.inr member)) old
        · exact absurd late
            (UInt64.not_lt.mpr ((due_iff tick second).mp (taken.accepted second new)))

omit [DecidableEq Thread] [DecidableEq Handle] in
theorem comes_after (first second : Handle) (different : first ≠ second) (jobs : List Handle)
    (order : jobs.Pairwise fun earlier later => ¬ (earlier = second ∧ later = first))
    (hasFirst : first ∈ jobs) (hasSecond : second ∈ jobs) :
    ∃ earlier later, jobs = earlier ++ first :: later ∧ second ∈ later := by
  obtain ⟨earlier, later, split⟩ := List.append_of_mem hasFirst
  refine ⟨earlier, later, split, ?_⟩
  subst split
  rcases List.mem_append.mp hasSecond with sooner | rest
  · exact absurd ⟨rfl, rfl⟩
      ((List.pairwise_append.mp order).2.2 second sooner first List.mem_cons_self)
  · rcases List.mem_cons.mp rest with same | found
    · exact absurd same.symm different
    · exact found

def leastTick : Implementation Nat (reservableJobCompare UInt64.ofNat) :=
  leastKey _ (fun job => (UInt64.ofNat job).toNat) fun _ _ => rfl

end NetCore.ReservationOrder
