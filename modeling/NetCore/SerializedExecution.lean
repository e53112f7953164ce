import NetCore.ExecutionRight

/-! Every step of the job system is one of a few moves, and each move keeps the
account of the execution rights. From the account follow, for all runs in which
jobs are not null, `ClearJobs` is not called and fewer than `2 ^ 31` jobs of a
serializer wait, that a serializer is executed by one thread at a time and that no
job is left behind when all threads have returned. -/
namespace NetCore.SerializedExecution
open TransitionRuns UniquePlacement JobSerializer ExecutionRight

universe u v w
variable {Thread : Type u} {Name : Type v} {Job : Type w}

def arrival : Frame Thread Name Job → Option Name
  | .pushQueue name _ _ => some name
  | _ => none

def entering : Frame Thread Name Job → Option (Name × Option (Entry Thread Job))
  | .pushAdd name entry => some (name, entry)
  | .pushQueue name entry _ => some (name, entry)
  | _ => none

def waits : Frame Thread Name Job → Bool
  | .running _ _ _ _ _ => true
  | .doLoop _ => true
  | _ => false

def Nested (stack : List (Frame Thread Name Job)) : Prop := ∀ frame ∈ stack.tail, waits frame = true

structure Inert (old new : List (Frame Thread Name Job)) : Prop where
  hands : new.filterMap hand = old.filterMap hand
  arrivals : new.filterMap arrival = old.filterMap arrival
  enters : new.filterMap entering = old.filterMap entering
  nested : Nested old → Nested new

theorem Inert.rights {old new : List (Frame Thread Name Job)} (inert : Inert old new) :
    new.filterMap right = old.filterMap right := by
  have seen : ∀ stack : List (Frame Thread Name Job),
      stack.filterMap right = (stack.filterMap hand).map Prod.fst := by
    intro stack
    rw [List.map_filterMap]
    congr 1
    funext frame
    rw [hand]
    cases right frame <;> rfl
  rw [seen, seen, inert.hands]

theorem Inert.kept {old new : List (Frame Thread Name Job)} (inert : Inert old new)
    (frame : Frame Thread Name Job) (member : frame ∈ new) (name : Name)
    (carried : right frame = some name) :
    ∃ before ∈ old, right before = some name ∧ inHand before = inHand frame := by
  have shown : (name, inHand frame) ∈ old.filterMap hand := by
    rw [← inert.hands]
    exact List.mem_filterMap.mpr ⟨frame, member, by rw [hand, carried]; rfl⟩
  obtain ⟨before, there, same⟩ := List.mem_filterMap.mp shown
  obtain ⟨owner, held, pair⟩ := Option.map_eq_some_iff.mp same
  rw [Prod.mk.injEq] at pair
  exact ⟨before, there, pair.1 ▸ held, pair.2⟩

theorem inert_refl (stack : List (Frame Thread Name Job)) : Inert stack stack where
  hands := rfl
  arrivals := rfl
  enters := rfl
  nested := id

theorem inert_return (top : Frame Thread Name Job) (below : List (Frame Thread Name Job))
    (without : right top = none) (unrelated : entering top = none)
    (unarrived : arrival top = none) :
    Inert (top :: below) below where
  hands := by simp [hand, without]
  arrivals := by simp [unarrived]
  enters := by simp [unrelated]
  nested shape frame member := shape frame (List.mem_of_mem_tail member)

theorem inert_replace (top next : Frame Thread Name Job) (below : List (Frame Thread Name Job))
    (rights : right next = right top) (hands : inHand next = inHand top)
    (enters : entering next = entering top) (arrivals : arrival next = arrival top) :
    Inert (top :: below) (next :: below) where
  hands := by simp [List.filterMap_cons, hand, rights, hands]
  arrivals := by simp [List.filterMap_cons, arrivals]
  enters := by simp [List.filterMap_cons, enters]
  nested shape := shape

theorem nested_call (stack : List (Frame Thread Name Job)) (called : Frame Thread Name Job)
    (free : mayCall stack = true) (shape : Nested stack) : Nested (called :: stack) := by
  intro frame member
  rw [List.tail_cons] at member
  cases stack with
  | nil => cases member
  | cons top below =>
      rcases List.mem_cons.mp member with rfl | deeper
      · cases frame <;> simp [mayCall] at free
        rfl
      · exact shape frame deeper

variable [DecidableEq Thread] [DecidableEq Name]

inductive Move (before : System Thread Name Job) :
    Label Thread Name Job → System Thread Name Job → Prop where
  | quiet (label : Label Thread Name Job) (thread : Thread) (stack : List (Frame Thread Name Job))
      (after : System Thread Name Job) (inert : Inert (before.stack thread) stack)
      (stacked : after.stack = Function.update before.stack thread stack)
      (serializers : after.serializers = before.serializers)
      (jobQueue : after.jobQueue = before.jobQueue) (calls : after.calls = before.calls)
      (pushed : after.pushed = before.pushed) : Move before label after
  | call (thread : Thread) (name : Name) (job : Option Job)
      (free : mayCall (before.stack thread) = true) :
      Move before (.push thread name job) (callPush before thread name job)
  | add (thread : Thread) (tick : UInt64) (name : Name) (entry : Option (Entry Thread Job))
      (below : List (Frame Thread Name Job))
      (stands : before.stack thread = .pushAdd name entry :: below) :
      Move before (.advance thread tick)
        (setStack (setSerializer before name ((before.serializers name).fetchAdd thread)) thread
          (.pushQueue name entry (before.serializers name).queuedCount :: below))
  | queue (thread : Thread) (tick : UInt64) (name : Name) (entry : Option (Entry Thread Job))
      (prevCount : BitVec 32) (below : List (Frame Thread Name Job))
      (stands : before.stack thread = .pushQueue name entry prevCount :: below) :
      Move before (.advance thread tick)
        (setStack (setSerializer before name ((before.serializers name).enqueue thread entry))
          thread (.pushTest name prevCount :: below))
  | drain (thread : Thread) (tick : UInt64) (name : Name) (startTick : UInt64)
      (below : List (Frame Thread Name Job))
      (stands : before.stack thread = .execDrain name startTick :: below) :
      Move before (.advance thread tick)
        (setStack (setSerializer before name (before.serializers name).clear.2) thread
          (.execLoop name startTick (before.serializers name).clear.1.length
            (before.serializers name).clear.1 ::
            below))
  | begin (thread : Thread) (tick : UInt64) (name : Name) (startTick : UInt64) (currentCount : Nat)
      (entry : Entry Thread Job) (rest : List (Entry Thread Job))
      (below : List (Frame Thread Name Job))
      (stands :
        before.stack thread = .execLoop name startTick currentCount (entry :: rest) :: below) :
      Move before (.advance thread tick)
        (setStack (setSerializer before name ((before.serializers name).begin entry)) thread
          (.running name startTick currentCount entry rest :: below))
  | complete (thread : Thread) (name : Name) (startTick : UInt64) (currentCount : Nat)
      (entry : Entry Thread Job) (rest : List (Entry Thread Job))
      (below : List (Frame Thread Name Job))
      (stands : before.stack thread = .running name startTick currentCount entry rest :: below) :
      Move before (.finish thread)
        (setStack (setSerializer before name ((before.serializers name).complete entry)) thread
          (.execLoop name startTick currentCount rest :: below))
  | subtract (thread : Thread) (tick : UInt64) (name : Name) (startTick : UInt64)
      (currentCount : Nat) (below : List (Frame Thread Name Job))
      (stands : before.stack thread = .execLoop name startTick currentCount [] :: below) :
      Move before (.advance thread tick)
        (setStack (setSerializer before name ((before.serializers name).fetchSub currentCount))
          thread
          (if countMatches (before.serializers name).queuedCount currentCount then
            .execLeave :: below
          else .execClock name startTick :: below))
  | handOver (thread : Thread) (tick : UInt64) (name : Name) (top : Frame Thread Name Job)
      (below stack : List (Frame Thread Name Job)) (stands : before.stack thread = top :: below)
      (source : top = .pushTest name 0 ∧ stack = below ∨ top = .execHandOver name ∧
        stack = .execLeave :: below) :
      Move before (.advance thread tick) (setStack (addJobSerializer before name) thread stack)
  | takeOver (thread : Thread) (tick : UInt64) (name : Name) (rest : List Name) (start : UInt64)
      (below : List (Frame Thread Name Job)) (stands : before.stack thread = .doPop start :: below)
      (waiting : before.jobQueue = name :: rest) :
      Move before (.advance thread tick)
        (setStack { before with jobQueue := rest } thread
          (.execEnter name :: .doLoop start :: below))
  | cleared : Move before .clearJobs { before with jobQueue := [] }

theorem quiet_move (before after : System Thread Name Job) (thread : Thread) (tick : UInt64)
    (top : Frame Thread Name Job) (below stack : List (Frame Thread Name Job))
    (stands : before.stack thread = top :: below) (inert : Inert (top :: below) stack)
    (stacked : after.stack = Function.update before.stack thread stack)
    (serializers : after.serializers = before.serializers)
    (jobQueue : after.jobQueue = before.jobQueue) (calls : after.calls = before.calls)
    (pushed : after.pushed = before.pushed) :
    Move before (.advance thread tick) after :=
  .quiet _ thread stack after (stands ▸ inert) stacked serializers jobQueue calls pushed

section Frames
variable (before after : System Thread Name Job) (thread : Thread) (tick : UInt64)
  (below : List (Frame Thread Name Job))

theorem push_test_move (name : Name) (prevCount : BitVec 32)
    (stands : before.stack thread = .pushTest name prevCount :: below)
    (taken : advanceFrame before thread tick below (.pushTest name prevCount) = some after) :
    Move before (.advance thread tick) after := by
  by_cases first : prevCount = 0
  · subst first
    cases nesting : before.current thread with
    | none =>
        simp only [advanceFrame, nesting, if_true, Option.some.injEq] at taken
        subst taken
        exact quiet_move before _ thread tick _ below _ stands
          (inert_replace _ (.execEnter name) below rfl rfl rfl rfl) rfl rfl rfl rfl rfl
    | some other =>
        simp only [advanceFrame, nesting, if_true, Option.some.injEq] at taken
        exact taken ▸ .handOver thread tick name _ below below stands (.inl ⟨rfl, rfl⟩)
  · simp only [advanceFrame, if_neg first, Option.some.injEq] at taken
    subst taken
    exact quiet_move before _ thread tick _ below _ stands
      (inert_return _ below (if_neg first) rfl rfl) rfl rfl rfl rfl rfl

theorem exec_enter_move (name : Name) (stands : before.stack thread = .execEnter name :: below)
    (taken : advanceFrame before thread tick below (.execEnter name) = some after) :
    Move before (.advance thread tick) after := by
  simp only [advanceFrame, Option.some.injEq] at taken
  subst taken
  exact quiet_move before _ thread tick _ below _ stands
    (inert_replace _ (.execDrain name tick) below rfl rfl rfl rfl) rfl rfl rfl rfl rfl

theorem exec_loop_move (name : Name) (startTick : UInt64) (currentCount : Nat)
    (jobs : List (Entry Thread Job))
    (stands : before.stack thread = .execLoop name startTick currentCount jobs :: below)
    (taken : advanceFrame before thread tick below (.execLoop name startTick currentCount jobs) =
      some after) :
    Move before (.advance thread tick) after := by
  cases jobs with
  | nil =>
      simp only [advanceFrame, Option.some.injEq] at taken
      exact taken ▸ .subtract thread tick name startTick currentCount below stands
  | cons entry rest =>
      simp only [advanceFrame, Option.some.injEq] at taken
      exact taken ▸ .begin thread tick name startTick currentCount entry rest below stands

theorem exec_clock_move (name : Name) (startTick : UInt64)
    (stands : before.stack thread = .execClock name startTick :: below)
    (taken : advanceFrame before thread tick below (.execClock name startTick) = some after) :
    Move before (.advance thread tick) after := by
  simp only [advanceFrame] at taken
  split at taken
  · rw [Option.some.injEq] at taken
    subst taken
    exact quiet_move before _ thread tick _ below _ stands
      (inert_replace _ (.execHandOver name) below rfl rfl rfl rfl) rfl rfl rfl rfl rfl
  · rw [Option.some.injEq] at taken
    subst taken
    exact quiet_move before _ thread tick _ below _ stands
      (inert_replace _ (.execDrain name startTick) below rfl rfl rfl rfl) rfl rfl rfl rfl rfl

theorem exec_leave_move (stands : before.stack thread = .execLeave :: below)
    (taken : advanceFrame before thread tick below .execLeave = some after) :
    Move before (.advance thread tick) after := by
  simp only [advanceFrame, Option.some.injEq] at taken
  subst taken
  exact quiet_move before _ thread tick _ below _ stands
    (inert_return _ below rfl rfl rfl) rfl rfl rfl rfl rfl

theorem do_loop_move (start : UInt64) (stands : before.stack thread = .doLoop start :: below)
    (taken : advanceFrame before thread tick below (.doLoop start) = some after) :
    Move before (.advance thread tick) after := by
  simp only [advanceFrame] at taken
  split at taken
  · rw [Option.some.injEq] at taken
    subst taken
    exact quiet_move before _ thread tick _ below _ stands
      (inert_return _ below rfl rfl rfl) rfl rfl rfl rfl rfl
  · rw [Option.some.injEq] at taken
    subst taken
    exact quiet_move before _ thread tick _ below _ stands
      (inert_replace _ (.doPop start) below rfl rfl rfl rfl) rfl rfl rfl rfl rfl

theorem do_pop_move (start : UInt64) (stands : before.stack thread = .doPop start :: below)
    (taken : advanceFrame before thread tick below (.doPop start) = some after) :
    Move before (.advance thread tick) after := by
  cases waiting : before.jobQueue with
  | nil =>
      simp only [advanceFrame, waiting, LockQueue.tryPop, Option.some.injEq] at taken
      subst taken
      exact quiet_move before _ thread tick _ below _ stands
        (inert_return _ below rfl rfl rfl) rfl rfl rfl rfl rfl
  | cons name rest =>
      simp only [advanceFrame, waiting, LockQueue.tryPop, Option.some.injEq] at taken
      exact taken ▸ .takeOver thread tick name rest start below stands waiting

end Frames

theorem advance_move (before after : System Thread Name Job) (thread : Thread) (tick : UInt64)
    (top : Frame Thread Name Job) (below : List (Frame Thread Name Job))
    (stands : before.stack thread = top :: below)
    (taken : advanceFrame before thread tick below top = some after) :
    Move before (.advance thread tick) after := by
  cases top with
  | pushAdd name entry =>
      simp only [advanceFrame, Option.some.injEq] at taken
      exact taken ▸ .add thread tick name entry below stands
  | pushQueue name entry prevCount =>
      simp only [advanceFrame, Option.some.injEq] at taken
      exact taken ▸ .queue thread tick name entry prevCount below stands
  | pushTest name prevCount =>
      exact push_test_move before after thread tick below name prevCount stands taken
  | execEnter name => exact exec_enter_move before after thread tick below name stands taken
  | execDrain name startTick =>
      simp only [advanceFrame, Option.some.injEq] at taken
      exact taken ▸ .drain thread tick name startTick below stands
  | execLoop name startTick currentCount jobs =>
      exact exec_loop_move before after thread tick below name startTick currentCount jobs stands
        taken
  | running name startTick currentCount entry rest => simp [advanceFrame] at taken
  | execClock name startTick =>
      exact exec_clock_move before after thread tick below name startTick stands taken
  | execHandOver name =>
      simp only [advanceFrame, Option.some.injEq] at taken
      exact taken ▸ .handOver thread tick name _ below _ stands (.inr ⟨rfl, rfl⟩)
  | execLeave => exact exec_leave_move before after thread tick below stands taken
  | doLoop start => exact do_loop_move before after thread tick below start stands taken
  | doPop start => exact do_pop_move before after thread tick below start stands taken

theorem step_move (before after : System Thread Name Job) (label : Label Thread Name Job)
    (taken : step before label = some after) : Move before label after := by
  cases label with
  | push thread name job =>
      simp only [step, Option.ite_none_right_eq_some, Option.some.injEq] at taken
      exact taken.2 ▸ .call thread name job taken.1
  | doJobs thread tick =>
      simp only [step, Option.ite_none_right_eq_some, Option.some.injEq] at taken
      obtain ⟨free, rfl⟩ := taken
      exact .quiet _ thread (.doLoop tick :: before.stack thread) _
        ⟨rfl, rfl, rfl, nested_call _ _ free⟩ rfl rfl rfl rfl rfl
  | finish thread =>
      simp only [step] at taken
      split at taken
      case h_1 name startTick currentCount entry rest below stands =>
        rw [Option.some.injEq] at taken
        exact taken ▸ .complete thread name startTick currentCount entry rest below stands
      case h_2 => simp at taken
  | advance thread tick =>
      simp only [step] at taken
      split at taken
      · simp at taken
      case h_2 top below stands =>
        exact advance_move before after thread tick top below stands taken
  | setMaxTick thread value =>
      simp only [step, Option.some.injEq] at taken
      subst taken
      exact .quiet _ thread (before.stack thread) _ (inert_refl _)
        (Function.update_eq_self _ _).symm rfl rfl rfl rfl
  | clearJobs =>
      simp only [step, Option.some.injEq] at taken
      exact taken ▸ .cleared

/-- The calls of `Push` in progress: only the top frame of a stack can be one, the
ghost list of a serializer names the threads that have counted and not queued, and
no job to be queued is null. -/
structure Arrivals (system : System Thread Name Job) : Prop where
  nested : ∀ thread, Nested (system.stack thread)
  once : ∀ name, (system.serializers name).arriving.Nodup
  standing : ∀ name thread, thread ∈ (system.serializers name).arriving ↔
    name ∈ (system.stack thread).filterMap arrival
  present : ∀ thread, ∀ pair ∈ (system.stack thread).filterMap entering, pair.2 ≠ none

omit [DecidableEq Thread] [DecidableEq Name] in
theorem start_arrivals : Arrivals (System.start : System Thread Name Job) where
  nested _ _ member := by cases member
  once _ := .nil
  standing name thread := by simp [System.start, Serializer.construct]
  present _ _ member := by cases member

omit [DecidableEq Thread] [DecidableEq Name] in
theorem waits_without (frame : Frame Thread Name Job) (waiting : waits frame = true) :
    arrival frame = none ∧ entering frame = none := by
  cases frame <;> simp [waits] at waiting <;> exact ⟨rfl, rfl⟩

omit [DecidableEq Thread] [DecidableEq Name] in
theorem below_without (top : Frame Thread Name Job) (below : List (Frame Thread Name Job))
    (shape : Nested (top :: below)) :
    below.filterMap arrival = [] ∧ below.filterMap entering = [] :=
  ⟨List.filterMap_eq_nil_iff.mpr fun frame member => (waits_without frame (shape frame member)).1,
    List.filterMap_eq_nil_iff.mpr fun frame member => (waits_without frame (shape frame member)).2⟩

omit [DecidableEq Name] in
theorem arrivals_frame (before after : System Thread Name Job) (holds : Arrivals before)
    (thread : Thread) (stack : List (Frame Thread Name Job))
    (stacked : after.stack = Function.update before.stack thread stack)
    (same : ∀ name, (after.serializers name).arriving = (before.serializers name).arriving)
    (arrivals : stack.filterMap arrival = (before.stack thread).filterMap arrival)
    (present : ∀ pair ∈ stack.filterMap entering, pair.2 ≠ none) (nested : Nested stack) :
    Arrivals after where
  nested other := by
    by_cases mine : other = thread
    · rw [stacked, mine, Function.update_self]
      exact nested
    · rw [stacked, Function.update_of_ne mine]
      exact holds.nested other
  once name := by
    rw [same]
    exact holds.once name
  standing name other := by
    rw [same, holds.standing]
    by_cases mine : other = thread
    · rw [stacked, mine, Function.update_self, arrivals]
    · rw [stacked, Function.update_of_ne mine]
  present other := by
    by_cases mine : other = thread
    · rw [stacked, mine, Function.update_self]
      exact present
    · rw [stacked, Function.update_of_ne mine]
      exact holds.present other

omit [DecidableEq Thread] in
theorem set_serializer_part {Part : Type*} (part : Serializer Thread Job → Part)
    (system : System Thread Name Job) (name : Name) (serializer : Serializer Thread Job)
    (same : part serializer = part (system.serializers name)) (other : Name) :
    part ((setSerializer system name serializer).serializers other) =
        part (system.serializers other) := by
  by_cases this : other = name
  · simp [this, same]
  · simp [this]

omit [DecidableEq Name] in
theorem arrivals_replace (before after : System Thread Name Job) (holds : Arrivals before)
    (thread : Thread) (top next : Frame Thread Name Job) (below : List (Frame Thread Name Job))
    (stands : before.stack thread = top :: below)
    (stacked : after.stack = Function.update before.stack thread (next :: below))
    (same : ∀ name, (after.serializers name).arriving = (before.serializers name).arriving)
    (outside : arrival top = none) (unarrived : arrival next = none)
    (unrelated : entering next = none) :
    Arrivals after := by
  have shape : Nested (top :: below) := stands ▸ holds.nested thread
  refine arrivals_frame before after holds thread (next :: below) stacked same ?_ ?_ shape
  · simp [stands, outside, unarrived]
  · rw [List.filterMap_cons, unrelated, (below_without top below shape).2]
    intro pair member
    cases member

theorem fetch_add_arrivals (system : System Thread Name Job) (holds : Arrivals system)
    (thread : Thread) (name : Name) (entry : Option (Entry Thread Job)) (prevCount : BitVec 32)
    (below : List (Frame Thread Name Job))
    (stands : system.stack thread = .pushAdd name entry :: below) :
    Arrivals
      (setStack (setSerializer system name ((system.serializers name).fetchAdd thread)) thread
        (.pushQueue name entry prevCount :: below)) := by
  have shape : Nested (.pushAdd name entry :: below) := stands ▸ holds.nested thread
  have noArrival := (below_without _ below shape).1
  have old : (system.stack thread).filterMap arrival = [] := by
    rw [stands, List.filterMap_cons_none rfl, noArrival]
  have new : List.filterMap arrival (.pushQueue name entry prevCount :: below) = [name] :=
    congrArg (List.cons name) noArrival
  -- One thread is in one call of `Push` at a time, so no serializer lists it yet.
  have newcomer : ∀ other, thread ∉ (system.serializers other).arriving := by
    intro other member
    have found := (holds.standing other thread).mp member
    rw [old] at found
    cases found
  constructor
  · intro other
    by_cases mine : other = thread
    · rw [mine, set_stack_self]
      exact shape
    · simpa [mine] using holds.nested other
  · intro other
    by_cases this : other = name
    · simp only [this, set_stack_serializers, set_serializer_self, Serializer.fetchAdd]
      refine List.nodup_append.mpr ⟨holds.once name, List.nodup_singleton _, ?_⟩
      rintro first member second last rfl
      rw [List.mem_singleton] at last
      exact newcomer name (last ▸ member)
    · simpa [this] using holds.once other
  · intro other actor
    have known := holds.standing other actor
    by_cases mine : actor = thread
    · subst actor
      rw [set_stack_self, new, set_stack_serializers]
      by_cases this : other = name
      · simp [this, Serializer.fetchAdd]
      · simp [this, newcomer other]
    · rw [set_stack_other _ _ _ _ mine, set_stack_serializers, set_serializer_stack]
      by_cases this : other = name
      · subst other
        simpa only [set_serializer_self, Serializer.fetchAdd, List.mem_append, List.mem_singleton,
          mine, or_false] using known
      · simpa only [set_serializer_other _ _ _ _ this] using known
  · intro actor
    by_cases mine : actor = thread
    · subst actor
      have known := holds.present thread
      rw [stands] at known
      rw [set_stack_self]
      exact known
    · rw [set_stack_other _ _ _ _ mine]
      exact holds.present actor

theorem enqueue_arrivals (system : System Thread Name Job) (holds : Arrivals system)
    (thread : Thread) (name : Name) (entry : Option (Entry Thread Job)) (prevCount : BitVec 32)
    (below : List (Frame Thread Name Job))
    (stands : system.stack thread = .pushQueue name entry prevCount :: below) :
    Arrivals
      (setStack (setSerializer system name ((system.serializers name).enqueue thread entry)) thread
        (.pushTest name prevCount :: below)) := by
  have shape : Nested (.pushQueue name entry prevCount :: below) := stands ▸ holds.nested thread
  obtain ⟨noArrival, noEntry⟩ := below_without _ below shape
  have old : (system.stack thread).filterMap arrival = [name] := by
    rw [stands]
    exact congrArg (List.cons name) noArrival
  have new : List.filterMap arrival (.pushTest name prevCount :: below) = [] := by
    rw [List.filterMap_cons_none rfl, noArrival]
  constructor
  · intro other
    by_cases mine : other = thread
    · rw [mine, set_stack_self]
      exact shape
    · simpa [mine] using holds.nested other
  · intro other
    by_cases this : other = name
    · simpa [this, Serializer.enqueue] using (holds.once name).erase thread
    · simpa [this] using holds.once other
  · intro other actor
    have known := holds.standing other actor
    by_cases mine : actor = thread
    · subst actor
      rw [old, List.mem_singleton] at known
      rw [set_stack_self, new, set_stack_serializers]
      by_cases this : other = name
      · simp [this, Serializer.enqueue, (holds.once name).mem_erase_iff]
      · simp [this, known]
    · rw [set_stack_other _ _ _ _ mine, set_stack_serializers, set_serializer_stack]
      by_cases this : other = name
      · subst other
        simpa only [set_serializer_self, Serializer.enqueue, (holds.once _).mem_erase_iff, ne_eq,
          mine, not_false_eq_true, true_and] using known
      · simpa only [set_serializer_other _ _ _ _ this] using known
  · intro actor
    by_cases mine : actor = thread
    · subst actor
      rw [set_stack_self, List.filterMap_cons_none rfl, noEntry]
      intro pair member
      cases member
    · rw [set_stack_other _ _ _ _ mine]
      exact holds.present actor

theorem move_arrivals (before after : System Thread Name Job) (label : Label Thread Name Job)
    (holds : Arrivals before) (move : Move before label after)
    (notNull : ∀ thread name, label ≠ .push thread name none) : Arrivals after := by
  cases move with
  | quiet _ thread stack _ inert stacked serializers =>
      refine arrivals_frame before after holds thread stack stacked
        (fun name => by rw [serializers])
        inert.arrivals ?_ (inert.nested (holds.nested thread))
      rw [inert.enters]
      exact holds.present thread
  | call thread name job free =>
      have given : job ≠ none := fun null => notNull thread name (null ▸ rfl)
      refine arrivals_frame before _ holds thread _ rfl (fun _ => rfl) rfl ?_
        (nested_call _ _ free (holds.nested thread))
      intro pair member
      rcases List.mem_cons.mp member with rfl | old
      · simpa using given
      · exact holds.present thread pair old
  | add thread _ name entry below stands =>
      exact fetch_add_arrivals before holds thread name entry _ below stands
  | queue thread _ name entry prevCount below stands =>
      exact enqueue_arrivals before holds thread name entry prevCount below stands
  | drain thread _ name startTick below stands =>
      exact arrivals_replace before _ holds thread _ _ below stands rfl
        (set_serializer_part (·.arriving) before name _ rfl) rfl rfl rfl
  | begin thread _ name startTick currentCount entry rest below stands =>
      exact arrivals_replace before _ holds thread _ _ below stands rfl
        (set_serializer_part (·.arriving) before name _ rfl) rfl rfl rfl
  | complete thread name startTick currentCount entry rest below stands =>
      exact arrivals_replace before _ holds thread _ _ below stands rfl
        (set_serializer_part (·.arriving) before name _ rfl) rfl rfl rfl
  | subtract thread _ name startTick currentCount below stands =>
      split <;> exact arrivals_replace before _ holds thread _ _ below stands rfl
        (set_serializer_part (·.arriving) before name _ rfl) rfl rfl rfl
  | handOver thread _ name top below stack stands source =>
      rcases source with ⟨rfl, rfl⟩ | ⟨rfl, rfl⟩
      · -- `Push` hands over and returns: below it are waiting frames only.
        have inert := inert_return (.execLeave : Frame Thread Name Job) stack rfl rfl rfl
        have shape : Nested (.pushTest name 0 :: stack) := stands ▸ holds.nested thread
        refine arrivals_frame before _ holds thread stack rfl (fun _ => rfl) ?_ ?_
          (inert.nested shape)
        · rw [stands]
          rfl
        · rw [(below_without _ stack shape).2]
          intro pair member
          cases member
      · exact arrivals_replace before _ holds thread _ _ below stands rfl (fun _ => rfl) rfl rfl rfl
  | takeOver thread _ name rest start below stands _ =>
      have shape : Nested (.doPop start :: below) := stands ▸ holds.nested thread
      refine arrivals_frame before _ holds thread _ rfl (fun _ => rfl) (by rw [stands]; rfl) ?_ ?_
      · intro pair member
        have none : List.filterMap entering (.execEnter name :: .doLoop start :: below) = [] :=
          (below_without _ below shape).2
        rw [none] at member
        cases member
      · intro frame member
        rcases List.mem_cons.mp member with rfl | deeper
        · rfl
        · exact shape frame deeper
  | cleared => exact ⟨holds.nested, holds.once, holds.standing, holds.present⟩

/-- The runs the results are about: jobs are not null, `ClearJobs` is not called and
fewer than `2 ^ 31` jobs of each serializer are counted and not yet started. -/
structure Disciplined (label : Label Thread Name Job) (after : System Thread Name Job) : Prop where
  notNull : ∀ thread name, label ≠ .push thread name none
  notCleared : label ≠ .clearJobs
  bounded : ∀ name, pending (after.serializers name) < 2 ^ 31

def disciplined : Condition (System Thread Name Job) (Label Thread Name Job) :=
  fun _ label after => Disciplined label after

structure Invariant (system : System Thread Name Job) : Prop where
  arrivals : Arrivals system
  bounded : ∀ name, pending (system.serializers name) < 2 ^ 31
  represented : ∃ batch, Represents system batch

omit [DecidableEq Thread] [DecidableEq Name] in
theorem start_represents :
    Represents (System.start : System Thread Name Job) (fun _ => .empty) where
  placed := {
    once := fun place => by cases place <;> exact .nil
    apart := fun item left _ member => by cases left <;> cases member
    covers := fun item => by
      refine ⟨fun live => absurd live (Nat.lt_irrefl 0), ?_⟩
      rintro ⟨place, member⟩
      cases place <;> cases member }
  held _ _ member := by cases member
  queued _ member := by cases member
  accounts _ := ⟨rfl, rfl, rfl, Nat.two_pow_pos 31, Nat.le_refl 0⟩

/-- `fetch_add`: the previous count is zero exactly when the right does not exist. -/
theorem add_represents (system : System Thread Name Job) (batch : Name → Batch Thread Job)
    (holds : Represents system batch) (thread : Thread) (name : Name)
    (entry : Option (Entry Thread Job)) (below : List (Frame Thread Name Job))
    (stands : system.stack thread = .pushAdd name entry :: below)
    (bounded : pending (system.serializers name) < 2 ^ 31) :
    ∃ batch, Represents
      (setStack (setSerializer system name ((system.serializers name).fetchAdd thread)) thread
        (.pushQueue name entry (system.serializers name).queuedCount :: below)) batch := by
  have account := holds.accounts name
  have added := fetch_add_account _ _ account thread
  have more : counted ((system.serializers name).fetchAdd thread) (batch name) =
      counted (system.serializers name) (batch name) + 1 := by
    simp only [counted, Serializer.fetchAdd, List.length_append, List.length_singleton]
    omega
  have zero := zero_count_iff _ _ account bounded
  by_cases first : (system.serializers name).queuedCount = 0
  · -- The frame keeps the zero it has read as `prevCount`: that is the right.
    refine ⟨batch,
      represents_admit system _ batch holds thread name _ _ _ below stands rfl rfl rfl added
      (zero.mp first) (by omega) rfl ?_ rfl⟩
    rw [right, if_pos first]
  · -- Somebody else has it, possibly with a batch in hand, which stays as it is.
    refine ⟨_, represents_update system _ batch holds thread name _ (batch name) _ _ below stands
      rfl rfl rfl added ?_ ?_ (.inl ⟨rfl, rfl⟩)⟩
    · have positive : counted (system.serializers name) (batch name) ≠ 0 :=
        fun none => first (zero.mpr none)
      omega
    · rw [right, if_neg first]
      rfl

theorem queue_represents (system : System Thread Name Job) (batch : Name → Batch Thread Job)
    (holds : Represents system batch) (arrivals : Arrivals system) (thread : Thread) (name : Name)
    (entry : Option (Entry Thread Job)) (prevCount : BitVec 32)
    (below : List (Frame Thread Name Job))
    (stands : system.stack thread = .pushQueue name entry prevCount :: below) :
    ∃ batch, Represents
      (setStack (setSerializer system name ((system.serializers name).enqueue thread entry))
        thread (.pushTest name prevCount :: below)) batch := by
  have arrives : thread ∈ (system.serializers name).arriving := by
    rw [arrivals.standing, stands]
    exact List.mem_cons_self
  have given : entry ≠ none := by
    have present := arrivals.present thread (name, entry)
    rw [stands] at present
    exact present List.mem_cons_self
  obtain ⟨job, rfl⟩ := Option.ne_none_iff_exists'.mp given
  obtain ⟨account, same⟩ := enqueue_account _ _ (holds.accounts name) thread job arrives
  refine ⟨_,
    represents_update system _ batch holds thread name _ (batch name) _ _ below stands rfl rfl rfl
    account (by rw [same]) rfl (.inl ⟨rfl, rfl⟩)⟩

theorem batch_represents (system after : System Thread Name Job) (batch : Name → Batch Thread Job)
    (holds : Represents system batch) (thread : Thread) (name : Name)
    (serializer : Serializer Thread Job) (top next : Frame Thread Name Job)
    (below : List (Frame Thread Name Job)) (stands : system.stack thread = top :: below)
    (stacked : after.stack = Function.update system.stack thread (next :: below))
    (serializers : after.serializers = Function.update system.serializers name serializer)
    (jobQueue : after.jobQueue = system.jobQueue) (carried : right top = some name)
    (same : right next = right top)
    (step : Account (system.serializers name) (inHand top) → Account serializer (inHand next) ∧
      (0 < counted serializer (inHand next) ↔ 0 < counted (system.serializers name) (inHand top))) :
    ∃ batch, Represents after batch := by
  have shown : batch name = inHand top :=
    holds.held thread top (by rw [stands]; exact List.mem_cons_self) name carried
  obtain ⟨account, live⟩ := step (shown ▸ holds.accounts name)
  exact ⟨_, represents_update system after batch holds thread name serializer
    (inHand next) top next below stands stacked serializers jobQueue account (shown ▸ live) same
    (.inr ⟨carried, rfl⟩)⟩

/-- `fetch_sub`: the comparison succeeds exactly when nothing else is counted. -/
theorem subtract_represents (system : System Thread Name Job) (batch : Name → Batch Thread Job)
    (holds : Represents system batch) (thread : Thread) (name : Name) (startTick : UInt64)
    (currentCount : Nat) (below : List (Frame Thread Name Job))
    (stands : system.stack thread = .execLoop name startTick currentCount [] :: below)
    (bounded : pending (system.serializers name) < 2 ^ 31) :
    ∃ batch, Represents
      (setStack (setSerializer system name ((system.serializers name).fetchSub currentCount))
        thread
        (if countMatches (system.serializers name).queuedCount currentCount then .execLeave :: below
        else .execClock name startTick :: below)) batch := by
  have shown : batch name = ⟨currentCount, [], []⟩ :=
    holds.held thread (.execLoop name startTick currentCount [])
      (by rw [stands]; exact List.mem_cons_self) name rfl
  have account : Account (system.serializers name) ⟨currentCount, [], []⟩ :=
    shown ▸ holds.accounts name
  have left := fetch_sub_account (system.serializers name) currentCount account
  have fewer : counted (system.serializers name) ⟨currentCount, [], []⟩ =
      counted ((system.serializers name).fetchSub currentCount) .empty + currentCount := by
    simp only [counted, Serializer.fetchSub, Batch.empty]
    omega
  have compared :=
    count_matches_iff _ currentCount (counted_small _ _ account bounded) account.small
  rw [← account.count] at compared
  split
  case isTrue equal =>
    have total := compared.mp equal
    exact ⟨_, represents_retire system _ batch holds thread name _ _ _ below stands rfl rfl rfl left
      (by omega) rfl rfl⟩
  case isFalse differs =>
    -- A `Push` has counted a job meanwhile and left the right to this thread.
    refine batch_represents system _ batch holds thread name _ _ _ below stands rfl
      rfl rfl rfl rfl ?_
    intro _
    refine ⟨left, ?_⟩
    have unequal : counted (system.serializers name) ⟨currentCount, [], []⟩ ≠ currentCount :=
      fun total => differs (compared.mpr total)
    simp only [inHand]
    omega

theorem move_represents (before after : System Thread Name Job) (label : Label Thread Name Job)
    (holds : Invariant before) (move : Move before label after) (notCleared : label ≠ .clearJobs) :
    ∃ batch, Represents after batch := by
  obtain ⟨batch, represents⟩ := holds.represented
  cases move with
  | quiet _ thread stack _ inert stacked serializers jobQueue =>
      exact ⟨batch, represents_quiet before after batch represents thread stack stacked serializers
        jobQueue inert.rights inert.kept⟩
  | call thread name job _ =>
      refine ⟨batch, represents_quiet before _ batch represents thread _ rfl rfl rfl rfl ?_⟩
      intro frame member owner carried
      rcases List.mem_cons.mp member with rfl | old
      · cases carried
      · exact ⟨frame, old, carried, rfl⟩
  | add thread _ name entry below stands =>
      exact add_represents before batch represents thread name entry below stands
        (holds.bounded name)
  | queue thread _ name entry prevCount below stands =>
      exact queue_represents before batch represents holds.arrivals thread name entry
        prevCount below stands
  | drain thread _ name startTick below stands =>
      refine batch_represents before _ batch represents thread name _ _ _ below stands rfl
        rfl rfl rfl rfl ?_
      intro account
      obtain ⟨drained, same⟩ := clear_account _ account (holds.bounded name)
      exact ⟨drained, by rw [inHand, same]; rfl⟩
  | begin thread _ name startTick currentCount entry rest below stands =>
      exact batch_represents before _ batch represents thread name _ _ _ below stands rfl rfl rfl
        rfl rfl fun account => ⟨begin_account _ _ entry rest account, Iff.rfl⟩
  | complete thread name startTick currentCount entry rest below stands =>
      exact batch_represents before _ batch represents thread name _ _ _ below stands rfl rfl rfl
        rfl rfl fun account => ⟨complete_account _ _ entry rest account, Iff.rfl⟩
  | subtract thread _ name startTick currentCount below stands =>
      exact subtract_represents before batch represents thread name startTick currentCount below
        stands (holds.bounded name)
  | handOver thread _ name top below stack stands source =>
      rcases source with ⟨rfl, rfl⟩ | ⟨rfl, rfl⟩
      · exact ⟨batch, represents_hand_over before _ batch represents thread name _ stack stack
          stands rfl rfl rfl rfl rfl rfl (fun _ member _ => member)⟩
      · refine ⟨batch, represents_hand_over before _ batch represents thread name _ below _ stands
          rfl rfl rfl rfl rfl rfl ?_⟩
        intro frame member carries
        rcases List.mem_cons.mp member with rfl | old
        · exact absurd rfl carries
        · exact old
  | takeOver thread _ name rest start below stands waiting =>
      exact ⟨batch, represents_take_over before _ batch represents thread name rest _ _ _ below
        stands rfl rfl waiting rfl rfl rfl rfl rfl⟩
  | cleared => exact absurd rfl notCleared

theorem step_invariant (before after : System Thread Name Job) (label : Label Thread Name Job)
    (holds : Invariant before) (taken : step before label = some after)
    (allowed : Disciplined label after) :
    Invariant after where
  arrivals :=
    move_arrivals before after label holds.arrivals
      (step_move before after label taken) allowed.notNull
  bounded := allowed.bounded
  represented :=
    move_represents before after label holds (step_move before after label taken) allowed.notCleared

theorem run_invariant (system : System Thread Name Job)
    (reached : Reachable step disciplined System.start system) : Invariant system := by
  refine reachable_invariant step disciplined Invariant System.start ?_ ?_ system reached
  · exact ⟨start_arrivals, fun _ => Nat.two_pow_pos 31, _, start_represents⟩
  · intro before label after holds taken allowed
    exact step_invariant before after label holds taken allowed

def executing : Frame Thread Name Job → Option Name
  | .execDrain name _ => some name
  | .execLoop name _ _ _ => some name
  | .running name _ _ _ _ => some name
  | .execClock name _ => some name
  | .execHandOver name => some name
  | _ => none

def Executing (system : System Thread Name Job) (thread : Thread) (name : Name) : Prop :=
  ∃ frame ∈ system.stack thread, executing frame = some name

omit [DecidableEq Thread] [DecidableEq Name] in
theorem executing_right (frame : Frame Thread Name Job) (name : Name)
    (inside : executing frame = some name) :
    right frame = some name := by
  cases frame <;> simp_all [executing, right]

/-- At most one thread executes the jobs of a serializer, and the right to execute
them exists exactly once while `_queuedCount` is not zero and not at all when it is. -/
theorem serialized_execution (system : System Thread Name Job)
    (reached : Reachable step disciplined System.start system) (name : Name) :
    (∀ first second, Executing system first name → Executing system second name → first = second) ∧
    ((system.serializers name).queuedCount ≠ 0 →
      ∃! slot : Place Thread × Nat, (contents system slot.1)[slot.2]? = some name) ∧
    ((system.serializers name).queuedCount = 0 → ∀ place, name ∉ contents system place) := by
  have holds := run_invariant system reached
  obtain ⟨batch, represents⟩ := holds.represented
  have zero := zero_count_iff _ _ (represents.accounts name) (holds.bounded name)
  refine ⟨?_, ?_, ?_⟩
  · -- An executing frame carries the right, and the right has one place.
    rintro first second ⟨left, inFirst, leftInside⟩ ⟨other, inSecond, otherInside⟩
    have same := represents.placed.apart name (.thread first) (.thread second)
      (List.mem_filterMap.mpr ⟨left, inFirst, executing_right left name leftInside⟩)
      (List.mem_filterMap.mpr ⟨other, inSecond, executing_right other name otherInside⟩)
    exact Place.thread.inj same
  · intro positive
    apply placed_slot_unique (contents system) _ represents.placed name
    exact Nat.pos_of_ne_zero fun none => positive (zero.mpr none)
  · intro none place
    apply placed_absent (contents system) _ represents.placed name
    rw [zero.mp none]
    exact Nat.lt_irrefl 0

def disciplinedLabel : Label Thread Name Job → Bool
  | .push _ _ none => false
  | .clearJobs => false
  | _ => true

def disciplinedStep (_ : System Bool Bool Nat) (label : Label Bool Bool Nat)
    (after : System Bool Bool Nat) :
    Bool :=
  disciplinedLabel label &&
    (pending (after.serializers true) < 2 ^ 31 && pending (after.serializers false) < 2 ^ 31)

theorem disciplined_step_sound (before : System Bool Bool Nat) (label : Label Bool Bool Nat)
    (after : System Bool Bool Nat) (checked : disciplinedStep before label after = true) :
    disciplined before label after := by
  rw [disciplinedStep, Bool.and_eq_true, Bool.and_eq_true, decide_eq_true_eq,
    decide_eq_true_eq] at checked
  obtain ⟨legal, first, second⟩ := checked
  constructor
  · rintro thread name rfl
    cases legal
  · rintro rfl
    cases legal
  · intro name
    cases name with
    | true => exact first
    | false => exact second

/-- A job of one serializer pushes to the other one while a second thread pushes to
the first: the second serializer is handed over, the first has two jobs counted. -/
def contendedLabels : List (Label Bool Bool Nat) :=
  [.push true true (some 1), .advance true 0, .advance true 0, .advance true 0, .advance true 5,
   .advance true 0, .advance true 0,
   .push true false (some 2), .advance true 0, .advance true 0, .advance true 0,
   .push false true (some 3), .advance false 0, .advance false 0, .advance false 0]

theorem serialized_execution_contended : ∃ system : System Bool Bool Nat,
    Reachable step disciplined System.start system ∧
    (system.serializers true).queuedCount = 2 ∧ system.jobQueue = [false] ∧
    ∃! slot : Place Bool × Nat, (contents system slot.1)[slot.2]? = some true := by
  obtain ⟨system, reached, seen⟩ :=
    replay_reachable step disciplined disciplinedStep disciplined_step_sound
    (fun system : System Bool Bool Nat => ((system.serializers true).queuedCount, system.jobQueue))
    (2, [false]) contendedLabels System.start (by decide)
  rw [Prod.mk.injEq] at seen
  refine ⟨system, reached, seen.1, seen.2, (serialized_execution system reached true).2.1 ?_⟩
  rw [seen.1]
  decide

inductive Traffic (before : System Thread Name Job) : System Thread Name Job → Prop where
  | call (thread : Thread) (name : Name) (job : Option Job)
      (free : mayCall (before.stack thread) = true) :
      Traffic before (callPush before thread name job)
  | queue (thread : Thread) (name : Name) (entry : Option (Entry Thread Job))
      (prevCount : BitVec 32) (below : List (Frame Thread Name Job))
      (stands : before.stack thread = .pushQueue name entry prevCount :: below) :
      Traffic before
        (setStack (setSerializer before name ((before.serializers name).enqueue thread entry))
          thread (.pushTest name prevCount :: below))
  | steady (after : System Thread Name Job)
      (enters : ∀ thread, (after.stack thread).filterMap entering =
        (before.stack thread).filterMap entering)
      (calls : after.calls = before.calls) (pushed : after.pushed = before.pushed)
      (enqueued : ∀ name, (after.serializers name).enqueued = (before.serializers name).enqueued) :
      Traffic before after

theorem steady_traffic (before after : System Thread Name Job) (thread : Thread)
    (stack : List (Frame Thread Name Job))
    (stacked : after.stack = Function.update before.stack thread stack)
    (enters : stack.filterMap entering = (before.stack thread).filterMap entering)
    (calls : after.calls = before.calls) (pushed : after.pushed = before.pushed)
    (enqueued : ∀ name, (after.serializers name).enqueued = (before.serializers name).enqueued) :
    Traffic before after := by
  refine .steady after ?_ calls pushed enqueued
  intro other
  by_cases mine : other = thread
  · rw [stacked, mine, Function.update_self, enters]
  · rw [stacked, Function.update_of_ne mine]

theorem move_traffic (before after : System Thread Name Job) (label : Label Thread Name Job)
    (move : Move before label after) : Traffic before after := by
  cases move with
  | quiet _ thread stack _ inert stacked serializers _ calls pushed =>
      exact steady_traffic before after thread stack stacked inert.enters calls pushed
        (fun name => by rw [serializers])
  | call thread name job free => exact .call thread name job free
  | queue thread _ name entry prevCount below stands =>
      exact .queue thread name entry prevCount below stands
  | add thread _ name entry below stands =>
      exact steady_traffic before _ thread _ rfl (by rw [stands]; rfl) rfl rfl
        (set_serializer_part (·.enqueued) before name _ rfl)
  | drain thread _ name startTick below stands =>
      exact steady_traffic before _ thread _ rfl (by rw [stands]; rfl) rfl rfl
        (set_serializer_part (·.enqueued) before name _ rfl)
  | begin thread _ name startTick currentCount entry rest below stands =>
      exact steady_traffic before _ thread _ rfl (by rw [stands]; rfl) rfl rfl
        (set_serializer_part (·.enqueued) before name _ rfl)
  | complete thread name startTick currentCount entry rest below stands =>
      exact steady_traffic before _ thread _ rfl (by rw [stands]; rfl) rfl rfl
        (set_serializer_part (·.enqueued) before name _ rfl)
  | subtract thread _ name startTick currentCount below stands =>
      split <;> exact steady_traffic before _ thread _ rfl (by rw [stands]; rfl) rfl rfl
        (set_serializer_part (·.enqueued) before name _ rfl)
  | handOver thread _ name top below stack stands source =>
      refine steady_traffic before _ thread stack rfl ?_ rfl rfl (fun _ => rfl)
      rw [stands]
      rcases source with ⟨rfl, rfl⟩ | ⟨rfl, rfl⟩ <;> rfl
  | takeOver thread _ name rest start below stands _ =>
      exact steady_traffic before _ thread _ rfl (by rw [stands]; rfl) rfl rfl (fun _ => rfl)
  | cleared => exact .steady _ (fun _ => rfl) rfl rfl (fun _ => rfl)

def Covered (system : System Thread Name Job) : Prop :=
  ∀ name, ∀ entry ∈ system.pushed name, entry ∈ (system.serializers name).enqueued ∨
    ∃ thread, (name, some entry) ∈ (system.stack thread).filterMap entering

theorem queue_covered (system : System Thread Name Job) (holds : Covered system) (thread : Thread)
    (name : Name) (entry : Option (Entry Thread Job)) (prevCount : BitVec 32)
    (below : List (Frame Thread Name Job))
    (stands : system.stack thread = .pushQueue name entry prevCount :: below) :
    Covered
      (setStack (setSerializer system name ((system.serializers name).enqueue thread entry)) thread
        (.pushTest name prevCount :: below)) := by
  have grown : ∀ other job, job ∈ (system.serializers other).enqueued →
      job ∈
        ((setSerializer system name ((system.serializers name).enqueue thread entry)).serializers
          other).enqueued := by
    intro other job member
    by_cases this : other = name
    · subst other
      rw [set_serializer_self]
      exact List.mem_append_left _ member
    · rw [set_serializer_other _ _ _ _ this]
      exact member
  intro other job member
  rcases holds other job member with queued | ⟨actor, coming⟩
  · exact .inl (grown other job queued)
  · by_cases mine : actor = thread
    · subst actor
      rw [stands] at coming
      rcases List.mem_cons.mp coming with same | deeper
      · cases same
        left
        rw [set_stack_serializers, set_serializer_self]
        exact List.mem_append_right _ (by simp)
      · refine .inr ⟨thread, ?_⟩
        rw [set_stack_self]
        exact deeper
    · refine .inr ⟨actor, ?_⟩
      rw [set_stack_other _ _ _ _ mine]
      exact coming

theorem call_covered (system : System Thread Name Job) (holds : Covered system) (thread : Thread)
    (name : Name) (job : Option Job) : Covered (callPush system thread name job) := by
  have older : ∀ other, ∀ entry ∈ system.pushed other, entry ∈ (system.serializers other).enqueued ∨
      ∃ actor, (other, some entry) ∈
        ((callPush system thread name job).stack actor).filterMap entering := by
    intro other entry member
    rcases holds other entry member with queued | ⟨actor, coming⟩
    · exact .inl queued
    · refine .inr ⟨actor, ?_⟩
      by_cases mine : actor = thread
      · subst actor
        simp only [callPush, set_stack_self]
        exact List.mem_cons_of_mem _ coming
      · simp only [callPush, set_stack_other _ _ _ _ mine]
        exact coming
  intro other entry member
  by_cases this : other = name
  · subst other
    simp only [callPush, Function.update_self] at member
    rcases List.mem_append.mp member with old | new
    · exact older _ entry old
    · refine .inr ⟨thread, ?_⟩
      simp only [callPush, set_stack_self]
      rw [Option.mem_toList] at new
      exact List.mem_cons.mpr (.inl (by rw [new]))
  · simp only [callPush, Function.update_of_ne this] at member
    exact older other entry member

theorem move_covered (before after : System Thread Name Job) (label : Label Thread Name Job)
    (holds : Covered before) (move : Move before label after) : Covered after := by
  cases move_traffic before after label move with
  | call thread name job _ => exact call_covered before holds thread name job
  | queue thread name entry prevCount below stands =>
      exact queue_covered before holds thread name entry prevCount below stands
  | steady _ enters _ pushed enqueued =>
      intro name entry member
      rw [pushed] at member
      rw [enqueued]
      rcases holds name entry member with queued | ⟨thread, coming⟩
      · exact .inl queued
      · exact .inr ⟨thread, by rw [enters]; exact coming⟩

/-- When every thread has returned and the global queue is empty, every job passed
to `Push` has been executed. -/
theorem no_stranded_job (system : System Thread Name Job)
    (reached : Reachable step disciplined System.start system)
    (returned : ∀ thread, system.stack thread = []) (drained : system.jobQueue = []) (name : Name) :
    (∀ entry ∈ system.pushed name, entry ∈ (system.serializers name).finished) ∧
      (system.serializers name).jobs = [] ∧ (system.serializers name).queuedCount = 0 := by
  have holds := run_invariant system reached
  have covered : Covered system :=
    reachable_invariant step disciplined Covered System.start (fun _ _ member => by cases member)
      (fun before label after holds taken _ => move_covered before after label holds
        (step_move before after label taken)) system reached
  obtain ⟨batch, represents⟩ := holds.represented
  have account := represents.accounts name
  -- Nobody can hold the right, so nothing is counted.
  have dead : counted (system.serializers name) (batch name) = 0 := by
    apply Nat.eq_zero_of_not_pos
    intro live
    obtain ⟨place, member⟩ := (represents.placed.covers name).mp live
    cases place with
    | global => simp [contents, drained] at member
    | thread thread => simp [contents, returned thread] at member
  have idle := batch_empty _ _ account dead
  have empty : (system.serializers name).jobs = [] := by
    unfold counted at dead
    exact List.length_eq_zero_iff.mp (by omega)
  have order := account.order
  have done := account.done
  rw [idle, Batch.empty] at order done
  rw [empty, List.append_nil, List.append_nil] at order
  rw [List.append_nil] at done
  refine ⟨?_, empty, (zero_count_iff _ _ account (holds.bounded name)).mpr dead⟩
  intro entry pushed
  rcases covered name entry pushed with queued | ⟨thread, coming⟩
  · rw [← done, ← List.map_injective_iff.mpr (fun _ _ same => Option.some.inj same) order]
    exact queued
  · simp [returned thread] at coming

/-- The run above goes on: the first thread runs out of time, hands its serializer
over and executes both in `DoJobs`. -/
def drainedLabels : List (Label Bool Bool Nat) :=
  contendedLabels ++
  [.finish true, .advance true 0, .advance true 69, .advance true 0, .advance true 0,
   .doJobs true 100, .advance true 100, .advance true 0, .advance true 100, .advance true 0,
   .advance true 0, .finish true, .advance true 0, .advance true 0, .advance true 100,
   .advance true 0, .advance true 100, .advance true 0, .advance true 0, .finish true,
   .advance true 0, .advance true 0, .advance true 100, .advance true 0]

theorem no_stranded_job_drained : ∃ system : System Bool Bool Nat,
    Reachable step disciplined System.start system ∧
    system.pushed true = [⟨1, true, 0⟩, ⟨3, false, 0⟩] ∧
    (∀ entry ∈ system.pushed true, entry ∈ (system.serializers true).finished) ∧
    (system.serializers true).queuedCount = 0 := by
  obtain ⟨system, reached, seen⟩ :=
    replay_reachable step disciplined disciplinedStep disciplined_step_sound
    (fun system : System Bool Bool Nat =>
      (system.pushed true, system.jobQueue, (system.stack true).length,
        (system.stack false).length))
    ([⟨1, true, 0⟩, ⟨3, false, 0⟩], [], 0, 0) drainedLabels System.start (by decide)
  simp only [Prod.mk.injEq, List.length_eq_zero_iff] at seen
  obtain ⟨pushed, drained, first, second⟩ := seen
  have returned : ∀ thread, system.stack thread = [] := by
    intro thread
    cases thread with
    | true => exact first
    | false => exact second
  have result := no_stranded_job system reached returned drained true
  exact ⟨system, reached, pushed, result.1, result.2.2⟩

end NetCore.SerializedExecution
