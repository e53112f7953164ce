import NetCore.JobSystem

/-! How far `Cancel` reaches. The flag is read once, when a check hands the job over; from
there on the job is an ordinary one that waits in its owner's queue. A job canceled before
that test is never executed, because what is executed was passed to `Push` and only the
hand-over passes a reserved job. A job canceled between the test and its execution is
executed all the same. -/
namespace NetCore.Cancellation
open TransitionRuns PriorityQueue JobSerializer ExecutionRight SerializedExecution ReservationOrder

universe u v w x y
variable {Thread : Type u} {Name : Type x} {Job : Type w}

def carried : Frame Thread Name Job → List (Name × Entry Thread Job)
  | .pushAdd name entry => entry.toList.map (Prod.mk name)
  | .pushQueue name entry _ => entry.toList.map (Prod.mk name)
  | .execLoop name _ _ rest => rest.map (Prod.mk name)
  | .running name _ _ _ rest => rest.map (Prod.mk name)
  | _ => []

structure Sourced (core : System Thread Name Job) : Prop where
  inHand : ∀ thread, ∀ frame ∈ core.stack thread, ∀ pair ∈ carried frame,
    pair.2 ∈ core.pushed pair.1
  queued : ∀ name entry, some entry ∈ (core.serializers name).jobs → entry ∈ core.pushed name
  started : ∀ name, ∀ entry ∈ (core.serializers name).started, entry ∈ core.pushed name

theorem start_sourced : Sourced (System.start : System Thread Name Job) where
  inHand _ _ member := by cases member
  queued _ _ member := by cases member
  started _ _ member := by cases member

theorem inert_carried (old new : List (Frame Thread Name Job)) (inert : Inert old new)
    (frame : Frame Thread Name Job) (member : frame ∈ new) (pair : Name × Entry Thread Job)
    (found : pair ∈ carried frame) : ∃ before ∈ old, pair ∈ carried before := by
  have entered : ∀ entry, entering frame = some (pair.1, some entry) → entry = pair.2 →
      ∃ before ∈ old, pair ∈ carried before := by
    rintro entry enters rfl
    have listed : (pair.1, some pair.2) ∈ old.filterMap entering :=
      inert.enters ▸ List.mem_filterMap.mpr ⟨frame, member, enters⟩
    obtain ⟨before, there, same⟩ := List.mem_filterMap.mp listed
    refine ⟨before, there, ?_⟩
    cases before <;> simp only [entering, Option.some.injEq, Prod.mk.injEq, reduceCtorEq]
      at same <;> simp [carried, same]
  have drained : right frame = some pair.1 → pair.2 ∈ (ExecutionRight.inHand frame).rest →
      ∃ before ∈ old, pair ∈ carried before := by
    intro carries listed
    obtain ⟨before, there, same, hand⟩ := inert.kept frame member pair.1 carries
    refine ⟨before, there, ?_⟩
    rw [← hand] at listed
    cases before <;> simp only [ExecutionRight.inHand, Batch.empty, List.not_mem_nil] at listed <;>
      simp only [right, Option.some.injEq] at same <;>
      exact List.mem_map.mpr ⟨pair.2, listed, by rw [same]⟩
  cases frame <;>
    simp only [carried, List.mem_map, Option.mem_toList, List.not_mem_nil] at found <;>
    obtain ⟨entry, listed, rfl⟩ := found
  case pushAdd name given => exact entered entry (by rw [entering, listed]) rfl
  case pushQueue name given prevCount => exact entered entry (by rw [entering, listed]) rfl
  case execLoop => exact drained rfl listed
  case running => exact drained rfl listed

theorem clear_members (jobs : List (Option (Entry Thread Job))) :
    (∀ entry ∈ (LockQueue.clear jobs).1, some entry ∈ jobs) ∧
      ∀ item ∈ (LockQueue.clear jobs).2, item ∈ jobs := by
  induction jobs with
  | nil => exact ⟨fun _ member => (by cases member), fun _ member => member⟩
  | cons front rest ih =>
      cases front with
      | none =>
          exact ⟨fun _ member => (by cases member), fun _ member => List.mem_cons_of_mem _ member⟩
      | some first =>
          constructor
          · intro entry member
            rcases List.mem_cons.mp member with rfl | later
            · exact List.mem_cons_self
            · exact List.mem_cons_of_mem _ (ih.1 entry later)
          · intro item member
            exact List.mem_cons_of_mem _ (ih.2 item member)

variable [DecidableEq Thread]

theorem sourced_step (before after : System Thread Name Job) (holds : Sourced before)
    (thread : Thread) (stack : List (Frame Thread Name Job))
    (stacked : after.stack = Function.update before.stack thread stack)
    (pushed : after.pushed = before.pushed)
    (frames : ∀ frame ∈ stack, ∀ pair ∈ carried frame, pair.2 ∈ before.pushed pair.1)
    (queued : ∀ name entry, some entry ∈ (after.serializers name).jobs → entry ∈ before.pushed name)
    (started : ∀ name, ∀ entry ∈ (after.serializers name).started, entry ∈ before.pushed name) :
    Sourced after where
  inHand actor frame member := by
    rw [pushed]
    by_cases mine : actor = thread
    · rw [stacked, mine, Function.update_self] at member
      exact frames frame member
    · rw [stacked, Function.update_of_ne mine] at member
      exact holds.inHand actor frame member
  queued := pushed ▸ queued
  started := pushed ▸ started

omit [DecidableEq Thread] in
theorem top_sourced (core : System Thread Name Job) (holds : Sourced core) (thread : Thread)
    (top next : Frame Thread Name Job) (below : List (Frame Thread Name Job))
    (stands : core.stack thread = top :: below)
    (new : ∀ pair ∈ carried next, pair.2 ∈ core.pushed pair.1) :
    ∀ frame ∈ next :: below, ∀ pair ∈ carried frame, pair.2 ∈ core.pushed pair.1 := by
  intro frame member
  rcases List.mem_cons.mp member with rfl | old
  · exact new
  · exact holds.inHand thread frame (by rw [stands]; exact List.mem_cons_of_mem _ old)

variable [DecidableEq Name]

theorem call_sourced (core : System Thread Name Job) (holds : Sourced core) (thread : Thread)
    (name : Name) (job : Option Job) : Sourced (callPush core thread name job) := by
  have grown : ∀ other, ∀ entry ∈ core.pushed other,
      entry ∈ (callPush core thread name job).pushed other := by
    intro other entry member
    by_cases this : other = name
    · simp only [callPush, this, Function.update_self]
      exact List.mem_append_left _ (this ▸ member)
    · simp only [callPush, Function.update_of_ne this]
      exact member
  constructor
  case inHand =>
    intro actor frame member pair found
    by_cases mine : actor = thread
    · subst actor
      simp only [callPush, set_stack_self] at member
      rcases List.mem_cons.mp member with rfl | old
      · obtain ⟨entry, listed, rfl⟩ := List.mem_map.mp found
        simp only [callPush, Function.update_self]
        exact List.mem_append_right _ listed
      · exact grown _ _ (holds.inHand thread frame old pair found)
    · simp only [callPush, set_stack_other _ _ _ _ mine] at member
      exact grown _ _ (holds.inHand actor frame member pair found)
  case queued => exact fun other entry member => grown other entry (holds.queued other entry member)
  case started =>
    exact fun other entry member => grown other entry (holds.started other entry member)

theorem serializer_step (core : System Thread Name Job) (holds : Sourced core) (thread : Thread)
    (name : Name) (serializer : Serializer Thread Job) (top next : Frame Thread Name Job)
    (below : List (Frame Thread Name Job)) (stands : core.stack thread = top :: below)
    (frames : ∀ pair ∈ carried next, pair.2 ∈ core.pushed pair.1)
    (queued : ∀ entry, some entry ∈ serializer.jobs → entry ∈ core.pushed name)
    (started : ∀ entry ∈ serializer.started, entry ∈ core.pushed name) :
    Sourced (setStack (setSerializer core name serializer) thread (next :: below)) := by
  -- What holds of the new serializer and held of the old ones holds of all.
  have every : ∀ known : Serializer Thread Job → Entry Thread Job → Prop,
      (∀ entry, known serializer entry → entry ∈ core.pushed name) →
      (∀ other entry, known (core.serializers other) entry → entry ∈ core.pushed other) →
      ∀ other entry, known ((setStack (setSerializer core name serializer) thread
        (next :: below)).serializers other) entry → entry ∈ core.pushed other := by
    intro known new old other entry member
    rw [set_stack_serializers] at member
    by_cases this : other = name
    · rw [this, set_serializer_self] at member
      exact this ▸ new entry member
    · rw [set_serializer_other _ _ _ _ this] at member
      exact old other entry member
  exact sourced_step core _ holds thread (next :: below) rfl rfl
    (top_sourced core holds thread top next below stands frames)
    (every (fun changed entry => some entry ∈ changed.jobs) queued holds.queued)
    (every (fun changed entry => entry ∈ changed.started) started holds.started)

omit [DecidableEq Thread] [DecidableEq Name] in
theorem carried_pushed (before : System Thread Name Job) (holds : Sourced before) (thread : Thread)
    (frame : Frame Thread Name Job) (below : List (Frame Thread Name Job))
    (stands : before.stack thread = frame :: below) :
    ∀ pair ∈ carried frame, pair.2 ∈ before.pushed pair.1 :=
  holds.inHand thread frame (by rw [stands]; exact List.mem_cons_self)

theorem queue_sourced (before : System Thread Name Job) (holds : Sourced before) (thread : Thread)
    (name : Name) (entry : Option (Entry Thread Job)) (prevCount : BitVec 32)
    (below : List (Frame Thread Name Job))
    (stands : before.stack thread = .pushQueue name entry prevCount :: below) :
    Sourced
      (setStack (setSerializer before name ((before.serializers name).enqueue thread entry)) thread
        (.pushTest name prevCount :: below)) := by
  refine serializer_step before holds thread name _ _ _ below stands
    (fun _ member => by cases member) ?_
    (holds.started name)
  intro queued member
  rcases List.mem_append.mp member with old | new
  · exact holds.queued name queued old
  · exact carried_pushed before holds thread _ below stands (name, queued)
      (List.mem_map.mpr ⟨queued, by simpa using (List.mem_singleton.mp new).symm, rfl⟩)

theorem drain_sourced (before : System Thread Name Job) (holds : Sourced before) (thread : Thread)
    (name : Name) (startTick : UInt64) (below : List (Frame Thread Name Job))
    (stands : before.stack thread = .execDrain name startTick :: below) :
    Sourced (setStack (setSerializer before name (before.serializers name).clear.2) thread
      (.execLoop name startTick (before.serializers name).clear.1.length
        (before.serializers name).clear.1 ::
      below)) := by
  have members := clear_members (before.serializers name).jobs
  refine serializer_step before holds thread name _ _ _ below stands ?_ ?_ (holds.started name)
  · intro pair found
    obtain ⟨entry, listed, rfl⟩ := List.mem_map.mp found
    exact holds.queued name entry (members.1 entry listed)
  · intro entry member
    exact holds.queued name entry (members.2 _ member)

theorem begin_sourced (before : System Thread Name Job) (holds : Sourced before) (thread : Thread)
    (name : Name) (startTick : UInt64) (currentCount : Nat) (entry : Entry Thread Job)
    (rest : List (Entry Thread Job)) (below : List (Frame Thread Name Job))
    (stands :
      before.stack thread = .execLoop name startTick currentCount (entry :: rest) :: below) :
    Sourced (setStack (setSerializer before name ((before.serializers name).begin entry)) thread
      (.running name startTick currentCount entry rest :: below)) := by
  have known := carried_pushed before holds thread _ below stands
  refine serializer_step before holds thread name _ _ _ below stands ?_ (holds.queued name) ?_
  · intro pair found
    exact known pair (List.mem_cons_of_mem _ found)
  · intro other member
    rcases List.mem_append.mp member with old | new
    · exact holds.started name other old
    · rw [List.mem_singleton.mp new]
      exact known (name, entry) List.mem_cons_self

omit [DecidableEq Name] in
theorem take_over_sourced (before : System Thread Name Job) (holds : Sourced before)
    (thread : Thread) (name : Name) (rest : List Name) (start : UInt64)
    (below : List (Frame Thread Name Job)) (stands : before.stack thread = .doPop start :: below) :
    Sourced (setStack { before with jobQueue := rest } thread
        (.execEnter name :: .doLoop start :: below)) := by
  refine sourced_step before _ holds thread _ rfl rfl ?_ holds.queued holds.started
  intro frame member
  rcases List.mem_cons.mp member with rfl | older
  · exact fun _ none => by cases none
  · exact top_sourced before holds thread _ (.doLoop start) below stands
      (fun _ none => by cases none)
      frame older

theorem move_sourced (before after : System Thread Name Job) (label : Label Thread Name Job)
    (holds : Sourced before) (move : Move before label after) : Sourced after := by
  cases move with
  | quiet _ thread stack _ inert stacked serializers _ _ pushed =>
      refine sourced_step before after holds thread stack stacked pushed ?_
        (by rw [serializers]; exact holds.queued) (by rw [serializers]; exact holds.started)
      intro frame member pair found
      obtain ⟨old, there, same⟩ := inert_carried _ stack inert frame member pair found
      exact holds.inHand thread old there pair same
  | call thread name job _ => exact call_sourced before holds thread name job
  | add thread _ name entry below stands =>
      have known := carried_pushed before holds thread _ below stands
      exact serializer_step before holds thread name _ _ _ below stands known (holds.queued name)
        (holds.started name)
  | queue thread _ name entry prevCount below stands =>
      exact queue_sourced before holds thread name entry prevCount below stands
  | drain thread _ name startTick below stands =>
      exact drain_sourced before holds thread name startTick below stands
  | begin thread _ name startTick currentCount entry rest below stands =>
      exact begin_sourced before holds thread name startTick currentCount entry rest below stands
  | complete thread name startTick currentCount entry rest below stands =>
      have known := carried_pushed before holds thread _ below stands
      exact serializer_step before holds thread name _ _ _ below stands known (holds.queued name)
        (holds.started name)
  | subtract thread _ name startTick currentCount below stands =>
      split <;> exact serializer_step before holds thread name _ _ _ below stands
        (fun _ member => by cases member) (holds.queued name) (holds.started name)
  | handOver thread _ name top below stack stands source =>
      refine sourced_step before _ holds thread stack rfl rfl ?_ holds.queued holds.started
      intro frame member
      rcases source with ⟨rfl, rfl⟩ | ⟨rfl, rfl⟩
      · exact holds.inHand thread frame (by rw [stands]; exact List.mem_cons_of_mem _ member)
      · exact top_sourced before holds thread _ .execLeave below stands
          (fun _ none => by cases none) frame member
  | takeOver thread _ name rest start below stands _ =>
      exact take_over_sourced before holds thread name rest start below stands
  | cleared => exact ⟨holds.inHand, holds.queued, holds.started⟩

section Runs
variable {Handle : Type v} [DecidableEq Handle] {executionTick : Handle → UInt64}
variable {queue : Implementation.{v, y} Handle (ReservedJobs.reservableJobCompare executionTick)}
variable (owner : Handle → Name)

def Started (system : JobSystem.System queue Thread Name Job) (handle : Handle) : Prop :=
  ∃ name, ∃ entry ∈ (system.core.serializers name).started, entry.job = .reserved handle

def Passed (system : JobSystem.System queue Thread Name Job) (handle : Handle) : Prop :=
  (∃ thread now rest, system.worker.phase thread = .giving now handle rest) ∨
    handle ∈ system.worker.handedOver.map Prod.fst

/-- `Cancel` is not called on a job that is on its way from its test to its execution. -/
def beforeTest :
    Condition (JobSystem.System queue Thread Name Job) (JobSystem.Label Thread Handle Name Job) :=
  fun before label _ => ∀ handle, label = .cancel handle → Passed before handle →
    Started before handle

structure Traced (system : JobSystem.System queue Thread Name Job) : Prop where
  sourced : Sourced system.core
  given : ∀ name, ∀ entry ∈ system.core.pushed name, ∀ handle, entry.job = .reserved handle →
    handle ∈ system.worker.handedOver.map Prod.fst

omit [DecidableEq Name] in
theorem worker_handed (before after : ReservedJobs.System queue Thread)
    (label : ReservedJobs.Label Thread Handle)
    (taken : ReservedJobs.step before label = some after) :
    before.handedOver <+: after.handedOver := by
  cases ReservationOrder.step_move before after label taken with
  | given => exact List.prefix_append _ _
  | _ => exact List.prefix_rfl

omit [DecidableEq Handle] in
/-- What a step of the serializers passes to `Push`, if anything, is not reserved. -/
theorem core_pushed (before after : JobSerializer.System Thread Name (JobSystem.Work Handle Job))
    (label : JobSerializer.Label Thread Name (JobSystem.Work Handle Job))
    (move : Move before label after)
    (own : ∀ thread name handle, label ≠ .push thread name (some (.reserved handle))) (name : Name)
    (entry : Entry Thread (JobSystem.Work Handle Job)) (member : entry ∈ after.pushed name)
    (handle : Handle) (reserved : entry.job = .reserved handle) : entry ∈ before.pushed name := by
  cases move with
  | quiet _ _ _ _ _ _ _ _ _ pushed =>
      rw [pushed] at member
      exact member
  | call thread other job _ =>
      by_cases this : name = other
      · subst this
        simp only [callPush, Function.update_self] at member
        rcases List.mem_append.mp member with old | new
        · exact old
        · obtain ⟨value, rfl, rfl⟩ := Option.map_eq_some_iff.mp (Option.mem_toList.mp new)
          exact absurd (by rw [← reserved]) (own thread name handle)
      · simp only [callPush, Function.update_of_ne this] at member
        exact member
  | _ => exact member

theorem step_traced (before after : JobSystem.System queue Thread Name Job)
    (label : JobSystem.Label Thread Handle Name Job) (holds : Traced before)
    (taken : JobSystem.step owner before label = some after) : Traced after := by
  cases JobSystem.step_effect owner before after label taken with
  | core _ inner core moved _ own =>
      have move := SerializedExecution.step_move _ _ _ moved
      refine ⟨move_sourced before.core core inner holds.sourced move, ?_⟩
      intro name entry member handle reserved
      exact holds.given name entry
        (core_pushed _ core inner move own name entry member handle reserved) handle reserved
  | executed thread name _ =>
      refine ⟨sourced_step before.core _ holds.sourced thread _ rfl rfl ?_ holds.sourced.queued
        holds.sourced.started, holds.given⟩
      intro frame member
      rcases List.mem_cons.mp member with rfl | old
      · exact fun _ none => by cases none
      · exact holds.sourced.inHand thread frame old
  | scheduled | cleared | forgot =>
      exact ⟨⟨holds.sourced.inHand, holds.sourced.queued, holds.sourced.started⟩, holds.given⟩
  | worker _ inner worker _ moved =>
      refine ⟨holds.sourced, ?_⟩
      intro name entry member handle reserved
      exact ((worker_handed before.worker worker inner moved).sublist.map Prod.fst).subset
        (holds.given name entry member handle reserved)
  | gave thread _ now handle rest stands =>
      refine ⟨call_sourced before.core holds.sourced thread _ _, ?_⟩
      intro name entry member other reserved
      simp only [List.map_append, List.mem_append, List.map_cons, List.map_nil, List.mem_singleton]
      by_cases this : name = owner handle
      · subst this
        simp only [callPush, Function.update_self] at member
        rcases List.mem_append.mp member with old | new
        · exact .inl (holds.given _ entry old other reserved)
        · right
          simp only [Option.map_some, Option.toList_some, List.mem_singleton] at new
          rw [new] at reserved
          cases reserved
          rfl
      · simp only [callPush, Function.update_of_ne this] at member
        exact .inl (holds.given name entry member other reserved)

theorem step_withdrawn (handle : Handle) (before after : JobSystem.System queue Thread Name Job)
    (label : JobSystem.Label Thread Handle Name Job) (holds : Withdrawn handle before.worker)
    (taken : JobSystem.step owner before label = some after) : Withdrawn handle after.worker := by
  cases JobSystem.step_effect owner before after label taken with
  | core | executed | scheduled | cleared => exact holds
  | worker _ inner worker _ moved =>
      exact move_withdrawn handle before.worker worker inner holds
        (ReservationOrder.step_move _ _ _ moved)
  | gave thread alive now other rest stands =>
      exact move_withdrawn handle before.worker _ (.advance thread alive) holds
        (.given thread alive now other rest stands)
  | forgot => exact ⟨holds.canceled, holds.kept, holds.untouched⟩

/-- In a run whose calls of `Cancel` come before the test or after the start, a job that is
canceled before its execution starts is never executed. -/
theorem canceled_never_started (system after later : JobSystem.System queue Thread Name Job)
    (reached : Reachable (JobSystem.step owner) beforeTest (JobSystem.System.start queue) system)
    (handle : Handle) (early : ¬ Started system handle)
    (canceled : JobSystem.step owner system (.cancel handle) = some after)
    (allowed : beforeTest system (.cancel handle) after)
    (continued : Reachable (JobSystem.step owner) beforeTest after later) :
    ¬ Started later handle := by
  have untested : ¬ Passed system handle := fun passed => early (allowed handle rfl passed)
  have withdrawn : Withdrawn handle after.worker := by
    cases canceled
    refine ⟨Function.update_self .., fun member => untested (.inr member), ?_⟩
    intro thread now rest stands
    exact untested (.inl ⟨thread, now, rest, stands⟩)
  have stays := reachable_invariant (JobSystem.step owner) beforeTest
    (fun system => Withdrawn handle system.worker) after withdrawn
    (fun before label next holds taken _ =>
      step_withdrawn owner handle before next label holds taken)
    later continued
  have traced :=
    reachable_invariant (JobSystem.step owner) beforeTest Traced (JobSystem.System.start queue)
      ⟨start_sourced, fun _ _ member => by cases member⟩
      (fun before label next holds taken _ => step_traced owner before next label holds taken) later
      (reachable_trans _ _ _ _ _ (.next (.cancel handle) reached canceled allowed) continued)
  rintro ⟨name, entry, member, reserved⟩
  exact stays.kept
    (traced.given name entry (traced.sourced.started name entry member) handle reserved)

end Runs

abbrev Small := JobSystem.System leastTick Bool Unit Nat

def smallStep : Step Small (JobSystem.Label Bool Nat Unit Nat) := JobSystem.step fun _ => ()

def startedJobs (system : Small) : List (JobSystem.Work Nat Nat) :=
  (system.core.serializers ()).started.map Entry.job

theorem started_listed (system : Small) (handle : Nat) :
    Started system handle ↔ .reserved handle ∈ startedJobs system := by
  constructor
  · rintro ⟨name, entry, member, reserved⟩
    exact List.mem_map.mpr ⟨entry, member, reserved⟩
  · intro listed
    obtain ⟨entry, member, reserved⟩ := List.mem_map.mp listed
    exact ⟨(), entry, member, reserved⟩

def reservedTen : List (JobSystem.Label Bool Nat Unit Nat) :=
  [.push true () (some 1), .advance true 0, .advance true 0, .advance true 0, .advance true 0,
   .advance true 0, .advance true 0, .addReservableJob 10]

def unchecked (system : Small) : Bool :=
  system.worker.handedOver.isEmpty &&
    (decide (system.worker.phase true = .idle) && decide (system.worker.phase false = .idle))

def quietLabel : JobSystem.Label Bool Nat Unit Nat → Bool
  | .cancel _ => false
  | _ => true

theorem quiet_before_test (before : Small) (label : JobSystem.Label Bool Nat Unit Nat)
    (after : Small) (quiet : quietLabel label = true) : beforeTest before label after := by
  rintro handle rfl _
  cases quiet

/-- Canceled at once, the job is dropped by the check that takes it off the queue. -/
theorem canceled_ten_dropped : ∃ system after later : Small,
    Reachable smallStep beforeTest (JobSystem.System.start _) system ∧
    smallStep system (.cancel 10) = some after ∧ Reachable smallStep beforeTest after later ∧
    later.worker.released = [10] ∧ ¬ Started later 10 := by
  obtain ⟨system, reached, seen⟩ :=
    replay_reachable smallStep beforeTest (fun _ label _ => quietLabel label)
    quiet_before_test
    (fun system : Small => (startedJobs system, unchecked system,
      (replay smallStep (fun _ label _ => quietLabel label)
        { system with worker := ReservedJobs.cancel system.worker 10 }
        [.checkReservedJob false 20, .advanceCheck false true, .advanceCheck false true,
         .advanceCheck false true]).map (·.worker.released)))
    ([.plain 1], true, some [10]) reservedTen (JobSystem.System.start _) (by decide)
  simp only [Prod.mk.injEq, unchecked, Bool.and_eq_true, decide_eq_true_eq,
    List.isEmpty_iff] at seen
  obtain ⟨started, ⟨handed, first, second⟩, rest⟩ := seen
  obtain ⟨later, continued, released⟩ := replay_reachable smallStep beforeTest
    (fun _ label _ => quietLabel label) quiet_before_test (·.worker.released) [10] _ _ rest
  have early : ¬ Started system 10 := by
    rw [started_listed, started]
    decide
  have allowed : ∀ after, beforeTest system (.cancel 10) after := by
    rintro after handle same (⟨thread, now, rest, stands⟩ | member)
    · cases thread with
      | true => rw [first] at stands; cases stands
      | false => rw [second] at stands; cases stands
    · rw [handed] at member
      cases member
  exact ⟨system, _, later, reached, rfl, continued, released,
    canceled_never_started (fun _ => ()) system _ later reached 10 early rfl (allowed _) continued⟩

/-- Handed over to a serializer that the other thread executes, the job waits in its queue;
canceled there, it is executed nevertheless. -/
theorem canceled_ten_executed :
    ¬ ∀ (system after later : Small) (handle : Nat),
      Reachable smallStep (fun _ _ _ => True) (JobSystem.System.start _) system →
      ¬ Started system handle →
      smallStep system (.cancel handle) = some after →
      Reachable smallStep (fun _ _ _ => True) after later →
      ¬ Started later handle := by
  intro promised
  obtain ⟨system, reached, seen⟩ :=
    replay_reachable smallStep (fun _ _ _ => True) (fun _ _ _ => true)
    (fun _ _ _ _ => trivial)
    (fun system : Small => (startedJobs system,
      (replay smallStep (fun _ _ _ => true) { system with
        worker := ReservedJobs.cancel system.worker 10 }
        [.finish true, .advance true 0, .advance true 0, .advance true 0,
          .advance true 0]).map startedJobs))
    ([.plain 1], some [.plain 1, .reserved 10])
    (reservedTen ++ [.checkReservedJob false 20, .advanceCheck false true, .advanceCheck false true,
      .advanceCheck false true, .advance false 0, .advance false 0, .advance false 0])
    (JobSystem.System.start _) (by decide)
  simp only [Prod.mk.injEq] at seen
  obtain ⟨started, rest⟩ := seen
  obtain ⟨later, continued, executed⟩ := replay_reachable smallStep (fun _ _ _ => True)
    (fun _ _ _ => true) (fun _ _ _ _ => trivial) startedJobs [.plain 1, .reserved 10] _ _ rest
  have early : ¬ Started system 10 := by
    rw [started_listed, started]
    decide
  apply promised system _ later 10 reached early rfl continued
  rw [started_listed, executed]
  decide

end NetCore.Cancellation
