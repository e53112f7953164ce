import NetCore.ReservationOrder

/-! The `JobData` of reservable jobs. `ReservableJob` acquires it from `ObjectPool<JobData>` in
its constructor and releases it in `PushJobToSerializer`, not in its destructor, so a job has
to pass through a check to give it back. `ClearReservedJobs` pops the jobs that wait and passes
none of them through: what they hold stays in use. A job that is added twice would be released
twice. In the other runs the objects in use are those of the jobs that wait or were not added. -/
namespace NetCore.JobDataRelease
open TransitionRuns PriorityQueue ReservedJobs

universe u v w
variable {Thread : Type u} {Handle : Type v} {executionTick : Handle → UInt64}

structure System (queue : Implementation.{v, w} Handle (reservableJobCompare executionTick))
    (Thread : Type u) where
  worker : ReservedJobs.System queue Thread
  created : List Handle

variable (queue : Implementation.{v, w} Handle (reservableJobCompare executionTick))

def System.start : System queue Thread where
  worker := .start queue
  created := []

inductive Label (Thread : Type u) (Handle : Type v) where
  | construct (job : Handle)
  | addReservableJob (job : Handle)
  | cancel (job : Handle)
  | checkReservedJob (thread : Thread) (now : UInt64)
  | advance (thread : Thread) (alive : Bool)
  | clearReservedJobs

variable {queue}

/-- `Acquire` is called once for each object constructed. -/
def inUse (system : System queue Thread) : Int :=
  (system.created.length : Int) - system.worker.released.length

variable [DecidableEq Handle]

def unadded (system : System queue Thread) : List Handle :=
  system.created.filter fun job => job ∉ system.worker.added

variable [DecidableEq Thread]

/-- A handle stands for one object, and only an object that exists is passed on. -/
def step : Step (System queue Thread) (Label Thread Handle) := fun system label =>
  match label with
  | .construct job =>
      if job ∈ system.created then none else some { system with created := system.created ++ [job] }
  | .addReservableJob job =>
      if job ∈ system.created then
        some { system with worker := ReservedJobs.addReservableJob system.worker job }
      else none
  | .cancel job => some { system with worker := ReservedJobs.cancel system.worker job }
  | .checkReservedJob thread now =>
      some { system with worker := ReservedJobs.checkReservedJob system.worker thread now }
  | .advance thread alive =>
      (ReservedJobs.advance system.worker thread alive).map fun worker =>
        { system with worker := worker }
  | .clearReservedJobs =>
      (ReservedJobs.clearReservedJobs system.worker).map fun worker =>
        { system with worker := worker }

structure Passing (before : System queue Thread) (label : Label Thread Handle) : Prop where
  once : ∀ job, label = .addReservableJob job → job ∉ before.worker.added
  empty : label = .clearReservedJobs → queue.contents before.worker.heap = 0

def passing : Condition (System queue Thread) (Label Thread Handle) :=
  fun before label _ => Passing before label

structure Pooled (system : System queue Thread) : Prop where
  worker : ReservationOrder.Invariant system.worker
  conserved : (system.worker.added : Multiset Handle) =
    queue.contents system.worker.heap + (system.worker.collected : Multiset Handle)
  objects : system.created.Nodup
  known : ∀ job ∈ system.worker.added, job ∈ system.created

omit [DecidableEq Thread] [DecidableEq Handle] in
theorem start_pooled : Pooled (System.start queue : System queue Thread) where
  worker := ReservationOrder.start_invariant
  conserved := by simp [System.start, ReservedJobs.System.start, queue.contents_empty]
  objects := .nil
  known _ member := by cases member

omit [DecidableEq Thread] [DecidableEq Handle] in
theorem pooled_frame (before after : System queue Thread) (holds : Pooled before)
    (worker : ReservationOrder.Invariant after.worker)
    (heap : after.worker.heap = before.worker.heap)
    (collected : after.worker.collected = before.worker.collected)
    (added : after.worker.added = before.worker.added) (created : after.created = before.created) :
    Pooled after where
  worker := worker
  conserved := by
    rw [heap, collected, added]
    exact holds.conserved
  objects := created ▸ holds.objects
  known := by
    rw [added, created]
    exact holds.known

theorem advance_pooled (before : System queue Thread) (holds : Pooled before) (thread : Thread)
    (alive : Bool) (worker : ReservedJobs.System queue Thread)
    (taken : ReservedJobs.advance before.worker thread alive = some worker) :
    Pooled { before with worker := worker } := by
  have move := ReservationOrder.step_move before.worker worker (.advance thread alive) taken
  have kept := ReservationOrder.move_invariant before.worker worker _ holds.worker move
    (fun _ same => by cases same)
  cases move with
  | collected _ _ now final stands parts left =>
      refine ⟨kept, ?_, holds.objects, holds.known⟩
      simp only [ReservedJobs.enter, ← Multiset.coe_add]
      rw [holds.conserved, parts.splits, Multiset.add_comm (final.taken : Multiset Handle),
        Multiset.add_assoc, Multiset.add_comm (final.taken : Multiset Handle)]
  | skipped | passed | given | returned | ended =>
      exact pooled_frame before _ holds kept rfl rfl rfl rfl

omit [DecidableEq Thread] [DecidableEq Handle] in
theorem clear_pooled (before : System queue Thread) (holds : Pooled before)
    (empty : queue.contents before.worker.heap = 0) (worker : ReservedJobs.System queue Thread)
    (taken : ReservedJobs.clearReservedJobs before.worker = some worker) :
    Pooled { before with worker := worker } := by
  obtain ⟨final, ended, rfl⟩ := Option.map_eq_some_iff.mp taken
  obtain ⟨last, same, splits, -⟩ := take_while_spec queue (fun _ => true) before.worker.heap
    fun _ _ _ accepted => accepted
  have equal : final = last := Option.some.inj (ended.symm.trans same)
  subst equal
  have none : queue.contents final.heap = 0 := by
    have parts := splits.splits
    rw [empty] at parts
    exact Multiset.le_zero.mp (parts.symm ▸ Multiset.le_add_left _ _)
  have contents : queue.contents final.heap = queue.contents before.worker.heap :=
    none.trans empty.symm
  obtain ⟨waiting, once, apart, known, timely, active, sole, account⟩ := holds.worker
  have line : ReservationOrder.Account { before.worker with heap := final.heap } active :=
    ⟨account.collected, account.tested, account.handed, account.due⟩
  have alone :=
    ReservationOrder.sole_frame before.worker { before.worker with heap := final.heap } active sole
      rfl rfl
  refine ⟨⟨?_, once, ?_, ?_, timely, active, alone, line⟩, ?_, holds.objects, holds.known⟩
  · simp only [contents]
    exact waiting
  · simp only [contents]
    exact apart
  · simp only [contents]
    exact known
  · simp only [contents]
    exact holds.conserved

theorem step_pooled (before after : System queue Thread) (label : Label Thread Handle)
    (holds : Pooled before) (taken : step before label = some after)
    (allowed : Passing before label) : Pooled after := by
  cases label with
  | construct job =>
      simp only [step, Option.ite_none_left_eq_some, Option.some.injEq] at taken
      obtain ⟨fresh, rfl⟩ := taken
      refine ⟨holds.worker, holds.conserved, ?_, ?_⟩
      · exact List.nodup_append.mpr ⟨holds.objects, List.nodup_singleton job, by
          rintro other old _ new rfl
          exact fresh (List.mem_singleton.mp new ▸ old)⟩
      · intro other member
        exact List.mem_append_left _ (holds.known other member)
  | addReservableJob job =>
      simp only [step, Option.ite_none_right_eq_some, Option.some.injEq] at taken
      obtain ⟨constructed, rfl⟩ := taken
      refine ⟨ReservationOrder.added_invariant before.worker job holds.worker
        (allowed.once job rfl), ?_, holds.objects, ?_⟩
      · simp only [ReservedJobs.addReservableJob, queue.contents_push, ← Multiset.coe_add,
          Multiset.coe_singleton, holds.conserved, ← Multiset.singleton_add]
        rw [Multiset.add_comm _ {job}, Multiset.add_assoc]
      · intro other member
        rcases List.mem_append.mp member with old | new
        · exact holds.known other old
        · exact List.mem_singleton.mp new ▸ constructed
  | cancel job =>
      simp only [step, Option.some.injEq] at taken
      subst taken
      have kept := ReservationOrder.move_invariant before.worker _ _ holds.worker (.canceled job)
        (fun _ same => by cases same)
      exact pooled_frame before _ holds kept rfl rfl rfl rfl
  | checkReservedJob thread now =>
      simp only [step, Option.some.injEq] at taken
      subst taken
      have move := ReservationOrder.step_move before.worker _ (.checkReservedJob thread now) rfl
      have kept := ReservationOrder.move_invariant before.worker _ _ holds.worker move
        (fun _ same => by cases same)
      unfold ReservedJobs.checkReservedJob at kept ⊢
      split
      case isTrue => exact holds
      case isFalse free =>
        rw [if_neg free] at kept
        exact pooled_frame before _ holds kept rfl rfl rfl rfl
  | advance thread alive =>
      obtain ⟨worker, stepped, rfl⟩ := Option.map_eq_some_iff.mp taken
      exact advance_pooled before holds thread alive worker stepped
  | clearReservedJobs =>
      obtain ⟨worker, stepped, rfl⟩ := Option.map_eq_some_iff.mp taken
      exact clear_pooled before holds (allowed.empty rfl) worker stepped

omit [DecidableEq Thread] [DecidableEq Handle] in
/-- What has been released is the first part of what has been collected. -/
theorem released_collected (system : ReservedJobs.System queue Thread)
    (holds : ReservationOrder.Invariant system) :
    system.released <+: system.collected := by
  obtain ⟨active, -, account⟩ := holds.accounted
  rw [account.collected, account.tested, List.append_assoc]
  exact List.prefix_append _ _

omit [DecidableEq Thread] [DecidableEq Handle] in
theorem quiet_released (system : ReservedJobs.System queue Thread)
    (holds : ReservationOrder.Invariant system) (idle : ∀ thread, system.phase thread = .idle) :
    system.released = system.collected := by
  obtain ⟨active, sole, account⟩ := holds.accounted
  have none : active = .idle := by
    cases sole with
    | free => rfl
    | busy thread => exact idle thread
  subst none
  rw [account.collected, account.tested]
  simp [ReservationOrder.rest, ReservationOrder.current]

omit [DecidableEq Thread] in
theorem created_length (system : System queue Thread) (holds : Pooled system) :
    system.created.length =
      Multiset.card (queue.contents system.worker.heap) + system.worker.collected.length +
        (unadded system).length := by
  have parts : (system.worker.added : Multiset Handle).Nodup := by
    rw [holds.conserved, Multiset.nodup_add]
    refine ⟨holds.worker.waiting, Multiset.coe_nodup.mpr holds.worker.once, ?_⟩
    rw [Multiset.disjoint_left]
    intro job waits taken
    exact holds.worker.apart job (Multiset.mem_coe.mp taken) waits
  have same :
      (system.created.filter fun job => job ∈ system.worker.added).Perm system.worker.added := by
    apply (List.perm_ext_iff_of_nodup (holds.objects.filter _) (Multiset.coe_nodup.mp parts)).mpr
    intro job
    simp only [List.mem_filter, decide_eq_true_eq]
    exact ⟨And.right, fun member => ⟨holds.known job member, member⟩⟩
  have counted := congrArg Multiset.card holds.conserved
  rw [Multiset.card_add, Multiset.coe_card, Multiset.coe_card] at counted
  have split :=
    List.length_eq_length_filter_add (l := system.created) (fun job =>
      decide (job ∈ system.worker.added))
  rw [same.length_eq, counted] at split
  simpa [unadded] using split

/-- Each `JobData` is released at most once; with no check in progress those in use belong to
the jobs that wait or were not added, and every job that has left the queue has released its own. -/
theorem job_data_released_once (system : System queue Thread)
    (reached : Reachable step passing (System.start queue) system) :
    (∀ job, system.worker.released.count job ≤ 1) ∧
    ((∀ thread, system.worker.phase thread = .idle) →
      inUse system = Multiset.card (queue.contents system.worker.heap) + (unadded system).length ∧
      ∀ job ∈ system.created, system.worker.released.count job =
        if job ∈ system.worker.added ∧ job ∉ queue.contents system.worker.heap then 1 else 0) := by
  have holds := reachable_invariant step passing Pooled (System.start queue) start_pooled
    (fun before label after holds taken allowed =>
      step_pooled before after label holds taken allowed)
    system reached
  have once := holds.worker.once
  refine ⟨?_, ?_⟩
  · have sublist := (released_collected system.worker holds.worker).sublist
    exact List.nodup_iff_count_le_one.mp (once.sublist sublist)
  · intro idle
    have all := quiet_released system.worker holds.worker idle
    refine ⟨?_, ?_⟩
    · have objects := created_length system holds
      simp only [inUse, all]
      omega
    · intro job _
      have left : job ∈ system.worker.collected ↔
          job ∈ system.worker.added ∧ job ∉ queue.contents system.worker.heap := by
        rw [← Multiset.mem_coe (l := system.worker.added), holds.conserved,
          Multiset.mem_add, Multiset.mem_coe]
        constructor
        · intro taken
          exact ⟨Or.inr taken, holds.worker.apart job taken⟩
        · rintro ⟨waits | taken, gone⟩
          · exact absurd waits gone
          · exact taken
      rw [all, List.Nodup.count once]
      simp only [left]

abbrev Ticks := System ReservationOrder.leastTick Unit

def passingStep (before : Ticks) (label : Label Unit Nat) (_ : Ticks) : Bool :=
  match label with
  | .addReservableJob job => decide (job ∉ before.worker.added)
  | .clearReservedJobs => false
  | _ => true

theorem passing_step_sound (before : Ticks) (label : Label Unit Nat) (after : Ticks)
    (checked : passingStep before label after = true) : passing before label after := by
  refine ⟨?_, ?_⟩
  · rintro job rfl
    exact of_decide_eq_true checked
  · rintro rfl
    cases checked

/-- Three jobs are constructed, two of them added; one of these is canceled and collected. -/
theorem canceled_job_released :
    ∃ system : Ticks, Reachable step passing (System.start _) system ∧
      system.worker.released = [10] ∧ inUse system = 2 := by
  obtain ⟨system, reached, seen⟩ := replay_reachable step passing passingStep passing_step_sound
    (fun system : Ticks => (system.worker.phase (), system.worker.released,
      (system.worker.heap : List Nat).length, (unadded system).length))
    (.idle, [10], 1, 1)
    [.construct 10, .construct 30, .construct 50, .addReservableJob 10, .addReservableJob 30,
     .cancel 10, .checkReservedJob () 20, .advance () true, .advance () true, .advance () true]
    (System.start _) (by decide)
  simp only [Prod.mk.injEq] at seen
  obtain ⟨idle, released, waiting, outside⟩ := seen
  have account := ((job_data_released_once system reached).2 fun _ => idle).1
  refine ⟨system, reached, released, ?_⟩
  have card : Multiset.card (ReservationOrder.leastTick.contents system.worker.heap) = 1 := waiting
  rw [account, card, outside]
  rfl

/-- `ClearReservedJobs` pops a job that waits and releases nothing. -/
theorem cleared_job_kept :
    ¬ ∀ system : Ticks, Reachable step (fun _ _ _ => True) (System.start _) system →
      (∀ thread, system.worker.phase thread = .idle) →
      inUse system =
        Multiset.card (ReservationOrder.leastTick.contents system.worker.heap) +
          (unadded system).length := by
  intro released
  obtain ⟨system, reached, seen⟩ := replay_reachable step (fun _ _ _ => True) (fun _ _ _ => true)
    (fun _ _ _ _ => trivial)
    (fun system : Ticks => (system.worker.phase (), inUse system,
      (system.worker.heap : List Nat).length, (unadded system).length))
    (.idle, 1, 0, 0) [.construct 10, .addReservableJob 10, .clearReservedJobs]
      (System.start _) (by decide)
  simp only [Prod.mk.injEq] at seen
  obtain ⟨idle, used, waiting, outside⟩ := seen
  have account := released system reached fun _ => idle
  have card : Multiset.card (ReservationOrder.leastTick.contents system.worker.heap) = 0 := waiting
  rw [used, card, outside] at account
  cases account

end NetCore.JobDataRelease
