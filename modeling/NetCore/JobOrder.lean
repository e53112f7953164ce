import NetCore.SerializedExecution

/-! The order in which jobs are queued. A thread queues its jobs in program order
because it is in one call of `Push` at a time, so that no job is queued twice. Where
the account of a serializer is exact, the jobs started are the first ones queued. -/
namespace NetCore.JobOrder
open TransitionRuns UniquePlacement JobSerializer ExecutionRight SerializedExecution

universe u v w
variable {Thread : Type u} {Name : Type v} {Job : Type w}

def ProgramOrder (first second : Entry Thread Job) : Prop :=
  first.thread = second.thread → first.number < second.number

structure Ordered (system : System Thread Name Job) : Prop where
  numbered : ∀ name, ∀ entry ∈ (system.serializers name).enqueued,
    entry.number < system.calls entry.thread
  coming : ∀ thread name entry, (name, some entry) ∈ (system.stack thread).filterMap entering →
    entry.thread = thread ∧ entry.number + 1 = system.calls thread ∧
      ∀ other, ∀ earlier ∈ (system.serializers other).enqueued, ProgramOrder earlier entry
  sorted : ∀ name, (system.serializers name).enqueued.Pairwise ProgramOrder

theorem start_ordered : Ordered (System.start : System Thread Name Job) where
  numbered _ _ member := by cases member
  coming _ _ _ member := by cases member
  sorted _ := .nil

variable [DecidableEq Thread] [DecidableEq Name]

theorem call_ordered (system : System Thread Name Job) (holds : Ordered system)
    (arrivals : Arrivals system) (thread : Thread) (name : Name) (job : Option Job)
    (free : mayCall (system.stack thread) = true) :
    Ordered (callPush system thread name job) where
  numbered other entry member := by
    have known := holds.numbered other entry member
    by_cases mine : entry.thread = thread
    · rw [mine] at known ⊢
      simp only [callPush, Function.update_self]
      omega
    · simpa only [callPush, Function.update_of_ne mine] using known
  coming actor other entry member := by
    by_cases mine : actor = thread
    · subst actor
      simp only [callPush, set_stack_self] at member ⊢
      rcases List.mem_cons.mp member with new | old
      · -- The new call has the next number, so it comes after all jobs queued by the thread.
        obtain ⟨value, rfl, rfl⟩ := Option.map_eq_some_iff.mp (Prod.mk.inj new).2.symm
        refine ⟨rfl, by simp, ?_⟩
        intro third earlier known same
        have number := holds.numbered third earlier known
        rw [same] at number
        exact number
      · have none :=
          (below_without _ _ (nested_call _ (.execLeave) free (arrivals.nested thread))).2
        rw [none] at old
        cases old
    · simp only [callPush, set_stack_other _ _ _ _ mine] at member
      simp only [callPush, Function.update_of_ne mine]
      exact holds.coming actor other entry member
  sorted := holds.sorted

theorem queue_ordered (system : System Thread Name Job) (holds : Ordered system)
    (arrivals : Arrivals system) (thread : Thread) (name : Name) (entry : Option (Entry Thread Job))
    (prevCount : BitVec 32) (below : List (Frame Thread Name Job))
    (stands : system.stack thread = .pushQueue name entry prevCount :: below) :
    Ordered
      (setStack (setSerializer system name ((system.serializers name).enqueue thread entry)) thread
        (.pushTest name prevCount :: below)) := by
  have shape : Nested (.pushQueue name entry prevCount :: below) := stands ▸ arrivals.nested thread
  have present : (name, entry) ∈ (system.stack thread).filterMap entering := by
    rw [stands]
    exact List.mem_cons_self
  obtain ⟨job, rfl⟩ := Option.ne_none_iff_exists'.mp (arrivals.present thread (name, entry) present)
  obtain ⟨mine, latest, later⟩ := holds.coming thread name job present
  -- What is queued now was queued before or is this job.
  have origin : ∀ other, ∀ queued ∈ ((setSerializer system name
      ((system.serializers name).enqueue thread (some job))).serializers other).enqueued,
      queued ∈ (system.serializers other).enqueued ∨ queued = job := by
    intro other queued member
    by_cases this : other = name
    · subst other
      rw [set_serializer_self] at member
      simpa [Serializer.enqueue] using member
    · rw [set_serializer_other _ _ _ _ this] at member
      exact .inl member
  constructor
  · intro other queued member
    rcases origin other queued member with old | rfl
    · exact holds.numbered other queued old
    · change queued.number < system.calls queued.thread
      rw [mine]
      omega
  · intro actor other next member
    by_cases same : actor = thread
    · subst actor
      rw [set_stack_self, List.filterMap_cons_none rfl, (below_without _ below shape).2] at member
      cases member
    · rw [set_stack_other _ _ _ _ same] at member
      obtain ⟨theirs, number, after⟩ := holds.coming actor other next member
      refine ⟨theirs, number, ?_⟩
      intro third earlier known
      rcases origin third earlier known with old | rfl
      · exact after third earlier old
      · intro equal
        exact absurd (theirs.symm.trans (equal.symm.trans mine)) same
  · intro other
    by_cases this : other = name
    · subst other
      rw [set_stack_serializers, set_serializer_self]
      refine List.pairwise_append.mpr ⟨holds.sorted _, List.pairwise_singleton _ _, ?_⟩
      intro earlier old next last
      rw [Option.toList_some, List.mem_singleton] at last
      exact last ▸ later _ earlier old
    · rw [set_stack_serializers, set_serializer_other _ _ _ _ this]
      exact holds.sorted other

theorem move_ordered (before after : System Thread Name Job) (label : Label Thread Name Job)
    (holds : Ordered before) (arrivals : Arrivals before) (move : Move before label after) :
    Ordered after := by
  cases move_traffic before after label move with
  | call thread name job free => exact call_ordered before holds arrivals thread name job free
  | queue thread name entry prevCount below stands =>
      exact queue_ordered before holds arrivals thread name entry prevCount below stands
  | steady _ enters calls _ enqueued =>
      constructor
      · intro name entry member
        rw [enqueued] at member
        rw [calls]
        exact holds.numbered name entry member
      · intro thread name entry member
        rw [enters] at member
        obtain ⟨mine, latest, later⟩ := holds.coming thread name entry member
        refine ⟨mine, by rw [calls, latest], ?_⟩
        intro other earlier known
        rw [enqueued] at known
        exact later other earlier known
      · intro name
        rw [enqueued]
        exact holds.sorted name

omit [DecidableEq Thread] in
/-- Program order is irreflexive, so no job is queued twice. -/
theorem program_order_nodup (entries : List (Entry Thread Job))
    (sorted : entries.Pairwise ProgramOrder) :
    entries.Nodup := by
  refine sorted.imp ?_
  rintro first second order rfl
  exact Nat.lt_irrefl _ (order rfl)

omit [DecidableEq Thread] in
theorem started_in_front (serializer : Serializer Thread Job) (rest : List (Entry Thread Job))
    (order : serializer.enqueued.map some =
      (serializer.started ++ rest).map some ++ serializer.jobs) :
    serializer.started <+: serializer.enqueued := by
  obtain ⟨first, second, whole, drained, _⟩ := List.map_eq_append_iff.mp order
  have same : first = serializer.started ++ rest :=
    List.map_injective_iff.mpr (fun _ _ equal => Option.some.inj equal) drained
  rw [whole, same, List.append_assoc]
  exact List.prefix_append _ _

omit [DecidableEq Thread] in
theorem started_are_first (serializer : Serializer Thread Job) (batch : Batch Thread Job)
    (account : Account serializer batch) : serializer.started <+: serializer.enqueued :=
  started_in_front serializer batch.rest account.order

end NetCore.JobOrder
