import NetCore.PopSequence
import NetCore.PriorityQueue
import NetCore.LockQueue

/-! `Clear(popped)` of `LockQueue` and of `LockPriorityQueue`, for items of any type: the loop tests
the item that `Pop` returns, and `Pop` returns `T()` when the container is empty. Both hold the
write lock throughout. The drain of LockQueue, for pointers, is an instance. -/
namespace NetCore.QueueDraining
open PopSequence PriorityQueue

universe u v

variable {Item : Type u}

def lockQueue (Item : Type u) : Source Item where
  State := List Item
  next := LockQueue.tryPop
  size := List.length
  shrinks := by
    intro queue item rest found
    cases queue with
    | nil => cases found
    | cons front others =>
        cases found
        exact Nat.lt_succ_self _

/-- `T element = Pop()` is tested by `truth`, its conversion to `bool`; `default` is `T()`, null for
pointers. -/
def lockQueueClear (truth : Item → Bool) (default : Item) (fuel : Nat) (popped queue : List Item) :
    Option (Reading (lockQueue Item)) :=
  readWhile (lockQueue Item) truth default fuel popped queue

theorem lock_queue_items (queue : List Item) : items (lockQueue Item) queue = queue := by
  induction queue with
  | nil => exact items_none (lockQueue Item) _ rfl
  | cons front rest ih => rw [items_some (lockQueue Item) (front :: rest) rest front rfl, ih]

variable {less : Item → Item → Bool}

def lockPriorityQueue (queue : Implementation.{u, v} Item less) : Source.{u, v} Item where
  State := queue.Heap
  next heap := (queue.top heap).map fun item => (item, queue.pop heap)
  size heap := Multiset.card (queue.contents heap)
  shrinks := by
    intro heap item rest found
    obtain ⟨top, first, same⟩ := Option.map_eq_some_iff.mp found
    cases same
    rw [queue.contents_pop heap item first, Multiset.card_cons]
    exact Nat.lt_succ_self _

def lockPriorityQueueClear (queue : Implementation.{u, v} Item less) (truth : Item → Bool)
    (default : Item) (fuel : Nat) (elements : List Item) (heap : queue.Heap) :
    Option (Reading (lockPriorityQueue queue)) :=
  readWhile (lockPriorityQueue queue) truth default fuel elements heap

theorem next_none_empty (queue : Implementation.{u, v} Item less) (heap : queue.Heap)
    (nothing : (lockPriorityQueue queue).next heap = none) : queue.contents heap = 0 :=
  queue.top_none heap (Option.map_eq_none_iff.mp nothing)

theorem lock_priority_queue_items (queue : Implementation.{u, v} Item less) (heap : queue.Heap) :
    (items (lockPriorityQueue queue) heap : Multiset Item) = queue.contents heap ∧
      (items (lockPriorityQueue queue) heap).Pairwise fun first second =>
        less first second = false := by
  induction listed : items (lockPriorityQueue queue) heap generalizing heap with
  | nil =>
      rw [next_none_empty queue heap ((items_nil (lockPriorityQueue queue) heap).mp listed)]
      exact ⟨rfl, .nil⟩
  | cons item others ih =>
      obtain ⟨rest, found, tail⟩ := items_cons (lockPriorityQueue queue) heap item others listed
      obtain ⟨top, first, same⟩ := Option.map_eq_some_iff.mp found
      cases same
      obtain ⟨contents, sorted⟩ := ih (queue.pop heap) tail
      have split := queue.contents_pop heap item first
      refine ⟨by rw [split, ← contents, Multiset.cons_coe], List.pairwise_cons.mpr ⟨?_, sorted⟩⟩
      intro other member
      apply queue.top_greatest heap item first other
      rw [split, ← contents]
      exact Multiset.mem_cons_of_mem member

theorem lock_priority_queue_members (queue : Implementation.{u, v} Item less) (heap : queue.Heap)
    (item : Item) :
    item ∈ items (lockPriorityQueue queue) heap ↔ item ∈ queue.contents heap := by
  rw [← (lock_priority_queue_items queue heap).1, Multiset.mem_coe]

/-- Jobs are pointers: the drain of JobSerializer is this loop, with null for false. -/
theorem clear_reads (queue : List (Option Item)) (popped : List (Option Item)) :
    ∃ fuel final, lockQueueClear Option.isSome none fuel popped queue = some final ∧
      final.popped = popped ++ (LockQueue.clear queue).1.map some ∧
      final.rest = (LockQueue.clear queue).2 := by
  induction queue generalizing popped with
  | nil => exact ⟨0, _, rfl, by simp [LockQueue.clear, readFrom], rfl⟩
  | cons front rest ih =>
      cases front with
      | none => exact ⟨0, _, rfl, by simp [LockQueue.clear, LockQueue.pop, readFrom], rfl⟩
      | some item =>
          obtain ⟨fuel, final, ended, read, left⟩ := ih (popped ++ [some item])
          refine ⟨fuel + 1, final, ?_, ?_, left⟩
          · unfold lockQueueClear at ended ⊢
            rw [read_next (lockQueue (Option Item)) Option.isSome none popped
              (some item :: rest) rest (some item) fuel rfl rfl, ended]
          · rw [read]
            simp [LockQueue.clear, LockQueue.pop]

/-- A null item is removed and not handed over, and what is behind it stays. -/
theorem clear_counts (queue : List (Option Item)) :
    (LockQueue.clear queue).1.length + (LockQueue.clear queue).2.length +
      (queue.any Option.isNone).toNat = queue.length := by
  induction queue with
  | nil => rfl
  | cons front rest ih =>
      cases front with
      | none => simp [LockQueue.clear, LockQueue.pop]
      | some item =>
          simp only [LockQueue.clear, LockQueue.pop, List.length_cons, List.any_cons,
            Option.isNone_some, Bool.false_or]
          omega

example : LockQueue.clear [some 1, none, some 2] = ([1], [some 2]) := rfl

def LockQueueDrains (truth : Item → Bool) (default : Item) (popped queue : List Item) : Prop :=
  ∃ fuel final, lockQueueClear truth default fuel popped queue = some final ∧
    final.popped = popped ++ queue ∧ final.rest = []

def LockPriorityQueueDrains (queue : Implementation.{u, v} Item less) (truth : Item → Bool)
    (default : Item) (elements : List Item) (heap : queue.Heap) : Prop :=
  ∃ fuel final, lockPriorityQueueClear queue truth default fuel elements heap = some final ∧
    final.popped = elements ++ items (lockPriorityQueue queue) heap ∧ queue.contents final.rest = 0

theorem lock_queue_drains_iff (truth : Item → Bool) (default : Item) (popped queue : List Item) :
    LockQueueDrains truth default popped queue ↔
      (∀ item ∈ queue, truth item = true) ∧ truth default = false := by
  have empty : ∀ rest : List Item, rest = [] ↔ (lockQueue Item).next rest = none := by
    intro rest
    cases rest <;> simp [lockQueue, LockQueue.tryPop]
  have drains := drains_iff (lockQueue Item) truth default popped queue
  unfold Drains at drains
  rw [lock_queue_items] at drains
  rw [← drains]
  exact exists_congr fun fuel => exists_congr fun final =>
    and_congr_right fun _ => and_congr_right fun _ => empty final.rest

theorem lock_priority_queue_drains_iff (queue : Implementation.{u, v} Item less)
    (truth : Item → Bool) (default : Item) (elements : List Item) (heap : queue.Heap) :
    LockPriorityQueueDrains queue truth default elements heap ↔
      (∀ item ∈ queue.contents heap, truth item = true) ∧ truth default = false := by
  have empty : ∀ rest : queue.Heap, queue.contents rest = 0 ↔
      (lockPriorityQueue queue).next rest = none := by
    intro rest
    refine ⟨fun none => (items_nil (lockPriorityQueue queue) rest).mp ?_,
      next_none_empty queue rest⟩
    rw [← List.length_eq_zero_iff, ← Multiset.coe_card, (lock_priority_queue_items queue rest).1,
      none, Multiset.card_zero]
  have drains := drains_iff (lockPriorityQueue queue) truth default elements heap
  simp only [Drains, lock_priority_queue_members] at drains
  rw [← drains]
  exact exists_congr fun fuel => exists_congr fun final =>
    and_congr_right fun _ => and_congr_right fun _ => empty final.rest

end NetCore.QueueDraining
