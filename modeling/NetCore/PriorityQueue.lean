import NetCore.FuelLoop
import Mathlib.Data.Multiset.AddSub
import Mathlib.Data.List.MinMax

/-! Priority queues by their specification. Which of several greatest items is on top is
left to the implementation, so what is proved here holds of every heap. The loop at the
end takes items off the top as long as a test accepts them; when the test accepts with an
item everything that has to come before it, the loop takes exactly the accepted items, in
order, and needs no more turns than there are items. -/
namespace NetCore.PriorityQueue
open FuelLoop

universe u v

/-- An implementation together with the laws that `std::priority_queue` promises for a
comparison `less`: no item of the queue is greater than the one on top. -/
structure Implementation (Item : Type u) (less : Item → Item → Bool) where
  Heap : Type v
  contents : Heap → Multiset Item
  empty : Heap
  push : Heap → Item → Heap
  top : Heap → Option Item
  pop : Heap → Heap
  contents_empty : contents empty = 0
  contents_push : ∀ heap item, contents (push heap item) = item ::ₘ contents heap
  top_none : ∀ heap, top heap = none → contents heap = 0
  contents_pop : ∀ heap item, top heap = some item → contents heap = item ::ₘ contents (pop heap)
  top_greatest : ∀ heap item, top heap = some item → ∀ other ∈ contents heap,
    less item other = false

/-- Unordered lists, searched for the least key on every access. -/
def leastKey {Item : Type u} [DecidableEq Item] (less : Item → Item → Bool) (key : Item → Nat)
    (agrees : ∀ left right, less left right = decide (key right < key left)) :
    Implementation Item less where
  Heap := List Item
  contents heap := heap
  empty := []
  push heap item := heap ++ [item]
  top heap := heap.argmin key
  pop heap := match heap.argmin key with
    | some item => heap.erase item
    | none => heap
  contents_empty := rfl
  contents_push heap item := Multiset.coe_eq_coe.mpr (List.perm_append_singleton item heap)
  top_none heap nothing := by rw [List.argmin_eq_none.mp nothing, Multiset.coe_nil]
  contents_pop heap item found := by
    rw [found]
    exact Multiset.coe_eq_coe.mpr (List.perm_cons_erase (List.argmin_mem found))
  top_greatest heap item found other member := by
    rw [agrees]
    exact decide_eq_false (Nat.not_lt.mpr (List.le_of_mem_argmin member found))

section Taking
variable {Item : Type u} {less : Item → Item → Bool} (queue : Implementation.{u, v} Item less)

structure Taking where
  taken : List Item
  heap : queue.Heap

def Taking.goesOn (accepts : Item → Bool) (state : Taking queue) : Bool :=
  match queue.top state.heap with
  | some item => accepts item
  | none => false

def Taking.turn (state : Taking queue) : Taking queue :=
  match queue.top state.heap with
  | some item => { taken := state.taken ++ [item], heap := queue.pop state.heap }
  | none => state

def takeWhile (accepts : Item → Bool) (fuel : Nat) (heap : queue.Heap) : Option (Taking queue) :=
  whileLoop (Taking.goesOn queue accepts) (Taking.turn queue) fuel { taken := [], heap := heap }

structure Taken (accepts : Item → Bool) (source : queue.Heap) (state : Taking queue) : Prop where
  splits : queue.contents source = (state.taken : Multiset Item) + queue.contents state.heap
  accepted : ∀ item ∈ state.taken, accepts item = true
  sorted : state.taken.Pairwise fun first second => less first second = false
  first : ∀ item ∈ state.taken, ∀ other ∈ queue.contents state.heap, less item other = false

theorem goes_on_top (accepts : Item → Bool) (state : Taking queue)
    (goesOn : state.goesOn queue accepts = true) :
    ∃ item, queue.top state.heap = some item ∧ accepts item = true := by
  unfold Taking.goesOn at goesOn
  split at goesOn
  case h_1 item found => exact ⟨item, found, goesOn⟩
  case h_2 => cases goesOn

theorem turn_taken (accepts : Item → Bool) (source : queue.Heap) (state : Taking queue)
    (goesOn : state.goesOn queue accepts = true) (holds : Taken queue accepts source state) :
    Taken queue accepts source (state.turn queue) := by
  obtain ⟨item, found, accepted⟩ := goes_on_top queue accepts state goesOn
  have split := queue.contents_pop state.heap item found
  have kept : ∀ other ∈ queue.contents (queue.pop state.heap),
      other ∈ queue.contents state.heap := by
    intro other member
    rw [split]
    exact Multiset.mem_cons_of_mem member
  simp only [Taking.turn, found]
  constructor
  case splits =>
    rw [holds.splits, split, ← Multiset.coe_add, Multiset.coe_singleton, Multiset.add_assoc,
      Multiset.singleton_add]
  case accepted =>
    intro other member
    rcases List.mem_append.mp member with old | new
    · exact holds.accepted other old
    · rw [List.mem_singleton.mp new]
      exact accepted
  case sorted =>
    refine List.pairwise_append.mpr ⟨holds.sorted, List.pairwise_singleton _ _, ?_⟩
    intro earlier old other new
    rw [List.mem_singleton.mp new]
    exact holds.first earlier old item (by rw [split]; exact Multiset.mem_cons_self _ _)
  case first =>
    intro earlier member other later
    rcases List.mem_append.mp member with old | new
    · exact holds.first earlier old other (kept other later)
    · rw [List.mem_singleton.mp new]
      exact queue.top_greatest state.heap item found other (kept other later)

/-- The loop ends within as many turns as there are items, and leaves no accepted item
when acceptance is inherited by whatever is not less. -/
theorem take_while_spec (accepts : Item → Bool) (heap : queue.Heap)
    (inherited : ∀ first second, less first second = false → accepts second = true →
      accepts first = true) :
    ∃ final, takeWhile queue accepts (Multiset.card (queue.contents heap)) heap = some final ∧
      Taken queue accepts heap final ∧ ∀ item ∈ queue.contents final.heap,
      accepts item = false := by
  have starts : Taken queue accepts heap { taken := [], heap := heap } :=
    ⟨by rw [Multiset.coe_nil, Multiset.zero_add], by simp, .nil, by simp⟩
  have shrinks : ∀ state : Taking queue, state.goesOn queue accepts = true →
      Taken queue accepts heap state →
      Multiset.card (queue.contents (state.turn queue).heap) <
        Multiset.card (queue.contents state.heap) := by
    intro state goesOn _
    obtain ⟨item, found, _⟩ := goes_on_top queue accepts state goesOn
    simp only [Taking.turn, found]
    rw [queue.contents_pop state.heap item found, Multiset.card_cons]
    exact Nat.lt_succ_self _
  obtain ⟨final, ended⟩ := while_ends (Taking.goesOn queue accepts) (Taking.turn queue)
    (Taken queue accepts heap) (fun state => Multiset.card (queue.contents state.heap))
    (turn_taken queue accepts heap) shrinks _ { taken := [], heap := heap } starts (Nat.le_refl _)
  obtain ⟨taken, stopped⟩ := while_invariant (Taking.goesOn queue accepts) (Taking.turn queue)
    (Taken queue accepts heap) (turn_taken queue accepts heap) _ _ final starts ended
  refine ⟨final, ended, taken, ?_⟩
  intro item member
  unfold Taking.goesOn at stopped
  split at stopped
  case h_1 top found =>
    -- An accepted item left behind would make the top accepted too.
    cases refused : accepts item with
    | false => rfl
    | true =>
        have accepted :=
          inherited top item (queue.top_greatest final.heap top found item member) refused
        rw [accepted] at stopped
        cases stopped
  case h_2 found =>
    rw [queue.top_none final.heap found] at member
    exact absurd member (Multiset.notMem_zero item)

end Taking

end NetCore.PriorityQueue
