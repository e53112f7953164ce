import NetCore.FuelLoop
import Mathlib.Data.List.Basic

/-! Containers that give up their items one at a time, and the loop that reads such a container
with a sentinel: `pop` answers a default item when nothing is left, and the loop goes on as long as
a test accepts the item it has popped. The loop does not know the default from an item, so it reads
everything exactly when the test accepts every item and refuses the default; it stops behind the
first refused item, and it never stops when the test refuses nothing. -/
namespace NetCore.PopSequence
open FuelLoop

universe u v

structure Source (Item : Type u) where
  State : Type v
  next : State → Option (Item × State)
  size : State → Nat
  shrinks : ∀ state item rest, next state = some (item, rest) → size rest < size state

variable {Item : Type u} (source : Source.{u, v} Item)

def items (state : source.State) : List Item :=
  match found : source.next state with
  | none => []
  | some (item, rest) =>
      have := source.shrinks state item rest found
      item :: items rest
termination_by source.size state

theorem items_none (state : source.State) (nothing : source.next state = none) :
    items source state = [] := by
  rw [items]
  split
  case h_1 => rfl
  case h_2 found =>
    rw [nothing] at found
    cases found

theorem items_some (state rest : source.State) (item : Item)
    (found : source.next state = some (item, rest)) :
    items source state = item :: items source rest := by
  rw [items]
  split
  case h_1 nothing =>
    rw [nothing] at found
    cases found
  case h_2 other =>
    rw [found, Option.some.injEq, Prod.mk.injEq] at other
    rw [other.1, other.2]

theorem items_nil (state : source.State) : items source state = [] ↔ source.next state = none := by
  constructor
  · intro none
    cases found : source.next state with
    | none => rfl
    | some pair =>
        rw [items_some source state pair.2 pair.1 found] at none
        cases none
  · exact items_none source state

theorem items_cons (state : source.State) (item : Item) (others : List Item)
    (listed : items source state = item :: others) :
    ∃ rest, source.next state = some (item, rest) ∧ items source rest = others := by
  cases found : source.next state with
  | none =>
      rw [items_none source state found] at listed
      cases listed
  | some pair =>
      rw [items_some source state pair.2 pair.1 found, List.cons.injEq] at listed
      obtain ⟨same, tail⟩ := listed
      exact ⟨pair.2, by rw [← same], tail⟩

section Reading
variable (test : Item → Bool) (fallback : Item)

def pop (state : source.State) : Item × source.State :=
  match source.next state with
  | none => (fallback, state)
  | some found => found

theorem pop_none (state : source.State) (nothing : source.next state = none) :
    pop source fallback state = (fallback, state) := by
  rw [pop, nothing]

theorem pop_some (state : source.State) (found : Item × source.State)
    (next : source.next state = some found) :
    pop source fallback state = found := by
  rw [pop, next]

/-- The loop between its test and its body: what has been read, the item popped for the test and
the container it was popped from. -/
structure Reading where
  popped : List Item
  element : Item
  rest : source.State

def readFrom (popped : List Item) (state : source.State) : Reading source where
  popped := popped
  element := (pop source fallback state).1
  rest := (pop source fallback state).2

def Reading.turn (reading : Reading source) : Reading source :=
  readFrom source fallback (reading.popped ++ [reading.element]) reading.rest

/-- `while (test(element = pop())) popped.push_back(element)`. -/
def readWhile (fuel : Nat) (popped : List Item) (state : source.State) : Option (Reading source) :=
  whileLoop (fun reading => test reading.element) (Reading.turn source fallback) fuel
    (readFrom source fallback popped state)

theorem read_next (popped : List Item) (state rest : source.State) (item : Item) (fuel : Nat)
    (found : source.next state = some (item, rest)) (accepted : test item = true) :
    readWhile source test fallback (fuel + 1) popped state =
      readWhile source test fallback fuel (popped ++ [item]) rest := by
  have first := pop_some source fallback state _ found
  unfold readWhile
  rw [while_turn _ _ fuel _ (by simp only [readFrom, first, accepted])]
  simp only [Reading.turn, readFrom, first]

theorem read_front (front back popped : List Item) (state : source.State) (fuel : Nat)
    (listed : items source state = front ++ back) (accepted : ∀ item ∈ front, test item = true) :
    ∃ rest, items source rest = back ∧
      readWhile source test fallback (front.length + fuel) popped state =
      readWhile source test fallback fuel (popped ++ front) rest := by
  induction front generalizing popped state with
  | nil => exact ⟨state, listed, by rw [List.length_nil, Nat.zero_add, List.append_nil]⟩
  | cons item others ih =>
      obtain ⟨middle, found, tail⟩ := items_cons source state item (others ++ back) listed
      obtain ⟨rest, left, reads⟩ := ih (popped ++ [item]) middle tail
        (fun other member => accepted other (List.mem_cons_of_mem item member))
      refine ⟨rest, left, ?_⟩
      rw [List.length_cons, Nat.add_right_comm,
        read_next source test fallback popped state middle item _ found
          (accepted item List.mem_cons_self), reads,
        List.append_assoc, List.singleton_append]

theorem read_stops (front back popped : List Item) (refused : Item) (state : source.State)
    (listed : items source state = front ++ refused :: back)
    (accepted : ∀ item ∈ front, test item = true) (stops : test refused = false) :
    ∃ rest, items source rest = back ∧ ∀ fuel,
      readWhile source test fallback (front.length + fuel) popped state =
      some { popped := popped ++ front, element := refused, rest := rest } := by
  obtain ⟨before, left, reads⟩ :=
    read_front source test fallback front (refused :: back) popped state 0 listed accepted
  obtain ⟨rest, found, tail⟩ := items_cons source before refused back left
  have last := pop_some source fallback before _ found
  refine ⟨rest, tail, ?_⟩
  have ended : readWhile source test fallback (front.length + 0) popped state =
      some { popped := popped ++ front, element := refused, rest := rest } := by
    rw [reads, readWhile, while_done _ _ 0 _ (by simp only [readFrom, last, stops])]
    simp only [readFrom, last]
  intro fuel
  exact while_more_fuel _ _ front.length fuel _ _ ended

theorem read_all (popped : List Item) (state : source.State)
    (accepted : ∀ item ∈ items source state, test item = true) (stops : test fallback = false) :
    ∃ rest, source.next rest = none ∧ ∀ fuel,
      readWhile source test fallback ((items source state).length + fuel) popped state =
        some { popped := popped ++ items source state, element := fallback, rest := rest } := by
  obtain ⟨rest, left, reads⟩ := read_front source test fallback (items source state)
    [] popped state 0 (List.append_nil _).symm accepted
  have nothing := (items_nil source rest).mp left
  have last := pop_none source fallback rest nothing
  refine ⟨rest, nothing, ?_⟩
  have ended : readWhile source test fallback ((items source state).length + 0) popped state =
      some { popped := popped ++ items source state, element := fallback, rest := rest } := by
    rw [reads, readWhile, while_done _ _ 0 _ (by simp only [readFrom, last, stops])]
    simp only [readFrom, last]
  intro fuel
  exact while_more_fuel _ _ _ fuel _ _ ended

theorem read_default_forever (popped : List Item) (state : source.State)
    (nothing : source.next state = none) (goesOn : test fallback = true) (fuel : Nat) :
    readWhile source test fallback fuel popped state = none := by
  have first := pop_none source fallback state nothing
  unfold readWhile
  induction fuel generalizing popped with
  | zero => simp [whileLoop, readFrom, first, goesOn]
  | succ fuel ih =>
      rw [while_turn _ _ fuel _ (by simp only [readFrom, first, goesOn])]
      simpa only [Reading.turn, readFrom, first] using ih (popped ++ [fallback])

theorem read_forever (popped : List Item) (state : source.State)
    (accepted : ∀ item ∈ items source state, test item = true) (goesOn : test fallback = true)
    (fuel : Nat) :
    readWhile source test fallback fuel popped state = none := by
  obtain ⟨rest, left, reads⟩ := read_front source test fallback (items source state)
    [] popped state fuel (List.append_nil _).symm accepted
  have nothing := (items_nil source rest).mp left
  rw [read_default_forever source test fallback _ rest nothing goesOn fuel] at reads
  cases ended : readWhile source test fallback fuel popped state with
  | none => rfl
  | some final =>
      have more := while_more_fuel _ _ fuel (items source state).length _ _ ended
      rw [Nat.add_comm] at more
      rw [← reads, ← more]
      rfl

def Drains (popped : List Item) (state : source.State) : Prop :=
  ∃ fuel final, readWhile source test fallback fuel popped state = some final ∧
    final.popped = popped ++ items source state ∧ source.next final.rest = none

theorem first_refused (list : List Item) (found : ¬ ∀ item ∈ list, test item = true) :
    ∃ front refused back, list = front ++ refused :: back ∧ (∀ item ∈ front, test item = true) ∧
      test refused = false := by
  induction list with
  | nil => exact absurd (fun _ member => by cases member) found
  | cons item others ih =>
      cases accepted : test item with
      | false => exact ⟨[], item, others, rfl, (fun _ member => by cases member), accepted⟩
      | true =>
          have later : ¬ ∀ other ∈ others, test other = true := by
            intro all
            exact found (List.forall_mem_cons.mpr ⟨accepted, all⟩)
          obtain ⟨front, refused, back, rfl, passed, stops⟩ := ih later
          exact ⟨item :: front, refused, back, rfl,
            List.forall_mem_cons.mpr ⟨accepted, passed⟩, stops⟩

theorem drains_iff (popped : List Item) (state : source.State) :
    Drains source test fallback popped state ↔
      (∀ item ∈ items source state, test item = true) ∧ test fallback = false := by
  constructor
  · rintro ⟨fuel, final, ended, read, _⟩
    have accepted : ∀ item ∈ items source state, test item = true := by
      by_contra found
      obtain ⟨front, refused, back, listed, passed, stops⟩ := first_refused test _ found
      obtain ⟨rest, _, reads⟩ :=
        read_stops source test fallback front back popped refused state listed passed stops
      have more := while_more_fuel _ _ fuel front.length _ _ ended
      have same := reads fuel
      rw [Nat.add_comm] at same
      have short := congrArg Reading.popped (Option.some.inj (more.symm.trans same))
      rw [read, listed, List.append_right_inj] at short
      have lengths := congrArg List.length short
      simp only [List.length_append, List.length_cons] at lengths
      omega
    refine ⟨accepted, ?_⟩
    cases goesOn : test fallback with
    | false => rfl
    | true =>
        rw [read_forever source test fallback popped state accepted goesOn fuel] at ended
        cases ended
  · rintro ⟨accepted, stops⟩
    obtain ⟨rest, nothing, reads⟩ := read_all source test fallback popped state accepted stops
    exact ⟨_, _, reads 0, rfl, nothing⟩

end Reading

end NetCore.PopSequence
