import NetCore.GuardedObjects
import NetCore.QueueDraining

/-! `LockQueue`, `LockStack` and `LockPriorityQueue` of LockQueue.h, LockStack.h and
LockPriorityQueue.h, every call of the underlying container a step of its own. The three classes
have one code over different containers. Left out are the functions that do not compile when they
are used: `Pop`, `Top` and `Clear(popped)` of `LockStack` write `is_pointer_v(T)`, `TryPop(item)`
and `Peek` of `LockPriorityQueue` call a `front()` that a priority queue does not have. -/
namespace NetCore.LockContainers
open TransitionRuns GuardNesting Linearizations GuardedObjects PopSequence
  PriorityQueue QueueDraining

universe u v

/-- A container adaptor of the standard library: `next` is `front()` or `top()` with `pop()`. -/
structure Container (Item : Type u) extends Source.{u, v} Item where
  push : State → Item → State
  empty : State

inductive Op (Item : Type u) where
  | push (item : Item)
  | pop
  | tryPop
  | tryPopIf (condition : Item → Bool)
  | popAll (condition : Item → Bool)
  | front
  | tryPeek
  | clear
  | clearInto
  | setNew
  | size

/-- What the functions return, with what they put into their out parameters. -/
inductive Result (Item : Type u) where
  | done
  | item (item : Item)
  | tried (item : Option Item)
  | cleared (popped : List Item)
  | popped (items : List Item) (empty : Bool)
  | count (size : Nat)
  deriving DecidableEq

/-- Where a function stands, named after the next thing it does. `Pop` has been called by the
program or by `Clear(popped)`, which has then popped a list of items before. -/
inductive Local (Item : Type u) where
  | push (item : Item)
  | popTest (caller : Option (List Item))
  | popFront (caller : Option (List Item))
  | popRemove (caller : Option (List Item)) (item : Item)
  | popReturn (caller : Option (List Item)) (item : Item)
  | tryPopTest
  | tryPopFront
  | tryPopRemove (item : Item)
  | ifTest (condition : Item → Bool)
  | ifTop (condition : Item → Bool)
  | allTest (condition : Item → Bool) (items : List Item)
  | allTop (condition : Item → Bool) (items : List Item)
  | allRemove (condition : Item → Bool) (items : List Item) (item : Item)
  | allEmpty (items : List Item)
  | frontTest
  | frontFront
  | tryPeekTest
  | tryPeekFront
  | clearTest
  | clearPop
  | collect (popped : List Item)
  | setNew
  | size
  | ended (guard : Guard) (result : Result Item)

section Code
variable {Item : Type u} (container : Container.{u, v} Item) (offers : Op Item → Bool)
  (truth : Item → Bool) (default : Item)

def empty (state : container.State) : Bool := (container.next state).isNone

def guardOf : Op Item → Guard
  | .front => .read
  | .tryPeek => .read
  | .size => .read
  | _ => .write

def firstOf : Op Item → Local Item
  | .push item => .push item
  | .pop => .popTest none
  | .tryPop => .tryPopTest
  | .tryPopIf condition => .ifTest condition
  | .popAll condition => .allTest condition []
  | .front => .frontTest
  | .tryPeek => .tryPeekTest
  | .clear => .clearTest
  | .clearInto => .collect []
  | .setNew => .setNew
  | .size => .size

def test (onEmpty onItem : Local Item) : Instruction container.State (Local Item) (Result Item) :=
  .access fun state => some (if empty container state then onEmpty else onItem, state)

/-- `front()` or `top()`. It is undefined on an empty container. -/
def front (next : Item → Local Item) : Instruction container.State (Local Item) (Result Item) :=
  .access fun state => (container.next state).map fun found => (next found.1, state)

def remove (next : Local Item) : Instruction container.State (Local Item) (Result Item) :=
  .access fun state => (container.next state).map fun found => (next, found.2)

def instructionOf : Local Item → Instruction container.State (Local Item) (Result Item)
  | .push item => .access fun state => some (.ended .write .done, container.push state item)
  | .popTest caller => test container (.popReturn caller default) (.popFront caller)
  | .popFront caller => front container (.popRemove caller)
  | .popRemove caller item => remove container (.popReturn caller item)
  | .popReturn none item => .finish (.item item)
  -- `while (T element = Pop()) popped.push_back(element)`
  | .popReturn (some popped) item =>
      .destroy (if truth item then .collect (popped ++ [item]) else .ended .write (.cleared popped))
  | .tryPopTest => test container (.ended .write (.tried none)) .tryPopFront
  | .tryPopFront => front container .tryPopRemove
  | .tryPopRemove item => remove container (.ended .write (.tried (some item)))
  | .ifTest condition => test container (.ended .write (.tried none)) (.ifTop condition)
  | .ifTop condition => front container fun item =>
      if condition item then .tryPopRemove item else .ended .write (.tried none)
  | .allTest condition items => test container (.allEmpty items) (.allTop condition items)
  | .allTop condition items => front container fun item =>
      if condition item then .allRemove condition items item else .allEmpty items
  | .allRemove condition items item => remove container (.allTest condition (items ++ [item]))
  -- `return _pq.empty()`
  | .allEmpty items =>
      .access fun state => some (.ended .write (.popped items (empty container state)), state)
  | .frontTest => test container (.ended .read (.item default)) .frontFront
  | .frontFront => front container fun item => .ended .read (.item item)
  | .tryPeekTest => test container (.ended .read (.tried none)) .tryPeekFront
  | .tryPeekFront => front container fun item => .ended .read (.tried (some item))
  | .clearTest => test container (.ended .write .done) .clearPop
  | .clearPop => remove container .clearTest
  | .collect popped => .construct .write (.popTest (some popped))
  | .setNew => .access fun _ => some (.ended .write .done, container.empty)
  | .size => .access fun state => some (.ended .read (.count (container.size state)), state)
  | .ended _ result => .finish result

def code : Code container.State (Op Item) (Local Item) (Result Item) where
  initial := container.empty
  offers := offers
  guard := guardOf
  first := firstOf
  instruction := instructionOf container truth default

end Code

/-! The loops of `Clear()`, `Clear(popped)` and `PopAll`, when nothing runs meanwhile. -/
section Loops
variable {Item : Type u} (source : Source.{u, v} Item)

def drained (state : source.State) : source.State :=
  match found : source.next state with
  | none => state
  | some (item, rest) =>
      have := source.shrinks state item rest found
      drained rest
termination_by source.size state

/-- The item that ends the loop is popped and lost. -/
def readOut (truth : Item → Bool) (popped : List Item) (state : source.State) :
    List Item × source.State :=
  match found : source.next state with
  | none => (popped, state)
  | some (item, rest) =>
      have := source.shrinks state item rest found
      if truth item then readOut truth (popped ++ [item]) rest else (popped, rest)
termination_by source.size state

/-- The item that ends the loop stays. -/
def takeOut (accepts : Item → Bool) (items : List Item) (state : source.State) :
    List Item × source.State :=
  match found : source.next state with
  | none => (items, state)
  | some (item, rest) =>
      have := source.shrinks state item rest found
      if accepts item then takeOut accepts (items ++ [item]) rest else (items, state)
termination_by source.size state

variable (state : source.State)

theorem drained_none (nothing : source.next state = none) : drained source state = state := by
  rw [drained]
  split
  case h_1 => rfl
  case h_2 found => simp [nothing] at found

theorem drained_some (item : Item) (rest : source.State)
    (found : source.next state = some (item, rest)) :
    drained source state = drained source rest := by
  rw [drained]
  split
  case h_1 nothing => simp [found] at nothing
  case h_2 other =>
    rw [found, Option.some.injEq, Prod.mk.injEq] at other
    rw [other.2]

theorem read_out_none (truth : Item → Bool) (popped : List Item)
    (nothing : source.next state = none) :
    readOut source truth popped state = (popped, state) := by
  rw [readOut]
  split
  case h_1 => rfl
  case h_2 found => simp [nothing] at found

theorem read_out_some (truth : Item → Bool) (popped : List Item) (item : Item) (rest : source.State)
    (found : source.next state = some (item, rest)) :
    readOut source truth popped state =
      if truth item then readOut source truth (popped ++ [item]) rest else (popped, rest) := by
  rw [readOut]
  split
  case h_1 nothing => simp [found] at nothing
  case h_2 other =>
    rw [found, Option.some.injEq, Prod.mk.injEq] at other
    rw [other.1, other.2]

theorem take_out_none (accepts : Item → Bool) (items : List Item)
    (nothing : source.next state = none) :
    takeOut source accepts items state = (items, state) := by
  rw [takeOut]
  split
  case h_1 => rfl
  case h_2 found => simp [nothing] at found

theorem take_out_some (accepts : Item → Bool) (items : List Item) (item : Item)
    (rest : source.State) (found : source.next state = some (item, rest)) :
    takeOut source accepts items state =
      if accepts item then takeOut source accepts (items ++ [item]) rest else (items, state) := by
  rw [takeOut]
  split
  case h_1 nothing => simp [found] at nothing
  case h_2 other =>
    rw [found, Option.some.injEq, Prod.mk.injEq] at other
    rw [other.1, other.2]

end Loops

section Meaning
variable {Item : Type u} (container : Container.{u, v} Item) (offers : Op Item → Bool)
  (truth : Item → Bool) (default : Item)

def popped (state : container.State) : Item × container.State :=
  PopSequence.pop container.toSource default state

def apply : Op Item → container.State → Result Item × container.State
  | .push item, state => (.done, container.push state item)
  | .pop, state => (.item (popped container default state).1, (popped container default state).2)
  | .tryPop, state =>
      match container.next state with
      | none => (.tried none, state)
      | some (item, rest) => (.tried (some item), rest)
  | .tryPopIf condition, state =>
      match container.next state with
      | none => (.tried none, state)
      | some (item, rest) =>
          if condition item then (.tried (some item), rest) else (.tried none, state)
  | .popAll condition, state =>
      let taken := takeOut container.toSource condition [] state
      (.popped taken.1 (empty container taken.2), taken.2)
  | .front, state => (.item (popped container default state).1, state)
  | .tryPeek, state => (.tried ((container.next state).map Prod.fst), state)
  | .clear, state => (.done, drained container.toSource state)
  | .clearInto, state =>
      let read := readOut container.toSource truth [] state
      (.cleared read.1, read.2)
  | .setNew, _ => (.done, container.empty)
  | .size, state => (.count (container.size state), state)

/-- `Pop` returns to the program, or to the loop of `Clear(popped)`. -/
def returned (caller : Option (List Item)) (item : Item) (state : container.State) :
    Result Item × container.State :=
  match caller with
  | none => (.item item, state)
  | some popped =>
      if truth item then
        let read := readOut container.toSource truth (popped ++ [item]) state
        (.cleared read.1, read.2)
      else (.cleared popped, state)

def takenAll (condition : Item → Bool) (items : List Item) (state : container.State) :
    Result Item × container.State :=
  let taken := takeOut container.toSource condition items state
  (.popped taken.1 (empty container taken.2), taken.2)

def outcome : Local Item → container.State → Result Item × container.State
  | .push item, state => (.done, container.push state item)
  | .popTest caller, state =>
      returned container truth caller (popped container default state).1
        (popped container default state).2
  | .popFront caller, state =>
      returned container truth caller (popped container default state).1
        (popped container default state).2
  | .popRemove caller item, state =>
      returned container truth caller item (popped container default state).2
  | .popReturn caller item, state => returned container truth caller item state
  | .tryPopTest, state => apply container truth default .tryPop state
  | .tryPopFront, state => apply container truth default .tryPop state
  | .tryPopRemove item, state => (.tried (some item), (popped container default state).2)
  | .ifTest condition, state => apply container truth default (.tryPopIf condition) state
  | .ifTop condition, state => apply container truth default (.tryPopIf condition) state
  | .allTest condition items, state => takenAll container condition items state
  | .allTop condition items, state => takenAll container condition items state
  | .allRemove condition items item, state =>
      takenAll container condition (items ++ [item]) (popped container default state).2
  | .allEmpty items, state => (.popped items (empty container state), state)
  | .frontTest, state => apply container truth default .front state
  | .frontFront, state => apply container truth default .front state
  | .tryPeekTest, state => apply container truth default .tryPeek state
  | .tryPeekFront, state => apply container truth default .tryPeek state
  | .clearTest, state => apply container truth default .clear state
  | .clearPop, state => apply container truth default .clear state
  | .collect popped, state =>
      let read := readOut container.toSource truth popped state
      (.cleared read.1, read.2)
  | .setNew, _ => (.done, container.empty)
  | .size, state => (.count (container.size state), state)
  | .ended _ result, state => (result, state)

/-- What a function has learnt since it took the lock: it calls `front()` after `empty()` only, and
`pop()` on the container whose first item it has read. -/
def ready : Local Item → container.State → Prop
  | .popFront _, state => ∃ found, container.next state = some found
  | .popRemove _ item, state => ∃ rest, container.next state = some (item, rest)
  | .tryPopFront, state => ∃ found, container.next state = some found
  | .tryPopRemove item, state => ∃ rest, container.next state = some (item, rest)
  | .ifTop _, state => ∃ found, container.next state = some found
  | .allTop _ _, state => ∃ found, container.next state = some found
  | .allRemove _ _ item, state => ∃ rest, container.next state = some (item, rest)
  | .frontFront, state => ∃ found, container.next state = some found
  | .tryPeekFront, state => ∃ found, container.next state = some found
  | .clearPop, state => ∃ found, container.next state = some found
  | _, _ => True

def guards : Local Item → List Guard
  | .popTest (some _) => [.write, .write]
  | .popFront (some _) => [.write, .write]
  | .popRemove (some _) _ => [.write, .write]
  | .popReturn (some _) _ => [.write, .write]
  | .frontTest => [.read]
  | .frontFront => [.read]
  | .tryPeekTest => [.read]
  | .tryPeekFront => [.read]
  | .size => [.read]
  | .ended guard _ => [guard]
  | _ => [.write]

theorem popped_none (state : container.State) (nothing : container.next state = none) :
    popped container default state = (default, state) :=
  pop_none container.toSource default state nothing

theorem popped_some (state : container.State) (found : Item × container.State)
    (next : container.next state = some found) : popped container default state = found :=
  pop_some container.toSource default state found next

theorem empty_none (state : container.State) (nothing : container.next state = none) :
    empty container state = true := by rw [empty, nothing]; rfl

theorem empty_some (state : container.State) (found : Item × container.State)
    (next : container.next state = some found) : empty container state = false := by
  rw [empty, next]; rfl

structure Agrees (here next : Local Item) (state after : container.State) : Prop where
  sameOutcome : outcome container truth default next after =
    outcome container truth default here state
  knows : ready container next after
  sameGuards : guards next = guards here
  unwritten : .write ∉ guards here → after = state

def Coherent (here : Local Item) (run : container.State → Option (Local Item × container.State)) :
    Prop :=
  ∀ state, ready container here state →
    ∃ next after, run state = some (next, after) ∧
      Agrees container truth default here next state after

theorem test_coherent (here onEmpty onItem : Local Item)
    (run : container.State → Option (Local Item × container.State))
    (accesses : test container onEmpty onItem = .access run)
    (nothing : ∀ state, container.next state = none →
      Agrees container truth default here onEmpty state state)
    (something : ∀ state found, container.next state = some found →
      Agrees container truth default here onItem state state) :
    Coherent container truth default here run := by
  cases accesses
  intro state _
  cases next : container.next state with
  | none =>
      exact ⟨onEmpty, state, by simp [empty_none container state next], nothing state next⟩
  | some found =>
      exact ⟨onItem, state,
        by simp [empty_some container state found next], something state found next⟩

theorem front_coherent (here : Local Item) (goesOn : Item → Local Item)
    (run : container.State → Option (Local Item × container.State))
    (accesses : front container goesOn = .access run)
    (known : ∀ state, ready container here state → ∃ found, container.next state = some found)
    (agrees : ∀ state item rest, container.next state = some (item, rest) →
      Agrees container truth default here (goesOn item) state state) :
    Coherent container truth default here run := by
  cases accesses
  intro state knows
  obtain ⟨⟨item, rest⟩, next⟩ := known state knows
  exact ⟨goesOn item, state, by simp [next], agrees state item rest next⟩

theorem remove_coherent (here goesOn : Local Item) (item : Item)
    (run : container.State → Option (Local Item × container.State))
    (accesses : remove container goesOn = .access run)
    (known : ∀ state, ready container here state → ∃ rest, container.next state = some (item, rest))
    (agrees : ∀ state rest, container.next state = some (item, rest) →
      Agrees container truth default here goesOn state rest) :
    Coherent container truth default here run := by
  cases accesses
  intro state knows
  obtain ⟨rest, next⟩ := known state knows
  exact ⟨goesOn, rest, by simp [next], agrees state rest next⟩

section Instructions
variable (run : container.State → Option (Local Item × container.State))

theorem pop_test_coherent (caller : Option (List Item))
    (accesses : instructionOf container truth default (.popTest caller) = .access run) :
    Coherent container truth default (.popTest caller) run := by
  refine test_coherent container truth default _ _ _ _ accesses (fun state nothing => ?_)
    (fun state found next => ?_)
  · refine ⟨?_, trivial, by cases caller <;> rfl, fun _ => rfl⟩
    simp only [outcome, popped_none container default state nothing]
  · exact ⟨rfl, ⟨found, next⟩, by cases caller <;> rfl, fun _ => rfl⟩

theorem if_top_coherent (condition : Item → Bool)
    (accesses : instructionOf container truth default (.ifTop condition) = .access run) :
    Coherent container truth default (.ifTop condition) run := by
  simp only [instructionOf] at accesses
  refine front_coherent container truth default _ _ _ accesses (fun _ knows => knows)
    fun state item rest next => ?_
  cases accepted : condition item with
  | true =>
      rw [if_pos rfl]
      refine ⟨?_, ⟨rest, next⟩, rfl, fun _ => rfl⟩
      simp only [outcome, apply, next, popped_some container default state _ next,
        accepted, if_true]
  | false =>
      rw [if_neg Bool.false_ne_true]
      exact ⟨by simp [outcome, apply, next, accepted], trivial, rfl, fun _ => rfl⟩

theorem all_test_coherent (condition : Item → Bool) (items : List Item)
    (accesses : instructionOf container truth default (.allTest condition items) = .access run) :
    Coherent container truth default (.allTest condition items) run := by
  refine test_coherent container truth default _ _ _ _ accesses (fun state nothing => ?_)
    (fun state found next => ?_)
  · refine ⟨?_, trivial, rfl, fun _ => rfl⟩
    simp only [outcome, takenAll, take_out_none container.toSource state condition items nothing]
  · exact ⟨rfl, ⟨found, next⟩, rfl, fun _ => rfl⟩

theorem all_top_coherent (condition : Item → Bool) (items : List Item)
    (accesses : instructionOf container truth default (.allTop condition items) = .access run) :
    Coherent container truth default (.allTop condition items) run := by
  simp only [instructionOf] at accesses
  refine front_coherent container truth default _ _ _ accesses (fun _ knows => knows)
    fun state item rest next => ?_
  have takes := take_out_some container.toSource state condition items item rest next
  cases accepted : condition item with
  | true =>
      rw [if_pos rfl]
      refine ⟨?_, ⟨rest, next⟩, rfl, fun _ => rfl⟩
      simp only [outcome, takenAll, takes, popped_some container default state _ next,
        accepted, if_true]
  | false =>
      rw [if_neg Bool.false_ne_true]
      refine ⟨?_, trivial, rfl, fun _ => rfl⟩
      simp [outcome, takenAll, takes, accepted]

theorem front_test_coherent
    (accesses : instructionOf container truth default .frontTest = .access run) :
    Coherent container truth default .frontTest run := by
  refine test_coherent container truth default _ _ _ _ accesses (fun state nothing => ?_)
    (fun state found next => ?_)
  · refine ⟨?_, trivial, rfl, fun _ => rfl⟩
    simp only [outcome, apply, popped_none container default state nothing]
  · exact ⟨rfl, ⟨found, next⟩, rfl, fun _ => rfl⟩

theorem front_front_coherent
    (accesses : instructionOf container truth default .frontFront = .access run) :
    Coherent container truth default .frontFront run := by
  simp only [instructionOf] at accesses
  refine front_coherent container truth default _ _ _ accesses (fun _ knows => knows)
    fun state item rest next => ?_
  refine ⟨?_, trivial, rfl, fun _ => rfl⟩
  simp only [outcome, apply, popped_some container default state _ next]

theorem clear_test_coherent
    (accesses : instructionOf container truth default .clearTest = .access run) :
    Coherent container truth default .clearTest run := by
  refine test_coherent container truth default _ _ _ _ accesses (fun state nothing => ?_)
    (fun state found next => ?_)
  · refine ⟨?_, trivial, rfl, fun _ => rfl⟩
    simp only [outcome, apply, drained_none container.toSource state nothing]
  · exact ⟨rfl, ⟨found, next⟩, rfl, fun _ => rfl⟩

theorem clear_pop_coherent
    (accesses : instructionOf container truth default .clearPop = .access run) :
    Coherent container truth default .clearPop run := by
  cases accesses
  intro state knows
  obtain ⟨⟨item, rest⟩, next⟩ := knows
  refine ⟨.clearTest, rest, by simp [next], ?_, trivial, rfl, by simp [guards]⟩
  simp only [outcome, apply, drained_some container.toSource state item rest next]

end Instructions

theorem instruction_coherent (here : Local Item)
    (run : container.State → Option (Local Item × container.State))
    (accesses : instructionOf container truth default here = .access run) :
    Coherent container truth default here run := by
  cases here with
  | push item =>
      cases accesses
      exact fun state _ => ⟨_, _, rfl, rfl, trivial, rfl, by simp [guards]⟩
  | popTest caller => exact pop_test_coherent container truth default run caller accesses
  | popFront caller =>
      refine front_coherent container truth default _ _ _ accesses (fun _ knows => knows)
        fun state item rest next => ?_
      refine ⟨?_, ⟨rest, next⟩, by cases caller <;> rfl, fun _ => rfl⟩
      simp only [outcome, popped_some container default state _ next]
  | popRemove caller item =>
      refine remove_coherent container truth default _ _ item _ accesses (fun _ knows => knows)
        fun state rest next => ?_
      refine ⟨?_, trivial, by cases caller <;> rfl, by cases caller <;> simp [guards]⟩
      simp only [outcome, popped_some container default state _ next]
  | popReturn caller item => cases caller <;> cases accesses
  | tryPopTest =>
      refine test_coherent container truth default _ _ _ _ accesses (fun state nothing => ?_)
        (fun state found next => ?_)
      · exact ⟨by simp only [outcome, apply, nothing], trivial, rfl, fun _ => rfl⟩
      · exact ⟨rfl, ⟨found, next⟩, rfl, fun _ => rfl⟩
  | tryPopFront =>
      refine front_coherent container truth default _ _ _ accesses (fun _ knows => knows)
        fun state item rest next => ?_
      exact ⟨by simp only [outcome, apply, next,
        popped_some container default state _ next], ⟨rest, next⟩, rfl,
        fun _ => rfl⟩
  | tryPopRemove item =>
      refine remove_coherent container truth default _ _ item _ accesses (fun _ knows => knows)
        fun state rest next => ?_
      exact ⟨by simp only [outcome, popped_some container default state _ next], trivial, rfl, by
        simp [guards]⟩
  | ifTest condition =>
      refine test_coherent container truth default _ _ _ _ accesses (fun state nothing => ?_)
        (fun state found next => ?_)
      · exact ⟨by simp only [outcome, apply, nothing], trivial, rfl, fun _ => rfl⟩
      · exact ⟨rfl, ⟨found, next⟩, rfl, fun _ => rfl⟩
  | ifTop condition => exact if_top_coherent container truth default run condition accesses
  | allTest condition items =>
      exact all_test_coherent container truth default run condition items accesses
  | allTop condition items =>
      exact all_top_coherent container truth default run condition items accesses
  | allRemove condition items item =>
      refine remove_coherent container truth default _ _ item _ accesses (fun _ knows => knows)
        fun state rest next => ?_
      exact ⟨by simp only [outcome, popped_some container default state _ next], trivial, rfl, by
        simp [guards]⟩
  | allEmpty items =>
      cases accesses
      exact fun state _ => ⟨_, _, rfl, rfl, trivial, rfl, fun _ => rfl⟩
  | frontTest => exact front_test_coherent container truth default run accesses
  | frontFront => exact front_front_coherent container truth default run accesses
  | tryPeekTest =>
      refine test_coherent container truth default _ _ _ _ accesses (fun state nothing => ?_)
        (fun state found next => ?_)
      · exact ⟨by simp only [outcome, apply, nothing, Option.map_none], trivial, rfl, fun _ => rfl⟩
      · exact ⟨rfl, ⟨found, next⟩, rfl, fun _ => rfl⟩
  | tryPeekFront =>
      simp only [instructionOf] at accesses
      refine front_coherent container truth default _ _ _ accesses (fun _ knows => knows)
        fun state item rest next => ?_
      exact ⟨by simp only [outcome, apply, next, Option.map_some], trivial, rfl, fun _ => rfl⟩
  | clearTest => exact clear_test_coherent container truth default run accesses
  | clearPop => exact clear_pop_coherent container truth default run accesses
  | collect popped => cases accesses
  | setNew =>
      cases accesses
      exact fun state _ => ⟨_, _, rfl, rfl, trivial, rfl, by simp [guards]⟩
  | size =>
      cases accesses
      exact fun state _ => ⟨_, _, rfl, rfl, trivial, rfl, fun _ => rfl⟩
  | ended guard result => cases accesses

theorem guards_few (state : Local Item) :
    guards state ≠ [] ∧ (guards state).count .write < 65536 ∧ (guards state).count .read ≤ 1 := by
  cases state with
  | popTest caller => cases caller <;> simp [guards]
  | popFront caller => cases caller <;> simp [guards]
  | popRemove caller item => cases caller <;> simp [guards]
  | popReturn caller item => cases caller <;> simp [guards]
  | ended guard result => cases guard <;> simp [guards]
  | _ => simp [guards]

/-- `T()` has to end the loop of `Clear(popped)`, as null does. -/
theorem code_implements (stops : truth default = false) :
    Implements (code container offers truth default) (apply container truth default)
      (outcome container truth default) (ready container) guards where
  first op state := by cases op <;> exact ⟨rfl, trivial⟩
  firstGuards op := by cases op <;> rfl
  access state run accesses data knows := by
    obtain ⟨next, after, found, agrees⟩ :=
      instruction_coherent container truth default state run accesses data knows
    exact ⟨next, after, found, agrees.sameOutcome, agrees.knows,
      agrees.sameGuards, agrees.unwritten⟩
  construct state guard next constructs := by
    cases state with
    | collect popped =>
        cases constructs
        refine ⟨?_, rfl, rfl, by simp [guards]⟩
        funext data
        cases found : container.next data with
        | none =>
            simp only [outcome, popped_none container default data found, returned, stops,
              read_out_none container.toSource data truth popped found,
              Bool.false_eq_true, if_false]
        | some pair =>
            obtain ⟨item, rest⟩ := pair
            simp only [outcome, popped_some container default data _ found, returned,
              read_out_some container.toSource data truth popped item rest found]
            split <;> rfl
    | popReturn caller item => cases caller <;> cases constructs
    | _ => cases constructs
  destroy state next destroys := by
    cases state with
    | popReturn caller item =>
        cases caller with
        | none => cases destroys
        | some popped =>
            cases destroys
            cases accepted : truth item with
            | true =>
                refine ⟨?_, by funext data; simp [ready], .write, by simp [guards]⟩
                funext data
                simp [outcome, returned, accepted]
            | false =>
                refine ⟨?_, by funext data; simp [ready], .write, by simp [guards]⟩
                funext data
                simp [outcome, returned, accepted]
    | _ => cases destroys
  finish state result ends := by
    cases state with
    | popReturn caller item =>
        cases caller with
        | none =>
            cases ends
            exact ⟨fun _ => rfl, .write, rfl⟩
        | some popped => cases ends
    | ended guard answer =>
        cases ends
        exact ⟨fun _ => rfl, guard, rfl⟩
    | _ => cases ends
  inside state := (guards_few state).1
  few state := (guards_few state).2

end Meaning

end NetCore.LockContainers
