import NetCore.ContainerHistories

/-! The order in which a `LockStack` serves its callers. In the sequence that linearizes a history,
`TryPop` and `TryPeek` find the item of the last `Push` that nothing since has undone: what has
happened in between is nested like brackets, each push in it with the pop that took its item. -/
namespace NetCore.StackHistories
open TransitionRuns Linearizations GuardedObjects LockContainers QueueDraining ContainerHistories

universe u

section Order
variable {Item : Type u}

def untested : Item → Bool := fun _ => false

def stackObject (default : Item) : Object (List Item) (Op Item) (Result Item) where
  initial := []
  apply := apply (stack Item) untested default

abbrev Log (Item : Type u) := List (Entry (Op Item) (Result Item))

/-- Each item pushed has been popped again, and no other item. -/
inductive Nested : Log Item → Prop where
  | nothing : Nested []
  | peeked (log : Log Item) (entry : Entry (Op Item) (Result Item)) :
      Nested log → entry.op = .tryPeek → Nested (log ++ [entry])
  | popped (log inner : Log Item) (push pop : Entry (Op Item) (Result Item)) (item : Item) :
      Nested log → push.op = .push item → Nested inner → pop.op = .tryPop →
      pop.result = .tried (some item) → Nested (log ++ push :: inner ++ [pop])

/-- The items of the stack, the top first, each with its push; what came after the push is nested.
Nothing is said of how an empty stack has become one. -/
inductive Stacked : Log Item → List Item → Prop where
  | empty (log : Log Item) : Stacked log []
  | item (log since : Log Item) (push : Entry (Op Item) (Result Item)) (top : Item)
      (below : List Item) :
      Stacked log below → push.op = .push top → Nested since →
      Stacked (log ++ push :: since) (top :: below)

variable (default : Item)

theorem clear_empties (items : List Item) :
    (apply (stack Item) untested default .clear items).2 = [] := by
  induction items with
  | nil => exact drained_none (lockQueue Item) [] rfl
  | cons top below ih => exact (drained_some (lockQueue Item) (top :: below) top below rfl).trans ih

theorem stacked_popped (log : Log Item) (entry : Entry (Op Item) (Result Item)) (top : Item)
    (below : List Item) (stacked : Stacked log (top :: below)) (pops : entry.op = .tryPop)
    (answers : entry.result = .tried (some top)) : Stacked (log ++ [entry]) below := by
  cases stacked with
  | item before since push _ _ earlier pushes nested =>
      cases earlier with
      | empty => exact .empty _
      | item bottom meanwhile other under rest last pushed inner =>
          -- The push and the pop close a bracket behind the push of the item below.
          have longer :=
            Nested.popped meanwhile since push entry top inner pushes nested pops answers
          have stands := Stacked.item bottom _ other under rest last pushed longer
          simpa using stands

theorem stacked_step (log : Log Item) (items : List Item) (entry : Entry (Op Item) (Result Item))
    (stacked : Stacked log items) (offered : lockStackOffers entry.op = true)
    (answers : entry.result = ((stackObject default).apply entry.op items).1) :
    Stacked (log ++ [entry]) ((stackObject default).apply entry.op items).2 := by
  cases op : entry.op with
  | push item => exact .item log [] entry item items stacked op .nothing
  | tryPop =>
      cases items with
      | nil => exact .empty _
      | cons top below =>
          rw [op] at answers
          exact stacked_popped log entry top below stacked op answers
  | tryPeek =>
      cases stacked with
      | empty => exact .empty _
      | item before since push top below earlier pushes nested =>
          show Stacked (before ++ push :: since ++ [entry]) (top :: below)
          have stands :=
            Stacked.item before _ push top below earlier pushes (.peeked since entry nested op)
          simpa using stands
  | clear =>
      have emptied : ((stackObject default).apply .clear items).2 = [] :=
        clear_empties default items
      rw [emptied]
      exact .empty _
  | setNew => exact .empty _
  | _ => simp [op, lockStackOffers] at offered

theorem legal_stacked (log : Log Item) (legal : LegalFrom (stackObject default) [] log)
    (offered : ∀ entry ∈ log, lockStackOffers entry.op = true) :
    Stacked log (runFrom (stackObject default) [] log) := by
  induction log using List.reverseRecOn with
  | nil => exact .empty _
  | append_singleton log entry ih =>
      obtain ⟨before, answers, _⟩ := (legal_append _ _ _ _).mp legal
      rw [run_append]
      refine stacked_step default log _ entry (ih before ?_) (offered entry (by simp)) answers
      exact fun other member => offered other (List.mem_append_left _ member)

/-- What `Clear()` and `SetNew` throw away. -/
def discardedBy : Op Item → List Item → List Item
  | .clear, items => items
  | .setNew, items => items
  | _, _ => []

def discarded : List Item → Log Item → Multiset Item
  | _, [] => 0
  | items, entry :: rest =>
      discardedBy entry.op items + discarded ((stackObject default).apply entry.op items).2 rest

theorem operation_accounts (op : Op Item) (items : List Item)
    (offered : lockStackOffers op = true) :
    (deliveredBy untested op ((stackObject default).apply op items).1 : Multiset Item) +
        ((stackObject default).apply op items).2 + discardedBy op items = items + pushedBy op := by
  cases op with
  | push item =>
      show (0 : Multiset Item) + ((item :: items : List Item) : Multiset Item) + 0 =
        items + ([item] : List Item)
      rw [zero_add, add_zero, add_comm]
      rfl
  | tryPop =>
      cases items with
      | nil => rfl
      | cons top below => rfl
  | tryPeek =>
      show (0 : Multiset Item) + (items : Multiset Item) + 0 = items + 0
      rw [zero_add]
  | clear =>
      have emptied : ((stackObject default).apply .clear items).2 = [] :=
        clear_empties default items
      rw [emptied]
      exact add_comm _ _
  | setNew => exact add_comm _ _
  | _ => simp [lockStackOffers] at offered

/-- Whatever was pushed has been handed out, has been thrown away or is there. -/
theorem log_accounts (log : Log Item) (items : List Item)
    (legal : LegalFrom (stackObject default) items log)
    (offered : ∀ entry ∈ log, lockStackOffers entry.op = true) :
    (deliveries untested log : Multiset Item) + runFrom (stackObject default) items log +
      discarded default items log = items + pushes log := by
  induction log generalizing items with
  | nil => simp [deliveries, pushes, runFrom, discarded]
  | cons entry rest ih =>
      obtain ⟨answers, later⟩ := legal
      have here := operation_accounts default entry.op items (offered entry List.mem_cons_self)
      have tail := ih _ later fun other member => offered other (List.mem_cons_of_mem _ member)
      rw [← answers] at here
      have delivered : (deliveries untested (entry :: rest) : Multiset Item) =
          deliveredBy untested entry.op entry.result + deliveries untested rest := by
        rw [Multiset.coe_add]
        rfl
      have pushed : (pushes (entry :: rest) : Multiset Item) = pushedBy entry.op + pushes rest := by
        rw [Multiset.coe_add]
        rfl
      rw [delivered, pushed, ← add_assoc, ← here, discarded, runFrom]
      generalize ((stackObject default).apply entry.op items).2 = after at tail ⊢
      calc _ = deliveredBy untested entry.op entry.result + discardedBy entry.op items +
              ((deliveries untested rest : Multiset Item) +
                runFrom (stackObject default) after rest +
                discarded default after rest) := by abel
        _ = _ := by
            rw [tail]
            abel

theorem spared_discarded (log : Log Item) (items : List Item)
    (spares : ∀ entry ∈ log, entry.op ≠ .clear ∧ entry.op ≠ .setNew) :
    discarded default items log = 0 := by
  induction log generalizing items with
  | nil => rfl
  | cons entry rest ih =>
      rw [discarded,
        ih _ fun other member => spares other (List.mem_cons_of_mem _ member), add_zero]
      obtain ⟨clears, resets⟩ := spares entry List.mem_cons_self
      cases op : entry.op with
      | clear => exact absurd op clears
      | setNew => exact absurd op resets
      | _ => rfl

structure LastFirst (log : Log Item) : Prop where
  newest : ∀ before entry after item, log = before ++ entry :: after →
    entry.result = .tried (some item) → ∃ earlier push since, before = earlier ++ push :: since ∧
    push.op = .push item ∧ Nested since
  none : ∀ before entry after, log = before ++ entry :: after → entry.result = .tried none →
    (deliveries untested before : Multiset Item) + discarded default [] before = pushes before
  accounted : ∀ front back, log = front ++ back →
    (deliveries untested front : Multiset Item) + runFrom (stackObject default) [] front +
      discarded default [] front = pushes front

theorem tried_top (op : Op Item) (items : List Item) (found : Option Item)
    (answers : ((stackObject default).apply op items).1 = .tried found)
    (offered : lockStackOffers op = true) :
    items.head? = found := by
  cases op with
  | tryPop =>
      cases items with
      | nil => exact Result.tried.inj answers
      | cons top below => exact Result.tried.inj answers
  | tryPeek =>
      cases items with
      | nil => exact Result.tried.inj answers
      | cons top below => exact Result.tried.inj answers
  | push item => cases answers
  | clear => cases answers
  | setNew => cases answers
  | _ => simp [lockStackOffers] at offered

theorem legal_last_first (log : Log Item) (legal : LegalFrom (stackObject default) [] log)
    (offered : ∀ entry ∈ log, lockStackOffers entry.op = true) : LastFirst default log := by
  have accounts : ∀ front back, log = front ++ back →
      (deliveries untested front : Multiset Item) + runFrom (stackObject default) [] front +
        discarded default [] front = pushes front := by
    rintro front back rfl
    have whole := log_accounts default front [] ((legal_append _ _ _ _).mp legal).1
      fun entry member => offered entry (List.mem_append_left _ member)
    rwa [Multiset.coe_nil, zero_add] at whole
  have shown : ∀ before entry after found, log = before ++ entry :: after →
      entry.result = .tried found →
      (runFrom (stackObject default) [] before).head? = found := by
    rintro before entry after found rfl tried
    obtain ⟨_, answers, _⟩ := (legal_append _ _ _ _).mp legal
    exact tried_top default entry.op _ found (answers.symm.trans tried) (offered entry (by simp))
  constructor
  case newest =>
    intro before entry after item split tried
    have top := shown before entry after (some item) split tried
    subst split
    have stacked := legal_stacked default before ((legal_append _ _ _ _).mp legal).1
      fun other member => offered other (List.mem_append_left _ member)
    generalize runFrom (stackObject default) [] before = items at stacked top
    cases stacked with
    | empty => cases top
    | item earlier since push _ below _ pushes nested =>
        cases top
        exact ⟨earlier, push, since, rfl, pushes, nested⟩
  case none =>
    intro before entry after split tried
    have nothing := List.head?_eq_none_iff.mp (shown before entry after none split tried)
    have whole := accounts before (entry :: after) split
    rwa [nothing, Multiset.coe_nil, add_zero] at whole
  case accounted => exact accounts

end Order

section Histories
variable {Thread : Type} [DecidableEq Thread] [Fintype Thread] {Item : Type u} (default : Item)
  (tlsId : Thread → BitVec 32) (distinct : Function.Injective tlsId)
  (ranged : ∀ thread, 1 ≤ (tlsId thread).toNat ∧ (tlsId thread).toNat ≤ 65535)
include distinct ranged

/-- However its callers overlap, a `LockStack` serves them last in, first out. -/
theorem lock_stack_order
    (system : System Thread (stack Item).State (Op Item) (Local Item) (Result Item))
    (reached : Reachable (step (code (stack Item) lockStackOffers untested default) tlsId)
      (fun _ _ _ => True) (System.start (code (stack Item) lockStackOffers untested default))
      system) :
    ∃ log, Linearization (stackObject default) system.history log ∧ LastFirst default log ∧
      ((∀ entry ∈ log, entry.op ≠ .clear ∧ entry.op ≠ .setNew) → discarded default [] log = 0) ∧
      (system.locking.shared.crash = none → (∀ thread, system.task thread = none) →
        system.data = runFrom (stackObject default) [] log) := by
  obtain ⟨log, linear, idle⟩ := reachable_linearizable _ _ _ _ _ tlsId distinct ranged
    (code_implements (stack Item) lockStackOffers untested default rfl) system reached
  refine ⟨log, linear, ?_, spared_discarded default log [], idle⟩
  refine legal_last_first default log linear.legal fun entry member => ?_
  exact called_offered _ tlsId system reached entry.id entry.op (linear.called entry member)

end Histories

def pointerStack :
    Code (stack (Option Nat)).State (Op (Option Nat)) (Local (Option Nat)) (Result (Option Nat)) :=
  code (stack (Option Nat)) lockStackOffers untested none

/-- Two threads push at the same time. Then one pops twice, and the other calls `TryPeek` while the
first pop is still inside. -/
def lookBetween : List (GuardedObjects.Label Bool (Op (Option Nat))) :=
  List.flatten
    [.call true (.push (some 5)) :: List.replicate 4 (.advance true 0),
     .call false (.push (some 3)) :: List.replicate 3 (.advance false 0),
     List.replicate 6 (.advance true 0), List.replicate 8 (.advance false 0),
     .call true .tryPop :: List.replicate 7 (.advance true 0),
     .call false .tryPeek :: List.replicate 3 (.advance false 0),
     List.replicate 5 (.advance true 0), List.replicate 6 (.advance false 0),
     .call true .tryPop :: List.replicate 12 (.advance true 0)]

theorem lock_stack_order_look_between :
    ∃ system : System Bool (stack (Option Nat)).State (Op (Option Nat)) (Local (Option Nat))
        (Result (Option Nat)),
      answersOf system.history =
        [(0, .done), (1, .done), (2, .tried (some (some 3))), (3, .tried (some (some 5))),
          (4, .tried (some (some 5)))] ∧
      ∃ log, Linearization (stackObject none) system.history log ∧ LastFirst none log := by
  obtain ⟨system, reached, seen⟩ := replay_reachable (GuardedObjects.step pointerStack twoIds)
    (fun _ _ _ => True) (fun _ _ _ => true) (fun _ _ _ _ => trivial)
    (fun system => answersOf system.history)
    [(0, .done), (1, .done), (2, .tried (some (some 3))), (3, .tried (some (some 5))),
      (4, .tried (some (some 5)))] lookBetween (System.start pointerStack) (by decide +kernel)
  obtain ⟨log, linear, ordered, _⟩ :=
    lock_stack_order none twoIds (by decide) (by decide) system reached
  exact ⟨system, seen, log, linear, ordered⟩

end NetCore.StackHistories
