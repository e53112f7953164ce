import NetCore.ContainerHistories

/-! The order in which a `LockPriorityQueue` serves its callers. In the sequence that linearizes a
history, what a call hands out comes greatest first and is not less than anything it leaves behind;
and what was handed out, with what is still queued, was pushed. Which of several greatest items
comes first is left to the implementation of the heap. -/
namespace NetCore.PriorityHistories
open TransitionRuns Linearizations GuardedObjects LockContainers PopSequence PriorityQueue
  QueueDraining ContainerHistories

universe u v

section Serving
variable {Item : Type u} {less : Item → Item → Bool}
  (implementation : Implementation.{u, v} Item less)

def queued (heap : (priorityQueue implementation).State) : Multiset Item :=
  implementation.contents heap

/-- Items have come off a heap that held `bag`, and `heap` is left. None is lost if `keeps`. -/
structure Served (keeps : Prop) (bag : Multiset Item) (items : List Item)
    (heap : (priorityQueue implementation).State) : Prop where
  few : (items : Multiset Item) + queued implementation heap ≤ bag
  whole : keeps → (items : Multiset Item) + queued implementation heap = bag
  sorted : items.Pairwise fun first second => less first second = false
  greatest : ∀ item ∈ items, ∀ other ∈ queued implementation heap, less item other = false

variable {implementation} {keeps : Prop} {bag : Multiset Item} {items : List Item}
  {heap rest : (priorityQueue implementation).State} {item : Item}

theorem served_start (same : queued implementation heap = bag) :
    Served implementation keeps bag [] heap where
  few := by rw [same, Multiset.coe_nil, Multiset.zero_add]
  whole _ := by rw [same, Multiset.coe_nil, Multiset.zero_add]
  sorted := .nil
  greatest := by simp

theorem next_top (next : (priorityQueue implementation).next heap = some (item, rest)) :
    queued implementation heap = item ::ₘ queued implementation rest ∧
      ∀ other ∈ queued implementation heap, less item other = false := by
  obtain ⟨top, first, same⟩ := Option.map_eq_some_iff.mp next
  cases same
  exact ⟨implementation.contents_pop heap item first, implementation.top_greatest heap item first⟩

theorem served_next (served : Served implementation keeps bag items heap)
    (next : (priorityQueue implementation).next heap = some (item, rest)) :
    Served implementation keeps bag (items ++ [item]) rest := by
  obtain ⟨split, first⟩ := next_top next
  have kept : ∀ other ∈ queued implementation rest, other ∈ queued implementation heap := by
    intro other member
    rw [split]
    exact Multiset.mem_cons_of_mem member
  have moved : ((items ++ [item] : List Item) : Multiset Item) + queued implementation rest =
      (items : Multiset Item) + queued implementation heap := by
    rw [split, ← Multiset.coe_add, Multiset.coe_singleton, Multiset.add_assoc,
      Multiset.singleton_add]
  constructor
  case few =>
    rw [moved]
    exact served.few
  case whole =>
    intro keeping
    rw [moved]
    exact served.whole keeping
  case sorted =>
    refine List.pairwise_append.mpr ⟨served.sorted, List.pairwise_singleton _ _, ?_⟩
    intro earlier old other new
    rw [List.mem_singleton.mp new]
    exact served.greatest earlier old item (by rw [split]; exact Multiset.mem_cons_self _ _)
  case greatest =>
    intro earlier member other later
    rcases List.mem_append.mp member with old | new
    · exact served.greatest earlier old other (kept other later)
    · rw [List.mem_singleton.mp new]
      exact first other (kept other later)

theorem served_lost (served : Served implementation keeps bag items heap)
    (next : (priorityQueue implementation).next heap = some (item, rest)) (loses : ¬keeps) :
    Served implementation keeps bag items rest := by
  obtain ⟨split, _⟩ := next_top next
  constructor
  case few =>
    refine le_trans ?_ served.few
    rw [split]
    exact add_le_add_right (Multiset.le_cons_self _ _) _
  case whole => exact fun keeping => absurd keeping loses
  case sorted => exact served.sorted
  case greatest =>
    intro earlier member other later
    apply served.greatest earlier member other
    rw [split]
    exact Multiset.mem_cons_of_mem later

theorem served_emptied (empty : queued implementation heap = 0) (loses : ¬keeps) :
    Served implementation keeps bag [] heap where
  few := by rw [empty, Multiset.coe_nil, Multiset.zero_add]; exact bag.zero_le
  whole keeping := absurd keeping loses
  sorted := .nil
  greatest := by simp

theorem served_take_out (accepts : Item → Bool)
    (served : Served implementation keeps bag items heap) :
    Served implementation keeps bag
      (takeOut (priorityQueue implementation).toSource accepts items heap).1
      (takeOut (priorityQueue implementation).toSource accepts items heap).2 := by
  induction listed : PopSequence.items (priorityQueue implementation).toSource heap
    generalizing heap items with
  | nil =>
      have nothing := (items_nil (priorityQueue implementation).toSource heap).mp listed
      rw [take_out_none _ heap accepts items nothing]
      exact served
  | cons first others ih =>
      obtain ⟨rest, found, tail⟩ :=
        items_cons (priorityQueue implementation).toSource heap first others listed
      rw [take_out_some _ heap accepts items first rest found]
      split
      case isTrue => exact ih (served_next served found) tail
      case isFalse => exact served

/-- The loop of `Clear(popped)`. The item that ends it is the only one lost. -/
theorem served_read_out (truth : Item → Bool) (served : Served implementation keeps bag items heap)
    (accepted : keeps → ∀ item ∈ queued implementation heap, truth item = true) :
    Served implementation keeps bag
      (readOut (priorityQueue implementation).toSource truth items heap).1
      (readOut (priorityQueue implementation).toSource truth items heap).2 := by
  induction listed : PopSequence.items (priorityQueue implementation).toSource heap
    generalizing heap items with
  | nil =>
      have nothing := (items_nil (priorityQueue implementation).toSource heap).mp listed
      rw [read_out_none _ heap truth items nothing]
      exact served
  | cons first others ih =>
      obtain ⟨rest, found, tail⟩ :=
        items_cons (priorityQueue implementation).toSource heap first others listed
      obtain ⟨split, _⟩ := next_top found
      rw [read_out_some _ heap truth items first rest found]
      split
      case isTrue =>
        refine ih (served_next served found) (fun keeping other member => ?_) tail
        exact accepted keeping other (by rw [split]; exact Multiset.mem_cons_of_mem member)
      case isFalse refused =>
        refine served_lost served found fun keeping => refused ?_
        exact accepted keeping first (by rw [split]; exact Multiset.mem_cons_self _ _)

theorem drained_empty :
    queued implementation (drained (priorityQueue implementation).toSource heap) = 0 := by
  induction listed : PopSequence.items (priorityQueue implementation).toSource heap
    generalizing heap with
  | nil =>
      have nothing := (items_nil (priorityQueue implementation).toSource heap).mp listed
      rw [drained_none _ heap nothing]
      exact next_none_empty implementation heap nothing
  | cons first others ih =>
      obtain ⟨rest, found, tail⟩ :=
        items_cons (priorityQueue implementation).toSource heap first others listed
      rw [drained_some _ heap first rest found]
      exact ih tail

end Serving

section Order
variable {Item : Type u} {less : Item → Item → Bool}
  (implementation : Implementation.{u, v} Item less) (truth : Item → Bool) (default : Item)

def heapObject : Object (priorityQueue implementation).State (Op Item) (Result Item) where
  initial := (priorityQueue implementation).empty
  apply := apply (priorityQueue implementation) truth default

/-- What an operation lets its caller know: what it hands out, or the item that `TryPeek` copies. -/
def reportedBy : Op Item → Result Item → List Item
  | .tryPeek, .tried (some item) => [item]
  | op, result => deliveredBy truth op result

def Keeps (op : Op Item) (heap : (priorityQueue implementation).State) : Prop :=
  Keeping truth op ∧ ∀ item ∈ queued implementation heap, truth item = true

section Operations
variable (heap : (priorityQueue implementation).State)

def Serves (op : Op Item) : Prop :=
  let applied := apply (priorityQueue implementation) truth default op heap
  Served implementation (Keeps implementation truth op heap)
    (queued implementation heap + (pushedBy op : Multiset Item))
    (deliveredBy truth op applied.1) applied.2

theorem nothing_served (keeps : Prop) :
    Served implementation keeps (queued implementation heap + (([] : List Item) : Multiset Item))
        [] heap :=
  served_start (by rw [Multiset.coe_nil, Multiset.add_zero])

theorem pop_serves (stops : truth default = false) :
    Serves implementation truth default heap .pop := by
  have start := nothing_served implementation heap (Keeps implementation truth .pop heap)
  cases next : (priorityQueue implementation).next heap with
  | none =>
      have applied : apply (priorityQueue implementation) truth default .pop heap =
          (.item default, heap) := by
        simp only [apply, popped_none _ default heap next]
      simp only [Serves, applied, deliveredBy, stops, Bool.false_eq_true, if_false]
      exact start
  | some found =>
      obtain ⟨item, rest⟩ := found
      have applied : apply (priorityQueue implementation) truth default .pop heap =
          (.item item, rest) := by
        simp only [apply, popped_some _ default heap (item, rest) next]
      simp only [Serves, applied, deliveredBy]
      split
      case isTrue => exact served_next start next
      case isFalse refused =>
        refine served_lost start next fun keeps => refused (keeps.2 item ?_)
        rw [(next_top next).1]
        exact Multiset.mem_cons_self _ _

theorem try_pop_serves : Serves implementation truth default heap .tryPop := by
  have start := nothing_served implementation heap (Keeps implementation truth .tryPop heap)
  cases next : (priorityQueue implementation).next heap with
  | none =>
      simp only [Serves, apply, next, deliveredBy]
      exact start
  | some found =>
      simp only [Serves, apply, next, deliveredBy]
      exact served_next start next

theorem try_pop_if_serves (condition : Item → Bool) :
    Serves implementation truth default heap (.tryPopIf condition) := by
  have start :=
    nothing_served implementation heap (Keeps implementation truth (.tryPopIf condition) heap)
  cases next : (priorityQueue implementation).next heap with
  | none =>
      simp only [Serves, apply, next, deliveredBy]
      exact start
  | some found =>
      simp only [Serves, apply, next]
      cases condition found.1 with
      | false => exact start
      | true => exact served_next start next

theorem operation_serves (op : Op Item) (stops : truth default = false) :
    Serves implementation truth default heap op := by
  have start := nothing_served implementation heap
  cases op with
  | push item =>
      refine served_start ((implementation.contents_push heap item).trans ?_)
      rw [pushedBy, Multiset.coe_singleton, ← Multiset.singleton_add, Multiset.add_comm]
      rfl
  | pop => exact pop_serves implementation truth default heap stops
  | tryPop => exact try_pop_serves implementation truth default heap
  | tryPopIf condition => exact try_pop_if_serves implementation truth default heap condition
  | popAll condition => exact served_take_out condition (start _)
  | clear => exact served_emptied drained_empty fun keeps => keeps.1
  | clearInto => exact served_read_out truth (start _) fun keeps => keeps.2
  | setNew => exact served_emptied implementation.contents_empty fun keeps => keeps.1
  | front => exact start _
  | tryPeek => exact start _
  | size => exact start _

theorem reported_greatest (op : Op Item) (stops : truth default = false) :
    let applied := apply (priorityQueue implementation) truth default op heap
    ((reportedBy truth op applied.1).Pairwise fun first second => less first second = false) ∧
      ∀ item ∈ reportedBy truth op applied.1, ∀ other ∈ queued implementation applied.2,
        less item other = false := by
  intro applied
  have served := operation_serves implementation truth default heap op stops
  cases op with
  | tryPeek =>
      cases next : (priorityQueue implementation).next heap with
      | none => simp [applied, apply, next, reportedBy, deliveredBy]
      | some found =>
          obtain ⟨item, rest⟩ := found
          have first := (next_top next).2
          simpa [applied, apply, next, reportedBy] using first
  | _ => exact ⟨served.sorted, served.greatest⟩

end Operations

def left (log : List (Entry (Op Item) (Result Item))) : Multiset Item :=
  queued implementation (runFrom (heapObject implementation truth default)
    (priorityQueue implementation).empty log)

theorem log_served (stops : truth default = false) (log : List (Entry (Op Item) (Result Item)))
    (heap : (priorityQueue implementation).State)
    (legal : LegalFrom (heapObject implementation truth default) heap log) :
    (deliveries truth log : Multiset Item) +
        queued implementation (runFrom (heapObject implementation truth default) heap log) ≤
      queued implementation heap + (pushes log : Multiset Item) ∧
    ((∀ entry ∈ log, Keeping truth entry.op) →
      (∀ item ∈ queued implementation heap, truth item = true) →
      (deliveries truth log : Multiset Item) +
          queued implementation (runFrom (heapObject implementation truth default) heap log) =
        queued implementation heap + (pushes log : Multiset Item)) := by
  induction log generalizing heap with
  | nil => simp [deliveries, pushes, runFrom]
  | cons entry rest ih =>
      obtain ⟨answers, later⟩ := legal
      have served := operation_serves implementation truth default heap entry.op stops
      obtain ⟨few, whole⟩ := ih _ later
      have delivered : deliveries truth (entry :: rest) =
          deliveredBy truth entry.op
            (apply (priorityQueue implementation) truth default entry.op heap).1 ++
            deliveries truth rest := by
        rw [deliveries, List.flatMap_cons, answers]
        rfl
      have pushed : pushes (entry :: rest) = pushedBy entry.op ++ pushes rest :=
        List.flatMap_cons ..
      rw [delivered, pushed, ← Multiset.coe_add, ← Multiset.coe_add, Multiset.add_assoc,
        ← Multiset.add_assoc (queued _ _)]
      constructor
      case left =>
        refine le_trans (add_le_add_right few _) ?_
        rw [← Multiset.add_assoc]
        exact add_le_add_left served.few _
      case right =>
        intro keeping accepted
        have kept := served.whole ⟨keeping entry List.mem_cons_self, accepted⟩
        have stillAccepted : ∀ item ∈ queued implementation
            (apply (priorityQueue implementation) truth default entry.op heap).2,
            truth item = true := by
          intro item member
          have source :
              item ∈ queued implementation heap + (pushedBy entry.op : Multiset Item) := by
            rw [← kept]
            exact Multiset.mem_add.mpr (Or.inr member)
          rcases Multiset.mem_add.mp source with old | new
          · exact accepted item old
          · cases op : entry.op with
            | push pushed =>
                have mine := keeping entry List.mem_cons_self
                rw [op] at new mine
                rw [List.mem_singleton.mp (Multiset.mem_coe.mp new)]
                exact mine
            | _ =>
                rw [op] at new
                cases Multiset.mem_coe.mp new
        have tail :=
          whole (fun other member =>
            keeping other (List.mem_cons_of_mem entry member)) stillAccepted
        refine (congrArg _ tail).trans ?_
        rw [← Multiset.add_assoc]
        exact congrArg (· + _) kept

structure InOrder (log : List (Entry (Op Item) (Result Item))) : Prop where
  few : ∀ front back, log = front ++ back →
    (deliveries truth front : Multiset Item) +
      left implementation truth default front ≤ pushes front
  whole : ∀ front back, log = front ++ back → (∀ entry ∈ front, Keeping truth entry.op) →
    (deliveries truth front : Multiset Item) +
      left implementation truth default front = pushes front
  sorted : ∀ entry ∈ log, (reportedBy truth entry.op entry.result).Pairwise fun first second =>
    less first second = false
  greatest : ∀ front entry back, log = front ++ entry :: back →
    ∀ item ∈ reportedBy truth entry.op entry.result,
    ∀ other ∈ left implementation truth default (front ++ [entry]), less item other = false

theorem legal_in_order (stops : truth default = false) (log : List (Entry (Op Item) (Result Item)))
    (legal : LegalFrom (heapObject implementation truth default)
      (priorityQueue implementation).empty log) :
    InOrder implementation truth default log := by
  have start : queued implementation (priorityQueue implementation).empty = 0 :=
    implementation.contents_empty
  have served : ∀ front back, log = front ++ back → _ := fun front back split =>
    log_served implementation truth default stops front _
      ((legal_append _ _ front back).mp (split ▸ legal)).1
  have reported : ∀ front entry back, log = front ++ entry :: back →
      ((reportedBy truth entry.op entry.result).Pairwise fun first second =>
        less first second = false) ∧
        ∀ item ∈ reportedBy truth entry.op entry.result,
          ∀ other ∈ left implementation truth default (front ++ [entry]),
            less item other = false := by
    intro front entry back split
    have here := (legal_append _ _ front (entry :: back)).mp (split ▸ legal)
    have spec := reported_greatest implementation truth default
      (runFrom (heapObject implementation truth default) (priorityQueue implementation).empty
        front) entry.op stops
    rw [here.2.1, left, run_append]
    exact spec
  constructor
  case few =>
    intro front back split
    have few := (served front back split).1
    rwa [start, Multiset.zero_add] at few
  case whole =>
    intro front back split keeping
    have whole := (served front back split).2 keeping (by simp [start])
    rwa [start, Multiset.zero_add] at whole
  case sorted =>
    intro entry member
    obtain ⟨front, back, split⟩ := List.append_of_mem member
    exact (reported front entry back split).1
  case greatest => exact fun front entry back split => (reported front entry back split).2

end Order

section Histories
variable {Thread : Type} [DecidableEq Thread] [Fintype Thread] {Item : Type u}
  {less : Item → Item → Bool} (implementation : Implementation.{u, v} Item less)
  (offers : Op Item → Bool) (truth : Item → Bool) (default : Item) (stops : truth default = false)
  (tlsId : Thread → BitVec 32) (distinct : Function.Injective tlsId)
  (ranged : ∀ thread, 1 ≤ (tlsId thread).toNat ∧ (tlsId thread).toNat ≤ 65535)
include stops distinct ranged

/-- Whatever runs concurrently, a priority queue hands out the greatest of what is queued. -/
theorem lock_priority_queue_order
    (system :
      System Thread (priorityQueue implementation).State (Op Item) (Local Item) (Result Item))
    (reached : Reachable (step (code (priorityQueue implementation) offers truth default) tlsId)
      (fun _ _ _ => True) (System.start (code (priorityQueue implementation) offers truth default))
      system) :
    ∃ log, Linearization (heapObject implementation truth default) system.history log ∧
      InOrder implementation truth default log ∧
      (system.locking.shared.crash = none → (∀ thread, system.task thread = none) →
        implementation.contents system.data = left implementation truth default log) := by
  obtain ⟨log, linear, idle⟩ := reachable_linearizable _ _ _ _ _ tlsId distinct ranged
    (code_implements (priorityQueue implementation) offers truth default stops) system reached
  refine ⟨log, linear, legal_in_order implementation truth default stops log linear.legal, ?_⟩
  intro alive outside
  exact congrArg (queued implementation) (idle alive outside)

end Histories

def leastFirst :
    Implementation (Option Nat) fun left right => decide (right.getD 0 < left.getD 0) :=
  leastKey _ (fun pointer => pointer.getD 0) fun _ _ => rfl

def numbers :
    Code (priorityQueue leastFirst).State (Op (Option Nat)) (Local (Option Nat))
        (Result (Option Nat)) :=
  code (priorityQueue leastFirst) lockPriorityQueueOffers Option.isSome none

def popAllLabels : List (GuardedObjects.Label Bool (Op (Option Nat))) :=
  [.call true (.push (some 5))] ++ List.replicate 4 (.advance true 0) ++
    [.call false (.push (some 3))] ++ List.replicate 3 (.advance false 0) ++
    List.replicate 6 (.advance true 0) ++ List.replicate 8 (.advance false 0) ++
    [.call true (.popAll Option.isSome)] ++ List.replicate 17 (.advance true 0)

theorem lock_priority_queue_order_pop_all :
    ∃ system : System Bool (priorityQueue leastFirst).State (Op (Option Nat)) (Local (Option Nat))
        (Result (Option Nat)),
      answersOf system.history = [(0, .done), (1, .done), (2, .popped [some 3, some 5] true)] ∧
      ∃ log, Linearization (heapObject leastFirst Option.isSome none) system.history log ∧
        InOrder leastFirst Option.isSome none log := by
  obtain ⟨system, reached, seen⟩ :=
    replay_reachable (GuardedObjects.step numbers twoIds) (fun _ _ _ => True)
    (fun _ _ _ => true) (fun _ _ _ _ => trivial) (fun system => answersOf system.history)
    [(0, .done), (1, .done), (2, .popped [some 3, some 5] true)] popAllLabels (System.start numbers)
    (by decide +kernel)
  obtain ⟨log, linear, ordered, _⟩ :=
    lock_priority_queue_order leastFirst lockPriorityQueueOffers Option.isSome none
    rfl twoIds (by decide) (by decide) system reached
  exact ⟨system, seen, log, linear, ordered⟩

end NetCore.PriorityHistories
