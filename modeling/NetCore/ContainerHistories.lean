import NetCore.LockContainers

/-! Concurrent histories of the three locked containers. Each is linearizable with respect to what
its functions do one at a time, its accesses of the underlying container never race and never
meet it empty, and a queue hands its items out in the order in which it got them, each once. -/
namespace NetCore.ContainerHistories
open TransitionRuns GuardNesting Linearizations GuardedObjects LockContainers PopSequence
  PriorityQueue QueueDraining

universe u v

section Classes
variable (Item : Type u)

def queue : Container.{u, u} Item :=
  { lockQueue Item with push := LockQueue.push, empty := [] }

/-- The top comes first. -/
def stack : Container.{u, u} Item :=
  { lockQueue Item with push := fun items item => item :: items, empty := [] }

variable {Item}

def priorityQueue {less : Item → Item → Bool} (implementation : Implementation.{u, v} Item less) :
    Container.{u, v} Item :=
  { lockPriorityQueue implementation with
    push := implementation.push, empty := implementation.empty }

def lockQueueOffers : Op Item → Bool
  | .tryPopIf _ => false
  | .popAll _ => false
  | .size => false
  | _ => true

def lockStackOffers : Op Item → Bool
  | .push _ => true
  | .tryPop => true
  | .tryPeek => true
  | .clear => true
  | .setNew => true
  | _ => false

def lockPriorityQueueOffers : Op Item → Bool
  | .tryPop => false
  | .front => false
  | _ => true

/-- Used by one caller, a `LockQueue` of pointers is the list of LockQueue.lean. -/
theorem lock_queue_meaning (items : List (Option Item)) (item : Option Item) :
    apply (queue (Option Item)) Option.isSome none (.push item) items =
      (.done, LockQueue.push items item) ∧
    apply (queue (Option Item)) Option.isSome none .pop items =
      (.item (LockQueue.pop items).1, (LockQueue.pop items).2) ∧
    apply (queue (Option Item)) Option.isSome none .clearInto items =
      (.cleared ((LockQueue.clear items).1.map some), (LockQueue.clear items).2) := by
  have reads : ∀ popped, readOut (lockQueue (Option Item)) Option.isSome popped items =
      (popped ++ (LockQueue.clear items).1.map some, (LockQueue.clear items).2) := by
    induction items with
    | nil =>
        intro popped
        refine (read_out_none (lockQueue (Option Item)) [] _ popped rfl).trans ?_
        simp [LockQueue.clear]
        rfl
    | cons front rest ih =>
        intro popped
        refine (read_out_some (lockQueue (Option Item)) (front :: rest) _ popped front
          rest rfl).trans ?_
        cases front with
        | none =>
            simp [LockQueue.clear, LockQueue.pop]
            rfl
        | some found =>
            simp [LockQueue.clear, LockQueue.pop, ih]
            rfl
  refine ⟨rfl, ?_, ?_⟩
  · cases items <;> rfl
  · have read := reads []
    simp only [List.nil_append] at read
    show (Result.cleared (readOut (lockQueue (Option Item)) Option.isSome [] items).1,
      (readOut (lockQueue (Option Item)) Option.isSome [] items).2) = _
    rw [read]
    rfl

end Classes

section Order
variable {Item : Type u} (truth : Item → Bool) (default : Item)

def pushedBy : Op Item → List Item
  | .push item => [item]
  | _ => []

def deliveredBy : Op Item → Result Item → List Item
  | .pop, .item item => if truth item then [item] else []
  | .tryPop, .tried (some item) => [item]
  | .tryPopIf _, .tried (some item) => [item]
  | .popAll _, .popped items _ => items
  | .clearInto, .cleared items => items
  | _, _ => []

def pushes (log : List (Entry (Op Item) (Result Item))) : List Item :=
  log.flatMap fun entry => pushedBy entry.op

def deliveries (log : List (Entry (Op Item) (Result Item))) : List Item :=
  log.flatMap fun entry => deliveredBy truth entry.op entry.result

/-- Nothing is thrown away: no null is pushed, and neither `Clear()` nor `SetNew` is called. -/
def Keeping : Op Item → Prop
  | .push item => truth item = true
  | .clear => False
  | .setNew => False
  | _ => True

def queueTake (accepts : Item → Bool) (taken items : List Item) : List Item × List Item :=
  takeOut (lockQueue Item) accepts taken items

def queueRead (popped items : List Item) : List Item × List Item :=
  readOut (lockQueue Item) truth popped items

theorem queue_take_splits (accepts : Item → Bool) (taken items : List Item) :
    (queueTake accepts taken items).1 ++ (queueTake accepts taken items).2 = taken ++ items := by
  induction items generalizing taken with
  | nil =>
      rw [show queueTake accepts taken [] = (taken, [])
        from take_out_none (lockQueue Item) [] accepts taken rfl]
  | cons front rest ih =>
      rw [show queueTake accepts taken (front :: rest) =
        if accepts front then queueTake accepts (taken ++ [front]) rest
          else (taken, front :: rest) from
        take_out_some (lockQueue Item) (front :: rest) accepts taken front rest rfl]
      split
      case isTrue => rw [ih, List.append_assoc, List.singleton_append]
      case isFalse => rfl

theorem queue_read_nil (popped : List Item) : queueRead truth popped [] = (popped, []) :=
  read_out_none (lockQueue Item) [] truth popped rfl

theorem queue_read_cons (popped : List Item) (front : Item) (rest : List Item) :
    queueRead truth popped (front :: rest) =
      if truth front then queueRead truth (popped ++ [front]) rest else (popped, rest) :=
  read_out_some (lockQueue Item) (front :: rest) truth popped front rest rfl

/-- `Clear(popped)` loses the item that ends it, and nothing else. -/
theorem queue_read_sublist (popped items : List Item) :
    ((queueRead truth popped items).1 ++ (queueRead truth popped items).2).Sublist
      (popped ++ items) := by
  induction items generalizing popped with
  | nil => rw [queue_read_nil]
  | cons front rest ih =>
      rw [queue_read_cons]
      split
      · have shorter := ih (popped ++ [front])
        rwa [List.append_assoc, List.singleton_append] at shorter
      · exact (List.sublist_cons_self front rest).append_left popped

theorem queue_read_all (popped items : List Item) (accepted : ∀ item ∈ items, truth item = true) :
    queueRead truth popped items = (popped ++ items, []) := by
  induction items generalizing popped with
  | nil => rw [queue_read_nil, List.append_nil]
  | cons front rest ih =>
      rw [queue_read_cons, if_pos (accepted front List.mem_cons_self),
        ih _ (fun item member => accepted item (List.mem_cons_of_mem front member)),
        List.append_assoc,
        List.singleton_append]

def queueApply (op : Op Item) (items : List Item) : Result Item × List Item :=
  apply (queue Item) truth default op items

def afterwards (op : Op Item) (items : List Item) : List Item :=
  deliveredBy truth op (queueApply truth default op items).1 ++
    (queueApply truth default op items).2

section Operations
variable (items : List Item)

theorem pop_afterwards (stops : truth default = false) :
    (afterwards truth default .pop items).Sublist items ∧
      ((∀ item ∈ items, truth item = true) → afterwards truth default .pop items = items) := by
  cases items with
  | nil =>
      have nothing :
          afterwards truth default .pop [] = (if truth default then [default] else []) ++ [] :=
        rfl
      rw [nothing, stops]
      exact ⟨List.Sublist.refl _, fun _ => rfl⟩
  | cons front rest =>
      have found : afterwards truth default .pop (front :: rest) =
          (if truth front then [front] else []) ++ rest :=
        rfl
      rw [found]
      refine ⟨?_, fun accepted => by rw [if_pos (accepted front List.mem_cons_self)]; rfl⟩
      split
      · exact List.Sublist.refl _
      · exact List.sublist_cons_self front rest

theorem clear_into_afterwards :
    (afterwards truth default .clearInto items).Sublist items ∧
      ((∀ item ∈ items, truth item = true) →
        afterwards truth default .clearInto items = items) := by
  have read : afterwards truth default .clearInto items =
      (queueRead truth [] items).1 ++ (queueRead truth [] items).2 := rfl
  rw [read]
  refine ⟨queue_read_sublist truth [] items, fun accepted => ?_⟩
  rw [queue_read_all truth [] items accepted]
  simp

theorem try_pop_if_afterwards (condition : Item → Bool) :
    afterwards truth default (.tryPopIf condition) items = items := by
  cases items with
  | nil => rfl
  | cons front rest =>
      simp only [afterwards, queueApply, apply, queue, lockQueue, LockQueue.tryPop]
      split <;> rfl

theorem cleared_afterwards (op : Op Item) (clears : op = .clear ∨ op = .setNew) :
    afterwards truth default op items = [] := by
  rcases clears with rfl | rfl
  · have nothing : (queueApply truth default .clear items).2 = [] := by
      induction items with
      | nil => exact drained_none (lockQueue Item) [] rfl
      | cons front rest ih =>
          exact (drained_some (lockQueue Item) (front :: rest) front rest rfl).trans ih
    exact nothing
  · rfl

def Exact : Op Item → Prop
  | .pop => False
  | .clearInto => False
  | .clear => False
  | .setNew => False
  | _ => True

theorem exact_afterwards (op : Op Item) (exact : Exact op) :
    afterwards truth default op items = items ++ pushedBy op := by
  cases op with
  | push item => rfl
  | tryPop =>
      cases items with
      | nil => rfl
      | cons front rest => exact (List.append_nil (front :: rest)).symm
  | tryPopIf condition => simp [pushedBy, try_pop_if_afterwards]
  | popAll condition =>
      exact (queue_take_splits condition [] items).trans (List.append_nil items).symm
  | front => exact (List.append_nil items).symm
  | tryPeek => exact (List.append_nil items).symm
  | size => exact (List.append_nil items).symm
  | pop => exact exact.elim
  | clear => exact exact.elim
  | clearInto => exact exact.elim
  | setNew => exact exact.elim

/-- No operation invents or repeats an item or takes one out of turn. -/
theorem afterwards_sublist (op : Op Item) (stops : truth default = false) :
    (afterwards truth default op items).Sublist (items ++ pushedBy op) := by
  cases op with
  | pop => simpa [pushedBy] using (pop_afterwards truth default items stops).1
  | clear => simp [cleared_afterwards truth default items .clear (Or.inl rfl)]
  | clearInto => simpa [pushedBy] using (clear_into_afterwards truth default items).1
  | setNew => simp [cleared_afterwards truth default items .setNew (Or.inr rfl)]
  | _ => rw [exact_afterwards truth default items _ (by trivial)]

theorem afterwards_kept (op : Op Item) (stops : truth default = false) (keeping : Keeping truth op)
    (accepted : ∀ item ∈ items, truth item = true) :
    afterwards truth default op items = items ++ pushedBy op := by
  cases op with
  | pop => simpa [pushedBy] using (pop_afterwards truth default items stops).2 accepted
  | clear => exact keeping.elim
  | clearInto => simpa [pushedBy] using (clear_into_afterwards truth default items).2 accepted
  | setNew => exact keeping.elim
  | _ => exact exact_afterwards truth default items _ trivial

theorem accepted_after (op : Op Item) (stops : truth default = false) (keeping : Keeping truth op)
    (accepted : ∀ item ∈ items, truth item = true) :
    ∀ item ∈ (queueApply truth default op items).2, truth item = true := by
  intro item member
  have queued : item ∈ items ++ pushedBy op :=
    (afterwards_sublist truth default items op stops).subset (List.mem_append_right _ member)
  rcases List.mem_append.mp queued with old | new
  · exact accepted item old
  · cases op with
    | push pushed =>
        rw [List.mem_singleton.mp new]
        exact keeping
    | _ => cases new

end Operations

def queueObject : Object (List Item) (Op Item) (Result Item) where
  initial := []
  apply := queueApply truth default

theorem deliveries_sublist (stops : truth default = false)
    (log : List (Entry (Op Item) (Result Item))) (items : List Item)
    (legal : LegalFrom (queueObject truth default) items log) :
    (deliveries truth log ++ runFrom (queueObject truth default) items log).Sublist
      (items ++ pushes log) := by
  induction log generalizing items with
  | nil => simp [deliveries, pushes, runFrom]
  | cons entry rest ih =>
      obtain ⟨answers, later⟩ := legal
      have step := afterwards_sublist truth default items entry.op stops
      have tail := ih _ later
      have delivered :
          deliveredBy truth entry.op entry.result ++ (queueApply truth default entry.op items).2 =
          afterwards truth default entry.op items := by rw [answers]; rfl
      have first : deliveries truth (entry :: rest) ++
          runFrom (queueObject truth default) items (entry :: rest) =
          deliveredBy truth entry.op entry.result ++ (deliveries truth rest ++
            runFrom (queueObject truth default)
              (queueApply truth default entry.op items).2 rest) := by
        simp only [deliveries, List.flatMap_cons, List.append_assoc]
        rfl
      rw [first]
      refine (tail.append_left _).trans ?_
      show (deliveredBy truth entry.op entry.result ++
        ((queueApply truth default entry.op items).2 ++ pushes rest)).Sublist _
      rw [← List.append_assoc, delivered]
      simpa [pushes] using step.append_right (pushes rest)

theorem deliveries_kept (stops : truth default = false) (log : List (Entry (Op Item) (Result Item)))
    (items : List Item) (legal : LegalFrom (queueObject truth default) items log)
    (keeping : ∀ entry ∈ log, Keeping truth entry.op)
    (accepted : ∀ item ∈ items, truth item = true) :
    deliveries truth log ++ runFrom (queueObject truth default) items log =
        items ++ pushes log := by
  induction log generalizing items with
  | nil => simp [deliveries, pushes, runFrom]
  | cons entry rest ih =>
      obtain ⟨answers, later⟩ := legal
      have mine := keeping entry List.mem_cons_self
      have step := afterwards_kept truth default items entry.op stops mine accepted
      have tail :=
        ih _ later (fun other member => keeping other (List.mem_cons_of_mem entry member))
        (accepted_after truth default items entry.op stops mine accepted)
      have delivered :
          deliveredBy truth entry.op entry.result ++ (queueApply truth default entry.op items).2 =
          afterwards truth default entry.op items := by rw [answers]; rfl
      calc deliveries truth (entry :: rest) ++
          runFrom (queueObject truth default) items (entry :: rest)
          = deliveredBy truth entry.op entry.result ++ (deliveries truth rest ++
              runFrom (queueObject truth default)
                (queueApply truth default entry.op items).2 rest) := by
            simp only [deliveries, List.flatMap_cons, List.append_assoc]
            rfl
        _ = deliveredBy truth entry.op entry.result ++
            ((queueApply truth default entry.op items).2 ++ pushes rest) := congrArg _ tail
        _ = items ++ pushedBy entry.op ++ pushes rest := by
          rw [← List.append_assoc, delivered, step]
        _ = items ++ pushes (entry :: rest) := by simp [pushes]

end Order

section Histories
variable {Thread : Type} [DecidableEq Thread] [Fintype Thread] {Item : Type u}
  (offers : Op Item → Bool) (truth : Item → Bool) (default : Item) (stops : truth default = false)
  (tlsId : Thread → BitVec 32) (distinct : Function.Injective tlsId)
  (ranged : ∀ thread, 1 ≤ (tlsId thread).toNat ∧ (tlsId thread).toNat ≤ 65535)
include stops distinct ranged

/-- Every history of a locked container is linearizable, and with nobody inside a function the
container is as the functions leave it one after the other. -/
theorem container_linearizable (container : Container.{u, v} Item)
    (system : System Thread container.State (Op Item) (Local Item) (Result Item))
    (reached : Reachable (step (code container offers truth default) tlsId) (fun _ _ _ => True)
      (System.start (code container offers truth default)) system) :
    ∃ log, Linearization { initial := container.empty, apply := apply container truth default }
      system.history log ∧
      (system.locking.shared.crash = none → (∀ thread, system.task thread = none) →
        system.data = runFrom { initial := container.empty, apply := apply container truth default }
          container.empty log) :=
  reachable_linearizable _ _ _ _ _ tlsId distinct ranged
    (code_implements container offers truth default stops) system reached

/-- `front()`, `top()` and `pop()` of the container are never called on an empty one, no access
changes the container while another thread is at one, and the lock's only assertion that can fail
is the time-out. -/
theorem container_accesses (container : Container.{u, v} Item)
    (system : System Thread container.State (Op Item) (Local Item) (Result Item))
    (reached : Reachable (step (code container offers truth default) tlsId) (fun _ _ _ => True)
      (System.start (code container offers truth default)) system) :
    (system.locking.shared.crash = none → ∀ thread state run,
      Accessing (code container offers truth default) system thread state run →
      ∃ next after, run system.data = some (next, after) ∧
        ∀ other later meanwhile, other ≠ thread →
          Accessing (code container offers truth default) system other later meanwhile →
          after = system.data) ∧
    (system.locking.shared.crash = none ∨ system.locking.shared.crash = some .timeout) :=
  ⟨reachable_accesses _ _ _ _ _ tlsId distinct ranged
      (code_implements container offers truth default stops) system reached,
    reachable_asserted _ _ _ _ _ tlsId distinct ranged
      (code_implements container offers truth default stops) system reached⟩

/-- What a queue hands out comes in the order of the pushes, each item at most once; nothing is
missing as long as no null is pushed and neither `Clear()` nor `SetNew` is called. -/
theorem lock_queue_order
    (system : System Thread (queue Item).State (Op Item) (Local Item) (Result Item))
    (reached : Reachable (step (code (queue Item) offers truth default) tlsId) (fun _ _ _ => True)
      (System.start (code (queue Item) offers truth default)) system) :
    ∃ log, ∃ left : List Item, Linearization (queueObject truth default) system.history log ∧
      (deliveries truth log ++ left).Sublist (pushes log) ∧
      ((∀ entry ∈ log, Keeping truth entry.op) → deliveries truth log ++ left = pushes log) ∧
      (system.locking.shared.crash = none → (∀ thread, system.task thread = none) →
        system.data = left) := by
  obtain ⟨log, linear, idle⟩ := reachable_linearizable _ _ _ _ _ tlsId distinct ranged
    (code_implements (queue Item) offers truth default stops) system reached
  refine ⟨log, runFrom (queueObject truth default) [] log, linear, ?_, ?_, idle⟩
  · exact deliveries_sublist truth default stops log [] linear.legal
  · intro keeping
    exact deliveries_kept truth default stops log [] linear.legal keeping (by simp)

end Histories

def pointers :
    Code (queue (Option Nat)).State (Op (Option Nat)) (Local (Option Nat)) (Result (Option Nat)) :=
  code (queue (Option Nat)) lockQueueOffers Option.isSome none

def twoIds : Bool → BitVec 32 := fun thread => if thread then 1 else 2

def answersOf (history : List (Event (Op (Option Nat)) (Result (Option Nat)))) :
    List (Nat × Result (Option Nat)) :=
  history.filterMap fun event =>
    match event with
    | .call _ _ => none
    | .answer id result => some (id, result)

/-- One thread pushes a pointer while the other calls `Clear(popped)` and waits for the lock. -/
def overlapLabels : List (GuardedObjects.Label (Bool) (Op (Option Nat))) :=
  [.call true (.push (some 7))] ++ List.replicate 4 (.advance true 0) ++ [.call false .clearInto] ++
    List.replicate 3 (.advance false 0)

def overlapEnd : List (GuardedObjects.Label (Bool) (Op (Option Nat))) :=
  overlapLabels ++ List.replicate 6 (.advance true 0) ++ List.replicate 23 (.advance false 0)

theorem overlap_reached (labels : List (GuardedObjects.Label (Bool) (Op (Option Nat))))
    {View : Type}
    (view : System (Bool) (queue (Option Nat)).State (Op (Option Nat)) (Local (Option Nat))
      (Result (Option Nat)) → View) (value : View)
    (computed : (replay (GuardedObjects.step pointers twoIds) (fun _ _ _ => true)
      (System.start pointers) labels).map view = some value) :
    ∃ system, Reachable (GuardedObjects.step pointers twoIds) (fun _ _ _ => True)
      (System.start pointers) system ∧
      view system = value :=
  replay_reachable _ _ _ (fun _ _ _ _ => trivial) view value labels _ computed

theorem container_linearizable_overlap :
    ∃ system : System (Bool) (queue (Option Nat)).State (Op (Option Nat)) (Local (Option Nat))
        (Result (Option Nat)),
      answersOf system.history = [(0, .done), (1, .cleared [some 7])] ∧
      ∃ log, Linearization (queueObject Option.isSome none) system.history log := by
  obtain ⟨system, reached, seen⟩ :=
    overlap_reached overlapEnd (fun system => answersOf system.history)
    [(0, .done), (1, .cleared [some 7])] (by decide +kernel)
  obtain ⟨log, linear, _⟩ :=
    container_linearizable lockQueueOffers Option.isSome none rfl twoIds (by decide)
    (by decide) (queue (Option Nat)) system reached
  exact ⟨system, seen, log, linear⟩

def pushing :
    Option (GuardedObjects.Call (Op (Option Nat)) (Local (Option Nat)) (Result (Option Nat))) →
    Option (Option Nat)
  | some { place := .body (.push item), .. } => some item
  | _ => none

theorem container_accesses_overlap :
    ∃ system : System (Bool) (queue (Option Nat)).State (Op (Option Nat)) (Local (Option Nat))
        (Result (Option Nat)),
      ∃ run next after, Accessing pointers system true (.push (some 7)) run ∧
        run system.data = some (next, after) := by
  obtain ⟨system, reached, seen⟩ := overlap_reached overlapLabels
    (fun system =>
      (system.locking.shared.crash, system.locking.shared.point true, pushing (system.task true)))
    (none, .outside, some (some 7)) (by decide +kernel)
  simp only [Prod.mk.injEq] at seen
  obtain ⟨alive, outside, pushes⟩ := seen
  have accesses : ∃ run, Accessing pointers system true (.push (some 7)) run := by
    unfold pushing at pushes
    split at pushes
    case h_1 id op item running =>
      cases pushes
      exact ⟨_, _, running, rfl, outside, rfl⟩
    case h_2 => cases pushes
  obtain ⟨run, accesses⟩ := accesses
  obtain ⟨defined, _⟩ :=
    container_accesses lockQueueOffers Option.isSome none rfl twoIds (by decide) (by decide)
    (queue (Option Nat)) system reached
  obtain ⟨next, after, found, _⟩ := defined alive true _ run accesses
  exact ⟨system, run, next, after, accesses, found⟩

theorem lock_queue_order_overlap :
    ∃ system : System (Bool) (queue (Option Nat)).State (Op (Option Nat)) (Local (Option Nat))
        (Result (Option Nat)),
      answersOf system.history = [(0, .done), (1, .cleared [some 7])] ∧
      ∃ log, Linearization (queueObject Option.isSome none) system.history log ∧
        (deliveries Option.isSome log).Sublist (pushes log) := by
  obtain ⟨system, reached, seen⟩ :=
    overlap_reached overlapEnd (fun system => answersOf system.history)
    [(0, .done), (1, .cleared [some 7])] (by decide +kernel)
  obtain ⟨log, left, linear, ordered, _⟩ :=
    lock_queue_order lockQueueOffers Option.isSome none rfl twoIds
    (by decide) (by decide) system reached
  exact ⟨system, seen, log, linear, (List.sublist_append_left _ _).trans ordered⟩

end NetCore.ContainerHistories
