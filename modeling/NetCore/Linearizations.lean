import Mathlib.Data.List.Basic

/-! Linearizable objects. A history lists the calls of an object's operations and the answers
they got, each with the number of its call. It is linearizable when the operations that have
taken effect can be put into one sequence that the object, used by one caller, would have
answered alike, and in which no operation stands before one that was answered before it was
called. The three rules at the end extend a linearization with a history: a call changes
nothing, an operation takes effect once, and only what has taken effect is answered. -/
namespace NetCore.Linearizations

universe u v w
variable {Data : Type u} {Op : Type v} {Result : Type w}

structure Object (Data : Type u) (Op : Type v) (Result : Type w) where
  initial : Data
  apply : Op → Data → Result × Data

inductive Event (Op : Type v) (Result : Type w) where
  | call (id : Nat) (op : Op)
  | answer (id : Nat) (result : Result)

structure Entry (Op : Type v) (Result : Type w) where
  id : Nat
  op : Op
  result : Result

variable (object : Object Data Op Result)

def runFrom : Data → List (Entry Op Result) → Data
  | data, [] => data
  | data, entry :: rest => runFrom (object.apply entry.op data).2 rest

def LegalFrom : Data → List (Entry Op Result) → Prop
  | _, [] => True
  | data, entry :: rest =>
      entry.result = (object.apply entry.op data).1 ∧ LegalFrom (object.apply entry.op data).2 rest

theorem run_append (data : Data) (front back : List (Entry Op Result)) :
    runFrom object data (front ++ back) = runFrom object (runFrom object data front) back := by
  induction front generalizing data with
  | nil => rfl
  | cons entry rest ih => exact ih _

theorem legal_append (data : Data) (front back : List (Entry Op Result)) :
    LegalFrom object data (front ++ back) ↔
      LegalFrom object data front ∧ LegalFrom object (runFrom object data front) back := by
  induction front generalizing data with
  | nil => simp [LegalFrom, runFrom]
  | cons entry rest ih => simp [LegalFrom, runFrom, ih, and_assoc]

def ids (log : List (Entry Op Result)) : List Nat := log.map Entry.id

@[simp] theorem ids_append (front back : List (Entry Op Result)) :
    ids (front ++ back) = ids front ++ ids back :=
  List.map_append

@[simp] theorem ids_singleton (entry : Entry Op Result) : ids [entry] = [entry.id] := rfl

/-- `log` is an order in which the operations of `history` may have happened one at a time. -/
structure Linearization (history : List (Event Op Result)) (log : List (Entry Op Result)) :
    Prop where
  legal : LegalFrom object object.initial log
  once : (ids log).Nodup
  called : ∀ entry ∈ log, .call entry.id entry.op ∈ history
  answered : ∀ id result, .answer id result ∈ history → ∃ entry ∈ log, entry.id = id ∧
    entry.result = result
  realTime : ∀ first result second op, [.answer first result, .call second op].Sublist history →
    second ∈ ids log → [first, second].Sublist (ids log)

theorem pair_sublist_append {Item : Type u} (first second last : Item) (list : List Item) :
    [first, second].Sublist (list ++ [last]) ↔
      [first, second].Sublist list ∨ (first ∈ list ∧ second = last) := by
  constructor
  · intro below
    obtain ⟨front, back, split, inside, atEnd⟩ := List.sublist_append_iff.mp below
    rcases List.sublist_singleton.mp atEnd with none | one
    · rw [none, List.append_nil] at split
      rw [split]
      exact Or.inl inside
    · -- The last item is taken, so the front is the first one.
      rw [one] at split
      have halves := List.append_inj' (show [first] ++ [second] = front ++ [last] from split) rfl
      rw [← halves.1] at inside
      exact Or.inr ⟨List.singleton_sublist.mp inside, List.singleton_inj.mp halves.2⟩
  · rintro (inside | ⟨member, rfl⟩)
    · exact inside.trans (List.sublist_append_left _ _)
    · exact (List.singleton_sublist.mpr member).append (List.Sublist.refl [second])

theorem linearization_nil : Linearization object [] [] where
  legal := trivial
  once := List.nodup_nil
  called := by simp
  answered := by simp
  realTime := by simp [ids]

theorem linearization_call (history : List (Event Op Result)) (log : List (Entry Op Result))
    (id : Nat) (op : Op) (holds : Linearization object history log) (fresh : id ∉ ids log) :
    Linearization object (history ++ [.call id op]) log where
  legal := holds.legal
  once := holds.once
  called entry member := List.mem_append_left _ (holds.called entry member)
  answered other result listed := by
    rcases List.mem_append.mp listed with old | new
    · exact holds.answered other result old
    · simp at new
  realTime first result second other before member := by
    rcases (pair_sublist_append _ _ _ _).mp before with old | ⟨_, new⟩
    · exact holds.realTime first result second other old member
    · -- The new call is in no order with the operations that took effect.
      simp only [Event.call.injEq] at new
      rw [new.1] at member
      exact absurd member fresh

theorem linearization_effect (history : List (Event Op Result)) (log : List (Entry Op Result))
    (id : Nat) (op : Op) (result : Result) (holds : Linearization object history log)
    (fresh : id ∉ ids log) (called : .call id op ∈ history)
    (answers : result = (object.apply op (runFrom object object.initial log)).1) :
    Linearization object history (log ++ [{ id := id, op := op, result := result }]) where
  legal := (legal_append object _ _ _).mpr ⟨holds.legal, answers, trivial⟩
  once := by
    rw [ids_append, ids_singleton]
    refine List.nodup_append.mpr ⟨holds.once, List.pairwise_singleton _ _, ?_⟩
    rintro earlier member other last rfl
    rw [List.mem_singleton.mp last] at member
    exact fresh member
  called entry member := by
    rcases List.mem_append.mp member with old | new
    · exact holds.called entry old
    · rw [List.mem_singleton.mp new]
      exact called
  answered other answer listed := by
    obtain ⟨entry, member, same⟩ := holds.answered other answer listed
    exact ⟨entry, List.mem_append_left _ member, same⟩
  realTime first answer second other before member := by
    rw [ids_append, ids_singleton] at member ⊢
    refine (pair_sublist_append _ _ _ _).mpr ?_
    rcases List.mem_append.mp member with old | new
    · exact Or.inl (holds.realTime first answer second other before old)
    · -- What was answered has taken effect already, hence before the new one.
      have answered : .answer first answer ∈ history :=
        before.subset List.mem_cons_self
      obtain ⟨entry, done, same, _⟩ := holds.answered first answer answered
      have earlier : first ∈ ids log := List.mem_map.mpr ⟨entry, done, same⟩
      exact Or.inr ⟨earlier, List.mem_singleton.mp new⟩

theorem linearization_answer (history : List (Event Op Result)) (log : List (Entry Op Result))
    (id : Nat) (result : Result) (holds : Linearization object history log)
    (done : ∃ entry ∈ log, entry.id = id ∧ entry.result = result) :
    Linearization object (history ++ [.answer id result]) log where
  legal := holds.legal
  once := holds.once
  called entry member := List.mem_append_left _ (holds.called entry member)
  answered other answer listed := by
    rcases List.mem_append.mp listed with old | new
    · exact holds.answered other answer old
    · simp only [List.mem_singleton, Event.answer.injEq] at new
      rw [new.1, new.2]
      exact done
  realTime first answer second op before member := by
    rcases (pair_sublist_append _ _ _ _).mp before with old | ⟨_, new⟩
    · exact holds.realTime first answer second op old member
    · simp at new

end NetCore.Linearizations
