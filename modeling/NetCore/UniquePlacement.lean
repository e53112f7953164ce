import Mathlib.Logic.Function.Basic
import Mathlib.Data.List.Nodup
import Mathlib.Data.List.Perm.Basic

/-! Exclusive placement of items in a family of containers. `contents` gives the
list held by each place; an item is live when some place holds it. Ownership
arguments (a resource has one owner, a message is in one queue) are instances:
each operation moves a batch from one place to another, admits a fresh item or
retires a live one, and placement is kept by the lemma for that operation.
Containers are compared up to permutation, so queue and stack disciplines are
covered alike. -/
namespace NetCore.UniquePlacement

universe u v
variable {Place : Type u} {Item : Type v}

structure Placed (contents : Place → List Item) (live : Item → Prop) : Prop where
  once : ∀ place, (contents place).Nodup
  apart : ∀ item left right, item ∈ contents left → item ∈ contents right → left = right
  covers : ∀ item, live item ↔ ∃ place, item ∈ contents place

/-- A live item occupies exactly one slot: one place and one position in it. -/
theorem placed_slot_unique (contents : Place → List Item) (live : Item → Prop)
    (placed : Placed contents live) (item : Item) (alive : live item) :
    ∃! slot : Place × Nat, (contents slot.1)[slot.2]? = some item := by
  obtain ⟨place, member⟩ := (placed.covers item).mp alive
  obtain ⟨index, found⟩ := List.mem_iff_getElem?.mp member
  refine ⟨(place, index), found, ?_⟩
  rintro ⟨other, position⟩ held
  have same : other = place :=
    placed.apart item other place (List.mem_iff_getElem?.mpr ⟨position, held⟩) member
  subst other
  have inside := (List.getElem?_eq_some_iff.mp held).1
  have equal : position = index :=
    (List.getElem?_inj inside (placed.once place)).mp (held.trans found.symm)
  rw [equal]

theorem placed_absent (contents : Place → List Item) (live : Item → Prop)
    (placed : Placed contents live) (item : Item) (dead : ¬ live item) (place : Place) :
    item ∉ contents place :=
  fun member => dead ((placed.covers item).mpr ⟨place, member⟩)

theorem placed_live_congr (contents : Place → List Item) (live alive : Item → Prop)
    (placed : Placed contents live) (same : ∀ item, alive item ↔ live item) :
    Placed contents alive where
  once := placed.once
  apart := placed.apart
  covers item := (same item).trans (placed.covers item)

theorem placed_reorder (contents after : Place → List Item) (live : Item → Prop)
    (placed : Placed contents live) (same : ∀ place, (after place).Perm (contents place)) :
    Placed after live where
  once place := (same place).nodup_iff.mpr (placed.once place)
  apart item left right atLeft atRight :=
    placed.apart item left right ((same left).mem_iff.mp atLeft) ((same right).mem_iff.mp atRight)
  covers item := (placed.covers item).trans
    (exists_congr fun place => ((same place).mem_iff (a := item)).symm)

section Transfer
variable (contents after : Place → List Item) (live : Item → Prop) (placed : Placed contents live)
  (source target : Place) (moved kept : List Item) (split : (contents source).Perm (moved ++ kept))
  (left : (after source).Perm kept) (arrived : (after target).Perm (contents target ++ moved))
  (frame : ∀ place, place ≠ source → place ≠ target → (after place).Perm (contents place))

include split left arrived frame in
theorem transfer_origin (item : Item) (place : Place) (member : item ∈ after place) :
    item ∈ contents place ∨ (place = target ∧ item ∈ moved) := by
  by_cases toTarget : place = target
  · subst place
    rcases List.mem_append.mp (arrived.mem_iff.mp member) with old | new
    · exact Or.inl old
    · exact Or.inr ⟨rfl, new⟩
  · by_cases fromSource : place = source
    · subst place
      exact Or.inl (split.mem_iff.mpr (List.mem_append_right _ (left.mem_iff.mp member)))
    · exact Or.inl ((frame place fromSource toTarget).mem_iff.mp member)

include placed split left arrived frame

/-- A moved item has left its source, so it is found at the target only. -/
theorem transfer_arrival (item : Item) (place : Place) (inMoved : item ∈ moved)
    (member : item ∈ after place) :
    place = target := by
  have whole : (moved ++ kept).Nodup := split.nodup_iff.mp (placed.once source)
  rcases transfer_origin contents after source target moved kept split left arrived frame
      item place member with
    old | ⟨same, _⟩
  · have same : place = source :=
      placed.apart item place source old (split.mem_iff.mpr (List.mem_append_left _ inMoved))
    subst place
    exact absurd rfl ((List.nodup_append.mp whole).2.2 item inMoved item (left.mem_iff.mp member))
  · exact same

theorem transfer_once (different : source ≠ target) (place : Place) : (after place).Nodup := by
  have whole : (moved ++ kept).Nodup := split.nodup_iff.mp (placed.once source)
  by_cases toTarget : place = target
  · subst place
    refine arrived.nodup_iff.mpr (List.nodup_append.mpr
      ⟨placed.once _, (List.nodup_append.mp whole).1, ?_⟩)
    intro item inTarget other inMoved same
    subst other
    have inSource : item ∈ contents source := split.mem_iff.mpr (List.mem_append_left _ inMoved)
    exact different (placed.apart item _ _ inSource inTarget)
  · by_cases fromSource : place = source
    · subst place
      exact left.nodup_iff.mpr (List.nodup_append.mp whole).2.1
    · exact (frame place fromSource toTarget).nodup_iff.mpr (placed.once place)

theorem transfer_covers (item : Item) : live item ↔ ∃ place, item ∈ after place := by
  refine (placed.covers item).trans ⟨?_, ?_⟩
  · rintro ⟨place, member⟩
    by_cases fromSource : place = source
    · subst place
      rcases List.mem_append.mp (split.mem_iff.mp member) with inMoved | inKept
      · exact ⟨target, arrived.mem_iff.mpr (List.mem_append_right _ inMoved)⟩
      · exact ⟨source, left.mem_iff.mpr inKept⟩
    · by_cases toTarget : place = target
      · subst place
        exact ⟨target, arrived.mem_iff.mpr (List.mem_append_left _ member)⟩
      · exact ⟨place, (frame place fromSource toTarget).mem_iff.mpr member⟩
  · rintro ⟨place, member⟩
    rcases transfer_origin contents after source target moved kept split left arrived frame
        item place member with
      old | ⟨_, inMoved⟩
    · exact ⟨place, old⟩
    · exact ⟨source, split.mem_iff.mpr (List.mem_append_left _ inMoved)⟩

end Transfer

/-- A batch moves from `source` to `target`; every other container is as before. -/
theorem placed_transfer (contents after : Place → List Item) (live : Item → Prop)
    (placed : Placed contents live) (source target : Place) (moved kept : List Item)
    (different : source ≠ target)
    (split : (contents source).Perm (moved ++ kept))
    (left : (after source).Perm kept)
    (arrived : (after target).Perm (contents target ++ moved))
    (frame : ∀ place, place ≠ source → place ≠ target → (after place).Perm (contents place)) :
    Placed after live where
  once :=
    transfer_once contents after live placed source target moved kept split left
      arrived frame different
  apart item first second atFirst atSecond := by
    have origin :=
      transfer_origin contents after source target moved kept split left arrived frame item
    have arrival :=
      transfer_arrival contents after live placed source target moved kept split left
        arrived frame item
    rcases origin first atFirst with oldFirst | ⟨sameFirst, inMoved⟩
    · rcases origin second atSecond with oldSecond | ⟨sameSecond, inMoved⟩
      · exact placed.apart item first second oldFirst oldSecond
      · exact (arrival first inMoved atFirst).trans sameSecond.symm
    · exact sameFirst.trans (arrival second inMoved atSecond).symm
  covers :=
    transfer_covers contents after live placed source target moved kept split left arrived frame

theorem placed_exchange (contents after : Place → List Item) (live : Item → Prop)
    (placed : Placed contents live) (left right : Place) (different : left ≠ right)
    (toLeft : (after left).Perm (contents right)) (toRight : (after right).Perm (contents left))
    (frame : ∀ place, place ≠ left → place ≠ right → (after place).Perm (contents place)) :
    Placed after live := by
  classical
  -- First everything moves to the right, then what was there moves to the left.
  let middle :=
      Function.update (Function.update contents left []) right (contents right ++ contents left)
  have atLeft : middle left = [] := by simp [middle, different]
  have atRight : middle right = contents right ++ contents left := by simp [middle]
  have elsewhere : ∀ place, place ≠ left → place ≠ right → middle place = contents place := by
    intro place notLeft notRight
    simp [middle, notLeft, notRight]
  have gathered : Placed middle live :=
    placed_transfer contents middle live placed left right (contents left) [] different
      (by simp) (by simp [atLeft]) (by simp [atRight])
      (fun place notLeft notRight => by rw [elsewhere place notLeft notRight])
  refine placed_transfer middle after live gathered right left (contents right) (contents left)
    (Ne.symm different) (by rw [atRight]) toRight (by simpa [atLeft] using toLeft) ?_
  intro place notRight notLeft
  rw [elsewhere place notLeft notRight]
  exact frame place notLeft notRight

theorem placed_admit (contents after : Place → List Item) (live alive : Item → Prop)
    (placed : Placed contents live) (target : Place) (entered : List Item)
    (fresh : ∀ item ∈ entered, ¬ live item) (distinct : entered.Nodup)
    (arrived : (after target).Perm (contents target ++ entered))
    (frame : ∀ place, place ≠ target → (after place).Perm (contents place))
    (grows : ∀ item, alive item ↔ live item ∨ item ∈ entered) : Placed after alive := by
  have atTarget : ∀ item, item ∈ after target ↔ item ∈ contents target ∨ item ∈ entered :=
    fun item => arrived.mem_iff.trans List.mem_append
  have unplaced : ∀ item ∈ entered, ∀ place, item ∉ contents place :=
    fun item member place => placed_absent contents live placed item (fresh item member) place
  have origin : ∀ item place, item ∈ after place →
      item ∈ contents place ∨ (place = target ∧ item ∈ entered) := by
    intro item place member
    by_cases toTarget : place = target
    · subst place
      rcases (atTarget item).mp member with old | new
      · exact Or.inl old
      · exact Or.inr ⟨rfl, new⟩
    · exact Or.inl ((frame place toTarget).mem_iff.mp member)
  constructor
  · intro place
    by_cases toTarget : place = target
    · subst place
      refine arrived.nodup_iff.mpr (List.nodup_append.mpr ⟨placed.once _, distinct, ?_⟩)
      intro item old other new same
      subst other
      exact unplaced item new _ old
    · exact (frame place toTarget).nodup_iff.mpr (placed.once place)
  · intro item first second atFirst atSecond
    rcases origin item first atFirst with oldFirst | ⟨sameFirst, new⟩
    · rcases origin item second atSecond with oldSecond | ⟨_, new⟩
      · exact placed.apart item first second oldFirst oldSecond
      · exact False.elim (unplaced item new first oldFirst)
    · rcases origin item second atSecond with oldSecond | ⟨sameSecond, _⟩
      · exact False.elim (unplaced item new second oldSecond)
      · exact sameFirst.trans sameSecond.symm
  · intro item
    rw [grows item, placed.covers item]
    constructor
    · rintro (⟨place, member⟩ | new)
      · by_cases toTarget : place = target
        · subst place
          exact ⟨target, (atTarget item).mpr (Or.inl member)⟩
        · exact ⟨place, (frame place toTarget).mem_iff.mpr member⟩
      · exact ⟨target, (atTarget item).mpr (Or.inr new)⟩
    · rintro ⟨place, member⟩
      rcases origin item place member with old | ⟨_, new⟩
      · exact Or.inl ⟨place, old⟩
      · exact Or.inr new

theorem placed_retire (contents after : Place → List Item) (live alive : Item → Prop)
    (placed : Placed contents live) (source : Place) (gone : Item)
    (split : (contents source).Perm (gone :: after source))
    (frame : ∀ place, place ≠ source → (after place).Perm (contents place))
    (shrinks : ∀ item, alive item ↔ live item ∧ item ≠ gone) : Placed after alive := by
  have whole : (gone :: after source).Nodup := split.nodup_iff.mp (placed.once source)
  have held : gone ∈ contents source := split.mem_iff.mpr List.mem_cons_self
  have origin : ∀ item place, item ∈ after place → item ∈ contents place := by
    intro item place member
    by_cases fromSource : place = source
    · subst place
      exact split.mem_iff.mpr (List.mem_cons_of_mem gone member)
    · exact (frame place fromSource).mem_iff.mp member
  have absent : ∀ place, gone ∉ after place := by
    intro place member
    have same : place = source := placed.apart gone place source (origin gone place member) held
    subst place
    exact (List.nodup_cons.mp whole).1 member
  constructor
  · intro place
    by_cases fromSource : place = source
    · subst place
      exact (List.nodup_cons.mp whole).2
    · exact (frame place fromSource).nodup_iff.mpr (placed.once place)
  · intro item first second atFirst atSecond
    exact placed.apart item first second (origin item first atFirst) (origin item second atSecond)
  · intro item
    rw [shrinks item, placed.covers item]
    constructor
    · rintro ⟨⟨place, member⟩, other⟩
      by_cases fromSource : place = source
      · subst place
        rcases List.mem_cons.mp (split.mem_iff.mp member) with same | kept
        · exact False.elim (other same)
        · exact ⟨source, kept⟩
      · exact ⟨place, (frame place fromSource).mem_iff.mpr member⟩
    · rintro ⟨place, member⟩
      refine ⟨⟨place, origin item place member⟩, ?_⟩
      rintro rfl
      exact absent place member

end NetCore.UniquePlacement
