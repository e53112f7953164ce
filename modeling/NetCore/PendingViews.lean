import Mathlib.Algebra.BigOperators.Group.Finset.Piecewise
import Mathlib.Algebra.Order.Group.Multiset
import Mathlib.Data.Multiset.UnionInter
import Mathlib.Tactic.Abel

/-! Parties that each have a list of calls still to make. A view shows of a call the items
it has to deal with, and `gather` is what the calls of all parties show. One party takes
its next calls off its list and puts others in their place; `gather_exchange` says what
that changes, whatever the others have to do. Tokens that are passed between the parties
are an instance: they are never doubled when `gather` has no duplicates. -/
namespace NetCore.PendingViews

universe u v w x
variable {Party : Type u} {Call : Type v} {Item : Type w} [Fintype Party]

theorem sum_exchange {Value : Type x} [AddCommMonoid Value] [DecidableEq Party]
    (old new : Party → Value) (party : Party)
    (same : ∀ other, other ≠ party → new other = old other) :
    ∑ other, new other + old party = ∑ other, old other + new party := by
  have others : ∑ other ∈ Finset.univ.erase party,
      new other = ∑ other ∈ Finset.univ.erase party, old other :=
    Finset.sum_congr rfl fun other member => same other (Finset.ne_of_mem_erase member)
  rw [← Finset.add_sum_erase Finset.univ new (Finset.mem_univ party),
    ← Finset.add_sum_erase Finset.univ old (Finset.mem_univ party), others]
  abel

def gather (view : Call → List Item) (pending : Party → List Call) : Multiset Item :=
  ∑ party, ((pending party).flatMap view : Multiset Item)

section Views
variable (view : Call → List Item) (pending : Party → List Call)

theorem gather_mem (item : Item) :
    item ∈ gather view pending ↔ ∃ party, ∃ call ∈ pending party, item ∈ view call := by
  simp [gather, Multiset.mem_sum]

theorem gather_nil : gather view (fun _ : Party => []) = 0 :=
  Finset.sum_eq_zero fun _ _ => rfl

variable [DecidableEq Party]

theorem gather_split (party : Party) :
    gather view pending = ((pending party).flatMap view : Multiset Item) +
    ∑ other ∈ Finset.univ.erase party, ((pending other).flatMap view : Multiset Item) :=
  (Finset.add_sum_erase Finset.univ _ (Finset.mem_univ party)).symm

theorem gather_apart (unique : (gather view pending).Nodup) (item : Item) (left right : Party)
    (atLeft : item ∈ (pending left).flatMap view) (atRight : item ∈ (pending right).flatMap view) :
    left = right := by
  by_contra different
  rw [gather_split view pending left] at unique
  refine Multiset.disjoint_left.mp (Multiset.nodup_add.mp unique).2.2 atLeft ?_
  refine Multiset.mem_sum.mpr ⟨right, ?_, atRight⟩
  exact Finset.mem_erase.mpr ⟨fun same => different same.symm, Finset.mem_univ right⟩

end Views

section Exchange
variable [DecidableEq Party] (view : Call → List Item) (pending : Party → List Call) (party : Party)
  (olds news rest : List Call) (stands : pending party = olds ++ rest)
include stands

/-- A party goes on from `olds` to `news`, with `rest` behind them. -/
theorem gather_exchange :
    gather view (Function.update pending party (news ++ rest)) +
      (olds.flatMap view : Multiset Item) =
      gather view pending + (news.flatMap view : Multiset Item) := by
  have exchange := sum_exchange (fun other => ((pending other).flatMap view : Multiset Item))
    (fun other =>
      ((Function.update pending party (news ++ rest) other).flatMap view : Multiset Item)) party
    (fun other different => by rw [Function.update_of_ne different])
  simp only [Function.update_self, stands, List.flatMap_append, ← Multiset.coe_add] at exchange
  -- Both sides still have what the party keeps.
  rw [← add_assoc, ← add_assoc] at exchange
  exact add_right_cancel exchange

theorem gather_keeps (same : news.flatMap view = olds.flatMap view) :
    gather view (Function.update pending party (news ++ rest)) = gather view pending := by
  have exchange := gather_exchange view pending party olds news rest stands
  rw [same] at exchange
  exact add_right_cancel exchange

theorem gather_gains (item : Item) (old : olds.flatMap view = [])
    (new : news.flatMap view = [item]) :
    gather view (Function.update pending party (news ++ rest)) = item ::ₘ gather view pending := by
  have exchange := gather_exchange view pending party olds news rest stands
  rw [old, new, Multiset.coe_nil, add_zero, Multiset.coe_singleton] at exchange
  rw [exchange, add_comm, Multiset.singleton_add]

theorem gather_loses (item : Item) (old : olds.flatMap view = [item])
    (new : news.flatMap view = []) :
    gather view pending = item ::ₘ gather view (Function.update pending party (news ++ rest)) := by
  have exchange := gather_exchange view pending party olds news rest stands
  rw [old, new, Multiset.coe_nil, add_zero, Multiset.coe_singleton] at exchange
  rw [← exchange, add_comm, Multiset.singleton_add]

end Exchange

end NetCore.PendingViews
