import NetCore.SendBufferLayout
import Mathlib.Algebra.BigOperators.Group.Finset.Piecewise
import Mathlib.Algebra.Order.BigOperators.Group.Finset

/-! How the send buffers fill up. Nothing in the source resets `_usedSize`: a buffer that goes back
to the pool keeps what was reserved from it, and its next owner goes on behind that. In the runs in
which every reservation stays in its buffer the counters add up to all bytes that were ever
reserved, so the buffers that have to be created grow with them. -/
namespace NetCore.SendBufferGrowth
open TransitionRuns PacketFraming SendBufferPool SendBufferOwnership
  SendBufferBounds SendBufferLayout

variable {Thread : Type} [DecidableEq Thread]

def roomy : Condition (System Thread) (Label Thread) := fun before label after =>
  LegalSize before label after ∧ RecycledHasRoom before label after

structure Filled (system : System Thread) : Prop where
  bounded : Bounded system
  accepted : Accepted system
  laid : LaidOut system

omit [DecidableEq Thread] in
theorem start_filled : Filled (System.start : System Thread) where
  bounded := start_bounded
  accepted := start_accepted
  laid := start_laid_out

theorem step_filled (before after : System Thread) (label : Label Thread) (filled : Filled before)
    (taken : step before label = some after) (allowed : roomy before label after) :
    Filled after where
  bounded := step_bounded before after label filled.bounded taken allowed.2
  accepted := step_accepted before after label filled.accepted taken allowed.1
  laid := step_laid_out before after label filled.bounded filled.laid taken

theorem run_filled (system : System Thread) (reached : Reachable step roomy System.start system) :
    Filled system :=
  reachable_invariant step roomy Filled System.start start_filled
    (fun before label after filled taken allowed =>
      step_filled before after label filled taken allowed) system reached

theorem sizes_by_buffer (regions : List Region) (count : Nat)
    (known : ∀ region ∈ regions, region.sendBuffer < count) :
    (regions.map Region.size).sum = ∑ sendBuffer ∈ Finset.range count,
      reservedFrom regions sendBuffer := by
  induction regions with
  | nil => exact (Finset.sum_const_zero).symm
  | cons region rest ih =>
      have first : region.sendBuffer ∈ Finset.range count :=
        Finset.mem_range.mpr (known region List.mem_cons_self)
      have split : ∀ sendBuffer, reservedFrom (region :: rest) sendBuffer =
          (if region.sendBuffer = sendBuffer then region.size else 0) +
            reservedFrom rest sendBuffer := by
        intro sendBuffer
        by_cases same : region.sendBuffer = sendBuffer <;> simp [reservedFrom, same]
      rw [List.map_cons, List.sum_cons,
        ih fun other member => known other (List.mem_cons_of_mem region member),
        Finset.sum_congr rfl fun sendBuffer _ => split sendBuffer, Finset.sum_add_distrib,
        Finset.sum_ite_eq, if_pos first]

/-- All bytes ever reserved still lie in the buffers: their counters add up to them, and a buffer
holds `MAX_BUFFER_SIZE` bytes in its whole life, however often it has been through the pool. -/
theorem reserved_bytes_accumulate (system : System Thread)
    (reached : Reachable step roomy System.start system) :
    (system.regions.map Region.size).sum =
      ∑ sendBuffer ∈ Finset.range system.created, (system.buffers sendBuffer).usedSize ∧
    (system.regions.map Region.size).sum ≤ maxBufferSize * system.created := by
  have filled := run_filled system reached
  have total : (system.regions.map Region.size).sum =
      ∑ sendBuffer ∈ Finset.range system.created, (system.buffers sendBuffer).usedSize := by
    rw [sizes_by_buffer system.regions system.created filled.laid.known]
    exact Finset.sum_congr rfl fun sendBuffer _ => (filled.laid.used sendBuffer).symm
  refine ⟨total, ?_⟩
  rw [total, Nat.mul_comm]
  have bound := Finset.sum_le_card_nsmul (Finset.range system.created) _ maxBufferSize
    fun sendBuffer _ => filled.bounded.used sendBuffer
  rwa [Finset.card_range] at bound

/-- One thread goes on in the half-used buffers of another. -/
theorem reserved_bytes_accumulate_take_over : ∃ system : System Bool,
    Reachable step roomy System.start system ∧ system.created = 3 ∧
    (system.regions.map Region.size).sum = 8350 ∧
    (system.regions.map Region.size).sum ≤ maxBufferSize * system.created := by
  obtain ⟨system, reached, seen⟩ := replay_reachable step roomy
    (fun before label after => legalSize before label after && recycledHasRoom before label after)
    (fun before label after checked => by
      rw [Bool.and_eq_true] at checked
      exact ⟨legal_size_sound before after label checked.1,
        recycled_has_room_sound before after label checked.2⟩)
    (fun system : System Bool => (system.created, (system.regions.map Region.size).sum))
    (3, 8350) takeOverLabels System.start (by decide +kernel)
  rw [Prod.mk.injEq] at seen
  exact ⟨system, reached, seen.1, seen.2, (reserved_bytes_accumulate system reached).2⟩

end NetCore.SendBufferGrowth
