import NetCore.SendBufferBounds
import Mathlib.Algebra.BigOperators.Group.List.Basic
import Mathlib.Data.List.Pairwise

/-! The regions handed out from one buffer. `_usedSize` travels with the buffer and
only grows, as long as no `memset` reaches it: then the regions of a buffer follow
each other, and a frame that only a `WSABUF` refers to is left alone by every later
`Reserve`. A roll-over onto a recycled buffer without room clears the counter
before it is read, and the buffer is handed out from its beginning again. -/
namespace NetCore.SendBufferLayout
open TransitionRuns UniquePlacement ByteMemory PacketFraming SendBufferPool SendBufferOwnership
open SendBufferBounds

variable {Thread : Type} [DecidableEq Thread]

def reservedFrom (regions : List Region) (sendBuffer : Nat) : Nat :=
  ((regions.filter fun region => region.sendBuffer = sendBuffer).map Region.size).sum

theorem reserved_from_append (regions : List Region) (region : Region) (sendBuffer : Nat) :
    reservedFrom (regions ++ [region]) sendBuffer =
      reservedFrom regions sendBuffer +
        if region.sendBuffer = sendBuffer then region.size else 0 := by
  by_cases same : region.sendBuffer = sendBuffer <;>
    simp [reservedFrom, List.filter_append, same]

/-- `_usedSize` counts the bytes reserved from the buffer, whoever reserved them,
so that each region ends where the next one of its buffer begins. -/
structure LaidOut (system : System Thread) : Prop where
  used : ∀ sendBuffer,
    (system.buffers sendBuffer).usedSize = reservedFrom system.regions sendBuffer
  known : ∀ region ∈ system.regions, region.sendBuffer < system.created
  ends : ∀ region ∈ system.regions,
    region.offset + region.size ≤ reservedFrom system.regions region.sendBuffer
  ordered : system.regions.Pairwise Region.Before

omit [DecidableEq Thread] in
theorem start_laid_out : LaidOut (System.start : System Thread) where
  used _ := rfl
  known := by simp [System.start]
  ends := by simp [System.start]
  ordered := .nil

omit [DecidableEq Thread] in
theorem laid_out_fresh (system : System Thread) (laid : LaidOut system) (sendBuffer : Nat)
    (fresh : system.created ≤ sendBuffer) : (system.buffers sendBuffer).usedSize = 0 := by
  have none : (system.regions.filter fun region => region.sendBuffer = sendBuffer) = [] := by
    apply List.filter_eq_nil_iff.mpr
    intro region member same
    have bound := laid.known region member
    simp only [decide_eq_true_eq] at same
    omega
  rw [laid.used, reservedFrom, none, List.map_nil, List.sum_nil]

omit [DecidableEq Thread] in
theorem laid_out_frame (before after : System Thread) (laid : LaidOut before)
    (regions : after.regions = before.regions) (created : before.created ≤ after.created)
    (used : ∀ sendBuffer, (after.buffers sendBuffer).usedSize =
      (before.buffers sendBuffer).usedSize) : LaidOut after where
  used sendBuffer := by rw [used, laid.used, regions]
  known region member := by
    rw [regions] at member
    exact Nat.lt_of_lt_of_le (laid.known region member) created
  ends := by
    rw [regions]
    exact laid.ends
  ordered := by
    rw [regions]
    exact laid.ordered

omit [DecidableEq Thread] in
theorem append_laid_out (before after : System Thread) (laid : LaidOut before)
    (sendBuffer size : Nat) (exists_ : sendBuffer < before.created)
    (created : after.created = before.created)
    (regions : after.regions =
      before.regions ++ [⟨sendBuffer, (before.buffers sendBuffer).usedSize, size⟩])
    (grown : (after.buffers sendBuffer).usedSize = (before.buffers sendBuffer).usedSize + size)
    (frame : ∀ other, other ≠ sendBuffer →
      (after.buffers other).usedSize = (before.buffers other).usedSize) : LaidOut after := by
  have total : ∀ other, reservedFrom after.regions other =
      reservedFrom before.regions other + if sendBuffer = other then size else 0 := by
    intro other
    rw [regions, reserved_from_append]
  constructor
  case used =>
    intro other
    by_cases same : other = sendBuffer
    · subst other
      rw [grown, laid.used, total, if_pos rfl]
    · rw [frame other same, laid.used, total, if_neg (Ne.symm same), Nat.add_zero]
  case known =>
    intro region member
    rw [regions, List.mem_append, List.mem_singleton] at member
    rw [created]
    rcases member with old | rfl
    · exact laid.known region old
    · exact exists_
  case ends =>
    intro region member
    rw [regions, List.mem_append, List.mem_singleton] at member
    rw [total]
    rcases member with old | rfl
    · exact Nat.le_trans (laid.ends region old) (Nat.le_add_right _ _)
    · simp [laid.used]
  case ordered =>
    rw [regions]
    refine List.pairwise_append.mpr ⟨laid.ordered, List.pairwise_singleton _ _, ?_⟩
    intro first member second last
    rw [List.mem_singleton] at last
    subst second
    intro same
    simp only at same ⊢
    rw [laid.used, ← same]
    exact laid.ends first member

theorem step_laid_out (before after : System Thread) (label : Label Thread)
    (bounded : Bounded before) (laid : LaidOut before) (taken : step before label = some after) :
    LaidOut after := by
  cases step_change before after label taken with
  | none _ buffers created regions | refused _ _ _ _ _ _ buffers created regions =>
      apply laid_out_frame before after laid regions (Nat.le_of_eq created.symm)
      intro sendBuffer
      rw [buffers]
  | constructed _ buffers created regions _ =>
      apply laid_out_frame before after laid regions (by omega)
      intro sendBuffer
      rw [buffers]
      by_cases new : sendBuffer = before.created
      · rw [new, Function.update_self, laid_out_fresh before laid before.created (Nat.le_refl _)]
        rfl
      · rw [Function.update_of_ne new]
  | reserved thread sendBuffer size held stands grown offset answered buffers created regions _ _ =>
      obtain ⟨-, rfl, rfl⟩ :=
        reserved_exact before bounded thread sendBuffer size held stands grown offset answered
      refine append_laid_out before after laid sendBuffer size
        (tls_created before bounded.owned thread sendBuffer held) created regions ?_ ?_
      · rw [buffers, Function.update_self]
      · intro other different
        rw [buffers, Function.update_of_ne different]
  | written region bytes given fits buffers created regions _ =>
      apply laid_out_frame before after laid regions (Nat.le_of_eq created.symm)
      intro sendBuffer
      rw [buffers]
      by_cases same : sendBuffer = region.sendBuffer
      · rw [same, Function.update_self, written_inside before bounded region given bytes fits]
      · rw [Function.update_of_ne same]

theorem run_laid_out (admitted : Condition (System Thread) (Label Thread)) (system : System Thread)
    (room : ∀ before label after, admitted before label after → RecycledHasRoom before label after)
    (reached : Reachable step admitted System.start system) :
    Bounded system ∧ LaidOut system := by
  refine reachable_invariant step admitted (fun system => Bounded system ∧ LaidOut system)
    System.start ⟨start_bounded, start_laid_out⟩ ?_ system reached
  intro before label after holds taken allowed
  exact ⟨step_bounded before after label holds.1 taken (room before label after allowed),
    step_laid_out before after label holds.1 holds.2 taken⟩

instance region_apart_symm : Std.Symm Region.Apart where
  symm _ _ apart same := (apart same.symm).symm

omit [DecidableEq Thread] in
theorem regions_pairwise_apart (system : System Thread) (laid : LaidOut system) :
    system.regions.Pairwise Region.Apart :=
  laid.ordered.imp fun ordered same => Or.inl (ordered same)

/-- No step but a write to the region itself changes the bytes of a region. -/
theorem step_bytes (before after : System Thread) (label : Label Thread) (bounded : Bounded before)
    (laid : LaidOut before) (taken : step before label = some after)
    (region : Region) (given : region ∈ before.regions)
    (unwritten : ∀ bytes, label ≠ .write region bytes) :
    region.bytes after = region.bytes before := by
  unfold Region.bytes
  cases step_change before after label taken with
  | none _ buffers _ _ _ | refused _ _ _ _ _ _ buffers _ _ => rw [buffers]
  | constructed _ buffers _ _ _ =>
      rw [buffers, Function.update_of_ne (Nat.ne_of_lt (laid.known region given))]
  | reserved thread sendBuffer size held stands grown offset answered buffers _ _ _ _ =>
      obtain ⟨-, rfl, rfl⟩ :=
        reserved_exact before bounded thread sendBuffer size held stands grown offset answered
      rw [buffers]
      by_cases same : region.sendBuffer = sendBuffer
      · subst sendBuffer
        -- The `memset` begins at `_usedSize`, behind all earlier regions of the buffer.
        rw [Function.update_self]
        apply load_store_disjoint
        rw [laid.used]
        exact .inl (laid.ends region given)
      · rw [Function.update_of_ne same]
  | written other bytes known fits buffers _ _ _ =>
      rw [buffers, written_inside before bounded other known bytes fits]
      have different : region ≠ other := by
        rintro rfl
        exact unwritten bytes rfl
      by_cases same : region.sendBuffer = other.sendBuffer
      · have apart := (regions_pairwise_apart before laid).forall given known different same
        rw [same, Function.update_self]
        apply load_store_disjoint
        omega
      · rw [Function.update_of_ne same]

theorem run_bytes (system later : System Thread) (bounded : Bounded system) (laid : LaidOut system)
    (region : Region) (given : region ∈ system.regions)
    (run : Reachable step (fun before label after => RecycledHasRoom before label after ∧
      ∀ bytes, label ≠ .write region bytes) system later) :
    region.bytes later = region.bytes system := by
  have holds : (Bounded later ∧ LaidOut later) ∧ region ∈ later.regions ∧
      region.bytes later = region.bytes system := by
    refine reachable_invariant step _ (fun later => (Bounded later ∧ LaidOut later) ∧
      region ∈ later.regions ∧ region.bytes later = region.bytes system) system
      ⟨⟨bounded, laid⟩, given, rfl⟩ ?_ later run
    rintro before label after ⟨⟨bounds, placed⟩, known, same⟩ taken ⟨room, unwritten⟩
    refine ⟨⟨step_bounded before after label bounds taken room,
      step_laid_out before after label bounds placed taken⟩,
      (step_regions before after label taken).subset known, ?_⟩
    rw [step_bytes before after label bounds placed taken region known unwritten, same]
  exact holds.2.2

/-- Each buffer ever created has one owner, regions of one buffer are apart, and
the bytes of a region change only through writes to that region, in the runs whose
roll-overs never land on a recycled buffer without room. -/
theorem region_handed_out_once (system : System Thread)
    (reached : Reachable step RecycledHasRoom System.start system) :
    (∀ sendBuffer < system.created,
      ∃! slot : Place Thread × Nat, (contents system slot.1)[slot.2]? = some sendBuffer) ∧
    system.regions.Pairwise Region.Apart ∧
    ∀ region ∈ system.regions, ∀ later : System Thread,
      Reachable step (fun before label after => RecycledHasRoom before label after ∧
        ∀ bytes, label ≠ .write region bytes) system later →
      region.bytes later = region.bytes system := by
  obtain ⟨bounded, laid⟩ := run_laid_out RecycledHasRoom system (fun _ _ _ room => room) reached
  refine ⟨?_, regions_pairwise_apart system laid, ?_⟩
  · intro sendBuffer created
    exact placed_slot_unique (contents system) _ bounded.owned sendBuffer created
  · intro region given later run
    exact run_bytes system later bounded laid region given run

/-- Two threads with a buffer each; the first has rolled over, and the second goes on
in the buffer that the first has given back. -/
def rollOverLabels : List (Label Bool) :=
  [.initTls true, .advance true, .advance true, .advance true,
   .initTls false, .advance false, .advance false, .advance false,
   .reserve true 4000, .advance true,
   .reserve true 200, .advance true, .advance true, .advance true, .advance true, .advance true,
   .reserve false 4080, .advance false,
   .reserve false 90, .advance false, .advance false, .advance false, .advance false]

theorem region_handed_out_once_roll_over : ∃ system : System Bool,
    Reachable step RecycledHasRoom System.start system ∧ system.pool = [1] ∧
    system.regions = [⟨0, 0, 4000⟩, ⟨2, 0, 200⟩, ⟨1, 0, 4080⟩, ⟨0, 4000, 90⟩] ∧
    system.regions.Pairwise Region.Apart := by
  obtain ⟨system, reached, seen⟩ := replay_reachable step RecycledHasRoom recycledHasRoom
    (fun before label after checked => recycled_has_room_sound before after label checked)
    (fun system : System Bool => (system.pool, system.regions))
    ([1], [⟨0, 0, 4000⟩, ⟨2, 0, 200⟩, ⟨1, 0, 4080⟩, ⟨0, 4000, 90⟩]) rollOverLabels System.start
    (by decide +kernel)
  rw [Prod.mk.injEq] at seen
  exact ⟨system, reached, seen.1, seen.2, (region_handed_out_once system reached).2.1⟩

/-- One thread fills two buffers to 4000 bytes and rolls over to the first of them: the
`memset` of 200 bytes there clears the counter, and `Reserve` returns the beginning. -/
def recycledLabels : List (Label Unit) :=
  [.initTls (), .advance (), .advance (), .advance (),
   .reserve () 4000, .advance (),
   .reserve () 4000, .advance (), .advance (), .advance (), .advance (), .advance (),
   .reserve () 200, .advance (), .advance (), .advance (), .advance ()]

theorem region_handed_out_twice : ∃ system : System Unit,
    Reachable step (fun _ _ _ => True) System.start system ∧
    system.regions = [⟨0, 0, 4000⟩, ⟨1, 0, 4000⟩, ⟨0, 0, 200⟩] ∧
    (∀ sendBuffer, reservedFrom system.regions sendBuffer < 2 ^ 32) ∧
    (system.buffers 0).usedSize = 200 ∧ ¬ system.regions.Pairwise Region.Apart := by
  obtain ⟨system, reached, seen⟩ := replay_reachable step (fun _ _ _ => True) (fun _ _ _ => true)
    (fun _ _ _ _ => trivial)
    (fun system : System Unit => (system.regions, (system.buffers 0).usedSize))
    ([⟨0, 0, 4000⟩, ⟨1, 0, 4000⟩, ⟨0, 0, 200⟩], 200) recycledLabels System.start
    (by decide +kernel)
  rw [Prod.mk.injEq] at seen
  refine ⟨system, reached, seen.1, ?_, seen.2, ?_⟩
  · intro sendBuffer
    rw [seen.1]
    simp only [reservedFrom, List.filter_cons, List.filter_nil]
    split_ifs <;> decide
  · intro apart
    rw [seen.1] at apart
    have overlap := (List.pairwise_cons.mp apart).1 ⟨0, 0, 200⟩ (by simp) rfl
    simp only at overlap
    omega

end NetCore.SendBufferLayout
