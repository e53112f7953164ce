import NetCore.SendBufferOwnership

/-! Bounds of the regions that `SendBufferManager::Reserve` returns. The free size
is tested on the buffer in `TLS_SendBuffer`, and when the test fails the buffer
that `Pop` returns is used without a second test. A new buffer always has room for
a legal size; a recycled one has kept its `_usedSize` and may not. `RecycledHasRoom`
excludes exactly the roll-overs onto a recycled buffer without room, and in the
runs without such a step every reservation stays inside its buffer, so that no
`memset` ever reaches the counter behind the array. -/
namespace NetCore.SendBufferBounds
open TransitionRuns UniquePlacement ByteMemory PacketFraming SendBufferPool SendBufferOwnership

variable {Thread : Type} [DecidableEq Thread]

def LegalSize : Condition (System Thread) (Label Thread) := fun _ label _ =>
  ∀ thread size, label = .reserve thread size → size ≤ maxBufferSize

def HasRoom (sendBuffer : SendBuffer) (size : Nat) : Prop :=
  size ≤ maxBufferSize → size ≤ sendBuffer.freeSize

/-- A `Pop` made by `Reserve(size)` finds the pool empty or a buffer with `size`
bytes left on top of it. -/
def RecycledHasRoom : Condition (System Thread) (Label Thread) := fun before label _ =>
  ∀ thread size sendBuffer, label = .advance thread →
    before.phase thread = .popping (.reserve size) →
    before.pool.getLast? = some sendBuffer → HasRoom (before.buffers sendBuffer) size

/-- Every region returned lies in its buffer, so no counter passes the end of the
buffer, `FreeSize` does not wrap and `Reserve` does not stop the program. -/
structure InBounds (system : System Thread) : Prop where
  regions : ∀ region ∈ system.regions, region.offset + region.size ≤ maxBufferSize
  used : ∀ sendBuffer, (system.buffers sendBuffer).usedSize ≤ maxBufferSize
  free : ∀ sendBuffer, (system.buffers sendBuffer).freeSize + (system.buffers sendBuffer).usedSize =
    maxBufferSize
  running : system.crash = none

def requested : Phase → Option Nat
  | .popping (.reserve size) => some size
  | .creating (.reserve size) => some size
  | .popped (.reserve size) _ => some size
  | .releasing (.reserve size) _ => some size
  | .reserving size => some size
  | _ => none

def Fits (system : System Thread) (thread : Thread) : Prop :=
  match system.phase thread with
  | .popped (.reserve size) sendBuffer => HasRoom (system.buffers sendBuffer) size
  | .releasing (.reserve size) _ => ∀ sendBuffer, system.tls thread = some sendBuffer →
      HasRoom (system.buffers sendBuffer) size
  | .reserving size => ∀ sendBuffer, system.tls thread = some sendBuffer →
      HasRoom (system.buffers sendBuffer) size
  | _ => True

structure Bounded (system : System Thread) : Prop where
  owned : Owned system
  regions : ∀ region ∈ system.regions, region.offset + region.size ≤ maxBufferSize
  used : ∀ sendBuffer, (system.buffers sendBuffer).usedSize ≤ maxBufferSize
  fits : ∀ thread, Fits system thread

structure Accepted (system : System Thread) : Prop where
  running : system.crash = none
  sizes : ∀ thread size, requested (system.phase thread) = some size → size ≤ maxBufferSize

omit [DecidableEq Thread] in
theorem start_bounded : Bounded (System.start : System Thread) where
  owned := start_owned
  regions := by simp [System.start]
  used _ := Nat.zero_le _
  fits _ := trivial

omit [DecidableEq Thread] in
theorem start_accepted : Accepted (System.start : System Thread) where
  running := rfl
  sizes := by simp [System.start, requested]

omit [DecidableEq Thread] in
theorem reserving_inside (system : System Thread) (holds : Bounded system) (thread : Thread)
    (sendBuffer size : Nat) (held : system.tls thread = some sendBuffer)
    (stands : system.phase thread = .reserving size) (legal : size ≤ maxBufferSize) :
    (system.buffers sendBuffer).usedSize + size ≤ maxBufferSize := by
  have fits := holds.fits thread
  simp only [Fits, stands] at fits
  have enough := fits sendBuffer held legal
  have exact_ := (system.buffers sendBuffer).free_size_exact (holds.used sendBuffer)
  omega

theorem reserve_legal (sendBuffer grown : SendBuffer) (size offset : Nat)
    (answered : sendBuffer.reserve size = .ok (grown, offset)) : size ≤ maxBufferSize := by
  by_contra large
  simp [SendBuffer.reserve, Nat.lt_of_not_le large] at answered

omit [DecidableEq Thread] in
theorem reserved_exact (system : System Thread) (holds : Bounded system) (thread : Thread)
    (sendBuffer size : Nat) (held : system.tls thread = some sendBuffer)
    (stands : system.phase thread = .reserving size) (grown : SendBuffer) (offset : Nat)
    (answered : (system.buffers sendBuffer).reserve size = .ok (grown, offset)) :
    (system.buffers sendBuffer).usedSize + size ≤ maxBufferSize ∧
      grown =
        { buffer := store (system.buffers sendBuffer).buffer (system.buffers sendBuffer).usedSize
            (List.replicate size 0)
          usedSize := (system.buffers sendBuffer).usedSize + size } ∧
      offset = (system.buffers sendBuffer).usedSize := by
  have inside := reserving_inside system holds thread sendBuffer size held stands
    (reserve_legal _ _ _ _ answered)
  rw [SendBuffer.reserve_inside _ _ inside, Except.ok.injEq, Prod.mk.injEq] at answered
  exact ⟨inside, answered.1.symm, answered.2.symm⟩

omit [DecidableEq Thread] in
theorem written_inside (system : System Thread) (holds : Bounded system) (region : Region)
    (given : region ∈ system.regions) (bytes : List UInt8) (fits : bytes.length ≤ region.size) :
    (system.buffers region.sendBuffer).overwrite region.offset bytes.length bytes =
      { system.buffers region.sendBuffer with
        buffer := store (system.buffers region.sendBuffer).buffer region.offset bytes } := by
  have inside := holds.regions region given
  exact SendBuffer.overwrite_inside _ _ _ _ (by omega)

theorem enter_elsewhere (system : System Thread) (thread other : Thread) (phase : Phase)
    (different : other ≠ thread) :
    (enter system thread phase).phase other = system.phase other := by
  simp [enter, different]

theorem advance_elsewhere (before after : System Thread) (thread other : Thread)
    (different : other ≠ thread) (taken : advance before thread = some after) :
    after.phase other = before.phase other ∧ after.tls other = before.tls other := by
  unfold advance at taken
  cases stands : before.phase thread with
  | idle => simp [stands] at taken
  | exited => simp [stands] at taken
  | popping caller =>
      simp only [stands] at taken
      split at taken <;>
        (rw [Option.some.injEq] at taken
         subst taken
         exact ⟨enter_elsewhere before thread other _ different, rfl⟩)
  | creating caller =>
      simp only [stands, Option.some.injEq] at taken
      subst taken
      exact ⟨enter_elsewhere before thread other _ different, rfl⟩
  | popped caller sendBuffer =>
      cases caller <;> simp only [stands, Option.some.injEq] at taken <;> subst taken <;>
        simp [assign, enter, different]
  | releasing caller sendBuffer =>
      simp only [stands, Option.some.injEq] at taken
      subst taken
      simp [push, enter, different]
  | reserving size =>
      simp only [stands] at taken
      obtain ⟨sendBuffer, held, same⟩ := Option.map_eq_some_iff.mp taken
      subst same
      unfold reserveFrom
      split <;> simp [enter, different]
  | exiting sendBuffer =>
      simp only [stands, Option.some.injEq] at taken
      subst taken
      simp [push, enter, different]

theorem step_elsewhere (before after : System Thread) (label : Label Thread) (other : Thread)
    (different : label.thread ≠ some other) (taken : step before label = some after) :
    after.phase other = before.phase other ∧ after.tls other = before.tls other := by
  have apart : ∀ thread, label.thread = some thread → other ≠ thread := by
    rintro thread acting rfl
    exact different acting
  unfold step at taken
  split at taken
  · simp at taken
  cases label with
  | initTls thread =>
      simp only [Option.ite_none_right_eq_some, Option.some.injEq] at taken
      exact taken.2 ▸ ⟨enter_elsewhere before thread other _ (apart thread rfl), rfl⟩
  | pop thread =>
      simp only [Option.ite_none_right_eq_some, Option.some.injEq] at taken
      exact taken.2 ▸ ⟨enter_elsewhere before thread other _ (apart thread rfl), rfl⟩
  | reserve thread size =>
      simp only at taken
      split at taken
      · rw [Option.some.injEq] at taken
        exact taken ▸ ⟨enter_elsewhere before thread other _ (apart thread rfl), rfl⟩
      · simp at taken
  | exit thread =>
      simp only [Option.ite_none_right_eq_some, Option.some.injEq] at taken
      have separate := apart thread rfl
      rw [← taken.2]
      simp [enter, separate]
  | advance thread => exact advance_elsewhere before after thread other (apart thread rfl) taken
  | write region bytes =>
      simp only [Option.ite_none_right_eq_some, Option.some.injEq] at taken
      exact taken.2 ▸ ⟨rfl, rfl⟩

theorem used_elsewhere (before after : System Thread) (label : Label Thread) (other : Thread)
    (holds : Bounded before) (different : label.thread ≠ some other)
    (taken : step before label = some after) (place : Place Thread)
    (mine : place = .tls other ∨ place = .transit other) (sendBuffer : Nat)
    (held : sendBuffer ∈ contents before place) :
    (after.buffers sendBuffer).usedSize = (before.buffers sendBuffer).usedSize := by
  have created : sendBuffer < before.created := (holds.owned.covers sendBuffer).mpr ⟨place, held⟩
  cases step_change before after label taken with
  | none _ buffers | refused _ _ _ _ _ _ buffers => rw [buffers]
  | constructed _ buffers => rw [buffers, Function.update_of_ne (Nat.ne_of_lt created)]
  | reserved thread target size owns _ grown offset _ buffers =>
      -- The buffer that grows is the acting thread's own, and owners are unique.
      have separate : sendBuffer ≠ target := by
        rintro rfl
        have same := holds.owned.apart sendBuffer place (.tls thread) held
          (by simp [contents, owns])
        rcases mine with rfl | rfl
        · exact different (congrArg some (Place.tls.inj same).symm)
        · cases same
      rw [buffers, Function.update_of_ne separate]
  | written region bytes given fits buffers =>
      by_cases same : sendBuffer = region.sendBuffer
      · rw [buffers, same, Function.update_self,
          written_inside before holds region given bytes fits]
      · rw [buffers, Function.update_of_ne same]

theorem fits_elsewhere (before after : System Thread) (label : Label Thread) (other : Thread)
    (holds : Bounded before) (different : label.thread ≠ some other)
    (taken : step before label = some after) : Fits after other := by
  obtain ⟨phase, tls⟩ := step_elsewhere before after label other different taken
  have fits := holds.fits other
  have keeps : ∀ place, place = .tls other ∨ place = .transit other →
      ∀ sendBuffer ∈ contents before place, ∀ size,
        HasRoom (before.buffers sendBuffer) size → HasRoom (after.buffers sendBuffer) size := by
    intro place mine sendBuffer held size room
    unfold HasRoom SendBuffer.freeSize
    rw [used_elsewhere before after label other holds different taken place mine sendBuffer held]
    exact room
  have keepsTls : ∀ size, (∀ sendBuffer, before.tls other = some sendBuffer →
      HasRoom (before.buffers sendBuffer) size) → ∀ sendBuffer, before.tls other = some sendBuffer →
      HasRoom (after.buffers sendBuffer) size := by
    intro size room sendBuffer held
    exact keeps (.tls other) (.inl rfl) sendBuffer (by simp [contents, held]) size
      (room sendBuffer held)
  unfold Fits at *
  rw [phase, tls]
  split
  case h_1 size sendBuffer stands =>
    simp only [stands] at fits
    exact keeps (.transit other) (.inr rfl) sendBuffer (by simp [contents, stands]) size fits
  case h_2 size old stands =>
    simp only [stands] at fits
    exact keepsTls size fits
  case h_3 size stands =>
    simp only [stands] at fits
    exact keepsTls size fits
  case h_4 => trivial

theorem construct_room (size : Nat) : HasRoom SendBuffer.construct size := by
  intro legal
  simp only [SendBuffer.freeSize, SendBuffer.construct, maxBufferSize] at *
  omega

theorem advance_fits (before after : System Thread) (thread : Thread) (fits : Fits before thread)
    (room : RecycledHasRoom before (.advance thread) after)
    (taken : advance before thread = some after) :
    Fits after thread := by
  unfold advance at taken
  unfold Fits at fits
  cases stands : before.phase thread with
  | idle => simp [stands] at taken
  | exited => simp [stands] at taken
  | popping caller =>
      cases last : before.pool.getLast? with
      | none =>
          simp only [stands, last, Option.some.injEq] at taken
          subst taken
          simp [Fits, enter]
      | some sendBuffer =>
          simp only [stands, last, Option.some.injEq] at taken
          subst taken
          cases caller with
          | initTls => simp [Fits, enter]
          | holder => simp [Fits, enter]
          -- The one place where the source would need the test it does not make.
          | reserve size => simpa [Fits, enter] using room thread size sendBuffer rfl stands last
  | creating caller =>
      simp only [stands, Option.some.injEq] at taken
      subst taken
      cases caller with
      | initTls => simp [Fits, enter]
      | holder => simp [Fits, enter]
      | reserve size => simpa [Fits, enter] using construct_room size
  | popped caller sendBuffer =>
      cases caller with
      | holder =>
          simp only [stands, Option.some.injEq] at taken
          subst taken
          simp [Fits, enter]
      | initTls =>
          simp only [stands, Option.some.injEq] at taken
          subst taken
          cases held : before.tls thread <;> simp [Fits, assign, enter, held, Caller.resume]
      | reserve size =>
          simp only [stands, Option.some.injEq] at taken fits
          subst taken
          cases held : before.tls thread <;>
            simpa [Fits, assign, enter, held, Caller.resume] using fits
  | releasing caller sendBuffer =>
      simp only [stands, Option.some.injEq] at taken fits
      subst taken
      cases caller with
      | initTls => simp [Fits, push, enter, Caller.resume]
      | holder => simp [Fits, push, enter, Caller.resume]
      | reserve size => simpa [Fits, push, enter, Caller.resume] using fits
  | reserving size =>
      simp only [stands] at taken fits
      obtain ⟨sendBuffer, held, same⟩ := Option.map_eq_some_iff.mp taken
      subst same
      unfold reserveFrom
      split
      · simpa [Fits, stands] using fits
      · simp [Fits, enter]
  | exiting sendBuffer =>
      simp only [stands, Option.some.injEq] at taken
      subst taken
      simp [Fits, push, enter]

theorem step_fits_acting (before after : System Thread) (label : Label Thread) (thread : Thread)
    (acting : label.thread = some thread) (fits : Fits before thread)
    (room : RecycledHasRoom before label after) (taken : step before label = some after) :
    Fits after thread := by
  unfold step at taken
  split at taken
  · simp at taken
  cases label with
  | initTls actor =>
      simp only [Option.ite_none_right_eq_some, Option.some.injEq] at taken
      obtain rfl : actor = thread := Option.some.inj acting
      rw [← taken.2]
      simp [Fits, enter]
  | pop actor =>
      simp only [Option.ite_none_right_eq_some, Option.some.injEq] at taken
      obtain rfl : actor = thread := Option.some.inj acting
      rw [← taken.2]
      simp [Fits, enter]
  | reserve actor size =>
      obtain rfl : actor = thread := Option.some.inj acting
      simp only at taken
      split at taken
      case h_1 sendBuffer _ held =>
        rw [Option.some.injEq] at taken
        rw [← taken]
        -- If the test passes, it has passed on this very buffer.
        split
        · simp [Fits, enter]
        case isFalse enough =>
          have passes : HasRoom (before.buffers sendBuffer) size := fun _ => Nat.le_of_not_lt enough
          simpa [Fits, enter, held] using passes
      case h_2 => simp at taken
  | exit actor =>
      simp only [Option.ite_none_right_eq_some, Option.some.injEq] at taken
      obtain rfl : actor = thread := Option.some.inj acting
      rw [← taken.2]
      cases held : before.tls actor <;> simp [Fits, enter]
  | advance actor =>
      obtain rfl : actor = thread := Option.some.inj acting
      exact advance_fits before after actor fits room taken
  | write region bytes => simp [Label.thread] at acting

theorem step_contained (before after : System Thread) (label : Label Thread)
    (holds : Bounded before) (taken : step before label = some after) :
    (∀ region ∈ after.regions, region.offset + region.size ≤ maxBufferSize) ∧
      ∀ sendBuffer, (after.buffers sendBuffer).usedSize ≤ maxBufferSize := by
  cases step_change before after label taken with
  | none _ buffers _ regions | refused _ _ _ _ _ _ buffers _ regions =>
      rw [buffers, regions]
      exact ⟨holds.regions, holds.used⟩
  | constructed _ buffers _ regions _ =>
      rw [buffers, regions]
      refine ⟨holds.regions, fun sendBuffer => ?_⟩
      by_cases new : sendBuffer = before.created
      · simp [new, SendBuffer.construct]
      · rw [Function.update_of_ne new]
        exact holds.used sendBuffer
  | written region bytes given fits buffers _ regions _ =>
      rw [buffers, regions]
      refine ⟨holds.regions, fun sendBuffer => ?_⟩
      by_cases same : sendBuffer = region.sendBuffer
      · rw [same, Function.update_self, written_inside before holds region given bytes fits]
        exact holds.used region.sendBuffer
      · rw [Function.update_of_ne same]
        exact holds.used sendBuffer
  | reserved thread sendBuffer size held stands grown offset answered buffers _ regions _ _ =>
      obtain ⟨inside, rfl, rfl⟩ :=
        reserved_exact before holds thread sendBuffer size held stands grown offset answered
      rw [buffers, regions]
      refine ⟨?_, fun other => ?_⟩
      · intro region member
        rw [List.mem_append, List.mem_singleton] at member
        rcases member with old | rfl
        · exact holds.regions region old
        · exact inside
      · by_cases same : other = sendBuffer
        · rw [same, Function.update_self]
          exact inside
        · rw [Function.update_of_ne same]
          exact holds.used other

theorem step_bounded (before after : System Thread) (label : Label Thread) (holds : Bounded before)
    (taken : step before label = some after) (room : RecycledHasRoom before label after) :
    Bounded after where
  owned := step_owned before after label holds.owned taken
  regions := (step_contained before after label holds taken).1
  used := (step_contained before after label holds taken).2
  fits thread := by
    by_cases acting : label.thread = some thread
    · exact step_fits_acting before after label thread acting (holds.fits thread) room taken
    · exact fits_elsewhere before after label thread holds acting taken

@[simp] theorem creating_requested (caller : Caller) :
    requested (.creating caller) = requested (.popping caller) := by
  cases caller <;> rfl

@[simp] theorem popped_requested (caller : Caller) (sendBuffer : Nat) :
    requested (.popped caller sendBuffer) = requested (.popping caller) := by
  cases caller <;> rfl

@[simp] theorem releasing_requested (caller : Caller) (sendBuffer : Nat) :
    requested (.releasing caller sendBuffer) = requested (.popping caller) := by
  cases caller <;> rfl

@[simp] theorem resume_requested (caller : Caller) :
    requested caller.resume = requested (.popping caller) := by
  cases caller <;> rfl

theorem advance_requested (before after : System Thread) (thread : Thread) (size : Nat)
    (taken : advance before thread = some after)
    (asks : requested (after.phase thread) = some size) :
    requested (before.phase thread) = some size := by
  unfold advance at taken
  cases stands : before.phase thread with
  | idle => simp [stands] at taken
  | exited => simp [stands] at taken
  | popping caller =>
      simp only [stands] at taken
      split at taken <;>
        (cases taken
         simpa [enter] using asks)
  | creating caller =>
      simp only [stands, Option.some.injEq] at taken
      subst taken
      simpa [enter] using asks
  | popped caller sendBuffer =>
      cases caller with
      | holder =>
          simp only [stands, Option.some.injEq] at taken
          subst taken
          simpa [enter] using asks
      | initTls =>
          simp only [stands, Option.some.injEq] at taken
          subst taken
          cases held : before.tls thread <;> simpa [assign, enter, held] using asks
      | reserve wanted =>
          simp only [stands, Option.some.injEq] at taken
          subst taken
          cases held : before.tls thread <;> simpa [assign, enter, held] using asks
  | releasing caller sendBuffer =>
      simp only [stands, Option.some.injEq] at taken
      subst taken
      simpa [push, enter] using asks
  | reserving wanted =>
      simp only [stands] at taken
      obtain ⟨sendBuffer, held, same⟩ := Option.map_eq_some_iff.mp taken
      subst same
      unfold reserveFrom at asks
      split at asks
      · simpa [stands] using asks
      · simp [enter, requested] at asks
  | exiting sendBuffer =>
      simp only [stands, Option.some.injEq] at taken
      subst taken
      simp [push, enter, requested] at asks

theorem step_requested (before after : System Thread) (label : Label Thread) (thread : Thread)
    (size : Nat) (taken : step before label = some after)
    (asks : requested (after.phase thread) = some size) :
    requested (before.phase thread) = some size ∨ label = .reserve thread size := by
  by_cases acting : label.thread = some thread
  case neg =>
    rw [(step_elsewhere before after label thread acting taken).1] at asks
    exact .inl asks
  case pos =>
    unfold step at taken
    split at taken
    · simp at taken
    cases label with
    | initTls actor =>
        simp only [Option.ite_none_right_eq_some, Option.some.injEq] at taken
        obtain rfl : actor = thread := Option.some.inj acting
        simp [← taken.2, enter, requested] at asks
    | pop actor =>
        simp only [Option.ite_none_right_eq_some, Option.some.injEq] at taken
        obtain rfl : actor = thread := Option.some.inj acting
        simp [← taken.2, enter, requested] at asks
    | reserve actor wanted =>
        obtain rfl : actor = thread := Option.some.inj acting
        simp only at taken
        split at taken
        case h_1 =>
          rw [Option.some.injEq] at taken
          rw [← taken] at asks
          simp only [enter, Function.update_self] at asks
          right
          split at asks <;> cases asks <;> rfl
        case h_2 => simp at taken
    | exit actor =>
        simp only [Option.ite_none_right_eq_some, Option.some.injEq] at taken
        obtain rfl : actor = thread := Option.some.inj acting
        rw [← taken.2] at asks
        cases held : before.tls actor <;> simp [held, enter, requested] at asks
    | advance actor =>
        obtain rfl : actor = thread := Option.some.inj acting
        exact .inl (advance_requested before after actor size taken asks)
    | write region bytes => simp [Label.thread] at acting

theorem step_accepted (before after : System Thread) (label : Label Thread)
    (holds : Accepted before) (taken : step before label = some after)
    (legal : LegalSize before label after) :
    Accepted after where
  running := by
    cases step_change before after label taken with
    | none _ _ _ _ crash | constructed _ _ _ _ crash => rw [crash, holds.running]
    | reserved _ _ _ _ _ _ _ _ _ _ _ _ crash | written _ _ _ _ _ _ _ crash =>
        rw [crash, holds.running]
    | refused thread sendBuffer size held stands large =>
        have accepted := holds.sizes thread size (by rw [stands]; rfl)
        omega
  sizes thread size asks := by
    rcases step_requested before after label thread size taken asks with pending | called
    · exact holds.sizes thread size pending
    · exact legal thread size called

omit [DecidableEq Thread] in
theorem in_bounds (system : System Thread) (bounded : Bounded system) (accepted : Accepted system) :
    InBounds system where
  regions := bounded.regions
  used := bounded.used
  free sendBuffer := (system.buffers sendBuffer).free_size_exact (bounded.used sendBuffer)
  running := accepted.running

/-- In a run whose roll-overs never land on a recycled buffer without room, every
reservation stays inside its buffer. -/
theorem reservations_in_bounds (system : System Thread)
    (reached : Reachable step (fun before label after =>
      LegalSize before label after ∧ RecycledHasRoom before label after) System.start system) :
    InBounds system := by
  have holds := reachable_invariant step _ (fun system => Bounded system ∧ Accepted system)
    System.start ⟨start_bounded, start_accepted⟩
    (fun before label after holds taken allowed =>
      ⟨step_bounded before after label holds.1 taken allowed.2,
        step_accepted before after label holds.2 taken allowed.1⟩) system reached
  exact in_bounds system holds.1 holds.2

def legalSize (_ : System Thread) (label : Label Thread) (_ : System Thread) : Bool :=
  match label with
  | .reserve _ size => size ≤ maxBufferSize
  | _ => true

omit [DecidableEq Thread] in
theorem legal_size_sound (before after : System Thread) (label : Label Thread)
    (checked : legalSize before label after = true) : LegalSize before label after := by
  rintro thread size rfl
  simpa [legalSize] using checked

def recycledHasRoom (before : System Thread) (label : Label Thread) (_ : System Thread) : Bool :=
  match label with
  | .advance thread =>
      match before.phase thread, before.pool.getLast? with
      | .popping (.reserve size), some sendBuffer =>
          size ≤ maxBufferSize → size ≤ (before.buffers sendBuffer).freeSize
      | _, _ => true
  | _ => true

omit [DecidableEq Thread] in
theorem recycled_has_room_sound (before after : System Thread) (label : Label Thread)
    (checked : recycledHasRoom before label after = true) : RecycledHasRoom before label after := by
  rintro thread size sendBuffer rfl stands last
  simp only [recycledHasRoom, stands, last, decide_eq_true_eq] at checked
  exact checked

def takeOverLabels : List (Label Bool) :=
  [.initTls true, .advance true, .advance true, .advance true,
   .reserve true 4000, .advance true,
   .reserve true 200, .advance true, .advance true, .advance true, .advance true, .advance true,
   .initTls false, .advance false, .advance false,
   .reserve false 50, .advance false,
   .reserve true 4000, .advance true, .advance true, .advance true, .advance true, .advance true,
   .reserve false 100, .advance false, .advance false, .advance false, .advance false]

theorem reservations_in_bounds_take_over : ∃ system : System Bool,
    Reachable step (fun before label after =>
      LegalSize before label after ∧ RecycledHasRoom before label after) System.start system ∧
    system.regions = [⟨0, 0, 4000⟩, ⟨1, 0, 200⟩, ⟨0, 4000, 50⟩, ⟨2, 0, 4000⟩, ⟨1, 200, 100⟩] ∧
    InBounds system := by
  obtain ⟨system, reached, seen⟩ := replay_reachable step
    (fun before label after => LegalSize before label after ∧ RecycledHasRoom before label after)
    (fun before label after => legalSize before label after && recycledHasRoom before label after)
    (fun before label after checked => by
      rw [Bool.and_eq_true] at checked
      exact ⟨legal_size_sound before after label checked.1,
        recycled_has_room_sound before after label checked.2⟩)
    (fun system : System Bool => system.regions)
    [⟨0, 0, 4000⟩, ⟨1, 0, 200⟩, ⟨0, 4000, 50⟩, ⟨2, 0, 4000⟩,
      ⟨1, 200, 100⟩] takeOverLabels System.start
    (by decide +kernel)
  exact ⟨system, reached, seen, reservations_in_bounds system reached⟩

/-- One thread fills its buffer, rolls over to another full buffer, and rolls over
once more for a byte: `Pop` returns the full buffer of the first roll-over. -/
def fullBufferLabels : List (Label Unit) :=
  [.initTls (), .advance (), .advance (), .advance (),
   .reserve () 4096, .advance (),
   .reserve () 4096, .advance (), .advance (), .advance (), .advance (), .advance (),
   .reserve () 1, .advance (), .advance (), .advance (), .advance ()]

theorem recycled_buffer_overrun : ∃ system : System Unit,
    Reachable step LegalSize System.start system ∧
    system.regions = [⟨0, 0, 4096⟩, ⟨1, 0, 4096⟩, ⟨0, 4096, 1⟩] ∧
    (system.buffers 0).usedSize = 4097 ∧ (system.buffers 0).freeSize = 2 ^ 32 - 1 ∧
    ¬ InBounds system := by
  obtain ⟨system, reached, seen⟩ := replay_reachable step LegalSize legalSize
    (fun before label after checked => legal_size_sound before after label checked)
    (fun system : System Unit =>
      (system.regions, (system.buffers 0).usedSize, (system.buffers 0).freeSize))
    ([⟨0, 0, 4096⟩, ⟨1, 0, 4096⟩, ⟨0, 4096, 1⟩], 4097, 2 ^ 32 - 1) fullBufferLabels System.start
    (by decide +kernel)
  simp only [Prod.mk.injEq] at seen
  obtain ⟨regions, used, free⟩ := seen
  refine ⟨system, reached, regions, used, free, ?_⟩
  intro bounds
  have inside := bounds.used 0
  rw [used] at inside
  exact absurd inside (by decide)

end NetCore.SendBufferBounds
