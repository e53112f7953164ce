import NetCore.ThreadStart
import NetCore.UniquePlacement
import Mathlib.Data.Fintype.Basic

/-! Exclusion in the pool of send buffers while threads start. A thread with `TLS_Id` 0
takes the free lock for its own, because 0 is also the owner of the free lock, and it
leaves the word EMPTY while it is inside. As long as nobody else gets past the lock in
that time, the lock excludes and every buffer has one owner. -/
namespace NetCore.StartUpExclusion
open TransitionRuns UniquePlacement ThreadStart
open ReaderWriterLock (RWLock Point empty maxSpinCount getLockThreadId getWriteDesiredFlag
  getReadLockCount spinAgain lock_thread_id_nat write_desired_flag_nat)

variable {Thread : Type}

/-- The thread is past the test or the compare-exchange that let it in, and has not yet
made the store, or the last decrement, of its `WriteUnlock`. -/
def holdsLock : Stage → Bool
  | .locking _ .writeReenter => true
  | .locking _ .writeAcquired => true
  | .inside _ => true
  | .back _ => true
  | .removing _ _ => true
  | .unlocking _ _ => true
  | _ => false

/-- The next step of a thread at `point` lets it in: the owner of the lock has its id, or
the word is EMPTY. -/
def passes (tlsId : BitVec 32) (lock : RWLock) : Point → Bool
  | .writeEntered => decide (tlsId = getLockThreadId lock)
  | .writeSpin _ spinCount => decide (spinCount < maxSpinCount ∧ lock.lockFlag = empty)
  | _ => false

/-- The ids assigned are of sixteen bits and differ from those of the other threads. -/
def Numbering : Condition (System Thread) (Label Thread) := fun before label _ =>
  ∀ thread tick id, label = .advance thread tick → before.stage thread = .numbering id →
    id.toNat < 65536 ∧ ∀ other, other ≠ thread → before.tlsId other ≠ id

/-- Nobody is let in while another thread whose `TLS_Id` is still 0 holds the lock. -/
structure Staggered (before : System Thread) (label : Label Thread) (after : System Thread) :
    Prop where
  numbering : Numbering before label after
  alone : ∀ thread tick call point, label = .advance thread tick →
    before.stage thread = .locking call point →
    passes (before.tlsId thread) before.lock point = true →
    ∀ other, other ≠ thread → holdsLock (before.stage other) = true → before.tlsId other ≠ 0

def staggered : Condition (System Thread) (Label Thread) := Staggered

def writeCount : Stage → BitVec 16
  | .inside _ => 1
  | .back _ => 1
  | .removing _ _ => 1
  | .unlocking _ .writeUnlockEntered => 1
  | .unlocking _ .writeUnlockChecked => 1
  | _ => 0

def PointOk : Stage → Prop
  | .locking _ point => match point with
      | .writeEntered | .writeReenter | .writeSpin _ _ | .writeAcquired => True
      | _ => False
  | .unlocking _ point => match point with
      | .writeUnlockEntered | .writeUnlockChecked | .writeUnlockLast => True
      | _ => False
  | _ => True

def ownerLock (system : System Thread) : Option Thread → RWLock
  | none => ⟨empty, 0⟩
  | some thread => ⟨getWriteDesiredFlag (system.tlsId thread), writeCount (system.stage thread)⟩

structure Represents (system : System Thread) (owner : Option Thread) : Prop where
  holders : ∀ thread, holdsLock (system.stage thread) = true ↔ owner = some thread
  lock : system.lock = ownerLock system owner
  points : ∀ thread, PointOk (system.stage thread)
  ranged : ∀ thread, (system.tlsId thread).toNat < 65536
  distinct : ∀ first second, system.tlsId first = system.tlsId second → system.tlsId first ≠ 0 →
    first = second

theorem start_represents : Represents (System.start : System Thread) none where
  holders thread := by simp [System.start, holdsLock]
  lock := rfl
  points thread := trivial
  ranged thread := by simp [System.start]
  distinct first second _ nonzero := absurd rfl nonzero

theorem free_flag (tlsId : BitVec 32) (ranged : tlsId.toNat < 65536)
    (free : getWriteDesiredFlag tlsId = empty) : tlsId = 0 := by
  apply BitVec.eq_of_toNat_eq
  have flag := congrArg BitVec.toNat free
  rw [write_desired_flag_nat tlsId ranged] at flag
  have none : empty.toNat = 0 := rfl
  have zero : (0 : BitVec 32).toNat = 0 := rfl
  omega

theorem owner_decoded (tlsId : BitVec 32) (ranged : tlsId.toNat < 65536) (count : BitVec 16) :
    getLockThreadId ⟨getWriteDesiredFlag tlsId, count⟩ = tlsId := by
  apply BitVec.eq_of_toNat_eq
  rw [lock_thread_id_nat, write_desired_flag_nat tlsId ranged]
  omega

/-- A thread that is let in finds the lock free. -/
theorem pass_free (system : System Thread) (owner : Option Thread) (rep : Represents system owner)
    (thread : Thread) (call : Call) (point : Point)
    (stands : system.stage thread = .locking call point)
    (passing : passes (system.tlsId thread) system.lock point = true)
    (alone : ∀ other, other ≠ thread → holdsLock (system.stage other) = true →
      system.tlsId other ≠ 0) :
    owner = none := by
  cases held : owner with
  | none => rfl
  | some holder =>
      exfalso
      have holding := (rep.holders holder).mpr held
      have lock := rep.lock
      rw [held, ownerLock] at lock
      have different : holder ≠ thread := by
        rintro rfl
        rw [stands] at holding
        cases point <;> simp [holdsLock] at holding <;> simp [passes] at passing
      have nonzero := alone holder different holding
      cases point with
      | writeEntered =>
          have same := of_decide_eq_true passing
          rw [lock, owner_decoded _ (rep.ranged holder)] at same
          exact different (rep.distinct holder thread same.symm nonzero)
      | writeSpin beginTick spinCount =>
          have free := (of_decide_eq_true passing).2
          rw [lock] at free
          exact nonzero (free_flag _ (rep.ranged holder) free)
      | _ => simp [passes] at passing

variable [DecidableEq Thread]

/-- A thread goes from one stage to the next. It holds the lock afterwards if the lock
was free or its own, and leaves it free if it was its own. -/
theorem represents_moved (before after : System Thread) (owner : Option Thread)
    (rep : Represents before owner) (thread : Thread) (next : Stage)
    (stages : after.stage = Function.update before.stage thread next)
    (ids : after.tlsId = before.tlsId) (point : PointOk next)
    (lock : if holdsLock next = true then (owner = none ∨ owner = some thread) ∧
        after.lock = ⟨getWriteDesiredFlag (before.tlsId thread), writeCount next⟩
      else after.lock = if owner = some thread then ⟨empty, 0⟩ else before.lock) :
    ∃ owner, Represents after owner := by
  have points : ∀ other, PointOk (after.stage other) := by
    intro other
    by_cases mine : other = thread
    · rw [stages, mine, Function.update_self]
      exact point
    · rw [stages, Function.update_of_ne mine]
      exact rep.points other
  have own : after.stage thread = next := by rw [stages, Function.update_self]
  have others : ∀ other, other ≠ thread → after.stage other = before.stage other := by
    intro other different
    rw [stages, Function.update_of_ne different]
  by_cases holding : holdsLock next = true
  · rw [if_pos holding] at lock
    refine ⟨some thread, ?_, ?_, points,
      by rw [ids]; exact rep.ranged, by rw [ids]; exact rep.distinct⟩
    · intro other
      by_cases mine : other = thread
      · subst other
        rw [own]
        simp [holding]
      · rw [others other mine, rep.holders other]
        rcases lock.1 with free | held
        · simp [free, Ne.symm mine]
        · simp [held]
    · simp only [ownerLock, lock.2, ids, own]
  · rw [if_neg holding] at lock
    by_cases held : owner = some thread
    · rw [if_pos held] at lock
      refine ⟨none, ?_, lock, points,
        by rw [ids]; exact rep.ranged, by rw [ids]; exact rep.distinct⟩
      intro other
      by_cases mine : other = thread
      · subst other
        rw [own]
        simp [holding]
      · rw [others other mine, rep.holders other, held]
        simp [Ne.symm mine]
    · rw [if_neg held] at lock
      refine ⟨owner, ?_, ?_, points, by rw [ids]; exact rep.ranged, by rw [ids]; exact rep.distinct⟩
      · intro other
        by_cases mine : other = thread
        · subst other
          rw [own]
          simp [holding, held]
        · rw [others other mine]
          exact rep.holders other
      · rw [lock, rep.lock]
        cases owner with
        | none => rfl
        | some holder =>
            have different : holder ≠ thread := fun same => held (by rw [same])
            simp only [ownerLock, ids, others holder different]

theorem represents_aside (before after : System Thread) (owner : Option Thread)
    (rep : Represents before owner) (thread : Thread) (next : Stage)
    (stages : after.stage = Function.update before.stage thread next)
    (ids : after.tlsId = before.tlsId) (point : PointOk next) (lock : after.lock = before.lock)
    (was : holdsLock (before.stage thread) = false) (stays : holdsLock next = false) :
    ∃ owner, Represents after owner := by
  have other : owner ≠ some thread := by
    intro held
    have holding := (rep.holders thread).mpr held
    rw [was] at holding
    cases holding
  apply represents_moved before after owner rep thread next stages ids point
  rw [if_neg (by simp [stays]), if_neg other, lock]

theorem represents_inside (before after : System Thread) (owner : Option Thread)
    (rep : Represents before owner) (thread : Thread) (next : Stage)
    (stages : after.stage = Function.update before.stage thread next)
    (ids : after.tlsId = before.tlsId) (point : PointOk next)
    (was : holdsLock (before.stage thread) = true) (stays : holdsLock next = true)
    (lock :
      before.lock = ⟨getWriteDesiredFlag (before.tlsId thread), writeCount (before.stage thread)⟩ →
      after.lock = ⟨getWriteDesiredFlag (before.tlsId thread), writeCount next⟩) :
    ∃ owner, Represents after owner := by
  have held := (rep.holders thread).mp was
  have mine := rep.lock
  rw [held, ownerLock] at mine
  apply represents_moved before after owner rep thread next stages ids point
  rw [if_pos stays]
  exact ⟨Or.inr held, lock mine⟩

theorem represents_working (before after : System Thread) (owner : Option Thread)
    (rep : Represents before owner) (thread : Thread) (next : Stage)
    (stages : after.stage = Function.update before.stage thread next)
    (ids : after.tlsId = before.tlsId) (point : PointOk next)
    (was : holdsLock (before.stage thread) = true) (stays : holdsLock next = true)
    (unchanged : after.lock = before.lock)
    (count : writeCount next = writeCount (before.stage thread)) :
    ∃ owner, Represents after owner := by
  apply represents_inside before after owner rep thread next stages ids point was stays
  intro lock
  rw [unchanged, lock, count]

theorem represents_acquire (before after : System Thread) (owner : Option Thread)
    (rep : Represents before owner) (thread : Thread) (next : Stage)
    (stages : after.stage = Function.update before.stage thread next)
    (ids : after.tlsId = before.tlsId) (point : PointOk next) (nobody : owner = none)
    (holding : holdsLock next = true)
    (lock : after.lock = ⟨getWriteDesiredFlag (before.tlsId thread), writeCount next⟩) :
    ∃ owner, Represents after owner := by
  apply represents_moved before after owner rep thread next stages ids point
  rw [if_pos holding]
  exact ⟨Or.inl nobody, lock⟩

theorem represents_leave (before after : System Thread) (owner : Option Thread)
    (rep : Represents before owner) (thread : Thread) (next : Stage)
    (stages : after.stage = Function.update before.stage thread next)
    (ids : after.tlsId = before.tlsId) (point : PointOk next)
    (was : holdsLock (before.stage thread) = true) (leaves : holdsLock next = false)
    (lock : after.lock = ⟨empty, 0⟩) : ∃ owner, Represents after owner := by
  have held := (rep.holders thread).mp was
  apply represents_moved before after owner rep thread next stages ids point
  rw [if_neg (by simp [leaves]), if_pos held, lock]

omit [DecidableEq Thread] in
theorem represents_crash (before : System Thread) (owner : Option Thread)
    (rep : Represents before owner) (error : ReaderWriterLock.LockError) :
    Represents { before with crash := some error } owner :=
  ⟨rep.holders, by cases owner <;> exact rep.lock, rep.points, rep.ranged, rep.distinct⟩

section LockPoints
variable (before after : System Thread) (owner : Option Thread) (rep : Represents before owner)
  (thread : Thread) (tick : Nat) (call : Call)
include rep

theorem write_entered_represents (stands : before.stage thread = .locking call .writeEntered)
    (alone : passes (before.tlsId thread) before.lock .writeEntered = true →
      ∀ other, other ≠ thread → holdsLock (before.stage other) = true → before.tlsId other ≠ 0)
    (taken : lockStep before thread tick .writeEntered (fun next => .locking call next)
      (.inside call) = some after) :
    ∃ owner, Represents after owner := by
  have free := pass_free before owner rep thread call .writeEntered stands
  unfold lockStep at taken
  by_cases same : before.tlsId thread = getLockThreadId before.lock
  · have passing : passes (before.tlsId thread) before.lock .writeEntered = true :=
      decide_eq_true same
    have nobody := free passing (alone passing)
    have lock := rep.lock
    rw [nobody, ownerLock] at lock
    -- The lock is free, so the id the thread found in it is 0.
    have zero : before.tlsId thread = 0 := by
      rw [same, lock]
      decide
    simp only [ReaderWriterLock.advance, same, if_true, Option.some.injEq] at taken
    subst taken
    refine represents_acquire before _ owner rep thread
      (.locking call .writeReenter) rfl rfl trivial nobody rfl ?_
    simp only [enter, lock, zero, writeCount]
    decide
  · simp only [ReaderWriterLock.advance, same, if_false, Option.some.injEq] at taken
    subst taken
    exact represents_aside before _ owner rep thread
      (.locking call (.writeSpin tick 0)) rfl rfl trivial rfl
      (by rw [stands]; rfl) rfl

theorem write_spin_represents (beginTick spinCount : Nat)
    (stands : before.stage thread = .locking call (.writeSpin beginTick spinCount))
    (alone : passes (before.tlsId thread) before.lock (.writeSpin beginTick spinCount) = true →
      ∀ other, other ≠ thread → holdsLock (before.stage other) = true → before.tlsId other ≠ 0)
    (taken : lockStep before thread tick (.writeSpin beginTick spinCount)
      (fun next => .locking call next) (.inside call) = some after) :
    ∃ owner, Represents after owner := by
  have free := pass_free before owner rep thread call (.writeSpin beginTick spinCount) stands
  unfold lockStep at taken
  by_cases spins : spinCount < maxSpinCount
  · by_cases open_ : before.lock.lockFlag = empty
    · have passing :
          passes (before.tlsId thread) before.lock (.writeSpin beginTick spinCount) = true :=
        decide_eq_true ⟨spins, open_⟩
      have nobody := free passing (alone passing)
      have lock := rep.lock
      rw [nobody, ownerLock] at lock
      simp only [ReaderWriterLock.advance, spins, if_true, open_, if_true,
        Option.some.injEq] at taken
      subst taken
      refine represents_acquire before _ owner rep thread
        (.locking call .writeAcquired) rfl rfl trivial nobody rfl ?_
      simp only [enter, lock]
      rfl
    · simp only [ReaderWriterLock.advance, spins, if_true, open_, if_false,
        Option.some.injEq] at taken
      subst taken
      exact represents_aside before _ owner rep thread
        (.locking call (.writeSpin beginTick (spinCount + 1)))
        rfl rfl trivial rfl (by rw [stands]; rfl) rfl
  · simp only [ReaderWriterLock.advance, spins, if_false, spinAgain] at taken
    split at taken
    case h_1 => simp at taken
    case h_2 error _ =>
      rw [Option.some.injEq] at taken
      subst taken
      exact ⟨owner, represents_crash before owner rep error⟩
    case h_3 lock next effect went =>
      rw [Option.some.injEq] at taken
      subst taken
      split at went
      case isTrue => simp at went
      case isFalse =>
        simp only [Option.some.injEq, ReaderWriterLock.Outcome.next.injEq] at went
        obtain ⟨rfl, rfl, _⟩ := went
        exact represents_aside before _ owner rep thread (.locking call (.writeSpin beginTick 0))
          rfl rfl trivial rfl (by rw [stands]; rfl) rfl

end LockPoints

theorem lock_represents (before after : System Thread) (owner : Option Thread)
    (rep : Represents before owner) (thread : Thread) (tick : Nat) (call : Call) (point : Point)
    (stands : before.stage thread = .locking call point)
    (alone : passes (before.tlsId thread) before.lock point = true → ∀ other, other ≠ thread →
      holdsLock (before.stage other) = true → before.tlsId other ≠ 0)
    (taken : lockStep before thread tick point (fun next => .locking call next) (.inside call) =
      some after) :
    ∃ owner, Represents after owner := by
  have legal := rep.points thread
  rw [stands] at legal
  unfold lockStep at taken
  cases point with
  | writeEntered =>
      exact write_entered_represents before after owner rep thread tick call stands alone taken
  | writeReenter =>
      simp only [ReaderWriterLock.advance, Option.some.injEq] at taken
      subst taken
      refine represents_inside before _ owner rep thread (.inside call) rfl rfl trivial
        (by rw [stands]; rfl) rfl ?_
      intro lock
      simp only [enter, lock, stands]
      rfl
  | writeSpin beginTick spinCount =>
      exact write_spin_represents before after owner rep thread tick call beginTick spinCount stands
        alone taken
  | writeAcquired =>
      simp only [ReaderWriterLock.advance, Option.some.injEq] at taken
      subst taken
      refine represents_inside before _ owner rep thread (.inside call) rfl rfl trivial
        (by rw [stands]; rfl) rfl ?_
      intro lock
      simp only [enter, lock, stands]
      rfl
  | _ => exact absurd legal (by simp [PointOk])

theorem unlocked_aside (result : Result) :
    PointOk (unlocked result) ∧ holdsLock (unlocked result) = false := by
  cases result with
  | popped purpose buffer => exact ⟨trivial, rfl⟩
  | nothing purpose => exact ⟨trivial, rfl⟩
  | pushed id => cases id <;> exact ⟨trivial, rfl⟩

theorem unlock_represents (before after : System Thread) (owner : Option Thread)
    (rep : Represents before owner) (thread : Thread) (tick : Nat) (result : Result) (point : Point)
    (stands : before.stage thread = .unlocking result point)
    (taken : lockStep before thread tick point (fun next => .unlocking result next)
      (unlocked result) = some after) : ∃ owner, Represents after owner := by
  have legal := rep.points thread
  rw [stands] at legal
  have was : holdsLock (before.stage thread) = true := by rw [stands]; rfl
  unfold lockStep at taken
  cases point with
  | writeUnlockEntered =>
      by_cases readers : getReadLockCount before.lock = 0
      · simp only [ReaderWriterLock.advance, readers, ne_eq, not_true, if_false,
          Option.some.injEq] at taken
        subst taken
        exact represents_working before _ owner rep thread
          (.unlocking result .writeUnlockChecked) rfl rfl trivial
          was rfl rfl (by rw [stands]; rfl)
      · simp only [ReaderWriterLock.advance, readers, ne_eq, not_false_eq_true, if_true,
          Option.some.injEq] at taken
        subst taken
        exact ⟨owner, represents_crash before owner rep _⟩
  | writeUnlockChecked =>
      have held := (rep.holders thread).mp was
      have lock := rep.lock
      rw [held, ownerLock, stands] at lock
      have last : before.lock.writeCount - 1 = 0 := by
        simp only [lock, writeCount]
        decide
      simp only [ReaderWriterLock.advance, last, if_true, Option.some.injEq] at taken
      subst taken
      refine represents_inside before _ owner rep thread
        (.unlocking result .writeUnlockLast) rfl rfl trivial was rfl ?_
      intro lock
      simp only [enter, lock]
      rfl
  | writeUnlockLast =>
      have held := (rep.holders thread).mp was
      have lock := rep.lock
      rw [held, ownerLock, stands] at lock
      obtain ⟨legal, leaves⟩ := unlocked_aside result
      simp only [ReaderWriterLock.advance, Option.some.injEq] at taken
      subst taken
      refine represents_leave before _ owner rep thread
        (unlocked result) rfl rfl legal was leaves ?_
      simp only [enter, lock]
      rfl
  | _ => exact absurd legal (by simp [PointOk])

omit [DecidableEq Thread] in
theorem release_aside (old : Option Nat) (id : Option (BitVec 32)) :
    PointOk (release old id) ∧ holdsLock (release old id) = false := by
  cases old with
  | some buffer => exact ⟨trivial, rfl⟩
  | none => cases id <;> exact ⟨trivial, rfl⟩

theorem number_represents (before : System Thread) (owner : Option Thread)
    (rep : Represents before owner) (thread : Thread) (id : BitVec 32)
    (stands : before.stage thread = .numbering id) (ranged : id.toNat < 65536)
    (unused : ∀ other, other ≠ thread → before.tlsId other ≠ id) :
    ∃ owner, Represents
      { enter before thread .idle with tlsId := Function.update before.tlsId thread id } owner := by
  have aside : owner ≠ some thread := by
    intro held
    have holding := (rep.holders thread).mpr held
    rw [stands] at holding
    cases holding
  have others : ∀ other, other ≠ thread →
      (enter before thread .idle).stage other = before.stage other := by
    intro other different
    simp [enter, different]
  refine ⟨owner, ?_, ?_, ?_, ?_, ?_⟩
  · intro other
    by_cases mine : other = thread
    · subst other
      simp [enter, holdsLock, aside]
    · simp only [others other mine]
      exact rep.holders other
  · cases owner with
    | none => exact rep.lock
    | some holder =>
        have different : holder ≠ thread := fun same => aside (by rw [same])
        have lock := rep.lock
        rw [ownerLock] at lock
        simp only [ownerLock, others holder different, Function.update_of_ne different]
        exact lock
  · intro other
    by_cases mine : other = thread
    · subst other
      simp [enter, PointOk]
    · simp only [others other mine]
      exact rep.points other
  · intro other
    by_cases mine : other = thread
    · subst other
      simpa using ranged
    · simpa [mine] using rep.ranged other
  · intro first second same nonzero
    by_cases mine : first = thread
    · subst first
      by_contra different
      simp only [Function.update_self, Function.update_of_ne (Ne.symm different)] at same
      exact unused second (Ne.symm different) same.symm
    · by_cases yours : second = thread
      · subst second
        simp only [Function.update_self, Function.update_of_ne mine] at same
        exact absurd same (unused first mine)
      · simp only [Function.update_of_ne mine, Function.update_of_ne yours] at same nonzero
        exact rep.distinct first second same nonzero

section Stages
variable (before after : System Thread) (owner : Option Thread) (rep : Represents before owner)
  (thread : Thread) (tick : Nat) (taken : advance before thread tick = some after)
include rep taken

theorem inside_represents (call : Call) (stands : before.stage thread = .inside call) :
    ∃ owner, Represents after owner := by
  unfold advance at taken
  have was : holdsLock (before.stage thread) = true := by rw [stands]; rfl
  cases call with
  | push buffer id =>
      simp only [stands, Option.some.injEq] at taken
      subst taken
      exact represents_working before _ owner rep thread
        (.unlocking (.pushed id) .writeUnlockEntered) rfl rfl
        trivial was rfl rfl (by rw [stands]; rfl)
  | pop purpose =>
      simp only [stands, Option.some.injEq] at taken
      subst taken
      split
      case isTrue =>
        exact represents_working before _ owner rep thread
          (.unlocking (.nothing purpose) .writeUnlockEntered)
          rfl rfl trivial was rfl rfl (by rw [stands]; rfl)
      case isFalse =>
        exact represents_working before _ owner rep thread
          (.back purpose) rfl rfl trivial was rfl rfl
          (by rw [stands]; rfl)

theorem removing_represents (purpose : Purpose) (buffer : Nat)
    (stands : before.stage thread = .removing purpose buffer) :
    ∃ owner, Represents after owner := by
  unfold advance at taken
  simp only [stands] at taken
  split at taken
  case isTrue => simp at taken
  case isFalse =>
    rw [Option.some.injEq] at taken
    subst taken
    exact represents_working before _ owner rep thread
      (.unlocking (.popped purpose buffer) .writeUnlockEntered) rfl rfl trivial
      (by rw [stands]; rfl) rfl rfl
      (by rw [stands]; rfl)

theorem returned_represents (purpose : Purpose) (buffer : Nat)
    (stands : before.stage thread = .returned purpose buffer) :
    ∃ owner, Represents after owner := by
  unfold advance at taken
  have was : holdsLock (before.stage thread) = false := by rw [stands]; rfl
  cases purpose with
  | startUp id =>
      obtain ⟨legal, aside⟩ := release_aside (before.tls thread) (some id)
      simp only [stands, Option.some.injEq] at taken
      subst taken
      exact represents_aside before _ owner rep thread _ rfl rfl legal rfl was aside
  | renew =>
      obtain ⟨legal, aside⟩ := release_aside (before.tls thread) none
      simp only [stands, Option.some.injEq] at taken
      subst taken
      exact represents_aside before _ owner rep thread _ rfl rfl legal rfl was aside
  | borrow =>
      obtain ⟨legal, aside⟩ := release_aside (some buffer) none
      simp only [stands, Option.some.injEq] at taken
      subst taken
      exact represents_aside before _ owner rep thread _ rfl rfl legal rfl was aside

end Stages

theorem advance_represents (before after : System Thread) (owner : Option Thread)
    (rep : Represents before owner) (thread : Thread) (tick : Nat)
    (allowed : Staggered before (.advance thread tick) after)
    (taken : advance before thread tick = some after) : ∃ owner, Represents after owner := by
  unfold advance at taken
  cases stands : before.stage thread with
  | fresh => simp [stands] at taken
  | idle => simp [stands] at taken
  | locking call point =>
      simp only [stands] at taken
      exact lock_represents before after owner rep thread tick call point stands
        (allowed.alone thread tick call point rfl stands) taken
  | inside call => exact inside_represents before after owner rep thread tick taken call stands
  | back purpose =>
      simp only [stands, Option.map_eq_some_iff] at taken
      obtain ⟨buffer, _, rfl⟩ := taken
      exact represents_working before _ owner rep thread (.removing purpose buffer) rfl rfl trivial
        (by rw [stands]; rfl) rfl rfl (by rw [stands]; rfl)
  | removing purpose buffer =>
      exact removing_represents before after owner rep thread tick taken purpose buffer stands
  | unlocking result point =>
      simp only [stands] at taken
      exact unlock_represents before after owner rep thread tick result point stands taken
  | making purpose =>
      simp only [stands, Option.some.injEq] at taken
      subst taken
      exact represents_aside before _ owner rep thread
        (.returned purpose before.created) rfl rfl trivial rfl
        (by rw [stands]; rfl) rfl
  | returned purpose buffer =>
      exact returned_represents before after owner rep thread tick taken purpose buffer stands
  | numbering id =>
      simp only [stands, Option.some.injEq] at taken
      subst taken
      obtain ⟨ranged, unused⟩ := allowed.numbering thread tick id rfl stands
      exact number_represents before owner rep thread id stands ranged unused

theorem step_represents (before after : System Thread) (label : Label Thread)
    (owner : Option Thread) (rep : Represents before owner) (taken : step before label = some after)
    (allowed : Staggered before label after) : ∃ owner, Represents after owner := by
  unfold step at taken
  split at taken
  case isTrue => simp at taken
  case isFalse =>
    cases label with
    | initTls thread id =>
        simp only [Option.ite_none_right_eq_some, Option.some.injEq] at taken
        obtain ⟨stands, rfl⟩ := taken
        exact represents_aside before _ owner rep thread _ rfl rfl trivial rfl
          (by rcases stands with new | idle <;> simp [*, holdsLock]) rfl
    | renew thread =>
        simp only [Option.ite_none_right_eq_some, Option.some.injEq] at taken
        obtain ⟨stands, rfl⟩ := taken
        exact represents_aside before _ owner rep thread _ rfl rfl trivial rfl
          (by rw [stands]; rfl) rfl
    | borrow thread =>
        simp only [Option.ite_none_right_eq_some, Option.some.injEq] at taken
        obtain ⟨stands, rfl⟩ := taken
        exact represents_aside before _ owner rep thread _ rfl rfl trivial rfl
          (by rw [stands]; rfl) rfl
    | drop thread =>
        simp only [Option.ite_none_right_eq_some, Option.some.injEq] at taken
        obtain ⟨stands, rfl⟩ := taken
        obtain ⟨legal, aside⟩ := release_aside (before.tls thread) none
        exact represents_aside before _ owner rep thread _ rfl rfl legal rfl
          (by rw [stands]; rfl) aside
    | advance thread tick =>
        exact advance_represents before after owner rep thread tick allowed taken

/-! Where the buffers are. -/
section Buffers

inductive Place (Thread : Type) where
  | pool
  | tls (thread : Thread)
  | carried (thread : Thread)
  deriving DecidableEq

def contents (system : System Thread) : Place Thread → List Nat
  | .pool => system.pool
  | .tls thread => (system.tls thread).toList
  | .carried thread => (system.stage thread).carried.toList

/-- Every buffer is in one place, and the element that a thread has read is still the
last one of the vector when it removes it. -/
structure Stocked (system : System Thread) : Prop where
  placed : Placed (contents system) fun buffer => buffer < system.created
  last : ∀ thread purpose buffer, system.stage thread = .removing purpose buffer →
    system.pool.getLast? = some buffer

omit [DecidableEq Thread] in
theorem start_stocked : Stocked (System.start : System Thread) where
  placed := {
    once := fun place => by cases place <;> simp [contents, System.start, Stage.carried]
    apart := fun _ left _ member => by
      cases left <;> simp [contents, System.start, Stage.carried] at member
    covers := fun item => by
      constructor
      · intro live
        exact absurd live (Nat.not_lt_zero _)
      · rintro ⟨place, member⟩
        cases place <;> simp [contents, System.start, Stage.carried] at member }
  last thread purpose buffer stands := by cases stands

omit [DecidableEq Thread] in
theorem contents_elsewhere (before after : System Thread) (thread : Thread) (place : Place Thread)
    (pool : place ≠ .pool ∨ after.pool = before.pool)
    (tls : place ≠ .tls thread ∨ after.tls thread = before.tls thread)
    (carried : place ≠ .carried thread ∨
      (after.stage thread).carried = (before.stage thread).carried)
    (others : ∀ other, other ≠ thread →
      after.tls other = before.tls other ∧ after.stage other = before.stage other) :
    contents after place = contents before place := by
  cases place with
  | pool =>
      rcases pool with notPool | same
      · exact absurd rfl notPool
      · exact same
  | tls other =>
      by_cases mine : other = thread
      · subst other
        rcases tls with notTls | same
        · exact absurd rfl notTls
        · rw [contents, contents, same]
      · rw [contents, contents, (others other mine).1]
  | carried other =>
      by_cases mine : other = thread
      · subst other
        rcases carried with notCarried | same
        · exact absurd rfl notCarried
        · rw [contents, contents, same]
      · rw [contents, contents, (others other mine).2]

theorem last_kept (before after : System Thread) (holds : Stocked before) (thread : Thread)
    (next : Stage) (stages : after.stage = Function.update before.stage thread next)
    (pool : after.pool = before.pool ∨ ∀ other purpose buffer, other ≠ thread →
      before.stage other ≠ .removing purpose buffer)
    (own : ∀ purpose buffer, next = .removing purpose buffer → after.pool.getLast? = some buffer)
    (other : Thread) (purpose : Purpose) (buffer : Nat)
    (stands : after.stage other = .removing purpose buffer) :
    after.pool.getLast? = some buffer := by
  by_cases mine : other = thread
  · rw [stages, mine, Function.update_self] at stands
    exact own purpose buffer stands
  · rw [stages, Function.update_of_ne mine] at stands
    rcases pool with same | alone
    · rw [same]
      exact holds.last other purpose buffer stands
    · exact absurd stands (alone other purpose buffer mine)

theorem stocked_aside (before after : System Thread) (holds : Stocked before) (thread : Thread)
    (next : Stage) (stages : after.stage = Function.update before.stage thread next)
    (tls : after.tls = before.tls) (pool : after.pool = before.pool)
    (created : after.created = before.created) (same : next.carried = (before.stage thread).carried)
    (own : ∀ purpose buffer, next = .removing purpose buffer → before.pool.getLast? = some buffer) :
    Stocked after := by
  constructor
  case placed =>
    rw [created]
    apply placed_reorder (contents before) _ _ holds.placed
    intro place
    rw [contents_elsewhere before after thread place (Or.inr pool) (Or.inr (by rw [tls]))
      (Or.inr (by rw [stages, Function.update_self, same]))
      (fun other different => ⟨by rw [tls], by rw [stages, Function.update_of_ne different]⟩)]
  case last =>
    refine last_kept before after holds thread next stages (Or.inl pool)
      fun purpose buffer reads => ?_
    rw [pool]
    exact own purpose buffer reads

omit [DecidableEq Thread] in
theorem removing_holds (system : System Thread) (owner : Option Thread)
    (rep : Represents system owner) (thread : Thread)
    (inside : holdsLock (system.stage thread) = true) (other : Thread) (purpose : Purpose)
    (buffer : Nat) (different : other ≠ thread) :
    system.stage other ≠ .removing purpose buffer := by
  intro stands
  have theirs := (rep.holders other).mp (by rw [stands]; rfl)
  have mine := (rep.holders thread).mp inside
  rw [theirs, Option.some.injEq] at mine
  exact different mine

theorem push_stocked (system : System Thread) (owner : Option Thread)
    (rep : Represents system owner) (holds : Stocked system) (thread : Thread) (buffer : Nat)
    (id : Option (BitVec 32)) (stands : system.stage thread = .inside (.push buffer id)) :
    Stocked { enter system thread (.unlocking (.pushed id) .writeUnlockEntered) with
      pool := system.pool ++ [buffer] } := by
  constructor
  case placed =>
    apply placed_transfer (contents system) _ _ holds.placed (.carried thread) .pool [buffer] []
    case different => simp
    case split => simp [contents, stands, Stage.carried]
    case left => simp [contents, enter, Stage.carried]
    case arrived => exact .rfl
    case frame =>
      intro place notCarried notPool
      exact .of_eq (contents_elsewhere system _ thread place (Or.inl notPool) (Or.inr rfl)
        (Or.inl notCarried)
        (fun other different => ⟨rfl, by simp [enter, different]⟩))
  case last =>
    refine last_kept system _ holds thread _ rfl (Or.inr ?_) ?_
    · exact fun other purpose read different =>
        removing_holds system owner rep thread (by rw [stands]; rfl) other purpose read different
    · exact fun _ _ reads => by cases reads

theorem pop_stocked (system : System Thread) (owner : Option Thread) (rep : Represents system owner)
    (holds : Stocked system) (thread : Thread) (purpose : Purpose) (buffer : Nat)
    (stands : system.stage thread = .removing purpose buffer) :
    Stocked { enter system thread (.unlocking (.popped purpose buffer) .writeUnlockEntered) with
      pool := system.pool.dropLast } := by
  have whole : system.pool = system.pool.dropLast ++ [buffer] :=
    (List.dropLast_append_getLast? buffer (holds.last thread purpose buffer stands)).symm
  constructor
  case placed =>
    apply placed_transfer (contents system) _ _ holds.placed .pool (.carried thread) [buffer]
      system.pool.dropLast
    case different => simp
    case split =>
      show system.pool.Perm _
      rw [List.singleton_append]
      nth_rewrite 1 [whole]
      exact List.perm_append_singleton buffer system.pool.dropLast
    case left => exact .rfl
    case arrived => simp [contents, enter, stands, Stage.carried]
    case frame =>
      intro place notPool notCarried
      exact .of_eq (contents_elsewhere system _ thread place (Or.inl notPool) (Or.inr rfl)
        (Or.inl notCarried)
        (fun other different => ⟨rfl, by simp [enter, different]⟩))
  case last =>
    refine last_kept system _ holds thread _ rfl (Or.inr ?_) ?_
    · exact fun other purpose read different =>
        removing_holds system owner rep thread (by rw [stands]; rfl) other purpose read different
    · exact fun _ _ reads => by cases reads

theorem make_stocked (system : System Thread) (holds : Stocked system) (thread : Thread)
    (purpose : Purpose) (stands : system.stage thread = .making purpose) :
    Stocked { enter system thread (.returned purpose system.created) with
      created := system.created + 1 } := by
  constructor
  case placed =>
    apply placed_admit (contents system) _ _ _ holds.placed (.carried thread) [system.created]
    case fresh => simp
    case distinct => simp
    case arrived => simp [contents, enter, stands, Stage.carried]
    case frame =>
      intro place notCarried
      exact .of_eq (contents_elsewhere system _ thread place (Or.inr rfl) (Or.inr rfl)
        (Or.inl notCarried)
        (fun other different => ⟨rfl, by simp [enter, different]⟩))
    case grows =>
      intro item
      simp only [List.mem_singleton]
      omega
  case last =>
    refine last_kept system _ holds thread _ rfl (Or.inl rfl) ?_
    exact fun _ _ reads => by cases reads

theorem release_carried (old : Option Nat) (id : Option (BitVec 32)) :
    (release old id).carried = old := by
  cases old with
  | some buffer => rfl
  | none => cases id <;> rfl

theorem release_reads (old : Option Nat) (id : Option (BitVec 32)) (purpose : Purpose)
    (buffer : Nat) :
    release old id ≠ .removing purpose buffer := by
  cases old with
  | some buffer => simp [release]
  | none => cases id <;> simp [release, resume]

theorem assign_stocked (system : System Thread) (holds : Stocked system) (thread : Thread)
    (purpose : Purpose) (buffer : Nat) (id : Option (BitVec 32))
    (stands : system.stage thread = .returned purpose buffer) :
    Stocked (assign system thread buffer id) := by
  constructor
  case placed =>
    apply placed_exchange (contents system) _ _ holds.placed (.tls thread) (.carried thread)
    case different => simp
    case toLeft => simp [contents, assign, stands, Stage.carried]
    case toRight => simp [contents, assign, enter, release_carried]
    case frame =>
      intro place notTls notCarried
      exact .of_eq (contents_elsewhere system _ thread place (Or.inr rfl) (Or.inl notTls)
        (Or.inl notCarried)
        (fun other different => by simp [assign, enter, different]))
  case last =>
    refine last_kept system _ holds thread _ rfl (Or.inl rfl) ?_
    exact fun purpose read reads => absurd reads (release_reads _ _ purpose read)

theorem drop_stocked (system : System Thread) (holds : Stocked system) (thread : Thread)
    (stands : system.stage thread = .idle) :
    Stocked { enter system thread (release (system.tls thread) none) with
      tls := Function.update system.tls thread none } := by
  constructor
  case placed =>
    apply placed_exchange (contents system) _ _ holds.placed (.tls thread) (.carried thread)
    case different => simp
    case toLeft => simp [contents, stands, Stage.carried]
    case toRight => simp [contents, enter, release_carried]
    case frame =>
      intro place notTls notCarried
      exact .of_eq (contents_elsewhere system _ thread place (Or.inr rfl) (Or.inl notTls)
        (Or.inl notCarried)
        (fun other different => by simp [enter, different]))
  case last =>
    refine last_kept system _ holds thread _ rfl (Or.inl rfl) ?_
    exact fun purpose read reads => absurd reads (release_reads _ _ purpose read)

theorem lock_step_stocked (before after : System Thread) (holds : Stocked before) (thread : Thread)
    (tick : Nat) (point : Point) (inProgress : Point → Stage) (finished : Stage)
    (taken : lockStep before thread tick point inProgress finished = some after)
    (goesOn : ∀ next, (inProgress next).carried = (before.stage thread).carried)
    (ends : finished.carried = (before.stage thread).carried)
    (quiet : ∀ purpose buffer, finished ≠ .removing purpose buffer ∧
      ∀ next, inProgress next ≠ .removing purpose buffer) : Stocked after := by
  unfold lockStep at taken
  split at taken
  case h_1 => simp at taken
  case h_2 error _ =>
    rw [Option.some.injEq] at taken
    subst taken
    exact ⟨holds.placed, holds.last⟩
  case h_3 lock next effect _ =>
    rw [Option.some.injEq] at taken
    subst taken
    refine stocked_aside before _ holds thread _ rfl rfl rfl rfl ?_ ?_
    · split
      case isTrue => exact ends
      case isFalse => exact goesOn next
    · intro purpose buffer reads
      split at reads
      case isTrue => exact absurd reads (quiet purpose buffer).1
      case isFalse => exact absurd reads ((quiet purpose buffer).2 next)

theorem unlocked_carried (result : Result) (point : Point) :
    (unlocked result).carried = (Stage.unlocking result point).carried := by
  cases result with
  | popped purpose buffer => rfl
  | nothing purpose => rfl
  | pushed id => cases id <;> rfl

theorem unlocked_reads (result : Result) (purpose : Purpose) (buffer : Nat) :
    unlocked result ≠ .removing purpose buffer := by
  cases result with
  | popped purpose buffer => simp [unlocked]
  | nothing purpose => simp [unlocked]
  | pushed id => cases id <;> simp [unlocked, resume]

section Stocks
variable (before after : System Thread) (holds : Stocked before) (thread : Thread) (tick : Nat)
  (taken : advance before thread tick = some after)
include holds taken

theorem locking_stocked (call : Call) (point : Point)
    (stands : before.stage thread = .locking call point) : Stocked after := by
  unfold advance at taken
  simp only [stands] at taken
  apply lock_step_stocked before after holds thread tick point _ _ taken
  case goesOn =>
    intro next
    rw [stands]
    cases call <;> rfl
  case ends =>
    rw [stands]
    cases call <;> rfl
  case quiet => simp

theorem inside_stocked (owner : Option Thread) (rep : Represents before owner) (call : Call)
    (stands : before.stage thread = .inside call) : Stocked after := by
  unfold advance at taken
  cases call with
  | push buffer id =>
      simp only [stands, Option.some.injEq] at taken
      subst taken
      exact push_stocked before owner rep holds thread buffer id stands
  | pop purpose =>
      simp only [stands, Option.some.injEq] at taken
      subst taken
      refine stocked_aside before _ holds thread _ rfl rfl rfl rfl ?_ ?_
      · rw [stands]
        split <;> rfl
      · intro _ _ reads
        split at reads <;> cases reads

theorem removing_stocked (owner : Option Thread) (rep : Represents before owner)
    (purpose : Purpose) (buffer : Nat) (stands : before.stage thread = .removing purpose buffer) :
    Stocked after := by
  unfold advance at taken
  simp only [stands] at taken
  split at taken
  case isTrue => simp at taken
  case isFalse =>
    rw [Option.some.injEq] at taken
    subst taken
    exact pop_stocked before owner rep holds thread purpose buffer stands

theorem unlocking_stocked (result : Result) (point : Point)
    (stands : before.stage thread = .unlocking result point) : Stocked after := by
  unfold advance at taken
  simp only [stands] at taken
  apply lock_step_stocked before after holds thread tick point _ _ taken
  case goesOn =>
    intro next
    rw [stands]
    cases result <;> rfl
  case ends => rw [stands, unlocked_carried result point]
  case quiet => exact fun purpose buffer => ⟨unlocked_reads result purpose buffer, by simp⟩

theorem returned_stocked (purpose : Purpose) (buffer : Nat)
    (stands : before.stage thread = .returned purpose buffer) : Stocked after := by
  unfold advance at taken
  cases purpose with
  | startUp id =>
      simp only [stands, Option.some.injEq] at taken
      subst taken
      exact assign_stocked before holds thread (.startUp id) buffer (some id) stands
  | renew =>
      simp only [stands, Option.some.injEq] at taken
      subst taken
      exact assign_stocked before holds thread .renew buffer none stands
  | borrow =>
      simp only [stands, Option.some.injEq] at taken
      subst taken
      exact stocked_aside before _ holds thread _ rfl rfl rfl rfl (by rw [stands]; rfl)
        fun _ _ reads => by cases reads

end Stocks

theorem advance_stocked (before after : System Thread) (owner : Option Thread)
    (rep : Represents before owner) (holds : Stocked before) (thread : Thread) (tick : Nat)
    (taken : advance before thread tick = some after) : Stocked after := by
  unfold advance at taken
  cases stands : before.stage thread with
  | fresh => simp [stands] at taken
  | idle => simp [stands] at taken
  | locking call point =>
      exact locking_stocked before after holds thread tick taken call point stands
  | inside call => exact inside_stocked before after holds thread tick taken owner rep call stands
  | back purpose =>
      simp only [stands, Option.map_eq_some_iff] at taken
      obtain ⟨buffer, last, rfl⟩ := taken
      refine stocked_aside before _ holds thread _ rfl rfl rfl rfl (by rw [stands]; rfl) ?_
      intro _ read reads
      rw [Stage.removing.injEq] at reads
      rw [last, reads.2]
  | removing purpose buffer =>
      exact removing_stocked before after holds thread tick taken owner rep purpose buffer stands
  | unlocking result point =>
      exact unlocking_stocked before after holds thread tick taken result point stands
  | making purpose =>
      simp only [stands, Option.some.injEq] at taken
      subst taken
      exact make_stocked before holds thread purpose stands
  | returned purpose buffer =>
      exact returned_stocked before after holds thread tick taken purpose buffer stands
  | numbering id =>
      simp only [stands, Option.some.injEq] at taken
      subst taken
      exact stocked_aside before _ holds thread .idle rfl rfl rfl rfl (by rw [stands]; rfl)
        fun _ _ reads => by cases reads

theorem step_stocked (before after : System Thread) (label : Label Thread) (owner : Option Thread)
    (rep : Represents before owner) (holds : Stocked before)
    (taken : step before label = some after) :
    Stocked after := by
  unfold step at taken
  split at taken
  case isTrue => simp at taken
  case isFalse =>
    cases label with
    | initTls thread id =>
        simp only [Option.ite_none_right_eq_some, Option.some.injEq] at taken
        obtain ⟨stands, rfl⟩ := taken
        exact stocked_aside before _ holds thread _ rfl rfl rfl rfl
          (by rcases stands with new | idle <;> simp [*, Stage.carried])
            fun _ _ reads => by cases reads
    | renew thread =>
        simp only [Option.ite_none_right_eq_some, Option.some.injEq] at taken
        obtain ⟨stands, rfl⟩ := taken
        exact stocked_aside before _ holds thread _ rfl rfl rfl rfl (by rw [stands]; rfl)
          fun _ _ reads => by cases reads
    | borrow thread =>
        simp only [Option.ite_none_right_eq_some, Option.some.injEq] at taken
        obtain ⟨stands, rfl⟩ := taken
        exact stocked_aside before _ holds thread _ rfl rfl rfl rfl (by rw [stands]; rfl)
          fun _ _ reads => by cases reads
    | drop thread =>
        simp only [Option.ite_none_right_eq_some, Option.some.injEq] at taken
        obtain ⟨stands, rfl⟩ := taken
        exact drop_stocked before holds thread stands
    | advance thread tick => exact advance_stocked before after owner rep holds thread tick taken

end Buffers

omit [DecidableEq Thread] in
theorem represents_exclusive (system : System Thread) (owner : Option Thread)
    (rep : Represents system owner) (stocked : Stocked system) : Exclusive system := by
  have inside : ∀ stage : Stage, stage.critical = true → holdsLock stage = true := by
    intro stage critical
    cases stage <;> simp [Stage.critical, holdsLock] at *
  constructor
  case alone =>
    intro first second left right
    have mine := (rep.holders first).mp (inside _ left)
    have yours := (rep.holders second).mp (inside _ right)
    rw [mine, Option.some.injEq] at yours
    exact yours
  case unshared =>
    have place : ∀ thread buffer, Obtained system thread buffer →
        buffer ∈ contents system (.tls thread) ∨ buffer ∈ contents system (.carried thread) := by
      intro thread buffer obtained
      rcases obtained with kept | carried
      · exact Or.inl (by simp [contents, kept])
      · exact Or.inr (by simp [contents, carried])
    intro first second buffer left right
    rcases place first buffer left with mine | mine
    · rcases place second buffer right with yours | yours
      · exact Place.tls.inj (stocked.placed.apart buffer _ _ mine yours)
      · exact absurd (stocked.placed.apart buffer _ _ mine yours) (by simp)
    · rcases place second buffer right with yours | yours
      · exact absurd (stocked.placed.apart buffer _ _ mine yours) (by simp)
      · exact Place.carried.inj (stocked.placed.apart buffer _ _ mine yours)

/-- In every run in which nobody is let in while a thread with `TLS_Id` 0 holds the lock,
the critical sections exclude each other and no buffer is obtained twice. -/
theorem start_up_excludes (system : System Thread)
    (reached : Reachable step staggered System.start system) : Exclusive system := by
  have holds : (∃ owner, Represents system owner) ∧ Stocked system := by
    apply reachable_invariant step staggered (fun system => (∃ owner, Represents system owner) ∧
      Stocked system) System.start
    case holds => exact ⟨⟨none, start_represents⟩, start_stocked⟩
    case keeps =>
      intro before label after holds taken allowed
      obtain ⟨⟨owner, rep⟩, stocked⟩ := holds
      exact ⟨step_represents before after label owner rep taken allowed,
        step_stocked before after label owner rep stocked taken⟩
    case reached => exact reached
  obtain ⟨⟨owner, rep⟩, stocked⟩ := holds
  exact represents_exclusive system owner rep stocked

/-! The conditions as tests, for runs given by their labels. -/
section Replay
variable [Fintype Thread]

def numberingStep (before : System Thread) (label : Label Thread) (_ : System Thread) : Bool :=
  match label with
  | .advance thread _ => match before.stage thread with
      | .numbering id =>
          decide (id.toNat < 65536 ∧ ∀ other, other ≠ thread → before.tlsId other ≠ id)
      | _ => true
  | _ => true

def aloneStep (before : System Thread) : Label Thread → Bool
  | .advance thread _ => match before.stage thread with
      | .locking _ point => decide (passes (before.tlsId thread) before.lock point = true →
          ∀ other, other ≠ thread → holdsLock (before.stage other) = true → before.tlsId other ≠ 0)
      | _ => true
  | _ => true

def staggeredStep (before : System Thread) (label : Label Thread) (after : System Thread) : Bool :=
  numberingStep before label after && aloneStep before label

theorem numbering_step_sound (before : System Thread) (label : Label Thread) (after : System Thread)
    (checked : numberingStep before label after = true) : Numbering before label after := by
  rintro thread tick id rfl stands
  simp only [numberingStep, stands] at checked
  exact of_decide_eq_true checked

theorem staggered_step_sound (before : System Thread) (label : Label Thread) (after : System Thread)
    (checked : staggeredStep before label after = true) : staggered before label after := by
  rw [staggeredStep, Bool.and_eq_true] at checked
  constructor
  case numbering => exact numbering_step_sound before label after checked.1
  case alone =>
    rintro thread tick call point rfl stands
    have alone := checked.2
    simp only [aloneStep, stands] at alone
    exact of_decide_eq_true alone

end Replay

/-- The first thread starts, renews its buffer and ends, so that two buffers are pooled. -/
def firstThread : List (Label (Fin 3)) :=
  .initTls 0 1#32 :: List.replicate 9 (.advance 0 0) ++
    .renew 0 :: List.replicate 16 (.advance 0 0) ++ .drop 0 :: List.replicate 7 (.advance 0 0)

/-- A second thread starts while nobody else uses the pool. -/
theorem second_thread_starts_alone : ∃ system : System (Fin 3),
    Reachable step staggered System.start system ∧ system.tls 1 = some 1 ∧ system.tlsId 1 = 2#32 ∧
    Exclusive system := by
  obtain ⟨system, reached, seen⟩ :=
    replay_reachable step staggered staggeredStep staggered_step_sound
    (fun system : System (Fin 3) => (system.tls 1, system.tlsId 1)) (some 1, 2#32)
    (firstThread ++ .initTls 1 2#32 :: List.replicate 10 (.advance 1 0)) System.start
      (by decide +kernel)
  rw [Prod.mk.injEq] at seen
  exact ⟨system, reached, seen.1, seen.2, start_up_excludes system reached⟩

def bothInside : List (Label (Fin 3)) :=
  firstThread ++ [.initTls 1 2#32, .initTls 2 3#32, .advance 1 0, .advance 2 0,
    .advance 1 0, .advance 2 0]

/-- Both find their `TLS_Id` 0 in the free lock and go in, and both are given the same
buffer. -/
theorem starting_threads_share_buffer :
    (∃ system : System (Fin 3), Reachable step Numbering System.start system ∧
      (system.stage 1).critical = true ∧ (system.stage 2).critical = true ∧ ¬ Exclusive system) ∧
    ∃ system : System (Fin 3), Reachable step Numbering System.start system ∧
      Obtained system 1 1 ∧ Obtained system 2 1 ∧ ¬ Exclusive system := by
  obtain ⟨overlapping, reached, seen⟩ :=
    replay_reachable step Numbering numberingStep numbering_step_sound
    (fun system : System (Fin 3) => ((system.stage 1).critical, (system.stage 2).critical))
      (true, true)
    bothInside System.start (by decide +kernel)
  obtain ⟨sharing, later, carried⟩ :=
    replay_reachable step Numbering numberingStep numbering_step_sound
    (fun system : System (Fin 3) => ((system.stage 1).carried, (system.stage 2).carried))
      (some 1, some 1)
    (bothInside ++ [.advance 1 0, .advance 2 0, .advance 1 0, .advance 2 0,
      .advance 1 0, .advance 2 0])
    System.start (by decide +kernel)
  rw [Prod.mk.injEq] at seen carried
  constructor
  · refine ⟨overlapping, reached, seen.1, seen.2, ?_⟩
    intro exclusive
    exact absurd (exclusive.alone 1 2 seen.1 seen.2) (by decide)
  · refine ⟨sharing, later, Or.inr carried.1, Or.inr carried.2, ?_⟩
    intro exclusive
    exact absurd (exclusive.unshared 1 2 1 (Or.inr carried.1) (Or.inr carried.2)) (by decide)

end NetCore.StartUpExclusion
