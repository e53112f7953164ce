import NetCore.HeldGuards

/-! Progress inside the reader-writer lock. A thread that holds the lock, and any thread while
nobody holds it, leaves the lock's function it is in after a few steps of its own, unless its wait
has already run into the time-out. -/
namespace NetCore.LockProgress
open TransitionRuns ReaderWriterLock LockExclusion GuardNesting HeldGuards

def Waits (depth reads : Nat) : Point → Prop
  | .writeEntered => reads = 0
  | .writeSpin _ _ => depth = 0 ∧ reads = 0
  | .readSpin _ _ => depth = 0
  | .readTry _ _ _ => depth = 0
  | _ => True

def InTime (now : Nat) : Point → Prop
  | .writeSpin beginTick _ => elapsed now beginTick < timeoutTick
  | .readSpin beginTick _ => elapsed now beginTick < timeoutTick
  | .readTry beginTick _ _ => elapsed now beginTick < timeoutTick
  | _ => True

/-- How many steps of its own a thread is from the end of the function, when no other thread
moves. -/
def remaining (lock : RWLock) : Point → Nat
  | .outside => 0
  | .writeEntered => 3
  | .writeReenter => 1
  | .writeSpin _ spinCount => if spinCount < maxSpinCount then 2 else 3
  | .writeAcquired => 1
  | .writeUnlockEntered => 3
  | .writeUnlockChecked => 2
  | .writeUnlockLast => 1
  | .readEntered => 3
  | .readReenter => 1
  | .readSpin _ spinCount => if spinCount < maxSpinCount then 2 else 3
  | .readTry _ _ expected => if lock.lockFlag = expected then 1 else 4
  | .readUnlockEntered => 1

theorem entry_few (lock : RWLock) (op : Op) : remaining lock op.entry ≤ 3 := by
  cases op <;> simp [Op.entry, remaining]

theorem entry_in_time (now : Nat) (op : Op) : InTime now op.entry := by cases op <;> trivial

theorem elapsed_self (now : Nat) : elapsed now now < timeoutTick := by
  have none : elapsed now now = 0 := by
    rw [elapsed, Nat.add_sub_cancel_left, Nat.mod_self]
  rw [none]
  decide

theorem advance_in_time (id : BitVec 32) (now : Nat) (lock after : RWLock) (point next : Point)
    (effect : Effect) (taken : advance id now lock point = some (.next after next effect))
    (inTime : InTime now point) :
    InTime now next := by
  have fresh := elapsed_self now
  cases point with
  | outside => simp [advance] at taken
  | writeEntered | readEntered =>
      simp only [advance, Option.some.injEq] at taken
      split at taken <;> cases taken
      · trivial
      · exact fresh
  | writeSpin beginTick spinCount =>
      simp only [advance, spinAgain, Option.some.injEq] at taken
      split at taken <;> split at taken <;> cases taken
      · trivial
      · exact inTime
      · exact inTime
  | readSpin beginTick spinCount =>
      simp only [advance, spinAgain, Option.some.injEq] at taken
      split at taken
      · cases taken
        exact inTime
      · split at taken <;> cases taken
        exact inTime
  | readTry beginTick spinCount expected =>
      simp only [advance, Option.some.injEq] at taken
      split at taken <;> cases taken
      · trivial
      · exact inTime
  | writeUnlockEntered | writeUnlockChecked | readUnlockEntered =>
      simp only [advance, Option.some.injEq] at taken
      split at taken <;> cases taken <;> trivial
  | writeReenter | writeAcquired | writeUnlockLast | readReenter =>
      cases taken
      trivial

section Threads
variable {Thread : Type} [Fintype Thread] (tlsId : Thread → BitVec 32)
  (system : ReaderWriterLock.System Thread) (owner : Option Thread)
  (rep : Represents tlsId system owner) (thread : Thread)

def Clear (system : ReaderWriterLock.System Thread) (thread : Thread) : Prop :=
  Holding system thread ∨ ∀ other, ¬ Holding system other

include rep

theorem owner_own_id (deep : 0 < system.depth thread) :
    tlsId thread = getLockThreadId system.lock := by
  have owned := (rep.depth thread).mp deep
  have flag := rep.flag
  have total := rep.total
  rw [owned] at flag
  simp only [ownerFlag] at flag
  apply BitVec.toNat_inj.mp
  rw [lock_thread_id_nat]
  omega

theorem released_flag (released : ∀ other, ¬ Holding system other) :
    system.lock.lockFlag = empty := by
  have unowned : owner = none := by
    cases owner with
    | none => rfl
    | some writer => exact absurd (Or.inl ((rep.depth writer).mpr rfl)) (released writer)
  have unread : ∑ other, system.reads other = 0 :=
    Finset.sum_eq_zero fun other _ => Nat.eq_zero_of_not_pos fun reading =>
      released other (Or.inr reading)
  apply BitVec.toNat_inj.mp
  rw [rep.flag, unowned, unread]
  rfl

theorem advance_waits (tick : Nat) (after : RWLock) (next : Point) (effect : Effect)
    (taken : advance (tlsId thread) tick system.lock (system.point thread) =
      some (.next after next effect))
    (waits : Waits (system.depth thread) (system.reads thread) (system.point thread)) :
    Waits (depthAfter (system.depth thread) effect)
        (readsAfter (system.reads thread) effect) next := by
  have foreign : tlsId thread ≠ getLockThreadId system.lock → system.depth thread = 0 :=
    fun other =>
      Nat.eq_zero_of_not_pos fun deep => other (owner_own_id tlsId system owner rep thread deep)
  cases stands : system.point thread with
  | outside => simp [stands, advance] at taken
  | writeEntered =>
      simp only [stands, advance, Option.some.injEq] at taken waits
      split at taken
      case isTrue =>
        cases taken
        trivial
      case isFalse other =>
        cases taken
        exact ⟨foreign other, waits⟩
  | readEntered =>
      simp only [stands, advance, Option.some.injEq] at taken
      split at taken
      case isTrue =>
        cases taken
        trivial
      case isFalse other =>
        cases taken
        exact foreign other
  | writeSpin beginTick spinCount =>
      simp only [stands, advance, spinAgain, Option.some.injEq] at taken waits
      split at taken <;> split at taken <;> cases taken
      · trivial
      · exact waits
      · exact waits
  | readSpin beginTick spinCount =>
      simp only [stands, advance, spinAgain, Option.some.injEq] at taken waits
      split at taken
      · cases taken
        exact waits
      · split at taken <;> cases taken
        exact waits
  | readTry beginTick spinCount expected =>
      simp only [stands, advance, Option.some.injEq] at taken waits
      split at taken <;> cases taken
      · trivial
      · exact waits
  | writeUnlockEntered | writeUnlockChecked | readUnlockEntered =>
      simp only [stands, advance, Option.some.injEq] at taken
      split at taken <;> cases taken <;> trivial
  | writeReenter | writeAcquired | writeUnlockLast | readReenter =>
      rw [stands] at taken
      cases taken
      trivial

variable (distinct : Function.Injective tlsId)
  (ranged : ∀ thread, 1 ≤ (tlsId thread).toNat ∧ (tlsId thread).toNat ≤ 65535)
include distinct ranged

section Points
variable (now : Nat)

omit distinct ranged in
include rep in
theorem write_spin_nearer
    (waits : Waits (system.depth thread) (system.reads thread) (system.point thread))
    (clear : Clear system thread) (inTime : InTime now (system.point thread))
    (beginTick spinCount : Nat) (stands : system.point thread = .writeSpin beginTick spinCount) :
    ∃ lock point effect,
      advance (tlsId thread) now system.lock (system.point thread) =
        some (.next lock point effect) ∧
      remaining lock point < remaining system.lock (system.point thread) := by
  have flagged : system.depth thread = 0 → system.reads thread = 0 →
      system.lock.lockFlag = empty := by
    intro shallow unread
    refine released_flag tlsId system owner rep (clear.resolve_left ?_)
    rintro (deep | reading)
    · exact Nat.ne_of_gt deep shallow
    · exact Nat.ne_of_gt reading unread
  rw [stands]
  rw [stands] at waits inTime
  have clean := flagged waits.1 waits.2
  simp only [advance, clean, if_true]
  split
  case isTrue early => exact ⟨_, _, _, rfl, by simp [remaining, early]⟩
  case isFalse late =>
    rw [spinAgain, if_neg (Nat.not_le_of_lt inTime)]
    exact ⟨_, _, _, rfl, by rw [remaining, remaining, if_neg late]; decide⟩

omit distinct ranged in
include rep in
theorem read_spin_nearer (guards : List Guard)
    (held : Held guards (system.depth thread) (system.reads thread) (system.point thread))
    (few : guards.count .read ≤ 1)
    (waits : Waits (system.depth thread) (system.reads thread) (system.point thread))
    (clear : Clear system thread) (inTime : InTime now (system.point thread))
    (beginTick spinCount : Nat) (stands : system.point thread = .readSpin beginTick spinCount) :
    ∃ lock point effect,
      advance (tlsId thread) now system.lock (system.point thread) =
        some (.next lock point effect) ∧
      remaining lock point < remaining system.lock (system.point thread) := by
  have flagged : system.depth thread = 0 → system.reads thread = 0 →
      system.lock.lockFlag = empty := by
    intro shallow unread
    refine released_flag tlsId system owner rep (clear.resolve_left ?_)
    rintro (deep | reading)
    · exact Nat.ne_of_gt deep shallow
    · exact Nat.ne_of_gt reading unread
  rw [stands]
  rw [stands] at waits inTime held
  have reads := held.reads
  simp only [awaited, owed] at reads
  have clean := flagged waits (by omega)
  have counted : system.lock.lockFlag = getReadLockCount system.lock := by
    rw [getReadLockCount, clean]
    decide
  simp only [advance]
  split
  case isTrue early =>
    exact ⟨_, _, _, rfl, by rw [remaining, remaining, if_pos counted, if_pos early]; decide⟩
  case isFalse late =>
    rw [spinAgain, if_neg (Nat.not_le_of_lt inTime)]
    exact ⟨_, _, _, rfl, by rw [remaining, remaining, if_neg late]; decide⟩

omit [Fintype Thread] rep distinct ranged in
theorem read_try_nearer (beginTick spinCount : Nat) (expected : BitVec 32)
    (stands : system.point thread = .readTry beginTick spinCount expected) :
    ∃ lock point effect,
      advance (tlsId thread) now system.lock (system.point thread) =
        some (.next lock point effect) ∧
      remaining lock point < remaining system.lock (system.point thread) := by
  rw [stands]
  simp only [advance]
  split
  case isTrue same => exact ⟨_, _, _, rfl, by simp [remaining, same]⟩
  case isFalse differs =>
    refine ⟨_, _, _, rfl, ?_⟩
    simp only [remaining, if_neg differs]
    split <;> omega

include rep distinct ranged in
theorem write_unlock_entered_nearer (guards : List Guard)
    (held : Held guards (system.depth thread) (system.reads thread) (system.point thread))
    (stands : system.point thread = .writeUnlockEntered) : ∃ lock point effect,
      advance (tlsId thread) now system.lock (system.point thread) =
        some (.next lock point effect) ∧
      remaining lock point < remaining system.lock (system.point thread) := by
  have kept := fun outcome taken =>
    advance_kept tlsId distinct ranged system owner thread guards now outcome rep taken held
  rw [stands]
  -- The assertion holds, for the thread has no read guard.
  simp only [stands, advance] at kept ⊢
  split
  case isTrue reading =>
    have failed := kept (.crash .invalidWriteUnlockOrder) (by rw [if_pos reading])
    cases failed
  case isFalse => exact ⟨_, _, _, rfl, by simp [remaining]⟩

end Points

theorem advance_nearer (guards : List Guard) (now : Nat)
    (held : Held guards (system.depth thread) (system.reads thread) (system.point thread))
    (few : guards.count .read ≤ 1)
    (waits : Waits (system.depth thread) (system.reads thread) (system.point thread))
    (clear : Clear system thread) (inTime : InTime now (system.point thread))
    (inside : system.point thread ≠ .outside) :
    ∃ lock point effect,
      advance (tlsId thread) now system.lock (system.point thread) =
        some (.next lock point effect) ∧
        remaining lock point < remaining system.lock (system.point thread) := by
  have kept := fun outcome taken =>
    advance_kept tlsId distinct ranged system owner thread guards now outcome rep taken held
  cases stands : system.point thread with
  | outside => exact absurd stands inside
  | writeEntered | readEntered =>
      simp only [advance]
      split
      · exact ⟨_, _, _, rfl, by simp [remaining]⟩
      · exact ⟨_, _, _, rfl, by simp [remaining, maxSpinCount]⟩
  | writeReenter | writeAcquired | writeUnlockLast | readReenter =>
      exact ⟨_, _, _, rfl, by simp [remaining]⟩
  | writeSpin beginTick spinCount =>
      rw [← stands]
      exact write_spin_nearer tlsId system owner rep thread now waits clear inTime beginTick
        spinCount stands
  | readSpin beginTick spinCount =>
      rw [← stands]
      exact read_spin_nearer tlsId system owner rep thread now guards held few waits clear inTime
        beginTick spinCount stands
  | readTry beginTick spinCount expected =>
      rw [← stands]
      exact read_try_nearer tlsId system thread now beginTick spinCount expected stands
  | writeUnlockEntered =>
      rw [← stands]
      exact write_unlock_entered_nearer tlsId system owner rep thread distinct ranged now guards
        held stands
  | writeUnlockChecked =>
      simp only [advance]
      split <;> exact ⟨_, _, _, rfl, by simp [remaining]⟩
  | readUnlockEntered =>
      simp only [stands, advance] at kept ⊢
      split
      case isTrue unread =>
        have failed := kept (.crash .multipleReadUnlock) (by rw [if_pos unread])
        cases failed
      case isFalse => exact ⟨_, _, _, rfl, by simp [remaining]⟩

end Threads

end NetCore.LockProgress
