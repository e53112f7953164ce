import NetCore.ReaderWriterLock
import NetCore.PendingViews
import Mathlib.Data.Fintype.Basic

/-! Exclusion of the reader-writer lock. `Represents` ties the packed word and
the counter to an abstract lock that has one writer or none; every step keeps it
for the owner that the step leaves behind. The bounds on what is outstanding are
those of the two halves of the word and of the sixteen-bit counter. -/
namespace NetCore.LockExclusion
open TransitionRuns ReaderWriterLock

variable {Thread : Type} [DecidableEq Thread]

def moved (system : System Thread) (thread : Thread) (lock : RWLock) (point : Point)
    (depth reads : Nat) : System Thread :=
  { system with
    lock := lock
    point := Function.update system.point thread point
    depth := Function.update system.depth thread depth
    reads := Function.update system.reads thread reads }

def depthAfter (depth : Nat) : Effect → Nat
  | .gainWrite => depth + 1
  | .dropWrite => depth - 1
  | _ => depth

def readsAfter (reads : Nat) : Effect → Nat
  | .gainRead => reads + 1
  | .dropRead => reads - 1
  | _ => reads

theorem settle_moved (system : System Thread) (thread : Thread) (lock : RWLock) (point : Point)
    (effect : Effect) :
    settle thread system (.next lock point effect) =
      moved system thread lock point (depthAfter (system.depth thread) effect)
        (readsAfter (system.reads thread) effect) := by
  cases effect <;>
    simp [settle, record, moved, depthAfter, readsAfter, Function.update_eq_self]

variable [Fintype Thread]

theorem sum_gain (counts : Thread → Nat) (thread : Thread) :
    ∑ other, Function.update counts thread (counts thread + 1) other = ∑ other,
      counts other + 1 := by
  have exchange := PendingViews.sum_exchange counts
    (Function.update counts thread (counts thread + 1)) thread
    (fun other different => Function.update_of_ne different _ _)
  rw [Function.update_self] at exchange
  omega

theorem sum_drop (counts : Thread → Nat) (thread : Thread) (some : 0 < counts thread) :
    ∑ other, Function.update counts thread (counts thread - 1) other + 1 = ∑ other,
      counts other := by
  have exchange := PendingViews.sum_exchange counts
    (Function.update counts thread (counts thread - 1)) thread
    (fun other different => Function.update_of_ne different _ _)
  rw [Function.update_self] at exchange
  omega

/-- Between the compare-exchange and its `_writeCount++`, and between the last
`--_writeCount` and the store, the count is behind the flag. -/
def inWindow : Point → Bool
  | .writeAcquired => true
  | .writeUnlockLast => true
  | _ => false

def PointOk (depth reads : Nat) : Point → Prop
  | .writeReenter => 0 < depth
  | .readReenter => 0 < depth
  | .writeUnlockEntered => 0 < depth
  | .writeUnlockChecked => 0 < depth ∧ reads = 0
  | .writeAcquired => depth = 1
  | .writeUnlockLast => depth = 1 ∧ reads = 0
  | .readTry _ _ expected => expected.toNat < 65536
  | .readUnlockEntered => 0 < reads
  | _ => True

def ownerFlag (tlsId : Thread → BitVec 32) : Option Thread → Nat
  | none => 0
  | some writer => (tlsId writer).toNat * 65536

def ownerCount (system : System Thread) : Option Thread → Nat
  | none => 0
  | some writer => if inWindow (system.point writer) then 0 else system.depth writer

/-- The packed word and the counter stand for one writer or none, and for the
readers; while there is a writer the readers are its own. -/
structure Represents (tlsId : Thread → BitVec 32) (system : System Thread) (owner : Option Thread) :
    Prop where
  flag : system.lock.lockFlag.toNat = ownerFlag tlsId owner + ∑ thread, system.reads thread
  total : ∑ thread, system.reads thread < 65536
  depth : ∀ thread, 0 < system.depth thread ↔ owner = some thread
  shared : ∀ writer, owner = some writer → ∀ thread, 0 < system.reads thread → thread = writer
  count : system.lock.writeCount.toNat = ownerCount system owner
  points : ∀ thread, PointOk (system.depth thread) (system.reads thread) (system.point thread)

omit [DecidableEq Thread] in
theorem start_represents (tlsId : Thread → BitVec 32) : Represents tlsId System.start none where
  flag := by simp [System.start, RWLock.construct, empty, ownerFlag]
  total := by simp [System.start]
  depth := by simp [System.start]
  shared := by simp
  count := by simp [System.start, RWLock.construct, ownerCount]
  points := by simp [System.start, PointOk]

section Steps
variable (tlsId : Thread → BitVec 32) (distinct : Function.Injective tlsId)
  (ranged : ∀ thread, 1 ≤ (tlsId thread).toNat ∧ (tlsId thread).toNat ≤ 65535)
variable (system : System Thread) (owner : Option Thread)

/-- Fewer than 65536 read acquisitions and fewer than 65536 nested write
acquisitions are outstanding. -/
def Bounded (system : System Thread) : Prop :=
  ∑ thread, system.reads thread < 65536 ∧ ∀ thread, system.depth thread < 65536

def Invariant (system : System Thread) : Prop :=
  system.crash = none → ∃ owner, Represents tlsId system owner

/-- What a step of `thread` has to establish for the new owner. The entries of the
other threads are carried over. -/
theorem moved_represents (thread : Thread) (lock : RWLock) (point : Point) (depth reads : Nat)
    (next : Option Thread) (rep : Represents tlsId system owner)
    (flag : lock.lockFlag.toNat = ownerFlag tlsId next + ∑ other,
      Function.update system.reads thread reads other)
    (total : ∑ other, Function.update system.reads thread reads other < 65536)
    (mine : 0 < depth ↔ next = some thread)
    (others : ∀ other, other ≠ thread → (next = some other ↔ owner = some other))
    (shared : ∀ writer, next = some writer → (0 < reads → thread = writer) ∧ ∀ other,
      other ≠ thread → 0 < system.reads other → other = writer)
    (count : lock.writeCount.toNat = ownerCount (moved system thread lock point depth reads) next)
    (ok : PointOk depth reads point) :
    Represents tlsId (moved system thread lock point depth reads) next where
  flag := flag
  total := total
  depth other := by
    by_cases same : other = thread
    · subst other
      simpa [moved] using mine
    · simpa [moved, same] using (rep.depth other).trans (others other same).symm
  shared writer owned other held := by
    by_cases same : other = thread
    · subst other
      exact (shared writer owned).1 (by simpa [moved] using held)
    · exact (shared writer owned).2 other same (by simpa [moved, same] using held)
  count := count
  points other := by
    by_cases same : other = thread
    · subst other
      simpa [moved] using ok
    · simpa [moved, same] using rep.points other

theorem silent_represents (thread : Thread) (point : Point) (rep : Represents tlsId system owner)
    (left : inWindow (system.point thread) = false) (entered : inWindow point = false)
    (ok : PointOk (system.depth thread) (system.reads thread) point) :
    Represents tlsId
      (moved system thread system.lock point (system.depth thread)
        (system.reads thread)) owner := by
  apply moved_represents tlsId system owner thread _ _ _ _ owner rep
  case flag => simpa using rep.flag
  case total => simpa using rep.total
  case mine => exact rep.depth thread
  case others => exact fun _ _ => Iff.rfl
  case shared =>
    exact fun writer owned =>
      ⟨rep.shared writer owned thread, fun other _ => rep.shared writer owned other⟩
  case ok => exact ok
  case count =>
    rw [rep.count]
    cases owner with
    | none => rfl
    | some writer =>
        by_cases same : writer = thread
        · subst writer
          simp [ownerCount, moved, left, entered]
        · simp [ownerCount, moved, same]

theorem settle_silent (thread : Thread) (point : Point) (rep : Represents tlsId system owner)
    (left : inWindow (system.point thread) = false) (entered : inWindow point = false)
    (ok : PointOk (system.depth thread) (system.reads thread) point) :
    Invariant tlsId (settle thread system (.next system.lock point .silent)) := by
  intro _
  rw [settle_moved]
  exact ⟨owner, silent_represents tlsId system owner thread point rep left entered ok⟩

omit [DecidableEq Thread] in
theorem owned_reads (thread : Thread) (rep : Represents tlsId system (some thread)) :
    ∑ other, system.reads other = system.reads thread := by
  apply Finset.sum_eq_single_of_mem thread (Finset.mem_univ thread)
  intro other _ different
  exact Nat.eq_zero_of_not_pos fun held => different (rep.shared thread rfl other held)

omit [DecidableEq Thread] in
theorem unread_owner (thread : Thread) (rep : Represents tlsId system (some thread))
    (unread : getReadLockCount system.lock = 0) : system.reads thread = 0 := by
  have count : (getReadLockCount system.lock).toNat = 0 := by rw [unread]; rfl
  have total := rep.total
  rw [read_lock_count_nat, rep.flag, owned_reads tlsId system thread rep] at count
  rw [owned_reads tlsId system thread rep] at total
  simp only [ownerFlag] at count
  omega

omit [DecidableEq Thread] in
include ranged in
theorem empty_flag_unowned (rep : Represents tlsId system owner)
    (clear : system.lock.lockFlag.toNat < 65536) : owner = none := by
  cases owner with
  | none => rfl
  | some writer =>
      have flag := rep.flag
      have positive := (ranged writer).1
      simp only [ownerFlag] at flag
      omega

omit [DecidableEq Thread] in
include distinct ranged in
theorem own_id_owner (thread : Thread) (rep : Represents tlsId system owner)
    (own : tlsId thread = getLockThreadId system.lock) : owner = some thread := by
  have decoded : (tlsId thread).toNat = system.lock.lockFlag.toNat / 65536 := by
    rw [own, lock_thread_id_nat]
  have positive := (ranged thread).1
  have total := rep.total
  have flag := rep.flag
  cases owner with
  | none =>
      simp only [ownerFlag] at flag
      omega
  | some writer =>
      simp only [ownerFlag] at flag
      have same : (tlsId writer).toNat = (tlsId thread).toNat := by omega
      exact congrArg some (distinct (BitVec.toNat_inj.mp same))

include ranged in
theorem acquire_represents (thread : Thread) (rep : Represents tlsId system owner)
    (clear : system.lock.lockFlag = empty) :
    Represents tlsId (settle thread system (.next
      { system.lock with
        lockFlag := getWriteDesiredFlag (tlsId thread) } .writeAcquired .gainWrite))
      (some thread) := by
  have zero : system.lock.lockFlag.toNat = 0 := by rw [clear]; rfl
  have unowned := empty_flag_unowned tlsId ranged system owner rep (by omega)
  subst owner
  have noReads : ∑ other, system.reads other = 0 := by
    have flag := rep.flag
    omega
  have noReader : ∀ other, system.reads other = 0 := fun other =>
    Finset.sum_eq_zero_iff.mp noReads other (Finset.mem_univ other)
  have idle : system.depth thread = 0 :=
    Nat.eq_zero_of_not_pos fun held => by simpa using (rep.depth thread).mp held
  rw [settle_moved]
  apply moved_represents tlsId system none thread _ _ _ _ (some thread) rep
  case flag =>
    have range := (ranged thread).2
    simp only [readsAfter, Function.update_eq_self, noReads, ownerFlag, Nat.add_zero]
    exact write_desired_flag_nat _ (by omega)
  case total => simp [readsAfter, noReads]
  case mine => simp [depthAfter]
  case others =>
    intro other different
    simp [Ne.symm different]
  case shared =>
    intro writer _
    exact ⟨fun held => by simp [readsAfter, noReader] at held,
      fun other _ held => by simp [noReader] at held⟩
  -- The count is still that of the unowned lock: the window opens here.
  case count => simpa [ownerCount, moved, inWindow] using rep.count
  case ok => simp [PointOk, depthAfter, idle]

theorem count_represents (thread : Thread) (count : BitVec 16) (point : Point) (depth : Nat)
    (rep : Represents tlsId system (some thread)) (held : 0 < depth)
    (counted : count.toNat = if inWindow point then 0 else depth)
    (ok : PointOk depth (system.reads thread) point) :
    Represents tlsId (moved system thread { system.lock with writeCount := count } point depth
      (system.reads thread)) (some thread) := by
  apply moved_represents tlsId system (some thread) thread _ _ _ _ (some thread) rep
  case flag => simpa using rep.flag
  case total => simpa using rep.total
  case mine => simpa using held
  case others => exact fun _ _ => Iff.rfl
  case shared =>
    exact fun writer owned =>
      ⟨rep.shared writer owned thread, fun other _ => rep.shared writer owned other⟩
  case count => simpa [ownerCount, moved] using counted
  case ok => exact ok

/-- `_writeCount++` on the re-entrant path. -/
theorem reenter_represents (thread : Thread) (rep : Represents tlsId system (some thread))
    (settled : inWindow (system.point thread) = false) (bound : system.depth thread + 1 < 65536) :
    Represents tlsId (settle thread system (.next
      { system.lock with writeCount := system.lock.writeCount + 1 } .outside .gainWrite))
      (some thread) := by
  have count : system.lock.writeCount.toNat = system.depth thread := by
    simpa [ownerCount, settled] using rep.count
  rw [settle_moved]
  apply count_represents tlsId system thread _ .outside _ rep
  case held => exact Nat.succ_pos _
  case counted =>
    -- The bound on nested acquisitions is what keeps the sixteen bits from wrapping.
    rw [BitVec.toNat_add, count]
    exact Nat.mod_eq_of_lt bound
  case ok => trivial

/-- The `_writeCount++` that closes the window after the compare-exchange. -/
theorem first_count_represents (thread : Thread) (rep : Represents tlsId system (some thread))
    (at_window : system.point thread = .writeAcquired) :
    Represents tlsId (settle thread system (.next
      { system.lock with writeCount := system.lock.writeCount + 1 } .outside .silent))
      (some thread) := by
  have once : system.depth thread = 1 := by simpa [at_window, PointOk] using rep.points thread
  have count : system.lock.writeCount.toNat = 0 := by
    simpa [ownerCount, at_window, inWindow] using rep.count
  rw [settle_moved]
  apply count_represents tlsId system thread _ .outside _ rep
  case held => simp [depthAfter, once]
  case counted => simp [BitVec.toNat_add, count, inWindow, depthAfter, once]
  case ok => trivial

/-- `--_writeCount`: the owner leaves one level, or enters the window before the
store when that was the last one. -/
theorem unlock_represents (thread : Thread) (rep : Represents tlsId system (some thread))
    (checked : system.point thread = .writeUnlockChecked) :
    Represents tlsId (settle thread system
      (if system.lock.writeCount - 1 = 0
        then .next { system.lock with
          writeCount := system.lock.writeCount - 1 } .writeUnlockLast .silent
        else .next { system.lock with
          writeCount := system.lock.writeCount - 1 } .outside .dropWrite))
      (some thread) := by
  have held : 0 < system.depth thread ∧ system.reads thread = 0 := by
    simpa [checked, PointOk] using rep.points thread
  have count : system.lock.writeCount.toNat = system.depth thread := by
    simpa [ownerCount, checked, inWindow] using rep.count
  have less : (system.lock.writeCount - 1).toNat = system.depth thread - 1 := by
    have bound := system.lock.writeCount.isLt
    have one : (1 : BitVec 16).toNat = 1 := rfl
    rw [BitVec.toNat_sub, one, count]
    omega
  split
  case isTrue last =>
    have once : system.depth thread = 1 := by
      have zero : (system.lock.writeCount - 1).toNat = 0 := by rw [last]; rfl
      omega
    rw [settle_moved]
    -- The last level stays with the thread until the store.
    apply count_represents tlsId system thread _ .writeUnlockLast _ rep
    case held => exact held.1
    case counted => rw [less, once]; rfl
    case ok => exact ⟨once, held.2⟩
  case isFalse more =>
    have deeper : 0 < system.depth thread - 1 := by
      apply Nat.pos_of_ne_zero
      intro zero
      exact more (BitVec.toNat_inj.mp (less.trans zero))
    rw [settle_moved]
    apply count_represents tlsId system thread _ .outside _ rep
    case held => exact deeper
    case counted => exact less
    case ok => trivial

/-- `_lockFlag.store(EMPTY)`. -/
theorem release_represents (thread : Thread) (rep : Represents tlsId system (some thread))
    (last : system.point thread = .writeUnlockLast) :
    Represents tlsId (settle thread system
      (.next { system.lock with lockFlag := empty } .outside .dropWrite)) none := by
  have held : system.depth thread = 1 ∧ system.reads thread = 0 := by
    simpa [last, PointOk] using rep.points thread
  have noReads : ∑ other, system.reads other = 0 :=
    (owned_reads tlsId system thread rep).trans held.2
  have count : system.lock.writeCount.toNat = 0 := by
    simpa [ownerCount, last, inWindow] using rep.count
  rw [settle_moved]
  apply moved_represents tlsId system (some thread) thread _ _ _ _ none rep
  case flag => simp [readsAfter, noReads, ownerFlag, empty]
  case total => simp [readsAfter, noReads]
  case mine => simp [depthAfter, held.1]
  case others =>
    intro other different
    simp [Ne.symm different]
  case shared => simp
  case count => exact count
  case ok => trivial

theorem gain_read_represents (thread : Thread) (flag : BitVec 32)
    (rep : Represents tlsId system owner) (settled : inWindow (system.point thread) = false)
    (allowed : ∀ writer, owner = some writer → thread = writer)
    (added : flag.toNat = system.lock.lockFlag.toNat + 1)
    (bound : ∑ other, Function.update system.reads thread (system.reads thread + 1) other < 65536) :
    Represents tlsId (settle thread system
      (.next { system.lock with lockFlag := flag } .outside .gainRead)) owner := by
  rw [settle_moved]
  apply moved_represents tlsId system owner thread _ _ _ _ owner rep
  case flag =>
    simp only [readsAfter, sum_gain]
    rw [added, rep.flag, Nat.add_assoc]
  case total => exact bound
  case mine => exact rep.depth thread
  case others => exact fun _ _ => Iff.rfl
  case shared =>
    exact fun writer owned =>
      ⟨fun _ => allowed writer owned, fun other _ => rep.shared writer owned other⟩
  case ok => trivial
  case count =>
    rw [rep.count]
    cases owner with
    | none => rfl
    | some writer =>
        have same := allowed writer rfl
        subst writer
        have outside : inWindow .outside = false := rfl
        simp [ownerCount, moved, settled, outside, depthAfter]

include ranged in
/-- `fetch_add` on top of the own write lock: the carry cannot reach the id. -/
theorem reenter_read_represents (thread : Thread) (rep : Represents tlsId system (some thread))
    (settled : inWindow (system.point thread) = false)
    (bound : ∑ other, Function.update system.reads thread (system.reads thread + 1) other < 65536) :
    Represents tlsId (settle thread system
      (.next { system.lock with lockFlag := system.lock.lockFlag + 1 } .outside .gainRead))
      (some thread) := by
  refine gain_read_represents tlsId system _ thread _ rep settled (by simp) ?_ bound
  have flag := rep.flag
  have range := (ranged thread).2
  have one : (1 : BitVec 32).toNat = 1 := rfl
  rw [BitVec.toNat_add, one]
  rw [sum_gain] at bound
  simp only [ownerFlag] at flag
  omega

theorem exchange_read_represents (thread : Thread) (expected : BitVec 32)
    (rep : Represents tlsId system none) (settled : inWindow (system.point thread) = false)
    (same : system.lock.lockFlag = expected) (low : expected.toNat < 65536)
    (bound : ∑ other, Function.update system.reads thread (system.reads thread + 1) other < 65536) :
    Represents tlsId (settle thread system
      (.next { system.lock with lockFlag := expected + 1 } .outside .gainRead)) none := by
  refine gain_read_represents tlsId system _ thread _ rep settled (by simp) ?_ bound
  have one : (1 : BitVec 32).toNat = 1 := rfl
  rw [BitVec.toNat_add, one, same]
  omega

/-- `_lockFlag.fetch_sub(1)`. -/
theorem drop_read_represents (thread : Thread) (rep : Represents tlsId system owner)
    (entered : system.point thread = .readUnlockEntered) :
    Represents tlsId (settle thread system
      (.next { system.lock with lockFlag := system.lock.lockFlag - 1 } .outside
        .dropRead)) owner := by
  have held : 0 < system.reads thread := by simpa [entered, PointOk] using rep.points thread
  have dropped := sum_drop system.reads thread held
  have flag := rep.flag
  have total := rep.total
  have less : (system.lock.lockFlag - 1).toNat = system.lock.lockFlag.toNat - 1 := by
    have bound := system.lock.lockFlag.isLt
    have one : (1 : BitVec 32).toNat = 1 := rfl
    rw [BitVec.toNat_sub, one]
    omega
  rw [settle_moved]
  apply moved_represents tlsId system owner thread _ _ _ _ owner rep
  case flag =>
    simp only [readsAfter]
    omega
  case total =>
    simp only [readsAfter]
    omega
  case mine => exact rep.depth thread
  case others => exact fun _ _ => Iff.rfl
  case shared =>
    exact fun writer owned => ⟨fun _ => rep.shared writer owned thread held,
      fun other _ => rep.shared writer owned other⟩
  case ok => trivial
  case count =>
    rw [rep.count]
    cases owner with
    | none => rfl
    | some writer =>
        have same := rep.shared writer rfl thread held
        subst writer
        simp [ownerCount, moved, entered, inWindow, depthAfter]

theorem spin_again_keeps (thread : Thread) (tick beginTick : Nat) (restart : Point)
    (rep : Represents tlsId system owner) (left : inWindow (system.point thread) = false)
    (entered : inWindow restart = false)
    (ok : PointOk (system.depth thread) (system.reads thread) restart) :
    Invariant tlsId (settle thread system (spinAgain tick beginTick system.lock restart)) := by
  unfold spinAgain
  split
  · intro alive
    simp [settle] at alive
  · exact settle_silent tlsId system owner thread restart rep left entered ok

section Points
variable (thread : Thread) (tick : Nat) (outcome : Outcome) (rep : Represents tlsId system owner)
  (taken : advance (tlsId thread) tick system.lock (system.point thread) = some outcome)
include rep taken

include distinct ranged in
theorem write_entered_keeps (stands : system.point thread = .writeEntered) :
    Invariant tlsId (settle thread system outcome) := by
  simp only [stands, advance, Option.some.injEq] at taken
  subst outcome
  split
  case isTrue own =>
    have mine := own_id_owner tlsId distinct ranged system owner thread rep own
    exact settle_silent tlsId system owner thread _ rep (by rw [stands]; rfl) rfl
      ((rep.depth thread).mpr mine)
  case isFalse =>
    exact settle_silent tlsId system owner thread _ rep (by rw [stands]; rfl) rfl trivial

theorem write_reenter_keeps (bounded : Bounded (settle thread system outcome))
    (stands : system.point thread = .writeReenter) :
    Invariant tlsId (settle thread system outcome) := by
  have ok := rep.points thread
  simp only [stands, advance, Option.some.injEq] at taken
  subst outcome
  have mine := (rep.depth thread).mp (by simpa [stands, PointOk] using ok)
  subst owner
  have bound := bounded.2 thread
  simp only [settle, record, Function.update_self] at bound
  exact fun _ => ⟨_, reenter_represents tlsId system thread rep (by rw [stands]; rfl) bound⟩

include ranged in
theorem write_spin_keeps (beginTick spinCount : Nat)
    (stands : system.point thread = .writeSpin beginTick spinCount) :
    Invariant tlsId (settle thread system outcome) := by
  simp only [stands, advance, Option.some.injEq] at taken
  subst outcome
  split
  · split
    case isTrue clear =>
      exact fun _ => ⟨_, acquire_represents tlsId ranged system owner thread rep clear⟩
    case isFalse =>
      exact settle_silent tlsId system owner thread _ rep (by rw [stands]; rfl) rfl trivial
  · exact spin_again_keeps tlsId system owner thread tick beginTick _ rep
      (by rw [stands]; rfl) rfl trivial

theorem write_acquired_keeps (stands : system.point thread = .writeAcquired) :
    Invariant tlsId (settle thread system outcome) := by
  have ok := rep.points thread
  simp only [stands, advance, Option.some.injEq] at taken
  subst outcome
  have once : system.depth thread = 1 := by simpa [stands, PointOk] using ok
  have mine := (rep.depth thread).mp (by omega)
  subst owner
  exact fun _ => ⟨_, first_count_represents tlsId system thread rep stands⟩

theorem write_unlock_entered_keeps (stands : system.point thread = .writeUnlockEntered) :
    Invariant tlsId (settle thread system outcome) := by
  have ok := rep.points thread
  simp only [stands, advance, Option.some.injEq] at taken
  subst outcome
  have held : 0 < system.depth thread := by simpa [stands, PointOk] using ok
  split
  · intro alive
    simp [settle] at alive
  case isFalse unread =>
    have mine := (rep.depth thread).mp held
    subst owner
    have noReads := unread_owner tlsId system thread rep (not_not.mp unread)
    exact settle_silent tlsId system _ thread _ rep (by rw [stands]; rfl) rfl ⟨held, noReads⟩

theorem write_unlock_checked_keeps (stands : system.point thread = .writeUnlockChecked) :
    Invariant tlsId (settle thread system outcome) := by
  have ok := rep.points thread
  simp only [stands, advance, Option.some.injEq] at taken
  subst outcome
  have held : 0 < system.depth thread ∧ system.reads thread = 0 := by
    simpa [stands, PointOk] using ok
  have mine := (rep.depth thread).mp held.1
  subst owner
  exact fun _ => ⟨_, unlock_represents tlsId system thread rep stands⟩

theorem write_unlock_last_keeps (stands : system.point thread = .writeUnlockLast) :
    Invariant tlsId (settle thread system outcome) := by
  have ok := rep.points thread
  simp only [stands, advance, Option.some.injEq] at taken
  subst outcome
  have held : system.depth thread = 1 ∧ system.reads thread = 0 := by
    simpa [stands, PointOk] using ok
  have mine := (rep.depth thread).mp (by omega)
  subst owner
  exact fun _ => ⟨_, release_represents tlsId system thread rep stands⟩

include distinct ranged in
theorem read_entered_keeps (stands : system.point thread = .readEntered) :
    Invariant tlsId (settle thread system outcome) := by
  simp only [stands, advance, Option.some.injEq] at taken
  subst outcome
  split
  case isTrue own =>
    have mine := own_id_owner tlsId distinct ranged system owner thread rep own
    exact settle_silent tlsId system owner thread _ rep (by rw [stands]; rfl) rfl
      ((rep.depth thread).mpr mine)
  case isFalse =>
    exact settle_silent tlsId system owner thread _ rep (by rw [stands]; rfl) rfl trivial

include ranged in
theorem read_reenter_keeps (bounded : Bounded (settle thread system outcome))
    (stands : system.point thread = .readReenter) :
    Invariant tlsId (settle thread system outcome) := by
  have ok := rep.points thread
  simp only [stands, advance, Option.some.injEq] at taken
  subst outcome
  have mine := (rep.depth thread).mp (by simpa [stands, PointOk] using ok)
  subst owner
  have bound := bounded.1
  simp only [settle, record] at bound
  exact fun _ =>
    ⟨_, reenter_read_represents tlsId ranged system thread rep (by rw [stands]; rfl) bound⟩

theorem read_spin_keeps (beginTick spinCount : Nat)
    (stands : system.point thread = .readSpin beginTick spinCount) :
    Invariant tlsId (settle thread system outcome) := by
  simp only [stands, advance, Option.some.injEq] at taken
  subst outcome
  split
  · apply settle_silent tlsId system owner thread _ rep (by rw [stands]; rfl) rfl
    simp only [PointOk, read_lock_count_nat]
    omega
  · exact spin_again_keeps tlsId system owner thread tick beginTick _ rep
      (by rw [stands]; rfl) rfl trivial

include ranged in
theorem read_try_keeps (bounded : Bounded (settle thread system outcome))
    (beginTick spinCount : Nat) (expected : BitVec 32)
    (stands : system.point thread = .readTry beginTick spinCount expected) :
    Invariant tlsId (settle thread system outcome) := by
  have ok := rep.points thread
  simp only [stands, advance, Option.some.injEq] at taken
  subst outcome
  have low : expected.toNat < 65536 := by simpa [stands, PointOk] using ok
  split at bounded
  case isTrue same =>
    -- `expected` has no upper half, so a match shows that nobody writes.
    have unowned := empty_flag_unowned tlsId ranged system owner rep (by rw [same]; exact low)
    subst owner
    simp only [same, ↓reduceIte]
    exact fun _ =>
      ⟨_, exchange_read_represents tlsId system thread expected rep (by rw [stands]; rfl) same low
        bounded.1⟩
  case isFalse differs =>
    simp only [differs, ↓reduceIte]
    exact settle_silent tlsId system owner thread _ rep (by rw [stands]; rfl) rfl trivial

theorem read_unlock_entered_keeps (stands : system.point thread = .readUnlockEntered) :
    Invariant tlsId (settle thread system outcome) := by
  simp only [stands, advance, Option.some.injEq] at taken
  subst outcome
  split
  · intro alive
    simp [settle] at alive
  · exact fun _ => ⟨_, drop_read_represents tlsId system owner thread rep stands⟩

end Points

include distinct ranged in
theorem advance_keeps (thread : Thread) (tick : Nat) (outcome : Outcome)
    (rep : Represents tlsId system owner)
    (taken : advance (tlsId thread) tick system.lock (system.point thread) = some outcome)
    (bounded : Bounded (settle thread system outcome)) :
    Invariant tlsId (settle thread system outcome) := by
  cases stands : system.point thread with
  | outside => simp [stands, advance] at taken
  | writeEntered =>
      exact write_entered_keeps tlsId distinct ranged system owner thread tick outcome rep taken
        stands
  | writeReenter =>
      exact write_reenter_keeps tlsId system owner thread tick outcome rep taken bounded stands
  | writeSpin beginTick spinCount =>
      exact write_spin_keeps tlsId ranged system owner thread tick outcome rep taken beginTick
        spinCount stands
  | writeAcquired =>
      exact write_acquired_keeps tlsId system owner thread tick outcome rep taken stands
  | writeUnlockEntered =>
      exact write_unlock_entered_keeps tlsId system owner thread tick outcome rep taken stands
  | writeUnlockChecked =>
      exact write_unlock_checked_keeps tlsId system owner thread tick outcome rep taken stands
  | writeUnlockLast =>
      exact write_unlock_last_keeps tlsId system owner thread tick outcome rep taken stands
  | readEntered =>
      exact read_entered_keeps tlsId distinct ranged system owner thread tick outcome rep taken
        stands
  | readReenter =>
      exact read_reenter_keeps tlsId ranged system owner thread tick outcome rep taken bounded
        stands
  | readSpin beginTick spinCount =>
      exact read_spin_keeps tlsId system owner thread tick outcome rep taken beginTick spinCount
        stands
  | readTry beginTick spinCount expected =>
      exact read_try_keeps tlsId ranged system owner thread tick outcome rep taken bounded beginTick
        spinCount expected stands
  | readUnlockEntered =>
      exact read_unlock_entered_keeps tlsId system owner thread tick outcome rep taken stands

end Steps

section Runs
variable (tlsId : Thread → BitVec 32) (distinct : Function.Injective tlsId)
  (ranged : ∀ thread, 1 ≤ (tlsId thread).toNat ∧ (tlsId thread).toNat ≤ 65535)
include distinct ranged

theorem step_keeps (before after : System Thread) (label : Label Thread)
    (holds : Invariant tlsId before) (taken : step tlsId before label = some after)
    (bounded : Bounded after) : Invariant tlsId after := by
  unfold step at taken
  split at taken
  · simp at taken
  case isFalse running =>
    have alive : before.crash = none := by simpa using running
    obtain ⟨owner, rep⟩ := holds alive
    cases label with
    | call thread op =>
        simp only at taken
        split at taken
        case isTrue ready =>
          have outside : inWindow (before.point thread) = false := by rw [ready.1]; rfl
          have ok : PointOk (before.depth thread) (before.reads thread) op.entry := by
            have allowed := ready.2
            cases op with
            | writeLock => trivial
            | readLock => trivial
            | writeUnlock => simpa [entitled, Op.entry, PointOk] using allowed
            | readUnlock => simpa [entitled, Op.entry, PointOk] using allowed
          have entered : inWindow op.entry = false := by cases op <;> rfl
          have kept := silent_represents tlsId before owner thread op.entry rep outside entered ok
          simp only [moved, Function.update_eq_self] at kept
          rw [Option.some.injEq] at taken
          subst after
          exact fun _ => ⟨owner, kept⟩
        case isFalse => simp at taken
    | advance thread tick =>
        obtain ⟨outcome, stepped, same⟩ := Option.map_eq_some_iff.mp taken
        subst after
        exact advance_keeps tlsId distinct ranged before owner thread tick outcome
          rep stepped bounded

theorem reachable_represents (system : System Thread)
    (reached : Reachable (step tlsId) (fun _ _ after => Bounded after) System.start system)
    (alive : system.crash = none) : ∃ owner, Represents tlsId system owner :=
  reachable_invariant (step tlsId) _ (Invariant tlsId) System.start
    (fun _ => ⟨none, start_represents tlsId⟩)
    (fun before label after holds taken bounded =>
      step_keeps tlsId distinct ranged before after label holds taken bounded)
    system reached alive

/-- Mutual exclusion, and what the flag and the counter say, in every reachable
state that has not crashed. -/
theorem mutual_exclusion (system : System Thread)
    (reached : Reachable (step tlsId) (fun _ _ after => Bounded after) System.start system)
    (alive : system.crash = none) :
    (∀ left right, 0 < system.depth left → 0 < system.depth right → left = right) ∧
    (∀ writer thread, 0 < system.depth writer → 0 < system.reads thread → thread = writer) ∧
    (∀ writer, 0 < system.depth writer → getLockThreadId system.lock = tlsId writer) ∧
    ((∀ thread, system.depth thread = 0) → getLockThreadId system.lock = 0) ∧
    (getReadLockCount system.lock).toNat = ∑ thread, system.reads thread ∧
    (∀ writer, 0 < system.depth writer → inWindow (system.point writer) = false →
      system.lock.writeCount.toNat = system.depth writer) := by
  obtain ⟨owner, rep⟩ := reachable_represents tlsId distinct ranged system reached alive
  have flag := rep.flag
  have total := rep.total
  refine ⟨?_, ?_, ?_, ?_, ?_, ?_⟩
  · -- `Represents` has one owner, so two holders are the same thread.
    intro left right atLeft atRight
    have both := ((rep.depth left).mp atLeft).symm.trans ((rep.depth right).mp atRight)
    exact Option.some.inj both
  · intro writer thread held reading
    exact rep.shared writer ((rep.depth writer).mp held) thread reading
  · intro writer held
    rw [(rep.depth writer).mp held, ownerFlag] at flag
    apply BitVec.toNat_inj.mp
    rw [lock_thread_id_nat]
    omega
  · intro nobody
    have unowned : owner = none := by
      cases owner with
      | none => rfl
      | some writer => exact absurd (nobody writer) (Nat.ne_of_gt ((rep.depth writer).mpr rfl))
    rw [unowned, ownerFlag] at flag
    have zero : (0 : BitVec 32).toNat = 0 := rfl
    apply BitVec.toNat_inj.mp
    rw [lock_thread_id_nat, zero]
    omega
  · rw [read_lock_count_nat]
    cases owner with
    | none =>
        simp only [ownerFlag] at flag
        omega
    | some writer =>
        simp only [ownerFlag] at flag
        omega
  · intro writer held settled
    have count := rep.count
    rw [(rep.depth writer).mp held] at count
    simpa [ownerCount, settled] using count

end Runs

instance (system : System Thread) : Decidable (Bounded system) :=
  inferInstanceAs (Decidable (_ ∧ ∀ _, _))

/-- A thread that took the write lock and a read lock under it, while another one
spins for the write lock. -/
theorem mutual_exclusion_contended :
    ∃ system : System (Fin 2), 0 < system.depth 0 ∧ 0 < system.reads 0 ∧
      system.point 1 = .writeSpin 5 1 ∧ getLockThreadId system.lock = 1 ∧ system.depth 1 = 0 := by
  let tlsId : Fin 2 → BitVec 32 := fun thread => if thread = 0 then 1 else 2
  have distinct : Function.Injective tlsId := by decide
  have ranged : ∀ thread, 1 ≤ (tlsId thread).toNat ∧ (tlsId thread).toNat ≤ 65535 := by decide
  obtain ⟨system, reached, seen⟩ := replay_reachable (step tlsId) (fun _ _ after => Bounded after)
    (fun _ _ after => decide (Bounded after)) (fun _ _ _ checked => of_decide_eq_true checked)
    (fun system => (system.crash, system.depth 0, system.reads 0, system.point 1))
    (none, 1, 1, Point.writeSpin 5 1)
    [.call 0 .writeLock, .advance 0 0, .advance 0 0, .advance 0 0, .call 0 .readLock, .advance 0 1,
      .advance 0 1, .call 1 .writeLock, .advance 1 5, .advance 1 6] System.start (by decide)
  simp only [Prod.mk.injEq] at seen
  obtain ⟨alive, depth, reads, spins⟩ := seen
  have exclusion := mutual_exclusion tlsId distinct ranged system reached alive
  refine ⟨system, by omega, by omega, spins, exclusion.2.2.1 0 (by omega), ?_⟩
  by_contra held
  exact absurd (exclusion.1 0 1 (by omega) (Nat.pos_of_ne_zero held)) (by decide)

end NetCore.LockExclusion
