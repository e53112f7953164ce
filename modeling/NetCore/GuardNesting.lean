import NetCore.LockExclusion

/-! The guard objects of Lock.h over one `RWLock`. A `WriteLock` or `ReadLock` locks in its
constructor and unlocks in its destructor, and the guards of a thread are destroyed last in,
first out. `WriteUnlock` asserts that nobody reads, and counts the thread's own readers too: a
write guard taken inside a read guard inside a write guard ends the process when it is
destroyed. Where no thread nests its guards so, both assertions hold in every run. -/
namespace NetCore.GuardNesting
open TransitionRuns ReaderWriterLock LockExclusion

inductive Guard where
  | write
  | read
  deriving DecidableEq, Repr

def Guard.constructor : Guard → Op
  | .write => .writeLock
  | .read => .readLock

def Guard.destructor : Guard → Op
  | .write => .writeUnlock
  | .read => .readUnlock

/-- The guards of each thread, the one constructed last first. A guard is there from the call
in its constructor to the call in its destructor. -/
structure System (Thread : Type) where
  shared : ReaderWriterLock.System Thread
  guards : Thread → List Guard

variable {Thread : Type}

def System.start : System Thread where
  shared := ReaderWriterLock.System.start
  guards := fun _ => []

inductive Label (Thread : Type) where
  | construct (thread : Thread) (guard : Guard)
  | destroy (thread : Thread)
  | advance (thread : Thread) (tick : Nat)

def Ordered (guards : List Guard) : Prop :=
  guards.Pairwise fun upper lower => upper = .write → lower = .write

theorem unread_ordered (guards : List Guard) (unread : .read ∉ guards) : Ordered guards := by
  refine List.pairwise_of_forall_mem_list ?_
  intro _ _ lower member _
  cases lower with
  | write => rfl
  | read => exact absurd member unread

theorem ordered_below_write (rest : List Guard) (ordered : Ordered (.write :: rest)) :
    .read ∉ rest := by
  intro member
  have same := (List.pairwise_cons.mp ordered).1 .read member rfl
  cases same

/-- Inside the constructor the guard is there and the lock not yet taken. -/
def awaited : Guard → Point → Nat
  | .write, .writeEntered => 1
  | .write, .writeReenter => 1
  | .write, .writeSpin _ _ => 1
  | .read, .readEntered => 1
  | .read, .readReenter => 1
  | .read, .readSpin _ _ => 1
  | .read, .readTry _ _ _ => 1
  | _, _ => 0

/-- Inside the destructor the guard is gone and the lock not yet given back. -/
def owed : Guard → Point → Nat
  | .write, .writeUnlockEntered => 1
  | .write, .writeUnlockChecked => 1
  | .write, .writeUnlockLast => 1
  | .read, .readUnlockEntered => 1
  | _, _ => 0

/-- What the guards of a thread are where it stands. A thread that waits for its first write
lock may have read guards; it will not get past the wait. -/
def Shaped (guards : List Guard) (depth : Nat) : Point → Prop
  | .writeEntered => Ordered guards ∨ depth = 0
  | .writeSpin _ _ => Ordered guards ∨ depth = 0
  | .writeUnlockEntered => .read ∉ guards
  | .writeUnlockChecked => .read ∉ guards
  | .writeUnlockLast => .read ∉ guards
  | _ => Ordered guards

structure Held (guards : List Guard) (depth reads : Nat) (point : Point) : Prop where
  writes : depth + awaited .write point = guards.count .write + owed .write point
  reads : reads + awaited .read point = guards.count .read + owed .read point
  shape : Shaped guards depth point

variable [DecidableEq Thread]

def step (tlsId : Thread → BitVec 32) : Step (System Thread) (Label Thread) := fun system label =>
  match label with
  | .construct thread guard =>
      (ReaderWriterLock.step tlsId system.shared (.call thread guard.constructor)).map fun shared =>
        { shared := shared
          guards := Function.update system.guards thread (guard :: system.guards thread) }
  | .destroy thread =>
      match system.guards thread with
      | [] => none
      | guard :: rest =>
          (ReaderWriterLock.step tlsId system.shared (.call thread guard.destructor)).map
              fun shared =>
            { shared := shared
              guards := Function.update system.guards thread rest }
  | .advance thread tick =>
      (ReaderWriterLock.step tlsId system.shared (.advance thread tick)).map fun shared =>
        { system with shared := shared }

section Threads
variable [Fintype Thread] (tlsId : Thread → BitVec 32) (distinct : Function.Injective tlsId)
  (ranged : ∀ thread, 1 ≤ (tlsId thread).toNat ∧ (tlsId thread).toNat ≤ 65535)
variable (system : ReaderWriterLock.System Thread) (owner : Option Thread) (thread : Thread)

omit [DecidableEq Thread] in
theorem owner_unread (rep : Represents tlsId system (some thread))
    (unread : system.reads thread = 0) :
    getReadLockCount system.lock = 0 := by
  have flag := rep.flag
  rw [owned_reads tlsId system thread rep, unread] at flag
  simp only [ownerFlag] at flag
  have zero : (0 : BitVec 32).toNat = 0 := rfl
  apply BitVec.toNat_inj.mp
  rw [read_lock_count_nat, zero]
  omega

omit [DecidableEq Thread] in
theorem reader_counted (rep : Represents tlsId system owner) (reading : 0 < system.reads thread) :
    getReadLockCount system.lock ≠ 0 := by
  intro zero
  have count : (getReadLockCount system.lock).toNat = 0 := by rw [zero]; rfl
  have flag := rep.flag
  have total := rep.total
  have positive : ∑ other, system.reads other ≠ 0 := fun none =>
    absurd (Finset.sum_eq_zero_iff.mp none thread (Finset.mem_univ thread)) (Nat.ne_of_gt reading)
  rw [read_lock_count_nat] at count
  cases owner with
  | none =>
      simp only [ownerFlag] at flag
      omega
  | some writer =>
      simp only [ownerFlag] at flag
      omega

omit [DecidableEq Thread] in
/-- A thread cannot take the write lock over a reader, itself included. -/
theorem empty_flag_unread (rep : Represents tlsId system owner)
    (clear : system.lock.lockFlag = empty) :
    system.reads thread = 0 := by
  have zero : system.lock.lockFlag.toNat = 0 := by rw [clear]; rfl
  have flag := rep.flag
  have none : ∑ other, system.reads other = 0 := by omega
  exact Finset.sum_eq_zero_iff.mp none thread (Finset.mem_univ thread)

def Kept (guards : List Guard) : Outcome → Prop
  | .crash error => error = .timeout
  | .next _ point effect =>
      Held guards (depthAfter (system.depth thread) effect)
        (readsAfter (system.reads thread) effect) point

omit [DecidableEq Thread] [Fintype Thread] in
theorem spin_again_kept (guards : List Guard) (tick beginTick : Nat) (restart : Point)
    (held : Held guards (system.depth thread) (system.reads thread) restart) :
    Kept system thread guards (spinAgain tick beginTick system.lock restart) := by
  unfold spinAgain
  split
  · rfl
  · exact held

section Points
variable (guards : List Guard) (tick : Nat) (outcome : Outcome)
  (rep : Represents tlsId system owner)
  (taken : advance (tlsId thread) tick system.lock (system.point thread) = some outcome)
  (held : Held guards (system.depth thread) (system.reads thread) (system.point thread))
omit [DecidableEq Thread]
include rep taken held

include distinct ranged in
theorem write_entered_kept (stands : system.point thread = .writeEntered) :
    Kept system thread guards outcome := by
  obtain ⟨writes, reads, shape⟩ := held
  simp only [stands, advance, Option.some.injEq] at taken writes reads shape
  subst outcome
  split
  case isTrue own =>
    have mine := own_id_owner tlsId distinct ranged system owner thread rep own
    have deep := (rep.depth thread).mpr mine
    refine ⟨writes, reads, ?_⟩
    rcases shape with ordered | none
    · exact ordered
    · exact absurd none (Nat.ne_of_gt deep)
  case isFalse => exact ⟨writes, reads, shape⟩

theorem write_spin_kept (beginTick spinCount : Nat)
    (stands : system.point thread = .writeSpin beginTick spinCount) :
    Kept system thread guards outcome := by
  obtain ⟨writes, reads, shape⟩ := held
  simp only [stands, advance, Option.some.injEq] at taken writes reads shape
  subst outcome
  split
  · split
    case isTrue clear =>
      -- Nobody reads, so the thread has no read guard.
      have unread := empty_flag_unread tlsId system owner thread rep clear
      have none : .read ∉ guards := by
        rw [← List.count_eq_zero]
        simp only [awaited, owed] at reads
        omega
      exact ⟨by simpa [awaited, owed, depthAfter] using writes, reads, unread_ordered guards none⟩
    case isFalse => exact ⟨writes, reads, shape⟩
  · exact spin_again_kept system thread guards tick beginTick _ ⟨writes, reads, shape⟩

theorem write_unlock_entered_kept (stands : system.point thread = .writeUnlockEntered) :
    Kept system thread guards outcome := by
  have ok := rep.points thread
  obtain ⟨writes, reads, shape⟩ := held
  simp only [stands, advance, Option.some.injEq] at taken writes reads shape
  subst outcome
  have deep : 0 < system.depth thread := by simpa [stands, PointOk] using ok
  have mine := (rep.depth thread).mp deep
  subst owner
  -- No read guard is left below, so the owner does not read.
  have unread : system.reads thread = 0 := by
    have none := List.count_eq_zero.mpr shape
    simp only [awaited, owed] at reads
    omega
  have zero := owner_unread tlsId system thread rep unread
  simp only [zero, ne_eq, not_true_eq_false, if_false]
  exact ⟨writes, reads, shape⟩

theorem write_unlock_checked_kept (stands : system.point thread = .writeUnlockChecked) :
    Kept system thread guards outcome := by
  have ok := rep.points thread
  obtain ⟨writes, reads, shape⟩ := held
  simp only [stands, advance, Option.some.injEq] at taken writes reads shape
  subst outcome
  have deep : 0 < system.depth thread ∧ system.reads thread = 0 := by
    simpa [stands, PointOk] using ok
  split
  · exact ⟨writes, reads, shape⟩
  · refine ⟨?_, reads, unread_ordered guards shape⟩
    simp only [awaited, owed, depthAfter] at writes ⊢
    omega

theorem write_unlock_last_kept (stands : system.point thread = .writeUnlockLast) :
    Kept system thread guards outcome := by
  have ok := rep.points thread
  obtain ⟨writes, reads, shape⟩ := held
  simp only [stands, advance, Option.some.injEq] at taken writes reads shape
  subst outcome
  have deep : system.depth thread = 1 ∧ system.reads thread = 0 := by
    simpa [stands, PointOk] using ok
  refine ⟨?_, reads, unread_ordered guards shape⟩
  simp only [awaited, owed, depthAfter] at writes ⊢
  omega

theorem read_unlock_entered_kept (stands : system.point thread = .readUnlockEntered) :
    Kept system thread guards outcome := by
  have ok := rep.points thread
  obtain ⟨writes, reads, shape⟩ := held
  simp only [stands, advance, Option.some.injEq] at taken writes reads shape
  subst outcome
  have reading : 0 < system.reads thread := by simpa [stands, PointOk] using ok
  have counted := reader_counted tlsId system owner thread rep reading
  simp only [counted, if_false]
  refine ⟨writes, ?_, shape⟩
  simp only [awaited, owed, readsAfter] at reads ⊢
  omega

end Points

omit [DecidableEq Thread] in
include distinct ranged in
/-- One atomic step of one thread, by the point where it stands. -/
theorem advance_kept (guards : List Guard) (tick : Nat) (outcome : Outcome)
    (rep : Represents tlsId system owner)
    (taken : advance (tlsId thread) tick system.lock (system.point thread) = some outcome)
    (held : Held guards (system.depth thread) (system.reads thread) (system.point thread)) :
    Kept system thread guards outcome := by
  have ⟨writes, reads, shape⟩ := held
  cases stands : system.point thread with
  | outside => simp [stands, advance] at taken
  | writeEntered =>
      exact write_entered_kept tlsId distinct ranged system owner thread guards tick outcome rep
        taken held stands
  | writeReenter =>
      simp only [stands, advance, Option.some.injEq] at taken writes reads shape
      subst outcome
      exact ⟨by simpa [awaited, owed, depthAfter] using writes, reads, shape⟩
  | writeSpin beginTick spinCount =>
      exact write_spin_kept tlsId system owner thread guards tick outcome rep taken held beginTick
        spinCount stands
  | writeAcquired =>
      simp only [stands, advance, Option.some.injEq] at taken writes reads shape
      subst outcome
      exact ⟨writes, reads, shape⟩
  | writeUnlockEntered =>
      exact write_unlock_entered_kept tlsId system owner thread guards tick outcome rep taken held
        stands
  | writeUnlockChecked =>
      exact write_unlock_checked_kept tlsId system owner thread guards tick outcome rep taken held
        stands
  | writeUnlockLast =>
      exact write_unlock_last_kept tlsId system owner thread guards tick outcome rep taken held
        stands
  | readEntered =>
      simp only [stands, advance, Option.some.injEq] at taken writes reads shape
      subst outcome
      split <;> exact ⟨writes, reads, shape⟩
  | readReenter =>
      simp only [stands, advance, Option.some.injEq] at taken writes reads shape
      subst outcome
      exact ⟨writes, by simpa [awaited, owed, readsAfter] using reads, shape⟩
  | readSpin beginTick spinCount =>
      simp only [stands, advance, Option.some.injEq] at taken writes reads shape
      subst outcome
      split
      · exact ⟨writes, reads, shape⟩
      · exact spin_again_kept system thread guards tick beginTick _ ⟨writes, reads, shape⟩
  | readTry beginTick spinCount expected =>
      simp only [stands, advance, Option.some.injEq] at taken writes reads shape
      subst outcome
      split
      · exact ⟨writes, by simpa [awaited, owed, readsAfter] using reads, shape⟩
      · exact ⟨writes, reads, shape⟩
  | readUnlockEntered =>
      exact read_unlock_entered_kept tlsId system owner thread guards tick outcome rep taken held
        stands

end Threads

theorem construct_held (guards : List Guard) (depth reads : Nat) (guard : Guard)
    (held : Held guards depth reads .outside)
    (nesting : guard = .write → ¬ (.write ∈ guards ∧ .read ∈ guards)) :
    Held (guard :: guards) depth reads guard.constructor.entry := by
  obtain ⟨writes, reading, ordered⟩ := held
  cases guard with
  | write =>
      refine ⟨?_, ?_, ?_⟩
      · simpa [Guard.constructor, Op.entry, awaited, owed] using writes
      · simpa [Guard.constructor, Op.entry, awaited, owed] using reading
      · by_cases read : .read ∈ guards
        · have unwritten : .write ∉ guards := fun written => nesting rfl ⟨written, read⟩
          have none := List.count_eq_zero.mpr unwritten
          simp only [awaited, owed] at writes
          exact Or.inr (by omega)
        · exact Or.inl (unread_ordered _ (by simpa using read))
  | read =>
      refine ⟨?_, ?_, ?_⟩
      · simpa [Guard.constructor, Op.entry, awaited, owed] using writes
      · simpa [Guard.constructor, Op.entry, awaited, owed] using reading
      · exact List.pairwise_cons.mpr ⟨(fun _ _ same => by cases same), ordered⟩

theorem destroy_held (rest : List Guard) (depth reads : Nat) (guard : Guard)
    (held : Held (guard :: rest) depth reads .outside) :
    Held rest depth reads guard.destructor.entry := by
  obtain ⟨writes, reading, ordered⟩ := held
  cases guard with
  | write =>
      refine ⟨?_, ?_, ordered_below_write rest ordered⟩
      · simpa [Guard.destructor, Op.entry, awaited, owed] using writes
      · simpa [Guard.destructor, Op.entry, awaited, owed] using reading
  | read =>
      refine ⟨?_, ?_, (List.pairwise_cons.mp ordered).2⟩
      · simpa [Guard.destructor, Op.entry, awaited, owed] using writes
      · simpa [Guard.destructor, Op.entry, awaited, owed] using reading

structure Nested (system : System Thread) : Prop where
  threads : ∀ thread, Held (system.guards thread) (system.shared.depth thread)
    (system.shared.reads thread) (system.shared.point thread)
  crash : system.shared.crash = none ∨
    (system.shared.crash = some .timeout ∧ ∃ thread, system.shared.point thread ≠ .outside)

omit [DecidableEq Thread] in
theorem start_nested : Nested (System.start : System Thread) where
  threads _ := ⟨rfl, rfl, .nil⟩
  crash := Or.inl rfl

theorem call_entered (tlsId : Thread → BitVec 32) (before after : ReaderWriterLock.System Thread)
    (thread : Thread) (op : Op)
    (taken : ReaderWriterLock.step tlsId before (.call thread op) = some after) :
    before.crash = none ∧ before.point thread = .outside ∧
      after = { before with point := Function.update before.point thread op.entry } := by
  unfold ReaderWriterLock.step at taken
  split at taken
  · simp at taken
  case isFalse running =>
    simp only [Option.ite_none_right_eq_some, Option.some.injEq] at taken
    exact ⟨by simpa using running, taken.1.1, taken.2.symm⟩

theorem entered_nested (system : System Thread) (holds : Nested system) (thread : Thread)
    (guards : List Guard) (point : Point) (alive : system.shared.crash = none)
    (held : Held guards (system.shared.depth thread) (system.shared.reads thread) point) :
    Nested
      { shared := { system.shared with point := Function.update system.shared.point thread point }
        guards := Function.update system.guards thread guards } where
  threads other := by
    by_cases mine : other = thread
    · subst other
      simpa using held
    · simpa [mine] using holds.threads other
  crash := Or.inl alive

theorem moved_nested (system : System Thread) (holds : Nested system) (thread : Thread)
    (lock : RWLock) (point : Point) (depth reads : Nat) (alive : system.shared.crash = none)
    (held : Held (system.guards thread) depth reads point) :
    Nested { system with shared := moved system.shared thread lock point depth reads } where
  threads other := by
    by_cases mine : other = thread
    · subst other
      simpa [moved] using held
    · simpa [moved, mine] using holds.threads other
  crash := Or.inl alive

/-- Fewer than 65536 acquisitions are outstanding, and no thread constructs a write guard while
it has both a write guard and a read guard. -/
structure Bracketed [Fintype Thread] (before : System Thread) (label : Label Thread)
    (after : System Thread) :
    Prop where
  bounded : Bounded after.shared
  nesting : ∀ thread, label = .construct thread .write →
    ¬ (.write ∈ before.guards thread ∧ .read ∈ before.guards thread)

def bracketed [Fintype Thread] : Condition (System Thread) (Label Thread) := Bracketed

section Runs
variable [Fintype Thread] (tlsId : Thread → BitVec 32) (distinct : Function.Injective tlsId)
  (ranged : ∀ thread, 1 ≤ (tlsId thread).toNat ∧ (tlsId thread).toNat ≤ 65535)
include distinct ranged

theorem advance_nested (before : System Thread) (shared : ReaderWriterLock.System Thread)
    (thread : Thread) (tick : Nat) (known : LockExclusion.Invariant tlsId before.shared)
    (holds : Nested before)
    (taken : ReaderWriterLock.step tlsId before.shared (.advance thread tick) = some shared) :
    Nested { before with shared := shared } := by
  unfold ReaderWriterLock.step at taken
  split at taken
  · simp at taken
  case isFalse running =>
    have alive : before.shared.crash = none := by simpa using running
    obtain ⟨owner, rep⟩ := known alive
    obtain ⟨outcome, stepped, rfl⟩ := Option.map_eq_some_iff.mp taken
    have kept := advance_kept tlsId distinct ranged before.shared owner thread
      (before.guards thread) tick outcome rep stepped (holds.threads thread)
    cases outcome with
    | crash error =>
        simp only [Kept] at kept
        subst error
        refine ⟨holds.threads, Or.inr ⟨rfl, thread, ?_⟩⟩
        -- A thread outside has no step to fail in.
        intro outside
        rw [show before.shared.point thread = .outside from outside] at stepped
        cases stepped
    | next lock point effect =>
        rw [settle_moved]
        exact moved_nested before holds thread lock point _ _ alive kept

theorem step_nested (before after : System Thread) (label : Label Thread)
    (holds : LockExclusion.Invariant tlsId before.shared ∧ Nested before)
    (taken : step tlsId before label = some after) (allowed : Bracketed before label after) :
    LockExclusion.Invariant tlsId after.shared ∧ Nested after := by
  cases label with
  | construct thread guard =>
      obtain ⟨shared, stepped, rfl⟩ := Option.map_eq_some_iff.mp taken
      have kept :=
        step_keeps tlsId distinct ranged before.shared shared _ holds.1 stepped allowed.bounded
      obtain ⟨alive, outside, rfl⟩ := call_entered tlsId before.shared shared thread _ stepped
      have held := holds.2.threads thread
      rw [outside] at held
      refine ⟨kept, entered_nested before holds.2 thread _ _ alive ?_⟩
      exact construct_held _ _ _ guard held fun same => allowed.nesting thread (by rw [same])
  | destroy thread =>
      simp only [step] at taken
      cases top : before.guards thread with
      | nil => simp [top] at taken
      | cons guard rest =>
          simp only [top] at taken
          obtain ⟨shared, stepped, rfl⟩ := Option.map_eq_some_iff.mp taken
          have kept :=
            step_keeps tlsId distinct ranged before.shared shared _ holds.1 stepped allowed.bounded
          obtain ⟨alive, outside, rfl⟩ := call_entered tlsId before.shared shared thread _ stepped
          have held := holds.2.threads thread
          rw [outside, top] at held
          exact ⟨kept,
            entered_nested before holds.2 thread _ _ alive (destroy_held rest _ _ guard held)⟩
  | advance thread tick =>
      obtain ⟨shared, stepped, rfl⟩ := Option.map_eq_some_iff.mp taken
      have kept :=
        step_keeps tlsId distinct ranged before.shared shared _ holds.1 stepped allowed.bounded
      exact ⟨kept,
        advance_nested tlsId distinct ranged before shared thread tick holds.1 holds.2 stepped⟩

theorem reachable_nested (system : System Thread)
    (reached : Reachable (step tlsId) bracketed System.start system) :
    LockExclusion.Invariant tlsId system.shared ∧ Nested system :=
  reachable_invariant (step tlsId) bracketed
    (fun system => LockExclusion.Invariant tlsId system.shared ∧ Nested system) System.start
    ⟨fun _ => ⟨none, start_represents tlsId⟩, start_nested⟩
    (fun before label after holds taken allowed =>
      step_nested tlsId distinct ranged before after label holds taken allowed)
    system reached

/-- The two assertions never fail, a thread outside can always destroy its last guard, and the
lock is as constructed when no guard is left. -/
theorem bracketed_locking (system : System Thread)
    (reached : Reachable (step tlsId) bracketed System.start system) :
    system.shared.crash ≠ some .invalidWriteUnlockOrder ∧
    system.shared.crash ≠ some .multipleReadUnlock ∧
    (∀ thread guard rest, system.shared.crash = none → system.shared.point thread = .outside →
      system.guards thread = guard :: rest →
      ∃ after, step tlsId system (.destroy thread) = some after) ∧
    ((∀ thread, system.guards thread = [] ∧ system.shared.point thread = .outside) →
      system.shared.lock = RWLock.construct) := by
  obtain ⟨known, holds⟩ := reachable_nested tlsId distinct ranged system reached
  refine ⟨?_, ?_, ?_, ?_⟩
  · rcases holds.crash with alive | ⟨ended, -⟩
    · simp [alive]
    · simp [ended]
  · rcases holds.crash with alive | ⟨ended, -⟩
    · simp [alive]
    · simp [ended]
  · intro thread guard rest alive outside top
    have held := holds.threads thread
    rw [outside, top] at held
    obtain ⟨writes, reads, -⟩ := held
    -- What the guard stands for is held, so the destructor's call is entitled to it.
    have entitledTo : entitled system.shared thread guard.destructor = true := by
      cases guard with
      | write =>
          simp only [awaited, owed, List.count_cons_self] at writes
          simp only [entitled, Guard.destructor, decide_eq_true_eq]
          omega
      | read =>
          simp only [awaited, owed, List.count_cons_self] at reads
          simp only [entitled, Guard.destructor, decide_eq_true_eq]
          omega
    simp [step, top, ReaderWriterLock.step, alive, outside, entitledTo]
  · intro released
    have alive : system.shared.crash = none := by
      rcases holds.crash with alive | ⟨-, thread, inside⟩
      · exact alive
      · exact absurd (released thread).2 inside
    obtain ⟨owner, rep⟩ := known alive
    have nothing : ∀ thread, system.shared.depth thread = 0 ∧ system.shared.reads thread = 0 := by
      intro thread
      have held := holds.threads thread
      rw [(released thread).1, (released thread).2] at held
      exact ⟨by simpa [awaited, owed] using held.writes, by simpa [awaited, owed] using held.reads⟩
    have unowned : owner = none := by
      cases owner with
      | none => rfl
      | some writer => exact absurd (nothing writer).1 (Nat.ne_of_gt ((rep.depth writer).mpr rfl))
    subst owner
    have unread : ∑ thread, system.shared.reads thread = 0 :=
      Finset.sum_eq_zero fun thread _ => (nothing thread).2
    have flag : system.shared.lock.lockFlag = empty := by
      apply BitVec.toNat_inj.mp
      rw [rep.flag, unread]
      rfl
    have count : system.shared.lock.writeCount = 0 := BitVec.toNat_inj.mp rep.count
    calc system.shared.lock
        = ⟨system.shared.lock.lockFlag, system.shared.lock.writeCount⟩ := rfl
      _ = RWLock.construct := by rw [flag, count]; rfl

end Runs

def bracketedStep [Fintype Thread] (before : System Thread) (label : Label Thread)
    (after : System Thread) :
    Bool :=
  decide (Bounded after.shared) &&
    match label with
    | .construct thread .write =>
        decide (¬ (.write ∈ before.guards thread ∧ .read ∈ before.guards thread))
    | _ => true

omit [DecidableEq Thread] in
theorem bracketed_step_sound [Fintype Thread] (before : System Thread) (label : Label Thread)
    (after : System Thread) (checked : bracketedStep before label after = true) :
    bracketed before label after := by
  unfold bracketedStep at checked
  rw [Bool.and_eq_true] at checked
  refine ⟨of_decide_eq_true checked.1, ?_⟩
  rintro thread rfl
  exact of_decide_eq_true checked.2

def pairId : Fin 2 → BitVec 32 := fun thread => if thread = 0 then 1 else 2

/-- One thread takes the write lock twice and reads inside; then the other one reads. -/
def nestedLabels : List (Label (Fin 2)) :=
  [.construct 0 .write, .advance 0 0, .advance 0 0, .advance 0 0,
   .construct 0 .write, .advance 0 0, .advance 0 0,
   .construct 0 .read, .advance 0 0, .advance 0 0,
   .destroy 0, .advance 0 0, .destroy 0, .advance 0 0, .advance 0 0,
   .destroy 0, .advance 0 0, .advance 0 0, .advance 0 0,
   .construct 1 .read, .advance 1 0, .advance 1 0, .advance 1 0, .destroy 1, .advance 1 0]

theorem bracketed_locking_nested :
    ∃ system : System (Fin 2), Reachable (step pairId) bracketed System.start system ∧
      system.shared.lock = RWLock.construct := by
  obtain ⟨system, reached, seen⟩ := replay_reachable (step pairId) bracketed bracketedStep
    bracketed_step_sound
    (fun system => (system.guards 0, system.guards 1, system.shared.point 0, system.shared.point 1))
    ([], [], .outside, .outside) nestedLabels System.start (by decide +kernel)
  simp only [Prod.mk.injEq] at seen
  obtain ⟨first, second, firstOut, secondOut⟩ := seen
  have released : ∀ thread, system.guards thread = [] ∧ system.shared.point thread = .outside := by
    intro thread
    match thread with
    | 0 => exact ⟨first, firstOut⟩
    | 1 => exact ⟨second, secondOut⟩
  exact ⟨system, reached,
    (bracketed_locking pairId (by decide) (by decide) system reached).2.2.2 released⟩

/-- A write guard inside a read guard inside a write guard, and its destruction. -/
theorem write_under_read_crashes :
    ¬ ∀ system : System (Fin 2),
      Reachable (step pairId) (fun _ _ after => Bounded after.shared) System.start system →
      system.shared.crash ≠ some .invalidWriteUnlockOrder := by
  intro safe
  obtain ⟨system, reached, seen⟩ :=
    replay_reachable (step pairId) (fun _ _ after => Bounded after.shared)
    (fun _ _ after => decide (Bounded after.shared))
      (fun _ _ _ checked => of_decide_eq_true checked)
    (fun system => system.shared.crash) (some .invalidWriteUnlockOrder)
    [.construct 0 .write, .advance 0 0, .advance 0 0, .advance 0 0,
     .construct 0 .read, .advance 0 0, .advance 0 0,
     .construct 0 .write, .advance 0 0, .advance 0 0,
     .destroy 0, .advance 0 0] System.start (by decide +kernel)
  exact safe system reached seen

end NetCore.GuardNesting
