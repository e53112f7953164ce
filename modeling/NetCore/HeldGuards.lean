import NetCore.GuardNesting
import Mathlib.Algebra.Order.BigOperators.Group.Finset
import Mathlib.Data.Fintype.Card

/-! What the guards of a thread say about the lock at every step inside it: which step of `RWLock`
takes or gives back what a guard stands for, that a thread under a guard never ceases to hold the
lock, and that a thread without guards gives everything back in one step. Sixteen-bit thread ids
and at most one read guard a thread keep the counters of the lock from wrapping. -/
namespace NetCore.HeldGuards
open TransitionRuns ReaderWriterLock LockExclusion GuardNesting

section Lock
variable {Thread : Type} (system : ReaderWriterLock.System Thread) (thread : Thread)

def Holding : Prop := 0 < system.depth thread ∨ 0 < system.reads thread

def Accounted (point next : Point) : Effect → Prop
  | .silent => True
  | .gainWrite => awaited .write point = 1
  | .dropWrite => owed .write point = 1 ∧ next = .outside
  | .gainRead => awaited .read point = 1
  | .dropRead => owed .read point = 1 ∧ next = .outside

theorem advance_accounted (id : BitVec 32) (tick : Nat) (lock after : RWLock) (point next : Point)
    (effect : Effect) (taken : advance id tick lock point = some (.next after next effect)) :
    Accounted point next effect ∧ ∀ guard, owed guard next ≤ owed guard point := by
  cases point with
  | outside => simp [advance] at taken
  | writeSpin beginTick spinCount =>
      simp only [advance, spinAgain, Option.some.injEq] at taken
      split at taken <;> split at taken <;> cases taken <;> simp [Accounted, awaited, owed]
  | readSpin beginTick spinCount =>
      simp only [advance, spinAgain, Option.some.injEq] at taken
      split at taken
      · cases taken
        simp [Accounted, owed]
      · split at taken <;> cases taken
        simp [Accounted, owed]
  | writeReenter =>
      cases taken
      simp [Accounted, awaited, owed]
  | writeAcquired =>
      cases taken
      simp [Accounted, owed]
  | writeUnlockLast =>
      cases taken
      simp [Accounted, owed]
  | readReenter =>
      cases taken
      simp [Accounted, awaited, owed]
  | writeUnlockChecked =>
      simp only [advance, Option.some.injEq] at taken
      split at taken <;> cases taken
      · exact ⟨trivial, fun guard => by cases guard <;> simp [owed]⟩
      · simp [Accounted, owed]
  | writeUnlockEntered =>
      simp only [advance, Option.some.injEq] at taken
      split at taken <;> cases taken
      exact ⟨trivial, fun guard => by cases guard <;> simp [owed]⟩
  | _ =>
      simp only [advance, Option.some.injEq] at taken
      split at taken <;> cases taken <;> simp [Accounted, awaited, owed]

theorem owed_unawaited (guard other : Guard) (point : Point) (owes : owed guard point = 1) :
    awaited other point = 0 := by
  cases guard <;> cases other <;> cases point <;> simp [owed, awaited] at owes ⊢

theorem owed_once (point : Point) : owed .write point + owed .read point ≤ 1 := by
  cases point <;> simp [owed]

/-- A thread under a guard gives back what an inner guard stood for, and stays inside. -/
theorem guarded_stays (id : BitVec 32) (tick : Nat) (lock after : RWLock) (point next : Point)
    (effect : Effect) (guards : List Guard) (depth reads : Nat)
    (held : Held guards depth reads point) (inside : guards ≠ [])
    (taken : advance id tick lock point = some (.next after next effect)) :
    (0 < depth → 0 < depthAfter depth effect) ∧
      (0 < depth ∨ 0 < reads → 0 < depthAfter depth effect ∨ 0 < readsAfter reads effect) := by
  have accounted := (advance_accounted id tick lock after point next effect taken).1
  have writes := held.writes
  have reading := held.reads
  cases effect with
  | silent => exact ⟨fun deep => deep, fun holds => holds⟩
  | gainWrite => exact ⟨fun _ => Nat.succ_pos _, fun _ => Or.inl (Nat.succ_pos _)⟩
  | gainRead => exact ⟨fun deep => deep, fun _ => Or.inr (Nat.succ_pos _)⟩
  | dropWrite =>
      rw [owed_unawaited .write .write point accounted.1, accounted.1] at writes
      -- No read guard is below a write guard, so another write guard is.
      have unread : .read ∉ guards := by
        have shape := held.shape
        have owes := accounted.1
        cases point <;> simp [owed] at owes <;> exact shape
      have another : 0 < guards.count .write := by
        obtain ⟨guard, rest, rfl⟩ := List.exists_cons_of_ne_nil inside
        cases guard with
        | write => simp
        | read => simp at unread
      have deep : 0 < depthAfter depth .dropWrite := by
        simp only [depthAfter]
        omega
      exact ⟨fun _ => deep, fun _ => Or.inl deep⟩
  | dropRead =>
      rw [owed_unawaited .read .read point accounted.1, accounted.1] at reading
      have single := owed_once point
      rw [owed_unawaited .read .write point accounted.1] at writes
      refine ⟨fun deep => deep, fun _ => ?_⟩
      obtain ⟨guard, rest, rfl⟩ := List.exists_cons_of_ne_nil inside
      simp only [depthAfter, readsAfter]
      cases guard with
      | write =>
          rw [List.count_cons_self] at writes
          exact Or.inl (by omega)
      | read =>
          rw [List.count_cons_self] at reading
          exact Or.inr (by omega)

/-- A thread without guards gives back all at once what it still holds. -/
theorem unguarded_leaves (id : BitVec 32) (tick : Nat) (lock after : RWLock) (point next : Point)
    (effect : Effect) (depth reads : Nat) (held : Held [] depth reads point)
    (taken : advance id tick lock point = some (.next after next effect)) :
    (depthAfter depth effect = depth ∧ readsAfter reads effect = reads) ∨
      (next = .outside ∧ depthAfter depth effect = 0 ∧ readsAfter reads effect = 0) := by
  have accounted := (advance_accounted id tick lock after point next effect taken).1
  have writes := held.writes
  have reading := held.reads
  have single := owed_once point
  simp only [List.count_nil] at writes reading
  cases effect with
  | silent => exact Or.inl ⟨rfl, rfl⟩
  | gainWrite =>
      simp only [Accounted] at accounted
      have unowed : owed .write point ≠ 1 := by
        intro owes
        rw [owed_unawaited .write .write point owes] at accounted
        cases accounted
      omega
  | gainRead =>
      simp only [Accounted] at accounted
      have unowed : owed .read point ≠ 1 := by
        intro owes
        rw [owed_unawaited .read .read point owes] at accounted
        cases accounted
      omega
  | dropWrite =>
      have owes := accounted.1
      refine Or.inr ⟨accounted.2, ?_, ?_⟩
      · simp only [depthAfter]
        omega
      · simp only [readsAfter]
        omega
  | dropRead =>
      have owes := accounted.1
      refine Or.inr ⟨accounted.2, ?_, ?_⟩
      · simp only [depthAfter]
        omega
      · simp only [readsAfter]
        omega

variable [DecidableEq Thread] [Fintype Thread]

omit [DecidableEq Thread] in
theorem writer_alone (tlsId : Thread → BitVec 32) (owner : Option Thread)
    (rep : Represents tlsId system owner) (writer : Thread) (deep : 0 < system.depth writer)
    (holds : Holding system thread) : thread = writer := by
  have owned := (rep.depth writer).mp deep
  rcases holds with writing | reading
  · have same := (rep.depth thread).mp writing
    rw [owned, Option.some.injEq] at same
    exact same.symm
  · exact rep.shared writer owned thread reading

end Lock

section Locked
variable {Thread : Type} [DecidableEq Thread] [Fintype Thread] (tlsId : Thread → BitVec 32)

/-- The guards of a thread and the one it is destroying fit the counters of the lock. -/
structure Few (guards : List Guard) (point : Point) : Prop where
  writes : guards.count .write + owed .write point < 65536
  reads : guards.count .read + owed .read point ≤ 1

structure Locked (system : GuardNesting.System Thread) : Prop where
  known : LockExclusion.Invariant tlsId system.shared
  nested : Nested system
  few : ∀ thread, Few (system.guards thread) (system.shared.point thread)

omit [DecidableEq Thread] in
theorem start_locked : Locked tlsId GuardNesting.System.start where
  known _ := ⟨none, start_represents tlsId⟩
  nested := start_nested
  few _ := ⟨by simp [GuardNesting.System.start, ReaderWriterLock.System.start, owed],
    by simp [GuardNesting.System.start, ReaderWriterLock.System.start, owed]⟩

section Threads
variable (distinct : Function.Injective tlsId)
  (ranged : ∀ thread, 1 ≤ (tlsId thread).toNat ∧ (tlsId thread).toNat ≤ 65535)
include distinct ranged

omit [DecidableEq Thread] in
theorem threads_few : Fintype.card Thread ≤ 65535 := by
  have bound : ∀ thread, (tlsId thread).toNat - 1 < 65535 := fun thread => by
    have range := ranged thread
    omega
  have injective : Function.Injective fun thread =>
      (⟨(tlsId thread).toNat - 1, bound thread⟩ : Fin 65535) := by
    intro first second same
    simp only [Fin.mk.injEq] at same
    have firstRange := ranged first
    have secondRange := ranged second
    exact distinct (BitVec.toNat_inj.mp (by omega))
  simpa using Fintype.card_le_of_injective _ injective

omit [DecidableEq Thread] in
theorem few_bounded (system : GuardNesting.System Thread) (nested : Nested system)
    (few : ∀ thread, Few (system.guards thread) (system.shared.point thread)) :
    Bounded system.shared := by
  constructor
  · have one : ∀ thread ∈ Finset.univ, system.shared.reads thread ≤ 1 := by
      intro thread _
      have reads := (nested.threads thread).reads
      have bound := (few thread).reads
      omega
    have total := Finset.sum_le_sum one
    have card := threads_few tlsId distinct ranged
    rw [← Finset.card_eq_sum_ones, Finset.card_univ] at total
    omega
  · intro thread
    have writes := (nested.threads thread).writes
    have bound := (few thread).writes
    omega

theorem construct_locked (before after : GuardNesting.System Thread) (thread : Thread)
    (guard : Guard) (holds : Locked tlsId before)
    (taken : GuardNesting.step tlsId before (.construct thread guard) = some after)
    (nesting : guard = .write → .read ∉ before.guards thread)
    (writes : (guard :: before.guards thread).count .write < 65536)
    (reads : (guard :: before.guards thread).count .read ≤ 1) :
    Locked tlsId after ∧ after.shared.crash = none ∧ before.shared.point thread = .outside ∧
      after = { shared := { before.shared with
                  point := Function.update before.shared.point thread guard.constructor.entry }
                guards :=
                    Function.update before.guards thread (guard :: before.guards thread) } := by
  obtain ⟨shared, stepped, rfl⟩ := Option.map_eq_some_iff.mp taken
  obtain ⟨alive, outside, rfl⟩ := call_entered tlsId before.shared shared thread _ stepped
  have held := holds.nested.threads thread
  rw [outside] at held
  have nested := entered_nested before holds.nested thread _ _ alive
    (construct_held _ _ _ guard held fun same both => nesting same both.2)
  have few : ∀ other,
      Few (Function.update before.guards thread (guard :: before.guards thread) other)
      (Function.update before.shared.point thread guard.constructor.entry other) := by
    intro other
    by_cases mine : other = thread
    · subst other
      rw [Function.update_self, Function.update_self]
      exact ⟨by cases guard <;> exact writes, by cases guard <;> exact reads⟩
    · rw [Function.update_of_ne mine, Function.update_of_ne mine]
      exact holds.few other
  refine ⟨⟨?_, nested, few⟩, alive, outside, rfl⟩
  exact step_keeps tlsId distinct ranged before.shared _ _ holds.known stepped
    (few_bounded tlsId distinct ranged _ nested few)

theorem destroy_locked (before after : GuardNesting.System Thread) (thread : Thread) (guard : Guard)
    (rest : List Guard) (holds : Locked tlsId before) (top : before.guards thread = guard :: rest)
    (taken : GuardNesting.step tlsId before (.destroy thread) = some after) :
    Locked tlsId after ∧ after.shared.crash = none ∧ before.shared.point thread = .outside ∧
      after = { shared := { before.shared with
                  point := Function.update before.shared.point thread guard.destructor.entry }
                guards := Function.update before.guards thread rest } := by
  simp only [GuardNesting.step, top] at taken
  obtain ⟨shared, stepped, rfl⟩ := Option.map_eq_some_iff.mp taken
  obtain ⟨alive, outside, rfl⟩ := call_entered tlsId before.shared shared thread _ stepped
  have held := holds.nested.threads thread
  rw [outside, top] at held
  have nested :=
    entered_nested before holds.nested thread _ _ alive (destroy_held rest _ _ guard held)
  have few : ∀ other, Few (Function.update before.guards thread rest other)
      (Function.update before.shared.point thread guard.destructor.entry other) := by
    intro other
    by_cases mine : other = thread
    · subst other
      have before := holds.few thread
      rw [top] at before
      have writes := before.writes
      have reads := before.reads
      rw [Function.update_self, Function.update_self]
      cases guard with
      | write =>
          rw [List.count_cons_self] at writes
          rw [List.count_cons_of_ne (by decide)] at reads
          exact ⟨by simp only [Guard.destructor, Op.entry, owed]; omega,
            by simp only [Guard.destructor, Op.entry, owed]; omega⟩
      | read =>
          rw [List.count_cons_of_ne (by decide)] at writes
          rw [List.count_cons_self] at reads
          exact ⟨by simp only [Guard.destructor, Op.entry, owed]; omega,
            by simp only [Guard.destructor, Op.entry, owed]; omega⟩
    · rw [Function.update_of_ne mine, Function.update_of_ne mine]
      exact holds.few other
  refine ⟨⟨?_, nested, few⟩, alive, outside, rfl⟩
  exact step_keeps tlsId distinct ranged before.shared _ _ holds.known stepped
    (few_bounded tlsId distinct ranged _ nested few)

theorem advance_locked (before : GuardNesting.System Thread) (after : GuardNesting.System Thread)
    (thread : Thread) (tick : Nat) (holds : Locked tlsId before)
    (taken : GuardNesting.step tlsId before (.advance thread tick) = some after) :
    Locked tlsId after ∧ after.guards = before.guards ∧
      (after.shared.crash ≠ none ∨ ∃ lock point effect,
        advance (tlsId thread) tick before.shared.lock (before.shared.point thread) =
            some (.next lock point effect) ∧
          after.shared = moved before.shared thread lock point
            (depthAfter (before.shared.depth thread) effect)
              (readsAfter (before.shared.reads thread) effect)) := by
  obtain ⟨shared, stepped, rfl⟩ := Option.map_eq_some_iff.mp taken
  have nested :=
    advance_nested tlsId distinct ranged before shared thread tick holds.known holds.nested stepped
  have kept := stepped
  unfold ReaderWriterLock.step at stepped
  split at stepped
  · cases stepped
  · obtain ⟨outcome, moves, rfl⟩ := Option.map_eq_some_iff.mp stepped
    cases outcome with
    | crash error =>
        refine ⟨⟨?_, nested, holds.few⟩, rfl, Or.inl (by simp [settle])⟩
        intro alive
        simp [settle] at alive
    | next lock point effect =>
        rw [settle_moved] at kept nested ⊢
        have owes := (advance_accounted _ _ _ _ _ _ _ moves).2
        have few : ∀ other, Few (before.guards other)
            ((moved before.shared thread lock point (depthAfter (before.shared.depth thread) effect)
              (readsAfter (before.shared.reads thread) effect)).point other) := by
          intro other
          by_cases mine : other = thread
          · subst other
            have old := holds.few thread
            have write := owes .write
            have read := owes .read
            have writes := old.writes
            have reads := old.reads
            simp only [moved, Function.update_self]
            exact ⟨by omega, by omega⟩
          · simp only [moved, Function.update_of_ne mine]
            exact holds.few other
        refine ⟨⟨?_, nested, few⟩, rfl, Or.inr ⟨lock, point, effect, moves, rfl⟩⟩
        exact step_keeps tlsId distinct ranged before.shared _ _ holds.known kept
          (few_bounded tlsId distinct ranged _ nested few)

end Threads

end Locked

end NetCore.HeldGuards
