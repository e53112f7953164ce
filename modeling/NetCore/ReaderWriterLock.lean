import NetCore.TransitionRuns
import Mathlib.Data.Nat.Bitwise

/-! `RWLock` of RWLock.h and RWLock.cpp. One word packs the id of the writing
thread over the number of readers; `_writeCount` is a plain member that only the
owner touches. Each load, compare-exchange, fetch-and-add, store and update of
`_writeCount` is one step, and threads interleave between any two of them.
Spinning, yielding and the time-out are kept: clock readings come with the step.
A failed assertion ends the process, so no step follows a crash. -/
namespace NetCore.ReaderWriterLock
open TransitionRuns

def flagSize : Nat := 16
def timeoutTick : Nat := 10000
def maxSpinCount : Nat := 10000
def writeThreadMask : BitVec 32 := 0xFFFF0000#32
def readCountMask : BitVec 32 := 0x0000FFFF#32
def empty : BitVec 32 := 0x00000000#32

inductive LockError where
  | timeout
  | invalidWriteUnlockOrder
  | multipleReadUnlock
  deriving DecidableEq, Repr

structure RWLock where
  lockFlag : BitVec 32
  writeCount : BitVec 16
  deriving DecidableEq, Repr

def RWLock.construct : RWLock := { lockFlag := empty, writeCount := 0 }

def getLockThreadId (lock : RWLock) : BitVec 32 := (lock.lockFlag &&& writeThreadMask) >>> flagSize

def getWriteDesiredFlag (tlsId : BitVec 32) : BitVec 32 := (tlsId <<< flagSize) &&& writeThreadMask

def getReadLockCount (lock : RWLock) : BitVec 32 := lock.lockFlag &&& readCountMask

/-- `endTick - beginTick` in `uint64`. -/
def elapsed (endTick beginTick : Nat) : Nat := (endTick + 2 ^ 64 - beginTick) % 2 ^ 64

inductive Op where
  | writeLock
  | writeUnlock
  | readLock
  | readUnlock
  deriving DecidableEq, Repr

inductive Point where
  | outside
  | writeEntered
  | writeReenter
  | writeSpin (beginTick spinCount : Nat)
  | writeAcquired
  | writeUnlockEntered
  | writeUnlockChecked
  | writeUnlockLast
  | readEntered
  | readReenter
  | readSpin (beginTick spinCount : Nat)
  | readTry (beginTick spinCount : Nat) (expected : BitVec 32)
  | readUnlockEntered
  deriving DecidableEq, Repr

def Op.entry : Op → Point
  | .writeLock => .writeEntered
  | .writeUnlock => .writeUnlockEntered
  | .readLock => .readEntered
  | .readUnlock => .readUnlockEntered

inductive Effect where
  | silent
  | gainWrite
  | dropWrite
  | gainRead
  | dropRead
  deriving DecidableEq, Repr

inductive Outcome where
  | crash (error : LockError)
  | next (lock : RWLock) (point : Point) (effect : Effect)
  deriving DecidableEq, Repr

/-- After `MAX_SPIN_COUNT` failures: give up at the time-out, or spin again. -/
def spinAgain (tick beginTick : Nat) (lock : RWLock) (restart : Point) : Outcome :=
  if timeoutTick ≤ elapsed tick beginTick then .crash .timeout else .next lock restart .silent

/-- The next atomic step of the thread with id `tlsId`, reading the clock as `tick`. -/
def advance (tlsId : BitVec 32) (tick : Nat) (lock : RWLock) : Point → Option Outcome
  | .outside => none
  | .writeEntered => some <|
      if tlsId = getLockThreadId lock then .next lock .writeReenter .silent
      else .next lock (.writeSpin tick 0) .silent
  | .writeReenter => some <|
      .next { lock with writeCount := lock.writeCount + 1 } .outside .gainWrite
  -- `compare_exchange_strong(EMPTY, desired)`, one turn of the inner loop.
  | .writeSpin beginTick spinCount => some <|
      if spinCount < maxSpinCount then
        if lock.lockFlag = empty then
          .next { lock with lockFlag := getWriteDesiredFlag tlsId } .writeAcquired .gainWrite
        else .next lock (.writeSpin beginTick (spinCount + 1)) .silent
      else spinAgain tick beginTick lock (.writeSpin beginTick 0)
  | .writeAcquired => some <|
      .next { lock with writeCount := lock.writeCount + 1 } .outside .silent
  | .writeUnlockEntered => some <|
      if getReadLockCount lock ≠ 0 then .crash .invalidWriteUnlockOrder
      else .next lock .writeUnlockChecked .silent
  -- `_writeCount` is a plain `uint16`, so the decrement is taken modulo its width.
  | .writeUnlockChecked => some <|
      let lockCount := lock.writeCount - 1
      if lockCount = 0 then .next { lock with writeCount := lockCount } .writeUnlockLast .silent
      else .next { lock with writeCount := lockCount } .outside .dropWrite
  | .writeUnlockLast => some <| .next { lock with lockFlag := empty } .outside .dropWrite
  | .readEntered => some <|
      if tlsId = getLockThreadId lock then .next lock .readReenter .silent
      else .next lock (.readSpin tick 0) .silent
  | .readReenter => some <| .next { lock with lockFlag := lock.lockFlag + 1 } .outside .gainRead
  | .readSpin beginTick spinCount => some <|
      if spinCount < maxSpinCount then
        .next lock (.readTry beginTick spinCount (getReadLockCount lock)) .silent
      else spinAgain tick beginTick lock (.readSpin beginTick 0)
  -- `expected` has its upper half masked out: the exchange fails under any writer,
  -- the thread's own included. That one never comes here, it took `.readReenter`.
  | .readTry beginTick spinCount expected => some <|
      if lock.lockFlag = expected then
        .next { lock with lockFlag := expected + 1 } .outside .gainRead
      else .next lock (.readSpin beginTick (spinCount + 1)) .silent
  -- The assertion tests the value before `fetch_sub`; the process ends there, so
  -- the word it leaves behind is not kept.
  | .readUnlockEntered => some <|
      if getReadLockCount lock = 0 then .crash .multipleReadUnlock
      else .next { lock with lockFlag := lock.lockFlag - 1 } .outside .dropRead

theorem lock_thread_id_nat (lock : RWLock) :
    (getLockThreadId lock).toNat = lock.lockFlag.toNat / 65536 := by
  have bound := lock.lockFlag.isLt
  have mask : (0xFFFF0000#32).toNat >>> 16 = 2 ^ 16 - 1 := by decide
  simp only [getLockThreadId, flagSize, writeThreadMask, BitVec.toNat_ushiftRight, BitVec.toNat_and,
    Nat.shiftRight_and_distrib]
  rw [mask, Nat.and_two_pow_sub_one_eq_mod, Nat.shiftRight_eq_div_pow]
  omega

theorem read_lock_count_nat (lock : RWLock) :
    (getReadLockCount lock).toNat = lock.lockFlag.toNat % 65536 := by
  have mask : (0x0000FFFF#32).toNat = 2 ^ 16 - 1 := by decide
  simp only [getReadLockCount, readCountMask, BitVec.toNat_and]
  rw [mask, Nat.and_two_pow_sub_one_eq_mod]

theorem write_desired_flag_nat (tlsId : BitVec 32) (ranged : tlsId.toNat < 65536) :
    (getWriteDesiredFlag tlsId).toNat = tlsId.toNat * 65536 := by
  have mask : (0xFFFF0000#32).toNat = (2 ^ 16 - 1) <<< 16 := by decide
  have shifted : (tlsId <<< 16).toNat = tlsId.toNat <<< 16 := by
    rw [BitVec.toNat_shiftLeft, Nat.shiftLeft_eq]
    exact Nat.mod_eq_of_lt (by omega)
  simp only [getWriteDesiredFlag, flagSize, writeThreadMask, BitVec.toNat_and]
  rw [shifted, mask, ← Nat.shiftLeft_and_distrib, Nat.and_two_pow_sub_one_eq_mod,
    Nat.mod_eq_of_lt ranged, Nat.shiftLeft_eq]

/-! Threads sharing one lock. `depth` and `reads` record what each thread has
acquired and not yet released: a write acquisition counts from the step that took
it (the compare-exchange, or the increment on the re-entrant path) to the step
that gave it back (the store, or the decrement above one). -/
section Threads
variable {Thread : Type} [DecidableEq Thread]

structure System (Thread : Type) where
  lock : RWLock
  crash : Option LockError
  point : Thread → Point
  depth : Thread → Nat
  reads : Thread → Nat

def System.start : System Thread where
  lock := RWLock.construct
  crash := none
  point := fun _ => .outside
  depth := fun _ => 0
  reads := fun _ => 0

inductive Label (Thread : Type) where
  | call (thread : Thread) (op : Op)
  | advance (thread : Thread) (tick : Nat)

def entitled (system : System Thread) (thread : Thread) : Op → Bool
  | .writeUnlock => decide (0 < system.depth thread)
  | .readUnlock => decide (0 < system.reads thread)
  | _ => true

def record (effect : Effect) (thread : Thread) (system : System Thread) : System Thread :=
  match effect with
  | .silent => system
  | .gainWrite =>
      { system with depth := Function.update system.depth thread (system.depth thread + 1) }
  | .dropWrite =>
      { system with depth := Function.update system.depth thread (system.depth thread - 1) }
  | .gainRead =>
      { system with reads := Function.update system.reads thread (system.reads thread + 1) }
  | .dropRead =>
      { system with reads := Function.update system.reads thread (system.reads thread - 1) }

def settle (thread : Thread) (system : System Thread) : Outcome → System Thread
  | .crash error => { system with crash := some error }
  | .next lock point effect => record effect thread
      { system with lock := lock, point := Function.update system.point thread point }

def step (tlsId : Thread → BitVec 32) : Step (System Thread) (Label Thread) := fun system label =>
  -- A failed assertion ends the process: nobody moves any more.
  if system.crash.isSome then none
  else match label with
  | .call thread op =>
      if system.point thread = .outside ∧ entitled system thread op then
        some { system with point := Function.update system.point thread op.entry }
      else none
  | .advance thread tick =>
      (advance (tlsId thread) tick system.lock (system.point thread)).map (settle thread system)

end Threads

end NetCore.ReaderWriterLock
