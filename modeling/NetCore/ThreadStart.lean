import NetCore.ReaderWriterLock

/-! The start-up of threads that share the pool of send buffers. `_init_tls` assigns
`TLS_SendBuffer = GSendBufferManager->Pop()` first and `TLS_Id` afterwards, so a new
thread goes through the lock of the manager with `TLS_Id` 0. The lock is the one of
ReaderWriterLock, step by step; inside it the test of the vector, the copy of its last
element and the removal are steps of their own, so that an overlap shows. Reading or
removing the last element of an empty vector has no meaning and no step. -/
namespace NetCore.ThreadStart
open TransitionRuns ReaderWriterLock

/-- Who calls `Pop`: `_init_tls` with the id it will assign, code that renews
`TLS_SendBuffer`, or code that keeps the buffer for a while. -/
inductive Purpose where
  | startUp (id : BitVec 32)
  | renew
  | borrow
  deriving DecidableEq, Repr

/-- `Push` is called by the deleter of a buffer, followed by the rest of `_init_tls` if
it came from there. -/
inductive Call where
  | pop (purpose : Purpose)
  | push (buffer : Nat) (id : Option (BitVec 32))
  deriving DecidableEq, Repr

inductive Result where
  | popped (purpose : Purpose) (buffer : Nat)
  | nothing (purpose : Purpose)
  | pushed (id : Option (BitVec 32))
  deriving DecidableEq, Repr

inductive Stage where
  | fresh
  | idle
  | locking (call : Call) (point : Point)
  | inside (call : Call)
  | back (purpose : Purpose)
  | removing (purpose : Purpose) (buffer : Nat)
  | unlocking (result : Result) (point : Point)
  | making (purpose : Purpose)
  | returned (purpose : Purpose) (buffer : Nat)
  | numbering (id : BitVec 32)
  deriving DecidableEq, Repr

structure System (Thread : Type) where
  lock : RWLock
  crash : Option LockError
  pool : List Nat
  created : Nat
  tls : Thread → Option Nat
  tlsId : Thread → BitVec 32
  stage : Thread → Stage

def System.start {Thread : Type} : System Thread where
  lock := RWLock.construct
  crash := none
  pool := []
  created := 0
  tls := fun _ => none
  tlsId := fun _ => 0
  stage := fun _ => .fresh

inductive Label (Thread : Type) where
  | initTls (thread : Thread) (id : BitVec 32)
  | renew (thread : Thread)
  | borrow (thread : Thread)
  | drop (thread : Thread)
  | advance (thread : Thread) (tick : Nat)

def resume : Option (BitVec 32) → Stage
  | none => .idle
  | some id => .numbering id

/-- The deleter calls `Push` with the old buffer, if there was one. -/
def release (old : Option Nat) (id : Option (BitVec 32)) : Stage :=
  match old with
  | some buffer => .locking (.push buffer id) .writeEntered
  | none => resume id

def unlocked : Result → Stage
  | .popped purpose buffer => .returned purpose buffer
  | .nothing purpose => .making purpose
  | .pushed id => resume id

variable {Thread : Type} [DecidableEq Thread]

def enter (system : System Thread) (thread : Thread) (stage : Stage) : System Thread :=
  { system with stage := Function.update system.stage thread stage }

/-- `TLS_SendBuffer = …`: the new buffer is swapped in, the old one released. -/
def assign (system : System Thread) (thread : Thread) (buffer : Nat) (id : Option (BitVec 32)) :
    System Thread :=
  { enter system thread (release (system.tls thread) id) with
    tls := Function.update system.tls thread (some buffer) }

def lockStep (system : System Thread) (thread : Thread) (tick : Nat) (point : Point)
    (inProgress : Point → Stage) (finished : Stage) : Option (System Thread) :=
  match ReaderWriterLock.advance (system.tlsId thread) tick system.lock point with
  | none => none
  | some (.crash error) => some { system with crash := some error }
  | some (.next lock next _) => some <| enter { system with lock := lock } thread <|
      if next = .outside then finished else inProgress next

def advance (system : System Thread) (thread : Thread) (tick : Nat) : Option (System Thread) :=
  match system.stage thread with
  | .fresh => none
  | .idle => none
  | .locking call point =>
      lockStep system thread tick point (fun next => .locking call next) (.inside call)
  | .inside (.push buffer id) => some
      { enter system thread (.unlocking (.pushed id) .writeUnlockEntered) with
        pool := system.pool ++ [buffer] }
  | .inside (.pop purpose) => some <| enter system thread <|
      if system.pool = [] then .unlocking (.nothing purpose) .writeUnlockEntered else .back purpose
  | .back purpose =>
      system.pool.getLast?.map fun buffer => enter system thread (.removing purpose buffer)
  | .removing purpose buffer =>
      if system.pool = [] then none
      else some { enter system thread (.unlocking (.popped purpose buffer) .writeUnlockEntered) with
        pool := system.pool.dropLast }
  | .unlocking result point =>
      lockStep system thread tick point (fun next => .unlocking result next) (unlocked result)
  | .making purpose => some { enter system thread (.returned purpose system.created) with
      created := system.created + 1 }
  | .returned (.startUp id) buffer => some (assign system thread buffer (some id))
  | .returned .renew buffer => some (assign system thread buffer none)
  | .returned .borrow buffer => some (enter system thread (release (some buffer) none))
  | .numbering id => some
      { enter system thread .idle with tlsId := Function.update system.tlsId thread id }

def callPop (system : System Thread) (thread : Thread) (purpose : Purpose) : System Thread :=
  enter system thread (.locking (.pop purpose) .writeEntered)

/-- `_init_tls` runs in a new thread, or once more in the constructor of a manager.
`drop` is the end of a thread, which gives its buffer back. -/
def step : Step (System Thread) (Label Thread) := fun system label =>
  if system.crash.isSome then none
  else match label with
  | .initTls thread id =>
      if system.stage thread = .fresh ∨ system.stage thread = .idle then
        some (callPop system thread (.startUp id))
      else none
  | .renew thread =>
      if system.stage thread = .idle then some (callPop system thread .renew) else none
  | .borrow thread =>
      if system.stage thread = .idle then some (callPop system thread .borrow) else none
  | .drop thread =>
      if system.stage thread = .idle then
        some { enter system thread (release (system.tls thread) none) with
          tls := Function.update system.tls thread none }
      else none
  | .advance thread tick => advance system thread tick

/-! What the lock is there for. -/
section Exclusion

def Stage.critical : Stage → Bool
  | .inside _ | .back _ | .removing _ _ => true
  | _ => false

/-- A buffer that a thread has been given by `Pop`: on its way to the caller, in
`TLS_SendBuffer`, or on its way back. -/
def Stage.carried : Stage → Option Nat
  | .locking (.push buffer _) _ => some buffer
  | .inside (.push buffer _) => some buffer
  | .unlocking (.popped _ buffer) _ => some buffer
  | .returned _ buffer => some buffer
  | _ => none

def Obtained (system : System Thread) (thread : Thread) (buffer : Nat) : Prop :=
  system.tls thread = some buffer ∨ (system.stage thread).carried = some buffer

structure Exclusive (system : System Thread) : Prop where
  alone : ∀ first second, (system.stage first).critical = true →
    (system.stage second).critical = true → first = second
  unshared : ∀ first second buffer, Obtained system first buffer → Obtained system second buffer →
    first = second

end Exclusion

end NetCore.ThreadStart
