import NetCore.TransitionRuns
import NetCore.PriorityQueue

/-! The reserved jobs of `GlobalJobWorker`: `AddReservableJob`, `ReservableJob::Cancel` and
`CheckReservedJob` with `PushJobToSerializer`, called by any number of threads. A handle
stands for one `ReservableJob` object, so its execution tick is a constant. The two
sections under the write lock of the queue are single steps; the loop of the second one
is kept. Handing over a job is cut at the test of its cancel flag, at the call of its
owner's `Push` and at the return from it, since that call may run any code, `Cancel` and
`CheckReservedJob` included. Whether the owner still lives comes with the label. -/
namespace NetCore.ReservedJobs
open TransitionRuns PriorityQueue

universe u v w

def reservableJobCompare {Handle : Type v} (executionTick : Handle → UInt64) (lhs rhs : Handle) :
    Bool :=
  decide (executionTick rhs < executionTick lhs)

inductive Phase (Handle : Type v) where
  | idle
  | collecting (now : UInt64)
  | handing (now : UInt64) (rest : List Handle)
  | giving (now : UInt64) (job : Handle) (rest : List Handle)
  | pushing (now : UInt64) (job : Handle) (rest : List Handle)
  deriving DecidableEq, Repr

variable {Handle : Type v} {executionTick : Handle → UInt64}

/-- `_reservableQueue`, `_executingReservables` and the cancel flags, then a record of what
has happened: the jobs added, taken off the queue, tested for cancellation, given to
their owner's `Push` with the tick of the check that did it, and those whose `JobData`
has been released. -/
structure System (queue : Implementation.{v, w} Handle (reservableJobCompare executionTick))
    (Thread : Type u) where
  heap : queue.Heap
  executing : Bool
  canceled : Handle → Bool
  phase : Thread → Phase Handle
  added : List Handle
  collected : List Handle
  tested : List Handle
  handedOver : List (Handle × UInt64)
  released : List Handle

variable (queue : Implementation.{v, w} Handle (reservableJobCompare executionTick))
  {Thread : Type u}

def System.start : System queue Thread where
  heap := queue.empty
  executing := false
  canceled := fun _ => false
  phase := fun _ => .idle
  added := []
  collected := []
  tested := []
  handedOver := []
  released := []

inductive Label (Thread : Type u) (Handle : Type v) where
  | addReservableJob (job : Handle)
  | cancel (job : Handle)
  | checkReservedJob (thread : Thread) (now : UInt64)
  | advance (thread : Thread) (alive : Bool)

/-- The loop goes on while the execution tick of the top is not beyond `now`. -/
def due (executionTick : Handle → UInt64) (now : UInt64) (job : Handle) : Bool :=
  !decide (now < executionTick job)

/-- The critical section: jobs leave the queue until its top is not due. -/
def collect (now : UInt64) (heap : queue.Heap) : Option (Taking queue) :=
  takeWhile queue (due executionTick now) (Multiset.card (queue.contents heap)) heap

variable {queue}

def addReservableJob (system : System queue Thread) (job : Handle) : System queue Thread :=
  { system with heap := queue.push system.heap job, added := system.added ++ [job] }

def clearReservedJobs (system : System queue Thread) : Option (System queue Thread) :=
  (takeWhile queue (fun _ => true) (Multiset.card (queue.contents system.heap)) system.heap).map
    fun final => { system with heap := final.heap }

variable [DecidableEq Thread] [DecidableEq Handle]

def cancel (system : System queue Thread) (job : Handle) : System queue Thread :=
  { system with canceled := Function.update system.canceled job true }

def enter (system : System queue Thread) (thread : Thread) (phase : Phase Handle) :
    System queue Thread :=
  { system with phase := Function.update system.phase thread phase }

/-- The call of `CheckReservedJob`: it returns at once while another one is at work. -/
def checkReservedJob (system : System queue Thread) (thread : Thread) (now : UInt64) :
    System queue Thread :=
  if system.executing then system
  else { enter system thread (.collecting now) with executing := true }

def advance (system : System queue Thread) (thread : Thread) (alive : Bool) :
    Option (System queue Thread) :=
  match system.phase thread with
  | .idle => none
  | .collecting now => (collect queue now system.heap).map fun final =>
      { enter system thread (.handing now final.taken) with
        heap := final.heap
        collected := system.collected ++ final.taken }
  | .handing _ [] => some { enter system thread .idle with executing := false }
  | .handing now (job :: rest) =>
      if system.canceled job || !alive then
        some { enter system thread (.handing now rest) with
          tested := system.tested ++ [job]
          released := system.released ++ [job] }
      else some { enter system thread (.giving now job rest) with tested := system.tested ++ [job] }
  | .giving now job rest =>
      some { enter system thread (.pushing now job rest) with
        handedOver := system.handedOver ++ [(job, now)] }
  | .pushing now job rest =>
      some { enter system thread (.handing now rest) with released := system.released ++ [job] }

def step : Step (System queue Thread) (Label Thread Handle) := fun system label =>
  match label with
  | .addReservableJob job => some (addReservableJob system job)
  | .cancel job => some (cancel system job)
  | .checkReservedJob thread now => some (checkReservedJob system thread now)
  | .advance thread alive => advance system thread alive

def once : Condition (System queue Thread) (Label Thread Handle) := fun before label _ =>
  ∀ job, label = .addReservableJob job → job ∉ before.added

end NetCore.ReservedJobs
