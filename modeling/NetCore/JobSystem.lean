import NetCore.SerializedExecution
import NetCore.ReservationOrder

/-! The whole job system: the serializers and the global queue of JobSerializer, the
reserved jobs of ReservedJobs, and every public operation of `GlobalJobWorker`, callable
from outside and from inside a job. A thread that hands a reserved job over calls its
owner's `Push`, so the frames of that call stand on its stack until it returns; a check
remembers how deep the stack was when it began. Only the check passes a reserved job to
`Push`: the job is made inside `PushReservableJob` and nobody else sees it. -/
namespace NetCore.JobSystem
open TransitionRuns PriorityQueue JobSerializer

universe u v w x y

inductive Work (Handle : Type v) (Job : Type w) where
  | reserved (handle : Handle)
  | plain (job : Job)
  deriving DecidableEq, Repr

variable {Thread : Type u} {Handle : Type v} {Job : Type w} {Name : Type x}
variable {executionTick : Handle → UInt64}

structure System
    (queue : Implementation.{v, y} Handle (ReservedJobs.reservableJobCompare executionTick))
    (Thread : Type u) (Name : Type x) (Job : Type w) where
  core : JobSerializer.System Thread Name (Work Handle Job)
  worker : ReservedJobs.System queue Thread
  depth : Thread → Nat

variable (queue : Implementation.{v, y} Handle (ReservedJobs.reservableJobCompare executionTick))

def System.start : System queue Thread Name Job where
  core := .start
  worker := .start queue
  depth := fun _ => 0

inductive Label (Thread : Type u) (Handle : Type v) (Name : Type x) (Job : Type w) where
  | push (thread : Thread) (name : Name) (job : Option Job)
  | doJobs (thread : Thread) (tick : UInt64)
  | executeJobs (thread : Thread) (name : Name)
  | finish (thread : Thread)
  | advance (thread : Thread) (tick : UInt64)
  | setMaxTick (thread : Thread) (value : UInt64)
  | addJobSerializer (name : Name)
  | clearJobs
  | addReservableJob (handle : Handle)
  | cancel (handle : Handle)
  | checkReservedJob (thread : Thread) (now : UInt64)
  | advanceCheck (thread : Thread) (alive : Bool)
  | clearReservedJobs

variable {queue}

/-- The thread is in `CheckReservedJob` itself, not in code that the check has called. -/
def checking (system : System queue Thread Name Job) (thread : Thread) : Bool :=
  match system.worker.phase thread with
  | .idle => false
  | _ => (system.core.stack thread).length == system.depth thread

def mayCall (system : System queue Thread Name Job) (thread : Thread) : Bool :=
  JobSerializer.mayCall (system.core.stack thread) && !checking system thread

variable [DecidableEq Thread] [DecidableEq Handle] [DecidableEq Name]

def coreStep (system : System queue Thread Name Job) (thread : Thread)
    (label : JobSerializer.Label Thread Name (Work Handle Job)) :
    Option (System queue Thread Name Job) :=
  if checking system thread then none
  else (JobSerializer.step system.core label).map fun core => { system with core := core }

/-- The next step of a check; the call of `Push` is the one that also moves the owner. -/
def advanceCheck (owner : Handle → Name) (system : System queue Thread Name Job) (thread : Thread)
    (alive : Bool) : Option (System queue Thread Name Job) :=
  if checking system thread then
    (ReservedJobs.advance system.worker thread alive).map fun worker =>
      match system.worker.phase thread with
      | .giving _ handle _ =>
          { system with
            worker := worker
            core := callPush system.core thread (owner handle) (some (.reserved handle)) }
      | _ => { system with worker := worker }
  else none

def step (owner : Handle → Name) :
    Step (System queue Thread Name Job) (Label Thread Handle Name Job) := fun system label =>
  match label with
  | .push thread name job => coreStep system thread (.push thread name (job.map .plain))
  | .doJobs thread tick => coreStep system thread (.doJobs thread tick)
  | .executeJobs thread name =>
      if mayCall system thread then
        some { system with
          core := setStack system.core thread (.execEnter name :: system.core.stack thread) }
      else none
  | .finish thread => coreStep system thread (.finish thread)
  | .advance thread tick => coreStep system thread (.advance thread tick)
  | .setMaxTick thread value => coreStep system thread (.setMaxTick thread value)
  | .addJobSerializer name => some { system with core := addJobSerializer system.core name }
  | .clearJobs => some { system with core := { system.core with jobQueue := [] } }
  | .addReservableJob handle =>
      some { system with worker := ReservedJobs.addReservableJob system.worker handle }
  | .cancel handle => some { system with worker := ReservedJobs.cancel system.worker handle }
  | .checkReservedJob thread now =>
      if mayCall system thread then
        some { system with
          worker := ReservedJobs.checkReservedJob system.worker thread now
          depth := if system.worker.executing then system.depth
            else Function.update system.depth thread (system.core.stack thread).length }
      else none
  | .advanceCheck thread alive => advanceCheck owner system thread alive
  | .clearReservedJobs =>
      (ReservedJobs.clearReservedJobs system.worker).map fun worker =>
        { system with worker := worker }

inductive Effect (owner : Handle → Name) (before : System queue Thread Name Job) :
    Label Thread Handle Name Job → System queue Thread Name Job → Prop where
  | core (label : Label Thread Handle Name Job)
      (inner : JobSerializer.Label Thread Name (Work Handle Job))
      (core : JobSerializer.System Thread Name (Work Handle Job))
      (taken : JobSerializer.step before.core inner = some core) (queued : inner ≠ .clearJobs)
      (own : ∀ thread name handle, inner ≠ .push thread name (some (.reserved handle))) :
      Effect owner before label { before with core := core }
  | executed (thread : Thread) (name : Name)
      (free : JobSerializer.mayCall (before.core.stack thread) = true) :
      Effect owner before (.executeJobs thread name)
        { before with
          core := setStack before.core thread (.execEnter name :: before.core.stack thread) }
  | scheduled (name : Name) : Effect owner before (.addJobSerializer name)
      { before with core := addJobSerializer before.core name }
  | cleared :
      Effect owner before .clearJobs { before with core := { before.core with jobQueue := [] } }
  | worker (label : Label Thread Handle Name Job) (inner : ReservedJobs.Label Thread Handle)
      (worker : ReservedJobs.System queue Thread) (depth : Thread → Nat)
      (taken : ReservedJobs.step before.worker inner = some worker) :
      Effect owner before label { before with worker := worker, depth := depth }
  | gave (thread : Thread) (alive : Bool) (now : UInt64) (handle : Handle) (rest : List Handle)
      (stands : before.worker.phase thread = .giving now handle rest) :
      Effect owner before (.advanceCheck thread alive)
        { before with
          worker :=
            { ReservedJobs.enter before.worker thread (.pushing now handle rest) with
              handedOver := before.worker.handedOver ++ [(handle, now)] }
          core := callPush before.core thread (owner handle) (some (.reserved handle)) }
  | forgot (heap : queue.Heap) : Effect owner before .clearReservedJobs
      { before with worker := { before.worker with heap := heap } }

theorem core_step_effect (owner : Handle → Name) (before after : System queue Thread Name Job)
    (label : Label Thread Handle Name Job) (thread : Thread)
    (inner : JobSerializer.Label Thread Name (Work Handle Job))
    (taken : coreStep before thread inner = some after) (queued : inner ≠ .clearJobs)
    (own : ∀ thread name handle, inner ≠ .push thread name (some (.reserved handle))) :
    Effect owner before label after := by
  unfold coreStep at taken
  split at taken
  case isTrue => cases taken
  case isFalse =>
    obtain ⟨core, moved, rfl⟩ := Option.map_eq_some_iff.mp taken
    exact .core label inner core moved queued own

theorem advance_check_effect (owner : Handle → Name) (before after : System queue Thread Name Job)
    (thread : Thread) (alive : Bool) (taken : advanceCheck owner before thread alive = some after) :
    Effect owner before (.advanceCheck thread alive) after := by
  unfold advanceCheck at taken
  split at taken
  case isFalse => cases taken
  case isTrue =>
    obtain ⟨worker, moved, rfl⟩ := Option.map_eq_some_iff.mp taken
    split
    case h_1 now handle rest stands =>
      simp only [ReservedJobs.advance, stands, Option.some.injEq] at moved
      exact moved ▸ .gave thread alive now handle rest stands
    case h_2 => exact .worker _ (.advance thread alive) worker before.depth moved

theorem step_effect (owner : Handle → Name) (before after : System queue Thread Name Job)
    (label : Label Thread Handle Name Job) (taken : step owner before label = some after) :
    Effect owner before label after := by
  cases label with
  | push thread name job =>
      refine core_step_effect owner before after _ thread _ taken (fun same => by cases same) ?_
      intro actor other handle same
      cases job <;> cases same
  | doJobs thread tick =>
      exact core_step_effect owner before after _ thread _ taken (fun same => by cases same)
        fun _ _ _ same => by cases same
  | finish thread =>
      exact core_step_effect owner before after _ thread _ taken (fun same => by cases same)
        fun _ _ _ same => by cases same
  | advance thread tick =>
      exact core_step_effect owner before after _ thread _ taken (fun same => by cases same)
        fun _ _ _ same => by cases same
  | setMaxTick thread value =>
      exact core_step_effect owner before after _ thread _ taken (fun same => by cases same)
        fun _ _ _ same => by cases same
  | executeJobs thread name =>
      simp only [step, Option.ite_none_right_eq_some, Option.some.injEq, mayCall,
        Bool.and_eq_true] at taken
      exact taken.2 ▸ .executed thread name taken.1.1
  | addJobSerializer name =>
      cases taken
      exact .scheduled name
  | clearJobs =>
      cases taken
      exact .cleared
  | addReservableJob handle =>
      cases taken
      exact .worker _ (.addReservableJob handle) _ before.depth rfl
  | cancel handle =>
      cases taken
      exact .worker _ (.cancel handle) _ before.depth rfl
  | checkReservedJob thread now =>
      simp only [step, Option.ite_none_right_eq_some, Option.some.injEq] at taken
      exact taken.2 ▸ .worker _ (.checkReservedJob thread now) _ _ rfl
  | advanceCheck thread alive => exact advance_check_effect owner before after thread alive taken
  | clearReservedJobs =>
      obtain ⟨worker, emptied, rfl⟩ := Option.map_eq_some_iff.mp taken
      obtain ⟨final, _, rfl⟩ := Option.map_eq_some_iff.mp emptied
      exact .forgot final.heap

end NetCore.JobSystem
