import NetCore.TransitionRuns
import NetCore.LockQueue

/-! `JobSerializer::Push`, `JobSerializer::ExecuteJobs` and
`GlobalJobWorker::DoJobs` as programs of any number of threads over any number of
serializers. A thread has a stack of activations; its top frame is the one that
moves, and a frame of a job in execution is also the place from which that job
calls `Push` or `DoJobs`. `Push` ends with its call of `ExecuteJobs`, so the
frame of the callee replaces its own. Clock readings come with the labels. The
queue operations are those of LockQueue; `_queuedCount` is a 32-bit `int`, which
`ExecuteJobs` compares with a `size_t`. Jobs return: an exception thrown out of `Execute`,
which would leave `TLS_CurrentJobSerializer` set and the count as it is, is left out. So
is the destructor: whoever pushes to a serializer keeps it alive until its queue is empty.
What a job computes and the reserved jobs are left out too. -/
namespace NetCore.JobSerializer
open TransitionRuns

universe u v w

/-- A job as one call of `Push` passed it: the caller and the number of its earlier calls. -/
structure Entry (Thread : Type u) (Job : Type w) where
  job : Job
  thread : Thread
  number : Nat
  deriving DecidableEq, Repr

/-- `_jobs` and `_queuedCount`, then a record of what has happened: the threads
between the two first statements of `Push`, and the jobs queued, started and
finished so far. -/
structure Serializer (Thread : Type u) (Job : Type w) where
  jobs : List (Option (Entry Thread Job))
  queuedCount : BitVec 32
  arriving : List Thread
  enqueued : List (Entry Thread Job)
  started : List (Entry Thread Job)
  finished : List (Entry Thread Job)

variable {Thread : Type u} {Name : Type v} {Job : Type w}

def Serializer.construct : Serializer Thread Job where
  jobs := []
  queuedCount := 0
  arriving := []
  enqueued := []
  started := []
  finished := []

/-- `_queuedCount.fetch_add(1)`. -/
def Serializer.fetchAdd (serializer : Serializer Thread Job) (thread : Thread) :
    Serializer Thread Job :=
  { serializer with
    queuedCount := serializer.queuedCount + 1
    arriving := serializer.arriving ++ [thread] }

/-- `_jobs.Push(job)`. -/
def Serializer.enqueue [DecidableEq Thread]
    (serializer : Serializer Thread Job) (thread : Thread) (entry : Option (Entry Thread Job)) :
    Serializer Thread Job :=
  { serializer with
    jobs := LockQueue.push serializer.jobs entry
    arriving := serializer.arriving.erase thread
    enqueued := serializer.enqueued ++ entry.toList }

/-- `_jobs.Clear(jobs)`. -/
def Serializer.clear (serializer : Serializer Thread Job) :
    List (Entry Thread Job) × Serializer Thread Job :=
  ((LockQueue.clear serializer.jobs).1,
    { serializer with jobs := (LockQueue.clear serializer.jobs).2 })

/-- The call and the return of `job->Execute()`. -/
def Serializer.begin (serializer : Serializer Thread Job)
    (entry : Entry Thread Job) : Serializer Thread Job :=
  { serializer with started := serializer.started ++ [entry] }

def Serializer.complete (serializer : Serializer Thread Job)
    (entry : Entry Thread Job) : Serializer Thread Job :=
  { serializer with finished := serializer.finished ++ [entry] }

/-- `_queuedCount.fetch_sub(currentCount)`, the argument narrowed to `int`. -/
def Serializer.fetchSub (serializer : Serializer Thread Job)
    (currentCount : Nat) : Serializer Thread Job :=
  { serializer with queuedCount := serializer.queuedCount - BitVec.ofNat 32 currentCount }

inductive Frame (Thread : Type u) (Name : Type v) (Job : Type w) where
  | pushAdd (name : Name) (entry : Option (Entry Thread Job))
  | pushQueue (name : Name) (entry : Option (Entry Thread Job)) (prevCount : BitVec 32)
  | pushTest (name : Name) (prevCount : BitVec 32)
  | execEnter (name : Name)
  | execDrain (name : Name) (startTick : UInt64)
  | execLoop (name : Name) (startTick : UInt64) (currentCount : Nat)
      (rest : List (Entry Thread Job))
  | running (name : Name) (startTick : UInt64) (currentCount : Nat) (entry : Entry Thread Job)
      (rest : List (Entry Thread Job))
  | execClock (name : Name) (startTick : UInt64)
  | execHandOver (name : Name)
  | execLeave
  | doLoop (start : UInt64)
  | doPop (start : UInt64)

/-- `current` is `TLS_CurrentJobSerializer`, `maxTick` is
`TLS_GlobalJobsExecutionMaxTickCount`; `calls` counts the calls of `Push` by a
thread and `pushed` records the jobs they passed. -/
structure System (Thread : Type u) (Name : Type v) (Job : Type w) where
  serializers : Name → Serializer Thread Job
  jobQueue : List Name
  stack : Thread → List (Frame Thread Name Job)
  current : Thread → Option Name
  maxTick : Thread → UInt64
  calls : Thread → Nat
  pushed : Name → List (Entry Thread Job)

def defaultExecutionTickCount : UInt64 := 64

def System.start : System Thread Name Job where
  serializers := fun _ => .construct
  jobQueue := []
  stack := fun _ => []
  current := fun _ => none
  maxTick := fun _ => defaultExecutionTickCount
  calls := fun _ => 0
  pushed := fun _ => []

inductive Label (Thread : Type u) (Name : Type v) (Job : Type w) where
  | push (thread : Thread) (name : Name) (job : Option Job)
  | doJobs (thread : Thread) (tick : UInt64)
  | finish (thread : Thread)
  | advance (thread : Thread) (tick : UInt64)
  | setMaxTick (thread : Thread) (value : UInt64)
  | clearJobs

/-- A thread calls `Push` or `DoJobs` from outside the library or from a job. -/
def mayCall : List (Frame Thread Name Job) → Bool
  | [] => true
  | .running _ _ _ _ _ :: _ => true
  | _ => false

variable [DecidableEq Thread] [DecidableEq Name]

def setStack (system : System Thread Name Job) (thread : Thread)
    (stack : List (Frame Thread Name Job)) :
    System Thread Name Job :=
  { system with stack := Function.update system.stack thread stack }

def setSerializer (system : System Thread Name Job) (name : Name)
    (serializer : Serializer Thread Job) :
    System Thread Name Job :=
  { system with serializers := Function.update system.serializers name serializer }

def setCurrent (system : System Thread Name Job) (thread : Thread) (current : Option Name) :
    System Thread Name Job :=
  { system with current := Function.update system.current thread current }

omit [DecidableEq Name] in
@[simp] theorem set_stack_self (system : System Thread Name Job) (thread : Thread)
    (stack : List (Frame Thread Name Job)) : (setStack system thread stack).stack thread = stack :=
  Function.update_self ..

omit [DecidableEq Name] in
@[simp] theorem set_stack_other (system : System Thread Name Job) (thread other : Thread)
    (stack : List (Frame Thread Name Job)) (different : other ≠ thread) :
    (setStack system thread stack).stack other = system.stack other :=
  Function.update_of_ne different ..

omit [DecidableEq Name] in
@[simp] theorem set_stack_serializers (system : System Thread Name Job) (thread : Thread)
    (stack : List (Frame Thread Name Job)) :
    (setStack system thread stack).serializers = system.serializers :=
  rfl

omit [DecidableEq Thread] in
@[simp] theorem set_serializer_stack (system : System Thread Name Job) (name : Name)
    (serializer : Serializer Thread Job) :
    (setSerializer system name serializer).stack = system.stack :=
  rfl

omit [DecidableEq Thread] in
@[simp] theorem set_serializer_self (system : System Thread Name Job) (name : Name)
    (serializer : Serializer Thread Job) :
    (setSerializer system name serializer).serializers name = serializer :=
  Function.update_self ..

omit [DecidableEq Thread] in
@[simp] theorem set_serializer_other (system : System Thread Name Job) (name other : Name)
    (serializer : Serializer Thread Job) (different : other ≠ name) :
    (setSerializer system name serializer).serializers other = system.serializers other :=
  Function.update_of_ne different ..

def addJobSerializer (system : System Thread Name Job) (name : Name) : System Thread Name Job :=
  { system with jobQueue := LockQueue.push system.jobQueue name }

/-- `_queuedCount.fetch_sub(currentCount) == currentCount`: the `int` that was
there is converted to `size_t` for the comparison. -/
def countMatches (queuedCount : BitVec 32) (currentCount : Nat) : Bool :=
  queuedCount.signExtend 64 == BitVec.ofNat 64 currentCount

def advanceFrame (system : System Thread Name Job) (thread : Thread) (tick : UInt64)
    (below : List (Frame Thread Name Job)) : Frame Thread Name Job → Option (System Thread Name Job)
  | .pushAdd name entry =>
      let serializer := system.serializers name
      some <| setStack (setSerializer system name (serializer.fetchAdd thread)) thread
        (.pushQueue name entry serializer.queuedCount :: below)
  | .pushQueue name entry prevCount =>
      some <| setStack (setSerializer system name ((system.serializers name).enqueue thread entry))
        thread (.pushTest name prevCount :: below)
  -- Inside a job the thread is an executor already, so it hands the serializer over.
  | .pushTest name prevCount =>
      if prevCount = 0 then
        match system.current thread with
        | none => some <| setStack system thread (.execEnter name :: below)
        | some _ => some <| setStack (addJobSerializer system name) thread below
      else some <| setStack system thread below
  | .execEnter name =>
      some <| setStack (setCurrent system thread (some name)) thread (.execDrain name tick :: below)
  | .execDrain name startTick =>
      let drained := (system.serializers name).clear
      some <| setStack (setSerializer system name drained.2) thread
        (.execLoop name startTick drained.1.length drained.1 :: below)
  | .execLoop name startTick currentCount (entry :: rest) =>
      some <| setStack (setSerializer system name ((system.serializers name).begin entry)) thread
        (.running name startTick currentCount entry rest :: below)
  -- The value compared is the one before the subtraction.
  | .execLoop name startTick currentCount [] =>
      let serializer := system.serializers name
      some <| setStack (setSerializer system name (serializer.fetchSub currentCount)) thread
        (if countMatches serializer.queuedCount currentCount then .execLeave :: below
         else .execClock name startTick :: below)
  -- A job ends by the label `finish`, whenever it likes.
  | .running _ _ _ _ _ => none
  -- The slot is cleared before the hand-over, and once more on the way out.
  | .execClock name startTick =>
      if system.maxTick thread ≤ tick - startTick then
        some <| setStack (setCurrent system thread none) thread (.execHandOver name :: below)
      else some <| setStack system thread (.execDrain name startTick :: below)
  | .execHandOver name =>
      some <| setStack (addJobSerializer system name) thread (.execLeave :: below)
  | .execLeave => some <| setStack (setCurrent system thread none) thread below
  | .doLoop start =>
      if system.maxTick thread < tick - start then some <| setStack system thread below
      else some <| setStack system thread (.doPop start :: below)
  | .doPop start =>
      match LockQueue.tryPop system.jobQueue with
      | none => some <| setStack system thread below
      | some (name, rest) =>
          some <| setStack { system with jobQueue := rest } thread
            (.execEnter name :: .doLoop start :: below)

/-- `Push(job)` is called; a null job is possible. -/
def callPush (system : System Thread Name Job) (thread : Thread) (name : Name) (job : Option Job) :
    System Thread Name Job :=
  let entry := job.map fun job => ⟨job, thread, system.calls thread⟩
  { setStack system thread (.pushAdd name entry :: system.stack thread) with
    calls := Function.update system.calls thread (system.calls thread + 1)
    pushed := Function.update system.pushed name (system.pushed name ++ entry.toList) }

def step : Step (System Thread Name Job) (Label Thread Name Job) := fun system label =>
  match label with
  | .push thread name job =>
      if mayCall (system.stack thread) then some (callPush system thread name job) else none
  | .doJobs thread tick =>
      if mayCall (system.stack thread) then
        some <| setStack system thread (.doLoop tick :: system.stack thread)
      else none
  | .finish thread =>
      match system.stack thread with
      | .running name startTick currentCount entry rest :: below =>
          some <| setStack (setSerializer system name ((system.serializers name).complete entry))
            thread (.execLoop name startTick currentCount rest :: below)
      | _ => none
  | .advance thread tick =>
      match system.stack thread with
      | [] => none
      | frame :: below => advanceFrame system thread tick below frame
  | .setMaxTick thread value =>
      some { system with maxTick := Function.update system.maxTick thread value }
  | .clearJobs => some { system with jobQueue := [] }

end NetCore.JobSerializer
