import NetCore.TransitionRuns

/-! The table of tasks of a `TaskManager` (TaskManager.cpp). `AddTask`, single or counted,
holds the mutex while it takes an id, starts a thread and inserts the thread's entry; the
thread runs from its start on, so it can be anywhere in its body before the entry is
there. `_task_done` looks its `TLS_Id` up without the mutex, and `at` throws when there is
no entry. Other managers of the same class take ids from the same static counter. A body
that constructs a manager has its `TLS_Id` overwritten by the constructor's `_init_tls`.
An insertion that finds its key taken destroys a joinable `std::thread`, which ends the
process. Each operation on `_tasks` is one step: the insertion and the unlocked look-up of
another thread may touch the map at the same time in the source, and what such a race does
to an `unordered_map` is left out, as are what a body computes and the joining of threads. -/
namespace NetCore.TaskCompletion
open TransitionRuns

inductive Phase where
  | absent
  | spawned
  | running
  | finished
  | threw
  deriving DecidableEq, Repr

/-- `id` is the value the closure of the thread has captured. -/
structure Worker where
  phase : Phase
  id : BitVec 32
  tlsId : BitVec 32
  deriving DecidableEq, Repr

/-- `AddTask` inside the mutex: the arguments and results of the call, how many threads it
has still to start, and the thread it has started and not entered into the table. -/
structure Adding where
  count : Nat
  first : BitVec 32
  last : BitVec 32
  remaining : Nat
  started : Option Nat
  deriving DecidableEq, Repr

/-- `_taskId`, `_tasks` with the done flags, the holder of the mutex and the threads, which
are numbered in the order of their start. `returned` records the results of `AddTask`. -/
structure Manager where
  taskId : BitVec 32
  tasks : BitVec 32 → Option Bool
  adding : Option Adding
  created : Nat
  workers : Nat → Worker
  returned : List (BitVec 32 × BitVec 32)
  terminated : Bool

/-- After the constructor, which has taken the first id for the main thread. -/
def Manager.construct : Manager where
  taskId := 2
  tasks := fun _ => none
  adding := none
  created := 0
  workers := fun _ => ⟨.absent, 0, 0⟩
  returned := []
  terminated := false

inductive Label where
  | addTask (count : Nat)
  | advance
  | otherManager
  | initTls (thread : Nat)
  | construct (thread : Nat) (id : BitVec 32)
  | taskDone (thread : Nat)
  deriving DecidableEq, Repr

def setWorker (manager : Manager) (thread : Nat) (worker : Worker) : Manager :=
  { manager with workers := Function.update manager.workers thread worker }

/-- `_get_new_task_id()` and the construction of the `std::thread`. -/
def spawn (manager : Manager) (call : Adding) (remaining : Nat) : Manager :=
  { setWorker manager manager.created ⟨.spawned, manager.taskId, 0⟩ with
    taskId := manager.taskId + 1
    created := manager.created + 1
    adding := some
      { call with
        last := manager.taskId, remaining := remaining, started := some manager.created } }

/-- `_tasks.insert(make_pair(id, make_pair(std::move(th), false)))`. -/
def insert (manager : Manager) (call : Adding) (thread : Nat) : Manager :=
  let id := (manager.workers thread).id
  match manager.tasks id with
  | some _ => { manager with terminated := true }
  | none => { manager with
      tasks := Function.update manager.tasks id (some false)
      adding := some { call with started := none } }

/-- The return of `AddTask`; the counted one computes its pair from the counter. -/
def finish (manager : Manager) (call : Adding) : Manager :=
  let result := if call.count = 1 then (call.last, call.last) else (call.first, manager.taskId - 1)
  { manager with adding := none, returned := manager.returned ++ [result] }

def advance (manager : Manager) (call : Adding) : Manager :=
  match call.started with
  | some thread => insert manager call thread
  | none =>
      match call.remaining with
      | remaining + 1 => spawn manager call remaining
      | 0 => finish manager call

/-- `_tasks.at(TLS_Id).second = true`. -/
def taskDone (manager : Manager) (thread : Nat) (worker : Worker) : Manager :=
  match manager.tasks worker.tlsId with
  | none => setWorker manager thread { worker with phase := .threw }
  | some _ =>
      { setWorker manager thread { worker with phase := .finished } with
        tasks := Function.update manager.tasks worker.tlsId (some true) }

def step : Step Manager Label := fun manager label =>
  if manager.terminated then none
  else match label with
    | .addTask count =>
        if manager.adding = none then
          some { manager with adding := some ⟨count, manager.taskId, 0, count, none⟩ }
        else none
    | .advance => manager.adding.map (advance manager)
    | .otherManager => some { manager with taskId := manager.taskId + 1 }
    | .initTls thread =>
        let worker := manager.workers thread
        if worker.phase = .spawned then
          some (setWorker manager thread { worker with phase := .running, tlsId := worker.id })
        else none
    | .construct thread id =>
        let worker := manager.workers thread
        if worker.phase = .running then
          some (setWorker manager thread { worker with tlsId := id }) else none
    | .taskDone thread =>
        let worker := manager.workers thread
        if worker.phase = .running then some (taskDone manager thread worker) else none

def Unentered (manager : Manager) (thread : Nat) : Prop :=
  ∃ call, manager.adding = some call ∧ call.started = some thread

/-- No thread ends its body before `AddTask` has entered it, and no body replaces the id of
its thread. -/
def entersFirst : Condition Manager Label := fun before label _ =>
  (∀ thread, label = .taskDone thread → ¬ Unentered before thread) ∧
    ∀ thread id, label = .construct thread id → id = (before.workers thread).id

/-- What is known of one thread: it has an entry from its insertion on, and a true flag
once it has finished. -/
structure Recorded (manager : Manager) (thread : Nat) : Prop where
  entered : (manager.workers thread).phase ≠ .absent → Unentered manager thread ∨
    (manager.tasks (manager.workers thread).id).isSome = true
  own : (manager.workers thread).phase = .running ∨ (manager.workers thread).phase = .finished →
    (manager.workers thread).tlsId = (manager.workers thread).id
  done : (manager.workers thread).phase = .finished →
    manager.tasks (manager.workers thread).id = some true
  calm : (manager.workers thread).phase ≠ .threw

structure Invariant (manager : Manager) : Prop where
  recorded : ∀ thread, Recorded manager thread
  fresh : ∀ thread, manager.created ≤ thread → (manager.workers thread).phase = .absent

theorem construct_invariant : Invariant Manager.construct where
  recorded _ :=
    { entered := fun present => absurd rfl present
      own := fun inside => by rcases inside with run | ended <;> contradiction
      done := fun finished => by cases finished
      calm := fun threw => by cases threw }
  fresh _ _ := rfl

theorem recorded_frame (before after : Manager) (thread : Nat) (holds : Recorded before thread)
    (worker : after.workers thread = before.workers thread)
    (unentered : Unentered before thread → Unentered after thread ∨
      (after.tasks (before.workers thread).id).isSome = true)
    (kept : ∀ id, (before.tasks id).isSome = true → (after.tasks id).isSome = true)
    (flags : ∀ id, before.tasks id = some true → after.tasks id = some true) :
    Recorded after thread where
  entered present := by
    rw [worker] at present ⊢
    rcases holds.entered present with open_ | listed
    · exact unentered open_
    · exact .inr (kept _ listed)
  own := by
    rw [worker]
    exact holds.own
  done finished := by
    rw [worker] at finished ⊢
    exact flags _ (holds.done finished)
  calm := by
    rw [worker]
    exact holds.calm

theorem recorded_closed (before after : Manager) (thread : Nat) (holds : Recorded before thread)
    (closed : ∀ call, before.adding = some call → call.started = none)
    (worker : after.workers thread = before.workers thread) (tasks : after.tasks = before.tasks) :
    Recorded after thread := by
  refine recorded_frame before after thread holds worker ?_ (by rw [tasks]; exact fun _ => id)
    (by rw [tasks]; exact fun _ => id)
  rintro ⟨call, added, started⟩
  rw [closed call added] at started
  cases started

theorem spawn_invariant (manager : Manager) (holds : Invariant manager) (call : Adding)
    (remaining : Nat) (added : manager.adding = some call) (closed : call.started = none) :
    Invariant (spawn manager call remaining) := by
  constructor
  case recorded =>
    intro thread
    by_cases new : thread = manager.created
    · subst new
      have worker : (spawn manager call remaining).workers manager.created =
          ⟨.spawned, manager.taskId, 0⟩ :=
        Function.update_self ..
      constructor
      case entered => exact fun _ => .inl ⟨_, rfl, rfl⟩
      case own =>
        rw [worker]
        rintro (running | finished)
        · cases running
        · cases finished
      case done =>
        rw [worker]
        intro finished
        cases finished
      case calm =>
        rw [worker]
        intro threw
        cases threw
    · refine recorded_closed manager _ thread (holds.recorded thread) ?_
        (Function.update_of_ne new ..) rfl
      intro other same
      rw [added, Option.some.injEq] at same
      exact same ▸ closed
  case fresh =>
    intro thread later
    have after : manager.created < thread := later
    exact (congrArg Worker.phase (Function.update_of_ne (Nat.ne_of_gt after) ..)).trans
      (holds.fresh thread (Nat.le_of_lt after))

theorem insert_invariant (manager : Manager) (holds : Invariant manager) (call : Adding)
    (thread : Nat) (added : manager.adding = some call) (started : call.started = some thread) :
    Invariant (insert manager call thread) := by
  unfold insert
  simp only
  split
  case h_1 taken =>
    exact ⟨fun other => ⟨(holds.recorded other).entered, (holds.recorded other).own,
      (holds.recorded other).done, (holds.recorded other).calm⟩, holds.fresh⟩
  case h_2 free =>
    refine ⟨fun other =>
      recorded_frame manager _ other (holds.recorded other) rfl ?_ ?_ ?_, holds.fresh⟩
    · -- Only the thread that has just been started was without an entry.
      rintro ⟨current, same, open_⟩
      rw [added, Option.some.injEq] at same
      subst same
      rw [started, Option.some.injEq] at open_
      subst open_
      right
      simp only [Function.update_self, Option.isSome_some]
    · intro id listed
      by_cases same : id = (manager.workers thread).id
      · rw [same, free] at listed
        cases listed
      · simpa only [Function.update_of_ne same] using listed
    · intro id flagged
      by_cases same : id = (manager.workers thread).id
      · rw [same, free] at flagged
        cases flagged
      · simpa only [Function.update_of_ne same] using flagged

theorem advance_invariant (manager : Manager) (holds : Invariant manager) (call : Adding)
    (added : manager.adding = some call) : Invariant (advance manager call) := by
  unfold advance
  split
  case h_1 thread started => exact insert_invariant manager holds call thread added started
  case h_2 closed =>
    split
    case h_1 remaining _ => exact spawn_invariant manager holds call remaining added closed
    case h_2 =>
      refine ⟨fun thread =>
        recorded_closed manager _ thread (holds.recorded thread) ?_ rfl rfl, holds.fresh⟩
      intro other same
      rw [added, Option.some.injEq] at same
      exact same ▸ closed

theorem worker_invariant (before after : Manager) (holds : Invariant before) (thread : Nat)
    (worker : Worker) (present : (before.workers thread).phase ≠ .absent)
    (moved : after.workers = Function.update before.workers thread worker)
    (adding : after.adding = before.adding) (created : after.created = before.created)
    (kept : ∀ id, (before.tasks id).isSome = true → (after.tasks id).isSome = true)
    (flags : ∀ id, before.tasks id = some true → after.tasks id = some true)
    (mine : Recorded after thread) : Invariant after where
  recorded other := by
    by_cases same : other = thread
    · exact same ▸ mine
    · refine recorded_frame before after other (holds.recorded other)
        (by rw [moved, Function.update_of_ne same]) ?_ kept flags
      rintro ⟨call, added, open_⟩
      exact .inl ⟨call, adding.trans added, open_⟩
  fresh other later := by
    rw [created] at later
    have different : other ≠ thread := fun same => present (same ▸ holds.fresh other later)
    rw [moved, Function.update_of_ne different]
    exact holds.fresh other later

theorem running_entered (manager : Manager) (holds : Invariant manager) (thread : Nat)
    (running : (manager.workers thread).phase = .running) (entered : ¬ Unentered manager thread) :
    ∃ flag, manager.tasks (manager.workers thread).tlsId = some flag := by
  have facts := holds.recorded thread
  rw [facts.own (.inl running)]
  rcases facts.entered (by rw [running]; exact Phase.noConfusion) with open_ | listed
  · exact absurd open_ entered
  · exact Option.isSome_iff_exists.mp listed

theorem task_done_invariant (manager : Manager) (holds : Invariant manager) (thread : Nat)
    (running : (manager.workers thread).phase = .running) (entered : ¬ Unentered manager thread) :
    Invariant (taskDone manager thread (manager.workers thread)) := by
  obtain ⟨flag, found⟩ := running_entered manager holds thread running entered
  have own := (holds.recorded thread).own (.inl running)
  have kept : ∀ id, (manager.tasks id).isSome = true →
      (Function.update manager.tasks (manager.workers thread).tlsId (some true) id).isSome =
        true := by
    intro id listed
    by_cases same : id = (manager.workers thread).tlsId
    · rw [same, Function.update_self]
      rfl
    · rwa [Function.update_of_ne same]
  simp only [taskDone, found]
  refine worker_invariant manager _ holds thread { manager.workers thread with phase := .finished }
    (by rw [running]; exact Phase.noConfusion) rfl rfl rfl kept ?_ ?_
  · intro id flagged
    by_cases same : id = (manager.workers thread).tlsId
    · simp only [same, Function.update_self]
    · simpa only [Function.update_of_ne same] using flagged
  · have worker : Function.update manager.workers thread { manager.workers thread with
        phase := .finished } thread =
        { manager.workers thread with phase := .finished } := Function.update_self ..
    have flagged : Function.update manager.tasks (manager.workers thread).tlsId (some true)
        (manager.workers thread).id = some true := by rw [own, Function.update_self]
    constructor
    case entered =>
      intro _
      right
      simp only [setWorker, worker, flagged, Option.isSome_some]
    case own =>
      intro _
      simp only [setWorker, worker]
      exact own
    case done =>
      intro _
      simp only [setWorker, worker]
      exact flagged
    case calm =>
      simp only [setWorker, worker]
      exact Phase.noConfusion

theorem init_tls_invariant (manager : Manager) (holds : Invariant manager) (thread : Nat)
    (spawned : (manager.workers thread).phase = .spawned) :
    Invariant (setWorker manager thread
      { manager.workers thread with phase := .running, tlsId := (manager.workers thread).id }) := by
  refine worker_invariant manager _ holds thread _
    (by rw [spawned]; exact Phase.noConfusion) rfl rfl rfl
    (fun _ => id) (fun _ => id) ?_
  have worker : (setWorker manager thread { manager.workers thread with
      phase := .running, tlsId := (manager.workers thread).id }).workers thread =
      { manager.workers thread with phase := .running, tlsId := (manager.workers thread).id } :=
    Function.update_self ..
  constructor
  case entered =>
    rw [worker]
    intro _
    exact (holds.recorded thread).entered (by rw [spawned]; exact Phase.noConfusion)
  case own =>
    rw [worker]
    exact fun _ => rfl
  case done =>
    rw [worker]
    intro finished
    cases finished
  case calm =>
    rw [worker]
    exact Phase.noConfusion

theorem step_invariant (before after : Manager) (label : Label) (holds : Invariant before)
    (taken : step before label = some after) (allowed : entersFirst before label after) :
    Invariant after := by
  unfold step at taken
  split at taken
  case isTrue => cases taken
  case isFalse =>
    cases label with
    | addTask count =>
        simp only [Option.ite_none_right_eq_some, Option.some.injEq] at taken
        obtain ⟨free, rfl⟩ := taken
        refine ⟨fun thread =>
          recorded_closed before _ thread (holds.recorded thread) ?_ rfl rfl, holds.fresh⟩
        intro call added
        rw [free] at added
        cases added
    | advance =>
        obtain ⟨call, added, rfl⟩ := Option.map_eq_some_iff.mp taken
        exact advance_invariant before holds call added
    | otherManager =>
        cases taken
        exact ⟨fun thread => ⟨(holds.recorded thread).entered, (holds.recorded thread).own,
          (holds.recorded thread).done, (holds.recorded thread).calm⟩, holds.fresh⟩
    | initTls thread =>
        simp only [Option.ite_none_right_eq_some, Option.some.injEq] at taken
        obtain ⟨spawned, rfl⟩ := taken
        exact init_tls_invariant before holds thread spawned
    | construct thread id =>
        simp only [Option.ite_none_right_eq_some, Option.some.injEq] at taken
        obtain ⟨running, rfl⟩ := taken
        have own := (holds.recorded thread).own (.inl running)
        have unchanged : { before.workers thread with tlsId := id } = before.workers thread := by
          rw [allowed.2 thread id rfl, ← own]
        rw [unchanged, setWorker, Function.update_eq_self]
        exact holds
    | taskDone thread =>
        simp only [Option.ite_none_right_eq_some, Option.some.injEq] at taken
        obtain ⟨running, rfl⟩ := taken
        exact task_done_invariant before holds thread running (allowed.1 thread rfl)

/-- In a run where no thread ends before it is entered, `_task_done` finds the entry of the
thread, `at` does not throw, and a finished thread has its flag set. -/
theorem task_done_recorded (manager : Manager)
    (reached : Reachable step entersFirst Manager.construct manager) :
    (∀ thread after, step manager (.taskDone thread) = some after →
      entersFirst manager (.taskDone thread) after →
      ∃ flag, manager.tasks (manager.workers thread).tlsId = some flag) ∧
    ∀ thread, (manager.workers thread).phase ≠ .threw ∧
      ((manager.workers thread).phase = .finished →
        manager.tasks (manager.workers thread).tlsId = some true) := by
  have holds := reachable_invariant step entersFirst Invariant Manager.construct construct_invariant
    (fun before label after => step_invariant before after label) manager reached
  constructor
  · intro thread after taken allowed
    have running : (manager.workers thread).phase = .running := by
      unfold step at taken
      split at taken
      case isTrue => cases taken
      case isFalse =>
        simp only [Option.ite_none_right_eq_some] at taken
        exact taken.1
    exact running_entered manager holds thread running (allowed.1 thread rfl)
  · intro thread
    have facts := holds.recorded thread
    refine ⟨facts.calm, ?_⟩
    intro finished
    rw [facts.own (.inr finished)]
    exact facts.done finished

def entersFirstStep (before : Manager) (label : Label) (_ : Manager) : Bool :=
  match label with
  | .taskDone thread => decide (before.adding.bind Adding.started ≠ some thread)
  | .construct thread id => decide (id = (before.workers thread).id)
  | _ => true

theorem enters_first_sound (before : Manager) (label : Label) (after : Manager)
    (checked : entersFirstStep before label after = true) : entersFirst before label after := by
  constructor
  · rintro thread rfl ⟨call, added, started⟩
    simp [entersFirstStep, added, started] at checked
  · rintro thread id rfl
    exact of_decide_eq_true checked

def twoTasks : List Label :=
  [.addTask 2, .advance, .initTls 0, .advance, .otherManager, .advance, .taskDone 0, .initTls 1,
   .advance, .taskDone 1, .advance]

theorem two_tasks_recorded : ∃ manager : Manager,
    Reachable step entersFirst Manager.construct manager ∧ manager.returned = [(2, 4)] ∧
    manager.tasks (manager.workers 0).tlsId = some true ∧
    manager.tasks (manager.workers 1).tlsId = some true := by
  obtain ⟨manager, reached, seen⟩ :=
    replay_reachable step entersFirst entersFirstStep enters_first_sound
    (fun manager => ((manager.workers 0).phase, (manager.workers 1).phase, manager.returned))
    (.finished, .finished, [(2, 4)]) twoTasks Manager.construct (by decide)
  simp only [Prod.mk.injEq] at seen
  obtain ⟨first, second, returned⟩ := seen
  have result := (task_done_recorded manager reached).2
  exact ⟨manager, reached, returned, (result 0).2 first, (result 1).2 second⟩

/-- An empty task ends before `AddTask` has come to the insertion, and `at` throws. -/
theorem short_task_throws :
    ¬ ∀ manager : Manager, Reachable step (fun _ _ _ => True) Manager.construct manager →
      ∀ thread, (manager.workers thread).phase ≠ .threw := by
  intro promised
  obtain ⟨manager, reached, threw⟩ := replay_reachable step (fun _ _ _ => True) (fun _ _ _ => true)
    (fun _ _ _ _ => trivial) (fun manager => (manager.workers 0).phase) .threw
    [.addTask 1, .advance, .initTls 0, .taskDone 0] Manager.construct (by decide)
  exact promised manager reached 0 threw

end NetCore.TaskCompletion
