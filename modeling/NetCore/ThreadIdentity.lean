import NetCore.ReaderWriterLock

/-! The ids by which threads are known to the reader-writer lock. `TaskManager` and
`TaskManagerEx` each have a static counter `_taskId`. A constructor numbers the
thread that runs it; `TaskManager::AddTask` takes the number of a new thread in the
calling thread, a thread of `TaskManagerEx` takes its own. `TLS_Id` is 0 until
`_init_tls` assigns it. The lock keeps sixteen bits of it. -/
namespace NetCore.ThreadIdentity
open TransitionRuns ReaderWriterLock

inductive Manager where
  | taskManager
  | taskManagerEx
  deriving DecidableEq, Repr

/-- How far a thread is in `_init_tls`: not in it, before or after `fetch_add`. -/
inductive StartUp where
  | idle
  | unnumbered (manager : Manager)
  | numbered (manager : Manager) (id : BitVec 32)
  deriving DecidableEq, Repr

/-- `assigner` is the manager whose counter gave the thread its `TLS_Id`. -/
structure Worker where
  alive : Bool
  started : Bool
  tlsId : BitVec 32
  assigner : Manager
  startUp : StartUp
  deriving DecidableEq, Repr

def Worker.spawn (startUp : StartUp) : Worker where
  alive := true
  started := false
  tlsId := 0
  assigner := .taskManager
  startUp := startUp

/-- Threads are numbered as they are created; thread 0 is the main thread. -/
structure Process where
  taskId : Manager → BitVec 32
  constructed : Manager → Bool
  created : Nat
  workers : Nat → Worker

def Process.start : Process where
  taskId := fun _ => 1
  constructed := fun _ => false
  created := 1
  workers := fun thread => { Worker.spawn .idle with alive := decide (thread = 0) }

inductive Label where
  | construct (thread : Nat) (manager : Manager)
  | addTask (thread : Nat) (manager : Manager)
  | getNewTaskId (thread : Nat)
  | assign (thread : Nat)
  | finish (thread : Nat)
  deriving DecidableEq, Repr

def setWorker (process : Process) (thread : Nat) (worker : Worker) : Process :=
  { process with workers := Function.update process.workers thread worker }

/-- `_taskId.fetch_add(1)`. -/
def countUp (process : Process) (manager : Manager) : Process :=
  { process with taskId := Function.update process.taskId manager (process.taskId manager + 1) }

/-- A new thread, with the number it was given if `TaskManager` starts it. The counted
overloads call this as often as they are told. -/
def spawn (process : Process) : Manager → Process
  | .taskManager => setWorker { countUp process .taskManager with created := process.created + 1 }
      process.created (Worker.spawn (.numbered .taskManager (process.taskId .taskManager)))
  | .taskManagerEx => setWorker { process with created := process.created + 1 }
      process.created (Worker.spawn (.unnumbered .taskManagerEx))

/-- A thread that is alive and in no start-up constructs a manager, adds a task to one
or ends; a thread in a start-up goes on with it. -/
def step : Step Process Label := fun process label =>
  match label with
  | .construct thread manager =>
      let worker := process.workers thread
      if worker.alive ∧ worker.startUp = .idle then
        some (setWorker process thread { worker with startUp := .unnumbered manager })
      else none
  | .addTask thread manager =>
      let worker := process.workers thread
      if worker.alive ∧ worker.startUp = .idle ∧ process.constructed manager then
        some (spawn process manager)
      else none
  | .getNewTaskId thread =>
      let worker := process.workers thread
      match worker.startUp with
      | .unnumbered manager => some (setWorker (countUp process manager) thread
          { worker with startUp := .numbered manager (process.taskId manager) })
      | _ => none
  | .assign thread =>
      let worker := process.workers thread
      match worker.startUp with
      | .numbered manager id => some (setWorker
          { process with constructed := Function.update process.constructed manager true } thread
          { worker with started := true, tlsId := id, assigner := manager, startUp := .idle })
      | _ => none
  | .finish thread =>
      let worker := process.workers thread
      if worker.alive ∧ worker.startUp = .idle then
        some (setWorker process thread { worker with alive := false })
      else none

def running (process : Process) (thread : Nat) : Prop :=
  (process.workers thread).alive = true ∧ (process.workers thread).started = true

instance (process : Process) (thread : Nat) : Decidable (running process thread) :=
  inferInstanceAs (Decidable (_ ∧ _))

/-- The flag a thread writes tells it from every other thread and from no thread, and it
recognises itself in it. -/
structure Recognisable (process : Process) : Prop where
  different : ∀ first second, running process first → running process second → first ≠ second →
    getWriteDesiredFlag (process.workers first).tlsId ≠
      getWriteDesiredFlag (process.workers second).tlsId
  nonempty : ∀ thread, running process thread →
    getWriteDesiredFlag (process.workers thread).tlsId ≠ empty
  decoded : ∀ thread lock, running process thread →
    lock.lockFlag = getWriteDesiredFlag (process.workers thread).tlsId →
    getLockThreadId lock = (process.workers thread).tlsId

def takes (process : Process) : Label → Option Manager
  | .addTask _ .taskManager => some .taskManager
  | .getNewTaskId thread => match (process.workers thread).startUp with
      | .unnumbered manager => some manager
      | _ => none
  | _ => none

/-- Numbers are taken below 65536, and a number is not assigned while a running thread
has the same one from the other manager. -/
structure Numbered (before : Process) (label : Label) (after : Process) : Prop where
  ranged : ∀ manager, takes before label = some manager → (before.taskId manager).toNat < 65536
  unshared : ∀ thread manager id, label = .assign thread →
    (before.workers thread).startUp = .numbered manager id →
    ∀ other < before.created, other ≠ thread → running before other →
      (before.workers other).assigner ≠ manager → (before.workers other).tlsId ≠ id

def numbered : Condition Process Label := Numbered

def Born (process : Process) : Prop :=
  ∀ thread, process.created ≤ thread →
    (process.workers thread).alive = false ∧ (process.workers thread).startUp = .idle

theorem start_born : Born Process.start := by
  intro thread beyond
  have other : thread ≠ 0 := by
    simp only [Process.start] at beyond
    omega
  simp [Process.start, Worker.spawn, other]

theorem born_set (before middle : Process) (holds : Born before) (thread : Nat) (worker : Worker)
    (workers : middle.workers = before.workers) (grows : before.created ≤ middle.created)
    (inside : thread < middle.created) : Born (setWorker middle thread worker) := by
  intro other beyond
  have different : other ≠ thread := by
    simp only [setWorker] at beyond
    omega
  simp only [setWorker, Function.update_of_ne different, workers]
  exact holds other (Nat.le_trans grows beyond)

theorem step_born (before after : Process) (label : Label) (holds : Born before)
    (taken : step before label = some after) : Born after := by
  have inside : ∀ thread, (before.workers thread).alive = true ∨
      (before.workers thread).startUp ≠ .idle → thread < before.created := by
    intro thread active
    by_contra beyond
    obtain ⟨dead, idle⟩ := holds thread (by omega)
    simp [dead, idle] at active
  cases label with
  | construct thread manager =>
      simp only [step, Option.ite_none_right_eq_some, Option.some.injEq] at taken
      obtain ⟨⟨alive, _⟩, rfl⟩ := taken
      exact born_set before before holds thread _ rfl (Nat.le_refl _) (inside thread (Or.inl alive))
  | addTask thread manager =>
      simp only [step, Option.ite_none_right_eq_some, Option.some.injEq] at taken
      obtain ⟨_, rfl⟩ := taken
      cases manager with
      | taskManager =>
          exact born_set before { countUp before .taskManager with
            created := before.created + 1 } holds
            before.created _ rfl (Nat.le_succ _) (Nat.lt_succ_self _)
      | taskManagerEx =>
          exact born_set before { before with
            created := before.created + 1 } holds before.created _ rfl
            (Nat.le_succ _) (Nat.lt_succ_self _)
  | getNewTaskId thread =>
      simp only [step] at taken
      split at taken
      case h_1 manager waits =>
        rw [Option.some.injEq] at taken
        subst taken
        exact born_set before (countUp before manager) holds thread _ rfl (Nat.le_refl _)
          (inside thread (Or.inr (by simp [waits])))
      case h_2 => simp at taken
  | assign thread =>
      simp only [step] at taken
      split at taken
      case h_1 manager id stands =>
        rw [Option.some.injEq] at taken
        subst taken
        exact born_set before { before with constructed := _ } holds thread _ rfl (Nat.le_refl _)
          (inside thread (Or.inr (by simp [stands])))
      case h_2 => simp at taken
  | finish thread =>
      simp only [step, Option.ite_none_right_eq_some, Option.some.injEq] at taken
      obtain ⟨⟨alive, _⟩, rfl⟩ := taken
      exact born_set before before holds thread _ rfl (Nat.le_refl _) (inside thread (Or.inl alive))

/-- The numbers a thread has: its `TLS_Id` and the one its start-up is about to assign. -/
def Worker.numbers (worker : Worker) : List (Manager × BitVec 32) :=
  (if worker.started then [(worker.assigner, worker.tlsId)] else []) ++
    match worker.startUp with
    | .numbered manager id => [(manager, id)]
    | _ => []

/-- The numbers of one manager have been handed out once each, and no two running
threads have the same `TLS_Id`. -/
structure Identified (process : Process) : Prop where
  positive : ∀ manager, 1 ≤ (process.taskId manager).toNat
  ranged : ∀ manager, (process.taskId manager).toNat ≤ 65536
  below : ∀ thread manager id, (manager, id) ∈ (process.workers thread).numbers →
    1 ≤ id.toNat ∧ id.toNat < (process.taskId manager).toNat
  sole : ∀ first second entry, entry ∈ (process.workers first).numbers →
    entry ∈ (process.workers second).numbers → first = second
  apart : ∀ first second, running process first → running process second → first ≠ second →
    (process.workers first).tlsId ≠ (process.workers second).tlsId

theorem start_identified : Identified Process.start := by
  have nothing : ∀ thread, (Process.start.workers thread).numbers = [] := fun _ => rfl
  constructor
  case positive => exact fun _ => Nat.le_refl 1
  case ranged => exact fun manager => by simp [Process.start]
  case below =>
    intro thread manager id member
    rw [nothing] at member
    cases member
  case sole =>
    intro first second entry member
    rw [nothing] at member
    cases member
  case apart =>
    intro first _ started
    cases started.2

theorem identified_keep (before after : Process) (holds : Identified before)
    (counters : after.taskId = before.taskId)
    (fewer : ∀ thread entry, entry ∈ (after.workers thread).numbers →
      entry ∈ (before.workers thread).numbers)
    (apart : ∀ first second, running after first → running after second → first ≠ second →
      (after.workers first).tlsId ≠ (after.workers second).tlsId) : Identified after where
  positive manager := by rw [counters]; exact holds.positive manager
  ranged manager := by rw [counters]; exact holds.ranged manager
  below thread manager id member := by
    rw [counters]
    exact holds.below thread manager id (fewer thread _ member)
  sole first second entry left right :=
    holds.sole first second entry (fewer first entry left) (fewer second entry right)
  apart := apart

theorem identified_take (before after : Process) (holds : Identified before) (manager : Manager)
    (target : Nat) (room : (before.taskId manager).toNat < 65536)
    (counters : after.taskId = Function.update before.taskId manager (before.taskId manager + 1))
    (taken : ∀ thread entry, entry ∈ (after.workers thread).numbers →
      entry ∈ (before.workers thread).numbers ∨
        thread = target ∧ entry = (manager, before.taskId manager))
    (apart : ∀ first second, running after first → running after second → first ≠ second →
      (after.workers first).tlsId ≠ (after.workers second).tlsId) : Identified after := by
  have next : (before.taskId manager + 1).toNat = (before.taskId manager).toNat + 1 := by
    rw [BitVec.toNat_add]
    exact Nat.mod_eq_of_lt (Nat.lt_trans (Nat.add_lt_add_right room 1) (by decide))
  have grows : ∀ other, (before.taskId other).toNat ≤ (after.taskId other).toNat ∧
      (after.taskId other).toNat ≤ 65536 := by
    intro other
    rw [counters]
    by_cases same : other = manager
    · subst other
      rw [Function.update_self, next]
      omega
    · rw [Function.update_of_ne same]
      exact ⟨Nat.le_refl _, holds.ranged other⟩
  -- The number handed out is above all numbers of the same counter.
  have fresh : ∀ thread, (manager, before.taskId manager) ∉ (before.workers thread).numbers := by
    intro thread member
    have below := (holds.below thread manager _ member).2
    omega
  constructor
  case positive => exact fun other => Nat.le_trans (holds.positive other) (grows other).1
  case ranged => exact fun other => (grows other).2
  case below =>
    intro thread other id member
    rcases taken thread _ member with old | ⟨_, new⟩
    · have bounds := holds.below thread other id old
      have more := (grows other).1
      omega
    · rw [Prod.mk.injEq] at new
      obtain ⟨rfl, rfl⟩ := new
      rw [counters, Function.update_self, next]
      have positive := holds.positive other
      omega
  case sole =>
    intro first second entry left right
    rcases taken first entry left with old | ⟨mine, new⟩
    · rcases taken second entry right with older | ⟨_, new⟩
      · exact holds.sole first second entry old older
      · exact absurd (new ▸ old) (fresh first)
    · rcases taken second entry right with old | ⟨yours, _⟩
      · exact absurd (new ▸ old) (fresh second)
      · exact mine.trans yours.symm
  case apart => exact apart

theorem apart_frame (before after : Process) (holds : Identified before)
    (same : ∀ thread, running after thread →
      running before thread ∧ (after.workers thread).tlsId = (before.workers thread).tlsId)
    (first second : Nat) (left : running after first) (right : running after second)
    (different : first ≠ second) :
    (after.workers first).tlsId ≠ (after.workers second).tlsId := by
  rw [(same first left).2, (same second right).2]
  exact holds.apart first second (same first left).1 (same second right).1 different

theorem set_worker_identified (process : Process) (thread : Nat) (worker : Worker)
    (holds : Identified process)
    (fewer : ∀ entry ∈ worker.numbers, entry ∈ (process.workers thread).numbers)
    (same : running (setWorker process thread worker) thread → running process thread ∧
      worker.tlsId = (process.workers thread).tlsId) :
    Identified (setWorker process thread worker) := by
  apply identified_keep process _ holds
  case counters => rfl
  case fewer =>
    intro other entry member
    by_cases mine : other = thread
    · subst other
      simp only [setWorker, Function.update_self] at member
      exact fewer entry member
    · simpa [setWorker, mine] using member
  case apart =>
    apply apart_frame process _ holds
    intro other started
    by_cases mine : other = thread
    · subst other
      simpa [setWorker] using same started
    · simpa [setWorker, running, mine] using started

theorem construct_identified (process : Process) (thread : Nat) (manager : Manager)
    (holds : Identified process) (idle : (process.workers thread).startUp = .idle) :
    Identified (setWorker process thread
      { process.workers thread with startUp := .unnumbered manager }) := by
  apply set_worker_identified process thread _ holds
  case fewer =>
    intro entry member
    simpa [Worker.numbers, idle] using member
  case same =>
    intro started
    simpa [setWorker, running] using started

theorem finish_identified (process : Process) (thread : Nat) (holds : Identified process) :
    Identified (setWorker process thread { process.workers thread with alive := false }) := by
  apply set_worker_identified process thread _ holds
  case fewer =>
    intro entry member
    simpa [Worker.numbers] using member
  case same =>
    intro started
    simp [setWorker, running] at started

theorem spawn_identified (process : Process) (manager : Manager) (holds : Identified process)
    (room : manager = .taskManager → (process.taskId .taskManager).toNat < 65536) :
    Identified (spawn process manager) := by
  -- The new thread has not started, whoever creates it.
  have same : ∀ thread, running (spawn process manager) thread → running process thread ∧
      ((spawn process manager).workers thread).tlsId = (process.workers thread).tlsId := by
    intro thread started
    by_cases new : thread = process.created
    · subst thread
      cases manager <;> simp [spawn, setWorker, running, Worker.spawn] at started
    · cases manager <;> simpa [spawn, setWorker, running, countUp, new] using started
  cases manager with
  | taskManager =>
      apply identified_take process _ holds .taskManager process.created (room rfl) rfl
      case taken =>
        intro thread entry member
        by_cases new : thread = process.created
        · subst thread
          simp only [spawn, setWorker, Function.update_self, Worker.numbers, Worker.spawn] at member
          exact Or.inr ⟨rfl, by simpa using member⟩
        · simp only [spawn, setWorker, Function.update_of_ne new, countUp] at member
          exact Or.inl member
      case apart => exact apart_frame process _ holds same
  | taskManagerEx =>
      apply identified_keep process _ holds
      case counters => rfl
      case fewer =>
        intro thread entry member
        by_cases new : thread = process.created
        · subst thread
          simp [spawn, setWorker, Worker.numbers, Worker.spawn] at member
        · simpa [spawn, setWorker, new] using member
      case apart => exact apart_frame process _ holds same

theorem number_identified (process : Process) (thread : Nat) (manager : Manager)
    (holds : Identified process) (waits : (process.workers thread).startUp = .unnumbered manager)
    (room : (process.taskId manager).toNat < 65536) :
    Identified (setWorker (countUp process manager) thread
      { process.workers thread with startUp := .numbered manager (process.taskId manager) }) := by
  apply identified_take process _ holds manager thread room rfl
  case taken =>
    intro other entry member
    by_cases mine : other = thread
    · subst other
      simp only [setWorker, Function.update_self, Worker.numbers, List.mem_append,
        List.mem_singleton] at member
      rcases member with old | new
      · exact Or.inl (by simpa [Worker.numbers, waits] using old)
      · exact Or.inr ⟨rfl, new⟩
    · simp only [setWorker, Function.update_of_ne mine, countUp] at member
      exact Or.inl member
  case apart =>
    apply apart_frame process _ holds
    intro other started
    by_cases mine : other = thread
    · subst other
      simpa [setWorker, running] using started
    · simpa [setWorker, running, countUp, mine] using started

theorem assign_identified (process : Process) (thread : Nat) (manager : Manager) (id : BitVec 32)
    (holds : Identified process) (stands : (process.workers thread).startUp = .numbered manager id)
    (unshared : ∀ other, other ≠ thread → running process other →
      (process.workers other).assigner ≠ manager → (process.workers other).tlsId ≠ id) :
    Identified (setWorker
      { process with constructed := Function.update process.constructed manager true } thread
      { process.workers thread with
        started := true, tlsId := id, assigner := manager, startUp := .idle }) := by
  have given : (manager, id) ∈ (process.workers thread).numbers := by
    simp [Worker.numbers, stands]
  -- A running thread with the same number from the same manager would be this thread.
  have new : ∀ other, other ≠ thread → running process other →
      (process.workers other).tlsId ≠ id := by
    intro other different started same
    by_cases mine : (process.workers other).assigner = manager
    · have theirs : (manager, id) ∈ (process.workers other).numbers := by
        simp [Worker.numbers, started.2, mine, same]
      exact different (holds.sole other thread _ theirs given)
    · exact unshared other different started mine same
  apply identified_keep process _ holds
  case counters => rfl
  case fewer =>
    intro other entry member
    by_cases mine : other = thread
    · subst other
      simp only [setWorker, Function.update_self, Worker.numbers] at member
      have same : entry = (manager, id) := by simpa using member
      rw [same]
      exact given
    · simpa [setWorker, mine] using member
  case apart =>
    intro first second left right different
    by_cases mine : first = thread
    · subst first
      have other : second ≠ thread := Ne.symm different
      simp only [setWorker, running, Function.update_of_ne other] at right
      simp only [setWorker, Function.update_self, Function.update_of_ne other]
      exact Ne.symm (new second other right)
    · simp only [setWorker, running, Function.update_of_ne mine] at left
      by_cases yours : second = thread
      · subst second
        simp only [setWorker, Function.update_self, Function.update_of_ne mine]
        exact new first mine left
      · simp only [setWorker, running, Function.update_of_ne yours] at right
        simp only [setWorker, Function.update_of_ne mine, Function.update_of_ne yours]
        exact holds.apart first second left right different

theorem step_identified (before after : Process) (label : Label) (holds : Identified before)
    (born : Born before) (taken : step before label = some after)
    (allowed : Numbered before label after) :
    Identified after := by
  cases label with
  | construct thread manager =>
      simp only [step, Option.ite_none_right_eq_some, Option.some.injEq] at taken
      obtain ⟨⟨_, idle⟩, rfl⟩ := taken
      exact construct_identified before thread manager holds idle
  | addTask thread manager =>
      simp only [step, Option.ite_none_right_eq_some, Option.some.injEq] at taken
      obtain ⟨_, rfl⟩ := taken
      apply spawn_identified before manager holds
      rintro rfl
      exact allowed.ranged .taskManager rfl
  | getNewTaskId thread =>
      simp only [step] at taken
      split at taken
      case h_1 manager waits =>
        rw [Option.some.injEq] at taken
        subst taken
        exact number_identified before thread manager holds waits
          (allowed.ranged manager (by simp [takes, waits]))
      case h_2 => simp at taken
  | assign thread =>
      simp only [step] at taken
      split at taken
      case h_1 manager id stands =>
        rw [Option.some.injEq] at taken
        subst taken
        apply assign_identified before thread manager id holds stands
        intro other different started
        apply allowed.unshared thread manager id rfl stands other _ different started
        by_contra beyond
        have dead := (born other (by omega)).1
        rw [started.1] at dead
        cases dead
      case h_2 => simp at taken
  | finish thread =>
      simp only [step, Option.ite_none_right_eq_some, Option.some.injEq] at taken
      obtain ⟨_, rfl⟩ := taken
      exact finish_identified before thread holds

theorem identified_recognisable (process : Process) (holds : Identified process) :
    Recognisable process := by
  have bounds : ∀ thread, running process thread →
      1 ≤ (process.workers thread).tlsId.toNat ∧ (process.workers thread).tlsId.toNat < 65536 := by
    intro thread started
    have mine : ((process.workers thread).assigner, (process.workers thread).tlsId) ∈
        (process.workers thread).numbers := by simp [Worker.numbers, started.2]
    have below := holds.below thread _ _ mine
    have ranged := holds.ranged (process.workers thread).assigner
    omega
  constructor
  case different =>
    intro first second left right different same
    apply holds.apart first second left right different
    apply BitVec.eq_of_toNat_eq
    have flags := congrArg BitVec.toNat same
    rw [write_desired_flag_nat _ (bounds first left).2,
      write_desired_flag_nat _ (bounds second right).2]
      at flags
    omega
  case nonempty =>
    intro thread started same
    have flags := congrArg BitVec.toNat same
    have positive := (bounds thread started).1
    rw [write_desired_flag_nat _ (bounds thread started).2] at flags
    have none : empty.toNat = 0 := rfl
    omega
  case decoded =>
    intro thread lock started written
    apply BitVec.eq_of_toNat_eq
    rw [lock_thread_id_nat, written, write_desired_flag_nat _ (bounds thread started).2]
    omega

/-- In every run in which numbers are taken below 65536 and none is assigned while a
running thread has it from the other manager, the lock can tell the running threads
apart. -/
theorem threads_recognisable (process : Process)
    (reached : Reachable step numbered Process.start process) : Recognisable process := by
  have holds : Identified process ∧ Born process := by
    apply reachable_invariant step numbered (fun process => Identified process ∧
      Born process) Process.start
    case holds => exact ⟨start_identified, start_born⟩
    case keeps =>
      intro before label after holds taken allowed
      exact ⟨step_identified before after label holds.1 holds.2 taken allowed,
        step_born before after label holds.2 taken⟩
    case reached => exact reached
  exact identified_recognisable process holds.1

/-! The condition as a test, for runs given by their labels. -/
section Replay

def rangedStep (before : Process) (label : Label) : Bool :=
  match takes before label with
  | some manager => decide ((before.taskId manager).toNat < 65536)
  | none => true

def unsharedStep (before : Process) : Label → Bool
  | .assign thread => match (before.workers thread).startUp with
      | .numbered manager id =>
        decide (∀ other < before.created, other ≠ thread → running before other →
          (before.workers other).assigner ≠ manager → (before.workers other).tlsId ≠ id)
      | _ => true
  | _ => true

def numberedStep (before : Process) (label : Label) (_ : Process) : Bool :=
  rangedStep before label && unsharedStep before label

theorem numbered_step_sound (before : Process) (label : Label) (after : Process)
    (checked : numberedStep before label after = true) : numbered before label after := by
  rw [numberedStep, Bool.and_eq_true] at checked
  constructor
  case ranged =>
    intro manager taken
    have ranged := checked.1
    simpa [rangedStep, taken] using ranged
  case unshared =>
    rintro thread manager id rfl stands
    have unshared := checked.2
    simp only [unsharedStep, stands] at unshared
    exact of_decide_eq_true unshared

end Replay

def twoTasks : List Label :=
  [.construct 0 .taskManager, .getNewTaskId 0, .assign 0, .addTask 0 .taskManager,
   .addTask 0 .taskManager, .assign 2, .assign 1]

theorem two_tasks_recognisable : ∃ process : Process,
    Reachable step numbered Process.start process ∧ running process 1 ∧ running process 2 ∧
    Recognisable process := by
  obtain ⟨process, reached, seen⟩ := replay_reachable step numbered numberedStep numbered_step_sound
    (fun process => decide (running process 1 ∧ running process 2)) true twoTasks Process.start
    (by decide)
  have started := of_decide_eq_true seen
  exact ⟨process, reached, started.1, started.2, threads_recognisable process reached⟩

def oneTaskEach : List Label :=
  [.construct 0 .taskManager, .getNewTaskId 0, .assign 0,
   .construct 0 .taskManagerEx, .getNewTaskId 0, .assign 0,
   .addTask 0 .taskManager, .assign 1, .addTask 0 .taskManagerEx, .getNewTaskId 2, .assign 2]

/-- The two counters give out the same numbers: the tasks of two managers run at the same
time with the same flag. -/
theorem managers_share_flag : ∃ process : Process,
    Reachable step (fun _ _ _ => True) Process.start process ∧ ¬ Recognisable process := by
  obtain ⟨process, reached, seen⟩ := replay_reachable step (fun _ _ _ => True) (fun _ _ _ => true)
    (fun _ _ _ _ => trivial)
    (fun process => decide (running process 1 ∧ running process 2 ∧
      (process.workers 1).tlsId = 2#32 ∧ (process.workers 2).tlsId = 2#32)) true oneTaskEach
    Process.start (by decide)
  obtain ⟨first, second, left, right⟩ := of_decide_eq_true seen
  refine ⟨process, reached, ?_⟩
  intro recognisable
  apply recognisable.different 1 2 first second (by decide)
  rw [left, right]

end NetCore.ThreadIdentity
