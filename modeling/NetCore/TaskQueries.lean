import NetCore.TaskCompletion

/-! `IsRunning` and `JoinTask` beside the table of TaskCompletion. Both read the flag of an
entry that `_task_done` sets: `IsRunning` returns it as it is, `JoinTask` joins when it is set and
the thread is still joinable. `JoinTask` holds the mutex for its whole body, and a thread whose
completion is recorded comes to its end without it, so the call is one step. `at` throws for an id
without an entry. `answers` records what `JoinTask` has returned. -/
namespace NetCore.TaskQueries
open TransitionRuns TaskCompletion

structure System where
  manager : Manager
  joinable : BitVec 32 → Bool
  answers : List (BitVec 32 × Bool)

def System.construct : System where
  manager := .construct
  joinable := fun _ => true
  answers := []

/-- `return _tasks.at(id).second`. -/
def isRunning (system : System) (id : BitVec 32) : Option Bool := system.manager.tasks id

/-- What `JoinTask` returns, and whether the thread is joinable afterwards. -/
def joinTask (system : System) (id : BitVec 32) : Option (Bool × (BitVec 32 → Bool)) :=
  match system.manager.tasks id with
  | none => none
  | some false => some (false, system.joinable)
  | some true =>
      if system.joinable id then some (true, Function.update system.joinable id false)
      else some (false, system.joinable)

inductive Label where
  | task (label : TaskCompletion.Label)
  | isRunning (id : BitVec 32)
  | joinTask (id : BitVec 32)
  deriving DecidableEq, Repr

def step : Step System Label := fun system label =>
  match label with
  | .task inner =>
      (TaskCompletion.step system.manager inner).map fun manager =>
        { system with manager := manager }
  | .isRunning id =>
      if system.manager.terminated then none else (isRunning system id).map fun _ => system
  | .joinTask id =>
      if system.manager.terminated ∨ system.manager.adding ≠ none then none
      else (joinTask system id).map fun result =>
        { system with joinable := result.2, answers := system.answers ++ [(id, result.1)] }

/-- Every completion is recorded after the insertion of its entry, and no body replaces the id of
its thread. -/
def completesEntered : Condition System Label := fun before label after =>
  ∀ inner, label = .task inner → entersFirst before.manager inner after.manager

def Complete (manager : Manager) (id : BitVec 32) : Prop :=
  ∃ thread, (manager.workers thread).phase = .finished ∧ (manager.workers thread).id = id

def JoinedBefore (system : System) (id : BitVec 32) : Prop := (id, true) ∈ system.answers

structure Keeps (before after : Manager) : Prop where
  complete : ∀ id, Complete before id → Complete after id
  flags : ∀ id, after.tasks id = some true → before.tasks id = some true ∨ Complete after id

theorem keeps_same (before after : Manager) (workers : after.workers = before.workers)
    (tasks : ∀ id, after.tasks id = some true → before.tasks id = some true) :
    Keeps before after where
  complete id done := by
    unfold Complete
    rw [workers]
    exact done
  flags id flagged := .inl (tasks id flagged)

theorem keeps_worker (before after : Manager) (thread : Nat) (worker : Worker)
    (unfinished : (before.workers thread).phase ≠ .finished)
    (moved : after.workers = Function.update before.workers thread worker)
    (flags : ∀ id, after.tasks id = some true → before.tasks id = some true ∨ Complete after id) :
    Keeps before after where
  complete id done := by
    obtain ⟨other, finished, same⟩ := done
    have different : other ≠ thread := fun equal => unfinished (equal ▸ finished)
    refine ⟨other, ?_, ?_⟩
    · rw [moved, Function.update_of_ne different]
      exact finished
    · rw [moved, Function.update_of_ne different]
      exact same
  flags := flags

theorem insert_keeps (manager : Manager) (call : Adding) (thread : Nat) :
    Keeps manager (TaskCompletion.insert manager call thread) := by
  unfold TaskCompletion.insert
  simp only
  split
  case h_1 => exact keeps_same _ _ rfl fun _ flagged => flagged
  case h_2 =>
    refine keeps_same _ _ rfl fun id flagged => ?_
    by_cases same : id = (manager.workers thread).id
    · simp [same] at flagged
    · simpa only [Function.update_of_ne same] using flagged

theorem advance_keeps (manager : Manager) (holds : TaskCompletion.Invariant manager)
    (call : Adding) :
    Keeps manager (advance manager call) := by
  unfold advance
  split
  case h_1 thread _ => exact insert_keeps manager call thread
  case h_2 =>
    split
    case h_1 remaining _ =>
      refine keeps_worker _ _ manager.created _ ?_ rfl fun _ flagged => .inl flagged
      rw [holds.fresh manager.created (Nat.le_refl _)]
      exact Phase.noConfusion
    case h_2 => exact keeps_same _ _ rfl fun _ flagged => flagged

theorem task_done_keeps (manager : Manager) (holds : TaskCompletion.Invariant manager)
    (thread : Nat) (running : (manager.workers thread).phase = .running) :
    Keeps manager (taskDone manager thread (manager.workers thread)) := by
  have unfinished : (manager.workers thread).phase ≠ .finished := by
    rw [running]
    exact Phase.noConfusion
  have own := (holds.recorded thread).own (.inl running)
  unfold taskDone
  split
  case h_1 => exact keeps_worker _ _ thread _ unfinished rfl fun _ flagged => .inl flagged
  case h_2 =>
    refine keeps_worker _ _ thread _ unfinished rfl fun id flagged => ?_
    by_cases same : id = (manager.workers thread).tlsId
    · right
      exact ⟨thread, by simp [setWorker], by simp [setWorker, same, own]⟩
    · left
      simpa only [setWorker, Function.update_of_ne same] using flagged

theorem step_keeps (before after : Manager) (label : TaskCompletion.Label)
    (holds : TaskCompletion.Invariant before)
    (taken : TaskCompletion.step before label = some after) :
    Keeps before after := by
  unfold TaskCompletion.step at taken
  split at taken
  case isTrue => cases taken
  case isFalse =>
    cases label with
    | addTask count =>
        simp only [Option.ite_none_right_eq_some, Option.some.injEq] at taken
        obtain ⟨_, rfl⟩ := taken
        exact keeps_same _ _ rfl fun _ flagged => flagged
    | advance =>
        obtain ⟨call, _, rfl⟩ := Option.map_eq_some_iff.mp taken
        exact advance_keeps before holds call
    | otherManager =>
        cases taken
        exact keeps_same _ _ rfl fun _ flagged => flagged
    | initTls thread =>
        simp only [Option.ite_none_right_eq_some, Option.some.injEq] at taken
        obtain ⟨spawned, rfl⟩ := taken
        exact keeps_worker _ _ thread _ (by rw [spawned]; exact Phase.noConfusion) rfl
          fun _ flagged => .inl flagged
    | construct thread id =>
        simp only [Option.ite_none_right_eq_some, Option.some.injEq] at taken
        obtain ⟨running, rfl⟩ := taken
        exact keeps_worker _ _ thread _ (by rw [running]; exact Phase.noConfusion) rfl
          fun _ flagged => .inl flagged
    | taskDone thread =>
        simp only [Option.ite_none_right_eq_some, Option.some.injEq] at taken
        obtain ⟨running, rfl⟩ := taken
        exact task_done_keeps before holds thread running

structure Invariant (system : System) : Prop where
  table : TaskCompletion.Invariant system.manager
  flagged : ∀ id, system.manager.tasks id = some true → Complete system.manager id
  joined : ∀ id, system.joinable id = false ↔ JoinedBefore system id

theorem construct_holds : Invariant System.construct where
  table := construct_invariant
  flagged _ flagged := by cases flagged
  joined id := by simp [System.construct, JoinedBefore]

theorem flag_complete (system : System) (holds : Invariant system) (id : BitVec 32) :
    system.manager.tasks id = some true ↔ Complete system.manager id := by
  constructor
  · exact holds.flagged id
  · rintro ⟨thread, finished, rfl⟩
    exact (holds.table.recorded thread).done finished

theorem join_task_cases (system : System) (id : BitVec 32) (result : Bool × (BitVec 32 → Bool))
    (returned : joinTask system id = some result) :
    (result.1 = false ∧ result.2 = system.joinable) ∨
      (result.1 = true ∧ system.joinable id = true ∧
        result.2 = Function.update system.joinable id false) := by
  unfold joinTask at returned
  split at returned
  case h_1 => cases returned
  case h_2 =>
    cases returned
    exact .inl ⟨rfl, rfl⟩
  case h_3 =>
    split at returned
    case isTrue joinable =>
      cases returned
      exact .inr ⟨rfl, joinable, rfl⟩
    case isFalse =>
      cases returned
      exact .inl ⟨rfl, rfl⟩

theorem join_task_holds (system : System) (holds : Invariant system) (id : BitVec 32)
    (result : Bool × (BitVec 32 → Bool)) (returned : joinTask system id = some result) :
    Invariant { system with
      joinable := result.2, answers := system.answers ++ [(id, result.1)] } where
  table := holds.table
  flagged := holds.flagged
  joined other := by
    have before := holds.joined other
    rcases join_task_cases system id result returned with ⟨refused, kept⟩ | ⟨joined, _, updated⟩
    · simp only [JoinedBefore, refused, kept, before, List.mem_append, List.mem_singleton,
        Prod.mk.injEq, Bool.true_eq_false, and_false, or_false]
    · by_cases same : other = id
      · simp [JoinedBefore, joined, updated, same]
      · simp only [JoinedBefore, joined, updated, Function.update_of_ne same, before,
          List.mem_append, List.mem_singleton, Prod.mk.injEq, same, false_and, or_false]

theorem step_holds (before after : System) (label : Label) (holds : Invariant before)
    (taken : step before label = some after) (allowed : completesEntered before label after) :
    Invariant after := by
  cases label with
  | task inner =>
      obtain ⟨manager, moved, rfl⟩ := Option.map_eq_some_iff.mp taken
      have keeps := step_keeps before.manager manager inner holds.table moved
      refine ⟨step_invariant before.manager manager inner holds.table moved (allowed inner rfl), ?_,
        holds.joined⟩
      intro id flagged
      rcases keeps.flags id flagged with old | new
      · exact keeps.complete id (holds.flagged id old)
      · exact new
  | isRunning id =>
      simp only [step, Option.ite_none_left_eq_some] at taken
      obtain ⟨_, _, rfl⟩ := Option.map_eq_some_iff.mp taken.2
      exact holds
  | joinTask id =>
      simp only [step, Option.ite_none_left_eq_some] at taken
      obtain ⟨result, returned, rfl⟩ := Option.map_eq_some_iff.mp taken.2
      exact join_task_holds before holds id result returned

theorem run_holds (system : System)
    (reached : Reachable step completesEntered System.construct system) :
    Invariant system :=
  reachable_invariant step completesEntered Invariant System.construct construct_holds
    (fun before label after => step_holds before after label) system reached

/-- The two queries agree with the run: a task is running until its completion is recorded, and
can be joined once from then on. -/
structure Agrees (system : System) (id : BitVec 32) : Prop where
  running : isRunning system id = some true ↔ ¬ Complete system.manager id
  joins : (joinTask system id).map Prod.fst = some true ↔
    isRunning system id = some false ∧ ¬ JoinedBefore system id

theorem join_task_true_iff (system : System) (holds : Invariant system) (id : BitVec 32) :
    (joinTask system id).map Prod.fst = some true ↔
      Complete system.manager id ∧ ¬ JoinedBefore system id := by
  have flag := flag_complete system holds id
  have joined := holds.joined id
  unfold joinTask
  cases entry : system.manager.tasks id with
  | none => simp [← flag, entry]
  | some done =>
      cases done with
      | false => simp [← flag, entry]
      | true => cases joinable : system.joinable id <;> simp [← flag, ← joined, entry, joinable]

/-- In every state of every run `IsRunning` answers that the completion has been recorded, so a
caller that waits for false waits for a state in which `JoinTask` refuses. `JoinTask` itself joins
a completed task once. -/
theorem queries_answer (system : System)
    (reached : Reachable step completesEntered System.construct system) (id : BitVec 32) :
    (isRunning system id = some true ↔ Complete system.manager id) ∧
      ((joinTask system id).map Prod.fst = some true ↔
        Complete system.manager id ∧ ¬ JoinedBefore system id) ∧
      (isRunning system id = some false → (joinTask system id).map Prod.fst = some false) ∧
      ¬ Agrees system id := by
  have holds := run_holds system reached
  have flag := flag_complete system holds id
  refine ⟨flag, join_task_true_iff system holds id, ?_, ?_⟩
  · intro running
    unfold isRunning at running
    simp only [joinTask, running, Option.map_some]
  · intro agrees
    have running := agrees.running
    unfold isRunning at running
    rw [flag] at running
    exact (iff_not_self running).elim

def completesEnteredStep (before : System) (label : Label) (after : System) : Bool :=
  match label with
  | .task inner => entersFirstStep before.manager inner after.manager
  | _ => true

theorem completes_entered_sound (before : System) (label : Label) (after : System)
    (checked : completesEnteredStep before label after = true) :
    completesEntered before label after := by
  rintro inner rfl
  exact enters_first_sound before.manager inner after.manager checked

/-- Two tasks have ended and the first has been joined. -/
theorem queries_answer_joined : ∃ system : System,
    Reachable step completesEntered System.construct system ∧ system.manager.returned = [(2, 4)] ∧
    isRunning system 2 = some true ∧ (joinTask system 2).map Prod.fst ≠ some true ∧
    isRunning system 4 = some true ∧ (joinTask system 4).map Prod.fst = some true := by
  obtain ⟨system, reached, seen⟩ := replay_reachable step completesEntered completesEnteredStep
    completes_entered_sound
    (fun system => ([system.manager.workers 0, system.manager.workers 1],
      system.manager.returned, system.answers))
    ([⟨.finished, 2, 2⟩, ⟨.finished, 4, 4⟩], [(2, 4)], [(2, true)])
    (twoTasks.map .task ++ [.isRunning 2, .joinTask 2]) System.construct (by decide)
  simp only [Prod.mk.injEq, List.cons.injEq, and_true] at seen
  obtain ⟨⟨first, second⟩, returned, answers⟩ := seen
  have done : Complete system.manager 2 := ⟨0, by rw [first], by rw [first]⟩
  have other : Complete system.manager 4 := ⟨1, by rw [second], by rw [second]⟩
  have joined := queries_answer system reached 2
  have free := queries_answer system reached 4
  refine ⟨system, reached, returned, joined.1.mpr done, ?_, free.1.mpr other,
    free.2.1.mpr ⟨other, ?_⟩⟩
  · intro again
    exact (joined.2.1.mp again).2 (by simp [JoinedBefore, answers])
  · simp [JoinedBefore, answers]

/-- A task that has just been added: `IsRunning` answers false, and nothing can be joined. -/
theorem added_task_not_running :
    ¬ ∀ system : System, Reachable step completesEntered System.construct system →
      ∀ id, (id, id) ∈ system.manager.returned → Agrees system id := by
  intro promised
  obtain ⟨system, reached, seen⟩ := replay_reachable step completesEntered completesEnteredStep
    completes_entered_sound (fun system => (system.manager.tasks 2, system.manager.returned))
      (some false, [(2, 2)])
    [.task (.addTask 1), .task .advance, .task (.initTls 0), .task .advance, .task .advance]
    System.construct (by decide)
  simp only [Prod.mk.injEq] at seen
  obtain ⟨unset, returned⟩ := seen
  have agrees := promised system reached 2 (by simp [returned])
  have incomplete : ¬ Complete system.manager 2 := by
    rw [← flag_complete system (run_holds system reached), unset]
    decide
  have running := agrees.running.mpr incomplete
  rw [isRunning, unset] at running
  cases running

end NetCore.TaskQueries
