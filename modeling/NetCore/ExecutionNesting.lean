import NetCore.JobSystem

/-! How deep the stack of a thread gets. A job that pushes jobs runs none of them itself: while
`ExecuteJobs` runs a job `TLS_CurrentJobSerializer` is set, and `Push` then hands the serializer
to the global queue. This is an invariant of the shape of the stack: a call of `DoJobs` at the
bottom, one activation of `ExecuteJobs` on it, one call of `Push` on top, and no more. Jobs call
neither `DoJobs` nor `ExecuteJobs` themselves. The drained jobs are destroyed at the end of a
pass of the loop, on the last one with `TLS_CurrentJobSerializer` null again; what their captures
might call in their destructors, `Push` included, is left out. -/
namespace NetCore.ExecutionNesting
open TransitionRuns PriorityQueue JobSerializer

universe u v w x y
variable {Thread : Type u} {Handle : Type v} {Job : Type w} {Name : Type x}

def activation : Frame Thread Name Job → Bool
  | .execEnter _ | .execDrain _ _ | .execLoop _ _ _ _ | .running _ _ _ _ _ | .execClock _ _ => true
  | .execHandOver _ | .execLeave => true
  | _ => false

def executesJob : Frame Thread Name Job → Bool
  | .running _ _ _ _ _ => true
  | _ => false

/-- From the assignment at the beginning of `ExecuteJobs` to the first one at its end. -/
def current : Frame Thread Name Job → Bool
  | .execDrain _ _ | .execLoop _ _ _ _ | .running _ _ _ _ _ | .execClock _ _ => true
  | _ => false

def inPush : Frame Thread Name Job → Bool
  | .pushAdd _ _ | .pushQueue _ _ _ | .pushTest _ _ => true
  | _ => false

inductive Ground : List (Frame Thread Name Job) → Prop where
  | empty : Ground []
  | doJobs (start : UInt64) : Ground [.doLoop start]

/-- The stacks that occur, with the value of `TLS_CurrentJobSerializer`. -/
inductive Flat : List (Frame Thread Name Job) → Option Name → Prop where
  | ground (stack : List (Frame Thread Name Job)) (slot : Option Name) (below : Ground stack) :
      Flat stack slot
  | popping (start : UInt64) (slot : Option Name) : Flat [.doPop start] slot
  | pushing (frame : Frame Thread Name Job) (slot : Option Name) (push : inPush frame = true) :
      Flat [frame] slot
  | executing (frame : Frame Thread Name Job) (stack : List (Frame Thread Name Job))
      (slot : Option Name) (active : activation frame = true) (below : Ground stack)
      (set : current frame = true → slot ≠ none) :
      Flat (frame :: stack) slot
  | recursing (frame job : Frame Thread Name Job) (stack : List (Frame Thread Name Job))
      (slot : Option Name) (push : inPush frame = true) (runs : executesJob job = true)
      (below : Ground stack) (set : slot ≠ none) :
      Flat (frame :: job :: stack) slot

theorem runs_active (frame : Frame Thread Name Job) (runs : executesJob frame = true) :
    activation frame = true ∧ current frame = true := by
  cases frame <;> simp [executesJob, activation, current] at *

theorem push_inactive (frame : Frame Thread Name Job) (push : inPush frame = true) :
    activation frame = false ∧ executesJob frame = false := by
  cases frame <;> simp [inPush, activation, executesJob] at *

theorem flat_call_push (stack : List (Frame Thread Name Job)) (slot : Option Name) (name : Name)
    (entry : Option (Entry Thread Job)) (flat : Flat stack slot)
    (free : JobSerializer.mayCall stack = true) :
    Flat (.pushAdd name entry :: stack) slot := by
  cases flat with
  | ground _ _ below =>
      cases below with
      | empty => exact .pushing _ slot rfl
      | doJobs start => cases free
  | popping start => cases free
  | pushing frame _ push => cases frame <;> simp [inPush, JobSerializer.mayCall] at push free
  | executing frame below _ active ground set =>
      have runs : executesJob frame = true := by
        cases frame <;> simp [JobSerializer.mayCall, executesJob] at free ⊢
      exact .recursing _ frame below slot rfl runs ground (set (runs_active frame runs).2)
  | recursing frame job below _ push =>
      cases frame <;> simp [inPush, JobSerializer.mayCall] at push free

theorem flat_outside (stack : List (Frame Thread Name Job))
    (free : JobSerializer.mayCall stack = true)
    (outside : ∀ frame ∈ stack, executesJob frame = false) : stack = [] := by
  cases stack with
  | nil => rfl
  | cons frame below =>
      have idle := outside frame List.mem_cons_self
      cases frame <;> simp [JobSerializer.mayCall, executesJob] at free idle

theorem flat_push_next (frame next : Frame Thread Name Job) (below : List (Frame Thread Name Job))
    (slot : Option Name) (push : inPush frame = true) (still : inPush next = true)
    (flat : Flat (frame :: below) slot) : Flat (next :: below) slot := by
  cases flat with
  | ground _ _ ground => cases ground; cases push
  | popping start => cases push
  | pushing _ _ _ => exact .pushing next slot still
  | executing _ _ _ active ground set =>
      rw [(push_inactive frame push).1] at active
      cases active
  | recursing _ job stack _ _ runs ground set =>
      exact .recursing next job stack slot still runs ground set

theorem flat_push_return (frame : Frame Thread Name Job) (below : List (Frame Thread Name Job))
    (slot : Option Name) (push : inPush frame = true) (flat : Flat (frame :: below) slot) :
    Flat below slot := by
  cases flat with
  | ground _ _ ground => cases ground; cases push
  | popping start => cases push
  | pushing _ _ _ => exact .ground [] slot .empty
  | executing _ _ _ active ground set =>
      rw [(push_inactive frame push).1] at active
      cases active
  | recursing _ job stack _ _ runs ground set =>
      exact .executing job stack slot (runs_active job runs).1 ground fun _ => set

/-- `Push` goes on to `ExecuteJobs` with the slot empty, so it was not called from a job. -/
theorem flat_push_execute (frame : Frame Thread Name Job) (below : List (Frame Thread Name Job))
    (name : Name) (push : inPush frame = true) (flat : Flat (frame :: below) none) :
    Flat (.execEnter name :: below) none := by
  cases flat with
  | ground _ _ ground => cases ground; cases push
  | popping start => cases push
  | pushing _ _ _ => exact .executing _ [] none rfl .empty fun set => by cases set
  | executing _ _ _ active ground set =>
      rw [(push_inactive frame push).1] at active
      cases active
  | recursing _ job stack _ _ runs ground set => exact absurd rfl set

theorem flat_active (frame : Frame Thread Name Job) (below : List (Frame Thread Name Job))
    (slot : Option Name) (active : activation frame = true) (flat : Flat (frame :: below) slot) :
    Ground below ∧ (current frame = true → slot ≠ none) := by
  cases flat with
  | ground _ _ ground => cases ground; cases active
  | popping start => cases active
  | pushing _ _ push =>
      rw [(push_inactive frame push).1] at active
      cases active
  | executing _ _ _ _ ground set => exact ⟨ground, set⟩
  | recursing _ job stack _ push runs ground set =>
      rw [(push_inactive frame push).1] at active
      cases active

theorem flat_bottom (frame : Frame Thread Name Job) (below : List (Frame Thread Name Job))
    (slot : Option Name) (inactive : activation frame = false) (outside : inPush frame = false)
    (flat : Flat (frame :: below) slot) :
    below = [] := by
  cases flat with
  | ground _ _ ground => cases ground; rfl
  | popping start => rfl
  | pushing _ _ push => rfl
  | executing _ _ _ active ground set =>
      rw [inactive] at active
      cases active
  | recursing _ job stack _ push runs ground set =>
      rw [outside] at push
      cases push

theorem flat_bounds (stack : List (Frame Thread Name Job)) (slot : Option Name)
    (flat : Flat stack slot) :
    stack.countP activation ≤ 1 ∧ (∀ frame ∈ stack, executesJob frame = true → slot ≠ none) ∧
      stack.length ≤ 3 := by
  have bottom : ∀ start, activation (.doLoop start : Frame Thread Name Job) = false := fun _ => rfl
  cases flat with
  | ground _ _ below => cases below <;> simp [activation, executesJob]
  | popping start _ => simp [activation, executesJob]
  | pushing frame _ push =>
      obtain ⟨inactive, idle⟩ := push_inactive frame push
      simp [inactive, idle]
  | executing frame below _ active ground set =>
      cases ground with
      | empty =>
          refine ⟨by simp [active], ?_, by simp⟩
          simp only [List.mem_singleton, forall_eq]
          exact fun runs => set (runs_active frame runs).2
      | doJobs start =>
          refine ⟨by simp [active, bottom], ?_, by simp⟩
          simp only [List.mem_cons, List.not_mem_nil, or_false, forall_eq_or_imp, forall_eq]
          exact ⟨fun runs => set (runs_active frame runs).2, fun runs => by cases runs⟩
  | recursing frame job below _ push runs ground set =>
      obtain ⟨inactive, -⟩ := push_inactive frame push
      obtain ⟨active, -⟩ := runs_active job runs
      cases ground with
      | empty => exact ⟨by simp [inactive, active], fun _ _ _ => set, by simp⟩
      | doJobs start => exact ⟨by simp [inactive, active, bottom], fun _ _ _ => set, by simp⟩

variable {executionTick : Handle → UInt64}
variable {queue : Implementation.{v, y} Handle (ReservedJobs.reservableJobCompare executionTick)}

/-- The stack of a thread is flat, and the part of it from which a check in progress was called
is one from which a thread may call. -/
structure Level (system : JobSystem.System queue Thread Name Job) (thread : Thread) : Prop where
  flat : Flat (system.core.stack thread) (system.core.current thread)
  check : system.worker.phase thread ≠ .idle →
    system.depth thread ≤ (system.core.stack thread).length ∧
    JobSerializer.mayCall ((system.core.stack thread).drop
      ((system.core.stack thread).length - system.depth thread)) = true

theorem level_same (before after : JobSystem.System queue Thread Name Job) (thread : Thread)
    (level : Level before thread) (stack : after.core.stack thread = before.core.stack thread)
    (slot : after.core.current thread = before.core.current thread)
    (depth : after.depth thread = before.depth thread)
    (phase : after.worker.phase thread ≠ .idle → before.worker.phase thread ≠ .idle) :
    Level after thread where
  flat := by
    rw [stack, slot]
    exact level.flat
  check busy := by
    rw [stack, depth]
    exact level.check (phase busy)

theorem drop_above (above below : List (Frame Thread Name Job)) (depth : Nat)
    (fits : depth ≤ below.length) :
    (above ++ below).drop ((above ++ below).length - depth) =
      below.drop (below.length - depth) := by
  have split : (above ++ below).length - depth = above.length + (below.length - depth) := by
    rw [List.length_append]
    omega
  rw [split, List.drop_length_add_append]

theorem unchecked_deep (system : JobSystem.System queue Thread Name Job) (thread : Thread)
    (frame : Frame Thread Name (JobSystem.Work Handle Job))
    (below : List (Frame Thread Name (JobSystem.Work Handle Job))) (level : Level system thread)
    (free : JobSystem.checking system thread = false)
    (stands : system.core.stack thread = frame :: below)
    (busy : system.worker.phase thread ≠ .idle) : system.depth thread ≤ below.length := by
  have deep := (level.check busy).1
  have apart : (system.core.stack thread).length ≠ system.depth thread := by
    intro same
    unfold JobSystem.checking at free
    cases stands : system.worker.phase thread <;> simp [stands, same] at free busy
  rw [stands, List.length_cons] at deep apart
  omega

variable [DecidableEq Thread]

/-- What one step of the top frame does: the frames below it stay, and so do the other threads. -/
structure Turned (before : JobSerializer.System Thread Name Job) (thread : Thread)
    (below : List (Frame Thread Name Job)) (after : JobSerializer.System Thread Name Job) :
    Prop where
  flat : Flat (after.stack thread) (after.current thread)
  kept : ∃ above, after.stack thread = above ++ below
  others : ∀ other, other ≠ thread → after.stack other = before.stack other
  slots : ∀ other, other ≠ thread → after.current other = before.current other

theorem turned_replace (before after : JobSerializer.System Thread Name Job) (thread : Thread)
    (below above : List (Frame Thread Name Job)) (slot : Option Name)
    (stack : after.stack = Function.update before.stack thread (above ++ below))
    (slots : after.current = Function.update before.current thread slot)
    (flat : Flat (above ++ below) slot) : Turned before thread below after where
  flat := by
    rw [stack, slots, Function.update_self, Function.update_self]
    exact flat
  kept := ⟨above, by rw [stack, Function.update_self]⟩
  others other different := by rw [stack, Function.update_of_ne different]
  slots other different := by rw [slots, Function.update_of_ne different]

theorem turned_stack (before after : JobSerializer.System Thread Name Job) (thread : Thread)
    (below above : List (Frame Thread Name Job))
    (stack : after.stack = Function.update before.stack thread (above ++ below))
    (slots : after.current = before.current)
    (flat : Flat (above ++ below) (before.current thread)) :
    Turned before thread below after :=
  turned_replace before after thread below above _ stack
    (by rw [slots, Function.update_eq_self]) flat

theorem turned_active (before after : JobSerializer.System Thread Name Job) (thread : Thread)
    (frame next : Frame Thread Name Job) (below : List (Frame Thread Name Job))
    (flat : Flat (frame :: below) (before.current thread)) (active : activation frame = true)
    (goes : activation next = true) (still : current next = true → current frame = true)
    (stack : after.stack = Function.update before.stack thread (next :: below))
    (slots : after.current = before.current) : Turned before thread below after := by
  obtain ⟨ground, set⟩ := flat_active frame below _ active flat
  have moved : Flat (next :: below) (before.current thread) :=
    .executing next below _ goes ground fun running => set (still running)
  exact turned_stack before after thread below [next] stack slots moved

theorem turned_level (before : JobSystem.System queue Thread Name Job)
    (core : JobSerializer.System Thread Name (JobSystem.Work Handle Job)) (thread : Thread)
    (top below : List (Frame Thread Name (JobSystem.Work Handle Job)))
    (levels : ∀ other, Level before other) (stands : before.core.stack thread = top ++ below)
    (turned : Turned before.core thread below core)
    (deep : before.worker.phase thread ≠ .idle → before.depth thread ≤ below.length)
    (other : Thread) :
    Level { before with core := core } other := by
  by_cases mine : other = thread
  · subst other
    refine ⟨turned.flat, ?_⟩
    intro busy
    obtain ⟨above, stack⟩ := turned.kept
    have fits := deep busy
    have checked := (levels thread).check busy
    rw [stands, drop_above top below _ fits] at checked
    simp only [stack, drop_above above below _ fits]
    refine ⟨?_, checked.2⟩
    rw [List.length_append]
    omega
  · exact level_same before _ other (levels other) (turned.others other mine)
      (turned.slots other mine) rfl id

variable [DecidableEq Name]

section Frames
variable (system after : JobSerializer.System Thread Name Job) (thread : Thread) (tick : UInt64)
  (below : List (Frame Thread Name Job))

theorem push_test_turned (name : Name) (prevCount : BitVec 32)
    (flat : Flat (.pushTest name prevCount :: below) (system.current thread))
    (taken : advanceFrame system thread tick below (.pushTest name prevCount) = some after) :
    Turned system thread below after := by
  have back := flat_push_return _ below _ rfl flat
  simp only [advanceFrame] at taken
  split at taken
  · cases slot : system.current thread with
    | none =>
        simp only [slot, Option.some.injEq] at taken
        subst taken
        rw [slot] at flat
        refine turned_stack system _ thread below [_] rfl rfl ?_
        rw [slot]
        exact flat_push_execute _ below name rfl flat
    | some other =>
        simp only [slot, Option.some.injEq] at taken
        subst taken
        exact turned_stack system _ thread below [] rfl rfl back
  · simp only [Option.some.injEq] at taken
    subst taken
    exact turned_stack system _ thread below [] rfl rfl back

theorem exec_enter_turned (name : Name)
    (flat : Flat (.execEnter name :: below) (system.current thread))
    (taken : advanceFrame system thread tick below (.execEnter name) = some after) :
    Turned system thread below after := by
  obtain ⟨ground, -⟩ := flat_active _ below _ rfl flat
  simp only [advanceFrame, Option.some.injEq] at taken
  subst taken
  exact turned_replace system _ thread below [_] (some name) rfl rfl
    (.executing _ below _ rfl ground fun _ none => by cases none)

theorem exec_loop_turned (name : Name) (startTick : UInt64) (currentCount : Nat)
    (rest : List (Entry Thread Job))
    (flat : Flat (.execLoop name startTick currentCount rest :: below) (system.current thread))
    (taken : advanceFrame system thread tick below (.execLoop name startTick currentCount rest) =
      some after) :
    Turned system thread below after := by
  cases rest with
  | nil =>
      simp only [advanceFrame, Option.some.injEq] at taken
      subst taken
      split
      · exact turned_active system _ thread _ _ below flat rfl rfl (fun _ => rfl) rfl rfl
      · exact turned_active system _ thread _ _ below flat rfl rfl (fun _ => rfl) rfl rfl
  | cons entry rest =>
      simp only [advanceFrame, Option.some.injEq] at taken
      subst taken
      exact turned_active system _ thread _ _ below flat rfl rfl (fun _ => rfl) rfl rfl

theorem exec_clock_turned (name : Name) (startTick : UInt64)
    (flat : Flat (.execClock name startTick :: below) (system.current thread))
    (taken : advanceFrame system thread tick below (.execClock name startTick) = some after) :
    Turned system thread below after := by
  obtain ⟨ground, -⟩ := flat_active _ below _ rfl flat
  simp only [advanceFrame] at taken
  split at taken
  · simp only [Option.some.injEq] at taken
    subst taken
    exact turned_replace system _ thread below [_] none rfl rfl
      (.executing _ below _ rfl ground fun set => by cases set)
  · simp only [Option.some.injEq] at taken
    subst taken
    exact turned_active system _ thread _ _ below flat rfl rfl (fun _ => rfl) rfl rfl

theorem exec_leave_turned (flat : Flat (.execLeave :: below) (system.current thread))
    (taken : advanceFrame system thread tick below .execLeave = some after) :
    Turned system thread below after := by
  obtain ⟨ground, -⟩ := flat_active _ below _ rfl flat
  simp only [advanceFrame, Option.some.injEq] at taken
  subst taken
  exact turned_replace system _ thread below [] none rfl rfl (.ground below none ground)

theorem do_loop_turned (start : UInt64)
    (flat : Flat (.doLoop start :: below) (system.current thread))
    (taken : advanceFrame system thread tick below (.doLoop start) = some after) :
    Turned system thread below after := by
  have bottom := flat_bottom _ below _ rfl rfl flat
  subst bottom
  simp only [advanceFrame] at taken
  split at taken
  · simp only [Option.some.injEq] at taken
    subst taken
    exact turned_stack system _ thread [] [] rfl rfl (.ground [] _ .empty)
  · simp only [Option.some.injEq] at taken
    subst taken
    exact turned_stack system _ thread [] [_] rfl rfl (.popping start _)

theorem do_pop_turned (start : UInt64)
    (flat : Flat (.doPop start :: below) (system.current thread))
    (taken : advanceFrame system thread tick below (.doPop start) = some after) :
    Turned system thread below after := by
  have bottom := flat_bottom _ below _ rfl rfl flat
  subst bottom
  simp only [advanceFrame] at taken
  split at taken
  · simp only [Option.some.injEq] at taken
    subst taken
    exact turned_stack system _ thread [] [] rfl rfl (.ground [] _ .empty)
  · simp only [Option.some.injEq] at taken
    subst taken
    exact turned_stack system _ thread [] [_, _] rfl rfl
      (.executing _ _ _ rfl (.doJobs start) fun set => by cases set)

end Frames

theorem advance_turned (system after : JobSerializer.System Thread Name Job) (thread : Thread)
    (tick : UInt64) (frame : Frame Thread Name Job) (below : List (Frame Thread Name Job))
    (flat : Flat (frame :: below) (system.current thread))
    (taken : advanceFrame system thread tick below frame = some after) :
    Turned system thread below after := by
  cases frame with
  | pushAdd name entry =>
      simp only [advanceFrame, Option.some.injEq] at taken
      subst taken
      exact turned_stack system _ thread below [_] rfl rfl (flat_push_next _ _ below _ rfl rfl flat)
  | pushQueue name entry prevCount =>
      simp only [advanceFrame, Option.some.injEq] at taken
      subst taken
      exact turned_stack system _ thread below [_] rfl rfl (flat_push_next _ _ below _ rfl rfl flat)
  | pushTest name prevCount =>
      exact push_test_turned system after thread tick below name prevCount flat taken
  | execEnter name => exact exec_enter_turned system after thread tick below name flat taken
  | execDrain name startTick =>
      simp only [advanceFrame, Option.some.injEq] at taken
      subst taken
      exact turned_active system _ thread _ _ below flat rfl rfl (fun _ => rfl) rfl rfl
  | execLoop name startTick currentCount rest =>
      exact exec_loop_turned system after thread tick below name startTick currentCount rest flat
        taken
  | running name startTick currentCount entry rest => cases taken
  | execClock name startTick =>
      exact exec_clock_turned system after thread tick below name startTick flat taken
  | execHandOver name =>
      simp only [advanceFrame, Option.some.injEq] at taken
      subst taken
      exact turned_active system _ thread _ _ below flat rfl rfl
        (fun running => by cases running) rfl rfl
  | execLeave => exact exec_leave_turned system after thread tick below flat taken
  | doLoop start => exact do_loop_turned system after thread tick below start flat taken
  | doPop start => exact do_pop_turned system after thread tick below start flat taken

/-- Jobs call neither `DoJobs` nor `ExecuteJobs`. -/
def fromOutside :
    Condition (JobSystem.System queue Thread Name Job) (JobSystem.Label Thread Handle Name Job) :=
  fun before label _ => ∀ thread,
    ((∃ tick, label = .doJobs thread tick) ∨ ∃ name, label = .executeJobs thread name) →
    ∀ frame ∈ before.core.stack thread, executesJob frame = false

inductive Own (before : JobSerializer.System Thread Name Job) (thread : Thread) :
    JobSerializer.Label Thread Name Job → Prop where
  | push (name : Name) (job : Option Job) : Own before thread (.push thread name job)
  | doJobs (tick : UInt64) (outside : ∀ frame ∈ before.stack thread, executesJob frame = false) :
      Own before thread (.doJobs thread tick)
  | finish : Own before thread (.finish thread)
  | advance (tick : UInt64) : Own before thread (.advance thread tick)

theorem called_turned (system : JobSerializer.System Thread Name Job) (thread : Thread)
    (name : Name) (job : Option Job) (flat : Flat (system.stack thread) (system.current thread))
    (free : JobSerializer.mayCall (system.stack thread) = true) :
    Turned system thread (system.stack thread) (callPush system thread name job) :=
  turned_stack system _ thread _ [_] rfl rfl (flat_call_push _ _ name _ flat free)

theorem core_level (before after : JobSystem.System queue Thread Name Job) (thread : Thread)
    (inner : JobSerializer.Label Thread Name (JobSystem.Work Handle Job))
    (levels : ∀ other, Level before other)
    (taken : JobSystem.coreStep before thread inner = some after)
    (own : Own before.core thread inner) (other : Thread) : Level after other := by
  unfold JobSystem.coreStep at taken
  split at taken
  case isTrue => cases taken
  case isFalse running =>
    have free : JobSystem.checking before thread = false := by simpa using running
    obtain ⟨core, stepped, rfl⟩ := Option.map_eq_some_iff.mp taken
    cases own with
    | push name job =>
        simp only [JobSerializer.step, Option.ite_none_right_eq_some, Option.some.injEq] at stepped
        obtain ⟨may, rfl⟩ := stepped
        exact turned_level before _ thread [] _ levels rfl
          (called_turned before.core thread name job (levels thread).flat may)
          (fun busy => ((levels thread).check busy).1) other
    | doJobs tick outside =>
        simp only [JobSerializer.step, Option.ite_none_right_eq_some, Option.some.injEq] at stepped
        obtain ⟨may, rfl⟩ := stepped
        have empty := flat_outside _ may outside
        refine turned_level before _ thread [] (before.core.stack thread) levels rfl ?_
          (fun busy => ((levels thread).check busy).1) other
        refine turned_stack before.core _ thread _ [.doLoop tick] rfl rfl ?_
        rw [empty]
        exact .ground _ _ (.doJobs tick)
    | finish =>
        simp only [JobSerializer.step] at stepped
        split at stepped
        case h_1 name startTick currentCount entry rest below stands =>
          simp only [Option.some.injEq] at stepped
          subst stepped
          have flat := (levels thread).flat
          rw [stands] at flat
          refine turned_level before _ thread [_] below levels stands ?_
            (unchecked_deep before thread _ below (levels thread) free stands) other
          exact turned_active before.core _ thread _ (.execLoop name startTick currentCount rest)
            below flat rfl rfl (fun _ => rfl) rfl rfl
        case h_2 => cases stepped
    | advance tick =>
        simp only [JobSerializer.step] at stepped
        split at stepped
        case h_1 => cases stepped
        case h_2 frame below stands =>
          have flat := (levels thread).flat
          rw [stands] at flat
          exact turned_level before core thread [frame] below levels stands
            (advance_turned before.core core thread tick frame below flat stepped)
            (unchecked_deep before thread frame below (levels thread) free stands) other

variable [DecidableEq Handle]

theorem worker_phase_elsewhere (before after : ReservedJobs.System queue Thread) (thread : Thread)
    (alive : Bool) (taken : ReservedJobs.advance before thread alive = some after) (other : Thread)
    (different : other ≠ thread) :
    after.phase other = before.phase other := by
  have move := ReservationOrder.step_move before after (.advance thread alive) taken
  cases move <;> simp [ReservedJobs.enter, different]

theorem check_level (owner : Handle → Name) (before after : JobSystem.System queue Thread Name Job)
    (thread : Thread) (alive : Bool) (levels : ∀ other, Level before other)
    (taken : JobSystem.advanceCheck owner before thread alive = some after) (other : Thread) :
    Level after other := by
  unfold JobSystem.advanceCheck at taken
  split at taken
  case isFalse => cases taken
  case isTrue checks =>
    obtain ⟨worker, moved, rfl⟩ := Option.map_eq_some_iff.mp taken
    have busy : before.worker.phase thread ≠ .idle := by
      intro idle
      simp [JobSystem.checking, idle] at checks
    have here : (before.core.stack thread).length = before.depth thread := by
      unfold JobSystem.checking at checks
      cases stands : before.worker.phase thread <;> simp [stands] at checks busy <;> exact checks
    have kept : ∀ other, worker.phase other ≠ .idle → before.worker.phase other ≠ .idle := by
      intro other still
      by_cases mine : other = thread
      · exact mine ▸ busy
      · rwa [worker_phase_elsewhere before.worker worker thread alive moved other mine] at still
    split
    case h_1 now handle rest stands =>
      have may := ((levels thread).check busy).2
      rw [here, Nat.sub_self, List.drop_zero] at may
      have level := turned_level before _ thread [] _ levels rfl
        (called_turned before.core thread (owner handle) (some (.reserved handle))
          (levels thread).flat may)
        (fun _ => here.ge) other
      exact level_same _ _ other level rfl rfl rfl (kept other)
    case h_2 => exact level_same before _ other (levels other) rfl rfl rfl (kept other)

omit [DecidableEq Name] [DecidableEq Handle] in
theorem begin_check_level (before : JobSystem.System queue Thread Name Job) (thread : Thread)
    (now : UInt64) (levels : ∀ other, Level before other)
    (may : JobSystem.mayCall before thread = true) (other : Thread) :
    Level { before with
      worker := ReservedJobs.checkReservedJob before.worker thread now
      depth := if before.worker.executing then before.depth
        else Function.update before.depth thread (before.core.stack thread).length } other := by
  unfold ReservedJobs.checkReservedJob
  split
  · exact levels other
  · by_cases mine : other = thread
    · subst other
      refine ⟨(levels thread).flat, fun _ => ?_⟩
      simp only [JobSystem.mayCall, Bool.and_eq_true] at may
      simp [may.1]
    · exact level_same before _ other (levels other) rfl rfl (by simp [mine])
        (by simp [ReservedJobs.enter, mine])

theorem step_level (owner : Handle → Name) (before after : JobSystem.System queue Thread Name Job)
    (label : JobSystem.Label Thread Handle Name Job) (levels : ∀ thread, Level before thread)
    (taken : JobSystem.step owner before label = some after)
    (allowed : fromOutside before label after) (thread : Thread) : Level after thread := by
  cases label with
  | push actor name job => exact core_level before after actor _ levels taken (.push name _) thread
  | doJobs actor tick =>
      exact core_level before after actor _ levels taken
        (.doJobs tick (allowed actor (Or.inl ⟨tick, rfl⟩))) thread
  | finish actor => exact core_level before after actor _ levels taken .finish thread
  | advance actor tick => exact core_level before after actor _ levels taken (.advance tick) thread
  | setMaxTick actor value =>
      simp only [JobSystem.step, JobSystem.coreStep, JobSerializer.step, Option.map_some,
        Option.ite_none_left_eq_some, Option.some.injEq] at taken
      obtain ⟨-, rfl⟩ := taken
      exact level_same before _ thread (levels thread) rfl rfl rfl id
  | executeJobs actor name =>
      simp only [JobSystem.step, Option.ite_none_right_eq_some, Option.some.injEq,
        JobSystem.mayCall, Bool.and_eq_true] at taken
      obtain ⟨⟨may, -⟩, rfl⟩ := taken
      have empty := flat_outside _ may (allowed actor (Or.inr ⟨name, rfl⟩))
      refine turned_level before _ actor [] (before.core.stack actor) levels rfl ?_
        (fun busy => ((levels actor).check busy).1) thread
      refine turned_stack before.core _ actor _ [.execEnter name] rfl rfl ?_
      rw [empty]
      exact .executing _ [] _ rfl .empty fun set => by cases set
  | addJobSerializer name =>
      simp only [JobSystem.step, Option.some.injEq] at taken
      subst taken
      exact level_same before _ thread (levels thread) rfl rfl rfl id
  | clearJobs =>
      simp only [JobSystem.step, Option.some.injEq] at taken
      subst taken
      exact level_same before _ thread (levels thread) rfl rfl rfl id
  | addReservableJob handle =>
      simp only [JobSystem.step, Option.some.injEq] at taken
      subst taken
      exact level_same before _ thread (levels thread) rfl rfl rfl id
  | cancel handle =>
      simp only [JobSystem.step, Option.some.injEq] at taken
      subst taken
      exact level_same before _ thread (levels thread) rfl rfl rfl id
  | checkReservedJob actor now =>
      simp only [JobSystem.step, Option.ite_none_right_eq_some, Option.some.injEq] at taken
      obtain ⟨may, rfl⟩ := taken
      exact begin_check_level before actor now levels may thread
  | advanceCheck actor alive => exact check_level owner before after actor alive levels taken thread
  | clearReservedJobs =>
      obtain ⟨worker, emptied, rfl⟩ := Option.map_eq_some_iff.mp taken
      obtain ⟨final, -, rfl⟩ := Option.map_eq_some_iff.mp emptied
      exact level_same before _ thread (levels thread) rfl rfl rfl id

/-- `ExecuteJobs` is on the stack of a thread at most once, the slot is set while a job runs, and
the stack has at most three frames however deep the jobs create jobs. -/
theorem execution_never_nests (owner : Handle → Name)
    (system : JobSystem.System queue Thread Name Job)
    (reached : Reachable (JobSystem.step owner) fromOutside (JobSystem.System.start queue) system)
    (thread : Thread) :
    (system.core.stack thread).countP activation ≤ 1 ∧
    (∀ frame ∈ system.core.stack thread, executesJob frame = true →
      system.core.current thread ≠ none) ∧
    (system.core.stack thread).length ≤ 3 := by
  have levels := reachable_invariant (JobSystem.step owner) fromOutside
    (fun system => ∀ thread, Level system thread) (JobSystem.System.start queue)
    (fun _ => ⟨.ground [] none .empty, fun busy => absurd rfl busy⟩)
    (fun before label after holds taken allowed =>
      step_level owner before after label holds taken allowed)
    system reached
  exact flat_bounds _ _ (levels thread).flat

/-- Jobs are numbers, serializers `true` and `false`; reserved jobs are named by their ticks. -/
abbrev Pair := JobSystem.System ReservationOrder.leastTick Unit Bool Nat

def pairStep : Step Pair (JobSystem.Label Unit Nat Bool Nat) := JobSystem.step fun _ => false

def outsideStep (before : Pair) (label : JobSystem.Label Unit Nat Bool Nat) (_ : Pair) : Bool :=
  match label with
  | .doJobs _ _ | .executeJobs _ _ => (before.core.stack ()).all fun frame => !executesJob frame
  | _ => true

theorem outside_step_sound (before : Pair) (label : JobSystem.Label Unit Nat Bool Nat)
    (after : Pair) (checked : outsideStep before label after = true) :
    fromOutside before label after := by
  rintro thread (⟨tick, rfl⟩ | ⟨name, rfl⟩) frame member
  · have idle := List.all_eq_true.mp checked frame member
    simpa using idle
  · have idle := List.all_eq_true.mp checked frame member
    simpa using idle

/-- A job pushes to the other serializer, and `Push` has come as far as its test. -/
theorem execution_never_nests_recursive :
    ∃ system : Pair, Reachable pairStep fromOutside (JobSystem.System.start _) system ∧
      (system.core.stack ()).length = 2 ∧ (system.core.stack ()).countP activation ≤ 1 := by
  obtain ⟨system, reached, seen⟩ :=
    replay_reachable pairStep fromOutside outsideStep outside_step_sound
    (fun system : Pair => (system.core.stack ()).length) 2
    [.push () true (some 1), .advance () 0, .advance () 0, .advance () 0, .advance () 0,
     .advance () 0, .advance () 0, .push () false (some 2), .advance () 0, .advance () 0]
    (JobSystem.System.start _) (by decide)
  exact ⟨system, reached, seen, (execution_never_nests (fun _ => false) system reached ()).1⟩

end NetCore.ExecutionNesting
