import NetCore.SendQuiescence

/-! The three ways out of `_register_send`. A session that is not connected returns before
`_sending` is cleared, so every later `_send` finds the flag set and only queues; a `WSASend`
that fails at once is logged, and the segments are dropped as after a success. Where the
session is connected and no call fails, the pipeline is that of a session connected from the
start, and what was proved of that one carries over. -/
namespace NetCore.SendFailures
open TransitionRuns PacketFraming SegmentedReceive SendPipeline SendConservation SendQuiescence

variable {Thread : Type} [DecidableEq Thread]

def failed : WsaResult → Bool
  | .failed _ => true
  | _ => false

def runAlone (thread : Thread) (result : WsaResult) : Nat → System Thread → Option (System Thread)
  | 0, system => if system.phase thread = .idle then some system else none
  | fuel + 1, system =>
      if system.phase thread = .idle then some system
      else (advance system thread 0 result).bind (runAlone thread result fuel)

def registerSend (system : System Thread) (thread : Thread) (result : WsaResult) :
    Option (System Thread) :=
  runAlone thread result 5 system

def send (system : System Thread) (thread : Thread) (buffers : List Wsabuf) (result : WsaResult) :
    Option (System Thread) :=
  (step system (.sendList thread buffers)).bind (runAlone thread result 6)

def outgoing (system : System Thread) : List Queued :=
  system.segments ++ system.sendQueue

theorem register_send_connected (system : System Thread) (thread : Thread) (result : WsaResult)
    (stands : system.phase thread = .registering) (connected : system.connected = true) :
    registerSend system thread result = some
      { enter system thread .idle with
        sendQueue := []
        segments := []
        submitted := false
        sending := false
        calls := system.calls ++ [⟨outgoing system, result⟩] } := by
  simp [registerSend, runAlone, advance, stands, connected, enter, submit, outgoing]

/-- The early return: the flag stays as it is. -/
theorem register_send_refused (system : System Thread) (thread : Thread) (result : WsaResult)
    (stands : system.phase thread = .registering) (refused : system.connected = false) :
    registerSend system thread result = some (enter system thread .idle) := by
  simp [registerSend, runAlone, advance, stands, refused, enter, disconnectBy]

/-- The flag is clear again, and what was to be sent is in a call that did not fail, is still
queued, or belongs to a session whose teardown has been started. -/
def Contained (before : System Thread) (result : WsaResult) (after : System Thread) : Prop :=
  after.sending = false ∧
    ((failed result = false ∧ after.calls = before.calls ++ [⟨outgoing before, result⟩]) ∨
      outgoing before <+: after.sendQueue ∨ after.disconnects ≠ [])

theorem register_send_contained_iff (system : System Thread) (thread : Thread) (result : WsaResult)
    (stands : system.phase thread = .registering) (sending : system.sending = true) :
    ∃ after, registerSend system thread result = some after ∧ after.phase thread = .idle ∧
      (Contained system result after ↔
        system.connected = true ∧
          (failed result = false ∨ outgoing system = [] ∨ system.disconnects ≠ [])) := by
  cases connected : system.connected with
  | true =>
      refine ⟨_, register_send_connected system thread result stands connected, ?_, ?_⟩
      · simp [enter]
      · simp [Contained, enter]
  | false =>
      refine ⟨_, register_send_refused system thread result stands connected, ?_, ?_⟩
      · simp [enter]
      · simp [Contained, enter, sending]

/-! Runs. -/

/-- `_register_send` finds the session connected, and a `WSASend` that carries buffers does not
fail before the teardown has been started. A completed `DisconnectEx` was registered before. -/
structure Prepared (before : System Thread) (label : Label Thread) (after : System Thread) :
    Prop where
  connected : ∀ thread tick result, label = .advance thread tick result →
    before.phase thread = .registering → before.connected = true
  answered : ∀ thread tick error, label = .advance thread tick (.failed error) →
    before.phase thread = .submitting → before.segments = [] ∨ before.disconnects ≠ []
  registered : label = .processDisconnect → before.disconnects ≠ []

def prepared : Condition (System Thread) (Label Thread) := Prepared

structure Recorded (before : System Thread) (label : Label Thread) (after : System Thread) :
    Prop where
  refused : ∀ thread, after.phase thread = .refused → before.phase thread = .refused ∨
    (before.connected = false ∧ before.phase thread = .registering ∧
      ∃ tick result, label = .advance thread tick result)
  disconnects : before.disconnects <+: after.disconnects
  calls : after.calls = before.calls ∨ ∃ thread tick result, label = .advance thread tick result ∧
    before.phase thread = .submitting ∧ after.calls = before.calls ++ [⟨before.segments, result⟩]

omit [DecidableEq Thread] in
theorem outside_recorded (before after : System Thread) (label : Label Thread)
    (phases : after.phase = before.phase) (disconnects : before.disconnects <+: after.disconnects)
    (calls : after.calls = before.calls) : Recorded before label after where
  refused thread refuses := by
    rw [phases] at refuses
    exact Or.inl refuses
  disconnects := disconnects
  calls := Or.inl calls

theorem entered_recorded (before after : System Thread) (label : Label Thread) (thread : Thread)
    (phase : Phase) (phases : after.phase = Function.update before.phase thread phase)
    (unrefused : phase ≠ .refused) (disconnects : before.disconnects <+: after.disconnects)
    (calls : after.calls = before.calls) :
    Recorded before label after where
  refused other refuses := by
    by_cases mine : other = thread
    · rw [phases, mine, Function.update_self] at refuses
      exact absurd refuses unrefused
    · rw [phases, Function.update_of_ne mine] at refuses
      exact Or.inl refuses
  disconnects := disconnects
  calls := Or.inl calls

omit [DecidableEq Thread] in
theorem disconnect_by_grows (error : DisconnectError) (system : System Thread) :
    system.disconnects <+: (disconnectBy error system).disconnects := by
  unfold disconnectBy
  split
  · exact List.prefix_append _ _
  · exact List.prefix_refl _

omit [DecidableEq Thread] in
@[simp] theorem disconnect_by_phase (error : DisconnectError) (system : System Thread) :
    (disconnectBy error system).phase = system.phase := by
  unfold disconnectBy
  split <;> rfl

omit [DecidableEq Thread] in
@[simp] theorem disconnect_by_calls (error : DisconnectError) (system : System Thread) :
    (disconnectBy error system).calls = system.calls := by
  unfold disconnectBy
  split <;> rfl

theorem advance_recorded (before after : System Thread) (thread : Thread) (tick : UInt64)
    (result : WsaResult) (taken : advance before thread tick result = some after) :
    Recorded before (.advance thread tick result) after := by
  unfold advance at taken
  cases stands : before.phase thread with
  | idle => simp [stands] at taken
  | flushBytes =>
      simp only [stands, Option.some.injEq] at taken
      subst taken
      exact entered_recorded before _ _ thread _ rfl (by split <;> simp) (List.prefix_refl _) rfl
  | flushLock =>
      simp only [stands, Option.some.injEq, flushReserved] at taken
      subst taken
      split
      · exact entered_recorded before _ _ thread _ rfl (by simp) (List.prefix_refl _) rfl
      · exact entered_recorded before _ _ thread _ rfl (by simp) (List.prefix_refl _) rfl
  | sendEntry buffers =>
      cases buffers with
      | nil =>
          simp only [stands, Option.some.injEq] at taken
          subst taken
          exact entered_recorded before _ _ thread _ rfl (by simp) (List.prefix_refl _) rfl
      | cons first rest =>
          simp only [stands, Option.some.injEq] at taken
          subst taken
          exact entered_recorded before _ _ thread _ rfl (by split <;> simp)
            (List.prefix_refl _) rfl
  | registering =>
      simp only [stands, Option.some.injEq] at taken
      subst taken
      refine ⟨?_, List.prefix_refl _, Or.inl rfl⟩
      intro other refuses
      by_cases mine : other = thread
      · subst mine
        cases connected : before.connected with
        | true => simp [enter, connected] at refuses
        | false => exact Or.inr ⟨rfl, stands, tick, result, rfl⟩
      · simp only [enter, Function.update_of_ne mine] at refuses
        exact Or.inl refuses
  | refused =>
      simp only [stands, Option.some.injEq] at taken
      subst taken
      refine entered_recorded before _ _ thread .idle ?_ (by simp) ?_ ?_
      · rw [disconnect_by_phase]
        rfl
      · exact disconnect_by_grows _ (enter before thread .idle)
      · rw [disconnect_by_calls]
        rfl
  | draining | clearing | storing =>
      simp only [stands, Option.some.injEq] at taken
      subst taken
      exact entered_recorded before _ _ thread _ rfl (by simp) (List.prefix_refl _) rfl
  | submitting =>
      simp only [stands, Option.some.injEq] at taken
      subst taken
      have entered :=
        entered_recorded before (enter before thread .clearing) (.advance thread tick result)
          thread .clearing rfl (by simp) (List.prefix_refl _) rfl
      exact ⟨entered.refused, List.prefix_refl _, Or.inr ⟨thread, tick, result, rfl, stands, rfl⟩⟩

theorem step_recorded (before after : System Thread) (label : Label Thread)
    (taken : step before label = some after) : Recorded before label after := by
  cases label with
  | send thread size position =>
      simp only [step, Option.ite_none_right_eq_some, Option.some.injEq] at taken
      obtain ⟨-, rfl⟩ := taken
      exact outside_recorded before _ _ rfl (List.prefix_refl _) rfl
  | sendRaw thread size =>
      simp only [step, Option.ite_none_right_eq_some, Option.some.injEq] at taken
      obtain ⟨-, rfl⟩ := taken
      exact outside_recorded before _ _ rfl (List.prefix_refl _) rfl
  | flush thread tick =>
      simp only [step, Option.ite_none_right_eq_some, Option.some.injEq] at taken
      obtain ⟨-, rfl⟩ := taken
      exact entered_recorded before _ _ thread _ rfl (by split <;> simp) (List.prefix_refl _) rfl
  | sendList thread buffers =>
      simp only [step, Option.ite_none_right_eq_some, Option.some.injEq] at taken
      obtain ⟨-, rfl⟩ := taken
      exact entered_recorded before _ _ thread _ rfl (by simp) (List.prefix_refl _) rfl
  | advance thread tick result => exact advance_recorded before after thread tick result taken
  | complete numberOfBytesSent =>
      simp only [step, Option.ite_none_right_eq_some, Option.some.injEq] at taken
      obtain ⟨-, rfl⟩ := taken
      split
      · refine outside_recorded before _ _ ?_ ?_ ?_
        · rw [disconnect_by_phase]
        · exact disconnect_by_grows .sent0 { before with completed := before.completed + 1 }
        · rw [disconnect_by_calls]
      · exact outside_recorded before _ _ rfl (List.prefix_refl _) rfl
  | connect =>
      simp only [step, Option.some.injEq] at taken
      subst taken
      exact outside_recorded before _ _ rfl (List.prefix_refl _) rfl
  | disconnect =>
      simp only [step, Option.some.injEq] at taken
      subst taken
      unfold SendPipeline.disconnect
      split
      · exact outside_recorded before _ _ rfl (List.prefix_append _ _) rfl
      · exact outside_recorded before _ _ rfl (List.prefix_refl _) rfl
  | processDisconnect =>
      simp only [step, Option.some.injEq] at taken
      subst taken
      exact outside_recorded before _ _ rfl (List.prefix_refl _) rfl

structure Sound (system : System Thread) : Prop where
  unrefused : ∀ thread, system.phase thread ≠ .refused
  answered : system.disconnects = [] →
    ∀ call ∈ system.calls, failed call.result = true → call.segments = []

omit [DecidableEq Thread] in
theorem start_sound (tick : UInt64) : Sound (System.start tick : System Thread) where
  unrefused _ refuses := by cases refuses
  answered _ _ member := by cases member

theorem step_sound (before after : System Thread) (label : Label Thread) (holds : Sound before)
    (taken : step before label = some after) (allowed : Prepared before label after) :
    Sound after := by
  have recorded := step_recorded before after label taken
  refine ⟨?_, ?_⟩
  · intro thread refuses
    rcases recorded.refused thread refuses with was | ⟨off, stands, tick, result, same⟩
    · exact holds.unrefused thread was
    · have connected := allowed.connected thread tick result same stands
      rw [off] at connected
      cases connected
  · intro quiet call member wasFailed
    have quietBefore : before.disconnects = [] := by
      have grows := recorded.disconnects
      rwa [quiet, List.prefix_nil] at grows
    rcases recorded.calls with same | ⟨thread, tick, result, rfl, stands, same⟩
    · rw [same] at member
      exact holds.answered quietBefore call member wasFailed
    · rw [same, List.mem_append, List.mem_singleton] at member
      rcases member with old | rfl
      · exact holds.answered quietBefore call old wasFailed
      · cases result with
        | failed error =>
            rcases allowed.answered thread tick error rfl stands with empty | started
            · exact empty
            · exact absurd quietBefore started
        | done | pending => cases wasFailed

theorem reachable_sound (tick : UInt64) (system : System Thread)
    (reached : Reachable step prepared (System.start tick) system) : Sound system :=
  reachable_invariant step prepared Sound (System.start tick) (start_sound tick)
    (fun before label after holds taken allowed =>
      step_sound before after label holds taken allowed)
    system reached

/-! A session that is not torn down goes through the steps of one that was connected from the
start and whose calls all succeed. -/

def answered (system : System Thread) : System Thread :=
  { system with
    connected := true
    disconnects := []
    calls := system.calls.map fun call => { call with result := .done } }

def answeredLabel : Label Thread → Label Thread
  | .advance thread tick _ => .advance thread tick .done
  | .complete _ => .complete 1
  -- `Disconnect()` on a session that is not connected does nothing.
  | .disconnect => .connect
  | label => label

theorem advance_answered (before after : System Thread) (thread : Thread) (tick : UInt64)
    (result : WsaResult) (taken : advance before thread tick result = some after)
    (holds : Sound before)
    (connected : before.phase thread = .registering → before.connected = true) :
    advance (answered before) thread tick .done = some (answered after) := by
  have phases : (answered before).phase thread = before.phase thread := rfl
  unfold advance at taken ⊢
  cases stands : before.phase thread with
  | idle => simp [stands] at taken
  | flushBytes =>
      simp only [stands, Option.some.injEq] at taken
      subst taken
      simp only [phases, stands]
      rfl
  | flushLock =>
      simp only [stands, Option.some.injEq] at taken
      subst taken
      have same : (answered before).reserved = before.reserved := rfl
      simp only [phases, stands, flushReserved, same, Option.some.injEq]
      split <;> rfl
  | sendEntry buffers =>
      cases buffers with
      | nil | cons _ _ =>
          simp only [stands, Option.some.injEq] at taken
          subst taken
          simp only [phases, stands]
          rfl
  | registering =>
      simp only [stands, Option.some.injEq] at taken
      subst taken
      simp only [phases, stands, connected stands, if_true]
      rfl
  | refused => exact absurd stands (holds.unrefused thread)
  | submitting =>
      simp only [stands, Option.some.injEq] at taken
      subst taken
      simp [stands, answered, submit, enter]
  | draining | clearing | storing =>
      simp only [stands, Option.some.injEq] at taken
      subst taken
      simp only [phases, stands]
      rfl

theorem step_answered (before after : System Thread) (label : Label Thread)
    (taken : step before label = some after) (holds : Sound before)
    (allowed : Prepared before label after) (quiet : after.disconnects = []) :
    step (answered before) (answeredLabel label) = some (answered after) := by
  have grows := (step_recorded before after label taken).disconnects
  rw [quiet, List.prefix_nil] at grows
  cases label with
  | send thread size position =>
      simp only [step, Option.ite_none_right_eq_some, Option.some.injEq] at taken
      obtain ⟨idle, rfl⟩ := taken
      exact if_pos idle
  | sendRaw thread size =>
      simp only [step, Option.ite_none_right_eq_some, Option.some.injEq] at taken
      obtain ⟨idle, rfl⟩ := taken
      exact if_pos idle
  | flush thread tick =>
      simp only [step, Option.ite_none_right_eq_some, Option.some.injEq] at taken
      obtain ⟨idle, rfl⟩ := taken
      exact if_pos idle
  | sendList thread buffers =>
      simp only [step, Option.ite_none_right_eq_some, Option.some.injEq] at taken
      obtain ⟨idle, rfl⟩ := taken
      exact if_pos idle
  | advance thread tick result =>
      exact advance_answered before after thread tick result taken holds
        (allowed.connected thread tick result rfl)
  | complete numberOfBytesSent =>
      simp only [step, Option.ite_none_right_eq_some, Option.some.injEq] at taken
      obtain ⟨more, rfl⟩ := taken
      have same : (answered before).completed < (answered before).calls.length := by
        simpa [answered] using more
      simp only [step, answeredLabel, same, if_true, Nat.one_ne_zero, if_false, Option.some.injEq]
      split
      · unfold disconnectBy
        split <;> rfl
      · rfl
  | connect =>
      simp only [step, Option.some.injEq] at taken
      subst taken
      rfl
  | disconnect =>
      simp only [step, Option.some.injEq] at taken
      subst taken
      simp only [step, answeredLabel, Option.some.injEq]
      unfold SendPipeline.disconnect
      split <;> rfl
  | processDisconnect => exact absurd grows (allowed.registered rfl)

omit [DecidableEq Thread] in
theorem answered_online (before after : System Thread) (label : Label Thread) :
    Online (answered before) (answeredLabel label) (answered after) where
  connected := rfl
  answered thread tick error _ same := by
    cases label <;> simp [answeredLabel] at same

/-- The invariants of a session connected from the start hold of one that was connected later. -/
theorem answered_invariant (tick : UInt64) (system : System Thread)
    (reached : Reachable step prepared (System.start tick) system)
    (quiet : system.disconnects = []) :
    SendConservation.Invariant (answered system) := by
  induction reached with
  | start => exact start_invariant tick
  | @next before after label earlier taken allowed ih =>
      have grows := (step_recorded before after label taken).disconnects
      rw [quiet, List.prefix_nil] at grows
      have follows :=
        step_answered before after label taken (reachable_sound tick before earlier) allowed quiet
      exact step_invariant _ _ _ (ih grows) (step_move _ _ _ follows)
        (answered_online before after label)

theorem register_send_returns_clear (system after : System Thread) (thread : Thread) (tick : UInt64)
    (result : WsaResult) (holds : Sound system) (inside : holdsFlag (system.phase thread) = true)
    (taken : advance system thread tick result = some after)
    (returns : after.phase thread = .idle) :
    after.sending = false := by
  unfold advance at taken
  cases stands : system.phase thread with
  | idle | flushBytes | flushLock | sendEntry _ => simp [stands, holdsFlag] at inside
  | refused => exact absurd stands (holds.unrefused thread)
  | registering =>
      simp only [stands, Option.some.injEq] at taken
      subst taken
      cases connected : system.connected <;> simp [enter, connected] at returns
  | draining | submitting | clearing =>
      simp only [stands, Option.some.injEq] at taken
      subst taken
      simp [enter, submit] at returns
  | storing =>
      simp only [stands, Option.some.injEq] at taken
      subst taken
      rfl

theorem run_alone_turn (thread : Thread) (result : WsaResult) (fuel : Nat)
    (system next : System Thread) (busy : system.phase thread ≠ .idle)
    (taken : advance system thread 0 result = some next) :
    runAlone thread result (fuel + 1) system = runAlone thread result fuel next := by
  simp only [runAlone, busy, if_false, taken, Option.bind_some]

theorem send_alone (system : System Thread) (thread : Thread) (buffers : List Wsabuf)
    (result : WsaResult) (idle : system.phase thread = .idle) (nonempty : buffers ≠ [])
    (connected : system.connected = true) (free : system.sending = false) :
    ∃ after, send system thread buffers result = some after ∧ after.sending = false ∧
      after.sendQueue = [] ∧
      after.handed = system.handed ++ [numbered system.received.length buffers] ∧
      after.calls = system.calls ++
        [⟨system.segments ++ (system.sendQueue ++ numbered system.received.length buffers),
          result⟩] := by
  cases buffers with
  | nil => exact absurd rfl nonempty
  | cons first rest =>
      let called := callSend system thread (first :: rest)
      let locked := sendLocked called thread (numbered system.received.length (first :: rest))
      have enters :
          called.phase thread = .sendEntry (numbered system.received.length (first :: rest)) := by
        simp [called, callSend, enter]
      have locks : advance called thread 0 result = some locked := by
        rw [numbered] at enters
        simp only [advance, enters]
        rfl
      have taken : send system thread (first :: rest) result =
          registerSend locked thread result := by
        have turn := run_alone_turn thread result 5 called locked (by rw [enters]; simp) locks
        simp only [send, step, idle, if_true, Option.bind_some]
        exact turn
      have stands : locked.phase thread = .registering := by
        simp [locked, called, sendLocked, callSend, enter, free]
      rw [taken, register_send_connected locked thread result stands connected]
      exact ⟨_, rfl, rfl, rfl, rfl, rfl⟩

/-- Once the calls that find the session unconnected and the calls that fail are left out, the
flag is clear whenever `_register_send` returns and a later `_send` takes everything along. -/
theorem send_failures_contained (tick : UInt64) :
    (∀ (system : System Thread) (thread : Thread) (result : WsaResult),
      system.phase thread = .registering → system.sending = true →
      ∃ after, registerSend system thread result = some after ∧ after.phase thread = .idle ∧
        (Contained system result after ↔
          system.connected = true ∧
            (failed result = false ∨ outgoing system = [] ∨ system.disconnects ≠ []))) ∧
    ∀ system : System Thread, Reachable step prepared (System.start tick) system →
      (∀ thread tick result after, holdsFlag (system.phase thread) = true →
        step system (.advance thread tick result) = some after → after.phase thread = .idle →
        after.sending = false) ∧
      (system.disconnects = [] →
        system.calls.flatMap Submission.segments ++ unsubmitted system ++ system.sendQueue =
          system.handed.flatten ∧
        (∀ call ∈ system.calls, failed call.result = true → call.segments = []) ∧
        (system.connected = true → (∀ thread, insideSend (system.phase thread) = false) →
          ∀ thread buffers result, system.phase thread = .idle → buffers ≠ [] →
            failed result = false →
          ∃ after, send system thread buffers result = some after ∧ after.sending = false ∧
            after.handed = system.handed ++ [numbered system.received.length buffers] ∧
            after.calls.flatMap Submission.segments = after.handed.flatten ∧
            ∀ call ∈ after.calls, failed call.result = true → call.segments = [])) := by
  refine ⟨register_send_contained_iff, ?_⟩
  intro system reached
  have sound := reachable_sound tick system reached
  refine ⟨?_, ?_⟩
  · intro thread tick result after inside taken returns
    exact register_send_returns_clear system after thread tick result sound inside taken returns
  · intro quiet
    obtain ⟨guarded, -, inOrder⟩ := answered_invariant tick system reached quiet
    have conserved : system.calls.flatMap Submission.segments ++ unsubmitted system ++
        system.sendQueue =
        system.handed.flatten := by
      simp only [InOrder, answered, unsubmitted, List.flatMap_map] at inOrder
      exact inOrder
    refine ⟨conserved, sound.answered quiet, ?_⟩
    intro connected outside thread buffers result idle nonempty succeeds
    have free : system.sending = false := by
      by_contra busy
      obtain ⟨holder, inside⟩ := (guarded.exclusive.covers ()).mp (by simpa [answered] using busy)
      have stays : role (system.phase holder) = .outside [] := outside_role _ (outside holder)
      rw [show (answered system).phase = system.phase from rfl, stays] at inside
      cases inside
    have clean : system.submitted = false := guarded.free free
    obtain ⟨after, taken, cleared, -, handed, calls⟩ :=
      send_alone system thread buffers result idle nonempty connected free
    refine ⟨after, taken, cleared, handed, ?_, ?_⟩
    · rw [handed, calls, List.flatMap_append, List.flatten_append, ← conserved]
      simp [unsubmitted, clean]
    · intro call member wasFailed
      rw [calls, List.mem_append, List.mem_singleton] at member
      rcases member with old | rfl
      · exact sound.answered quiet call old wasFailed
      · rw [succeeds] at wasFailed
        cases wasFailed

def preparedStep (before : System Thread) (label : Label Thread) (_ : System Thread) : Bool :=
  match label with
  | .advance thread _ result =>
      match before.phase thread with
      | .registering => before.connected
      | .submitting => !failed result
      | _ => true
  | .processDisconnect => false
  | _ => true

omit [DecidableEq Thread] in
theorem prepared_step_sound (before : System Thread) (label : Label Thread) (after : System Thread)
    (checked : preparedStep before label after = true) : prepared before label after := by
  refine ⟨?_, ?_, ?_⟩
  · rintro thread tick result rfl stands
    simpa [preparedStep, stands] using checked
  · rintro thread tick error rfl stands
    simp [preparedStep, stands, failed] at checked
  · rintro rfl
    simp [preparedStep] at checked

def registeringStart : System Unit :=
  { (System.connectedStart 0 : System Unit) with phase := fun _ => .registering, sending := true }

/-- One buffer is sent after the connection was made; a second `_send` follows. -/
theorem send_after_connect_contained :
    (∃ after, registerSend registeringStart () .pending = some after ∧
      Contained registeringStart .pending after) ∧
    ∃ system : System Unit, Reachable step prepared (System.start 0) system ∧
      system.handed = [[⟨0, ⟨8, 0⟩⟩]] ∧
      ∃ after, send system () [⟨4, 100⟩] .pending = some after ∧
        after.calls.flatMap Submission.segments = after.handed.flatten := by
  refine ⟨?_, ?_⟩
  · obtain ⟨after, taken, -, contained⟩ :=
      (send_failures_contained 0).1 registeringStart () .pending rfl rfl
    exact ⟨after, taken, contained.mpr ⟨rfl, Or.inl rfl⟩⟩
  · obtain ⟨system, reached, seen⟩ :=
      replay_reachable step prepared preparedStep prepared_step_sound
      (fun system : System Unit =>
        (system.phase (), system.connected, system.disconnects, system.handed))
      (.idle, true, [], [[⟨0, ⟨8, 0⟩⟩]])
      [.connect, .sendList () [⟨8, 0⟩], .advance () 0 .done, .advance () 0 .done,
       .advance () 0 .done, .advance () 0 .pending, .advance () 0 .done, .advance () 0 .done]
      (System.start 0) (by decide)
    simp only [Prod.mk.injEq] at seen
    obtain ⟨idle, connected, quiet, handed⟩ := seen
    have later := (((send_failures_contained 0).2 system reached).2 quiet).2.2 connected
      (fun thread => by rw [idle]; rfl) () [⟨4, 100⟩] .pending idle (by simp) rfl
    obtain ⟨after, taken, -, -, whole, -⟩ := later
    exact ⟨system, reached, handed, after, taken, whole⟩

/-- A `_send` before the connection is made leaves the flag set: after it, the connected session
queues and submits nothing. -/
theorem early_send_silences_session :
    ¬ ∀ system : System Unit, Reachable step (fun _ _ _ => True) (System.start 0) system →
      system.connected = true → system.phase () = .idle → system.disconnects = [] →
      ∃ after, send system () [⟨4, 100⟩] .done = some after ∧
        after.calls.flatMap Submission.segments = after.handed.flatten := by
  intro submits
  obtain ⟨system, reached, seen⟩ := replay_reachable step (fun _ _ _ => True) (fun _ _ _ => true)
    (fun _ _ _ _ => trivial)
    (fun system : System Unit => (system.phase (), system.connected, system.disconnects,
      (send system () [⟨4, 100⟩] .done).map fun after : System Unit =>
        decide (after.calls.length = 0 ∧ after.handed.flatten.length = 2)))
    (.idle, true, [], some true)
    [.sendList () [⟨8, 0⟩], .advance () 0 .done, .advance () 0 .done, .advance () 0 .done, .connect]
    (System.start 0) (by decide)
  simp only [Prod.mk.injEq] at seen
  obtain ⟨idle, connected, quiet, sent⟩ := seen
  obtain ⟨after, taken, whole⟩ := submits system reached connected idle quiet
  simp only [taken, Option.map_some, Option.some.injEq, decide_eq_true_eq] at sent
  have lengths := congrArg List.length whole
  rw [List.length_eq_zero_iff.mp sent.1, sent.2] at lengths
  cases lengths

end NetCore.SendFailures
