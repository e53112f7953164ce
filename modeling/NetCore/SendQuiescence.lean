import NetCore.SendConservation

/-! Whether data handed to `_send` can be left in `_sendQueue`. The thread that holds
`_sending` drains the queue once, under the lock, and clears the flag later, outside
it. A buffer appended in between finds the flag set, so its `_send` returns, and the
flag is cleared without another look at the queue: it waits for an unrelated `_send`.
In the runs without such an append nothing is left behind. -/
namespace NetCore.SendQuiescence
open TransitionRuns UniquePlacement PacketFraming SegmentedReceive SendPipeline SendConservation

variable {Thread : Type}

def drained : Phase → Bool
  | .submitting | .clearing | .storing => true
  | _ => false

/-- No `_send` takes its lock between the drain of the queue and the clearing of the flag. -/
def NoLateAppend : Condition (System Thread) (Label Thread) := fun before label _ =>
  ∀ thread tick result first rest, label = .advance thread tick result →
    before.phase thread = .sendEntry (first :: rest) → ∀ other, drained (before.phase other) = false

def insideSend : Phase → Bool
  | .idle | .flushBytes | .flushLock => false
  | _ => true

structure Served (system : System Thread) : Prop where
  queued : system.sendQueue ≠ [] → ∃ thread, role (system.phase thread) = .waiting
  loaded : system.segments ≠ [] →
    ∃ thread, role (system.phase thread) = .filled ∨ role (system.phase thread) = .sent

theorem start_served (tick : UInt64) : Served (System.connectedStart tick : System Thread) where
  queued nonempty := absurd rfl nonempty
  loaded nonempty := absurd rfl nonempty

theorem drained_iff (phase : Phase) (inside : () ∈ (role phase).token) :
    drained phase = false ↔ role phase = .waiting := by
  cases phase <;> simp [drained, role, Role.token] at *

variable [DecidableEq Thread]

theorem role_elsewhere (before after : System Thread) (thread : Thread) (phase : Phase)
    (phases : after.phase = Function.update before.phase thread phase) (wanted : Role → Prop)
    (own : ¬ wanted (role (before.phase thread)))
    (found : ∃ other, wanted (role (before.phase other))) :
    ∃ other, wanted (role (after.phase other)) := by
  obtain ⟨other, holds⟩ := found
  refine ⟨other, ?_⟩
  have different : other ≠ thread := by
    rintro rfl
    exact own holds
  rw [phases, Function.update_of_ne different]
  exact holds

theorem served_frame (before after : System Thread) (holds : Served before) (thread : Thread)
    (phase : Phase) (phases : after.phase = Function.update before.phase thread phase)
    (queue : after.sendQueue = before.sendQueue) (segments : after.segments = before.segments)
    (unwaiting : role (before.phase thread) ≠ .waiting)
    (empty : role (before.phase thread) ≠ .filled ∧ role (before.phase thread) ≠ .sent) :
    Served after where
  queued nonempty := by
    rw [queue] at nonempty
    exact role_elsewhere before after thread phase phases (· = .waiting) unwaiting
      (holds.queued nonempty)
  loaded nonempty := by
    rw [segments] at nonempty
    exact role_elsewhere before after thread phase phases (fun role =>
      role = .filled ∨ role = .sent)
      (by simp [empty]) (holds.loaded nonempty)

theorem served_lock (system : System Thread) (holds : Served system) (guarded : Guarded system)
    (thread : Thread) (first : Queued) (rest : List Queued)
    (stands : system.phase thread = .sendEntry (first :: rest))
    (early : ∀ other, drained (system.phase other) = false) :
    Served (sendLocked system thread (first :: rest)) where
  queued _ := by
    cases busy : system.sending with
    | false => exact ⟨thread, by simp [sendLocked, enter, busy, role]⟩
    | true =>
        -- The flag is set, so somebody holds it, and has not drained yet.
        obtain ⟨holder, inside⟩ := (guarded.exclusive.covers ()).mp busy
        have waiting := (drained_iff _ inside).mp (early holder)
        exact role_elsewhere system _ thread _ rfl (· = .waiting)
          (by rw [stands]; simp [role]) ⟨holder, waiting⟩
  loaded nonempty :=
    role_elsewhere system _ thread _ rfl (fun role => role = .filled ∨ role = .sent)
      (by rw [stands]; simp [role]) (holds.loaded nonempty)

theorem step_served (before after : System Thread) (label : Label Thread) (holds : Served before)
    (guarded : Guarded before) (move : Move before label after)
    (allowed : Online before label after) (early : NoLateAppend before label after) :
    Served after := by
  cases move with
  | inert _ _ quiet _ =>
      constructor
      · intro nonempty
        rw [quiet.sendQueue] at nonempty
        obtain ⟨thread, waiting⟩ := holds.queued nonempty
        exact ⟨thread, by rw [quiet.roles, waiting]⟩
      · intro nonempty
        rw [quiet.segments] at nonempty
        obtain ⟨thread, carries⟩ := holds.loaded nonempty
        exact ⟨thread, by rw [quiet.roles]; exact carries⟩
  | accept _ _ _ _ => exact ⟨holds.queued, holds.loaded⟩
  | call thread buffers stands =>
      exact served_frame before _ holds thread _ rfl rfl rfl (by rw [stands]; simp [role])
        (by rw [stands]; simp [role])
  | flush thread _ _ stands =>
      exact served_frame before _ holds thread _ rfl rfl rfl (by rw [stands]; simp [role])
        (by rw [stands]; simp [role])
  | lock thread tick result first rest stands =>
      exact served_lock before holds guarded thread first rest stands
        (early thread tick result first rest rfl stands)
  | abandon thread _ _ _ stands => exact absurd stands (guarded.unrefused thread)
  | drain thread _ _ stands =>
      constructor
      · intro nonempty
        exact absurd rfl nonempty
      · intro _
        exact ⟨thread, by simp [enter, role]⟩
  | submit thread _ result stands =>
      constructor
      · intro nonempty
        exact role_elsewhere before _ thread _ rfl (· = .waiting) (by rw [stands]; simp [role])
          (holds.queued nonempty)
      · intro _
        exact ⟨thread, by simp [submit, enter, role]⟩
  | clear thread _ _ stands =>
      constructor
      · intro nonempty
        exact role_elsewhere before _ thread _ rfl (· = .waiting) (by rw [stands]; simp [role])
          (holds.queued nonempty)
      · intro nonempty
        exact absurd rfl nonempty
  -- The queue may fill again from here on; the flag is what the next `_send` looks at.
  | store thread _ _ stands =>
      exact served_frame before _ holds thread _ rfl rfl rfl (by rw [stands]; simp [role])
        (by rw [stands]; simp [role])
  | teardown _ off => exact (online_connected before after _ allowed off).elim

omit [DecidableEq Thread] in
theorem outside_role (phase : Phase) (outside : insideSend phase = false) :
    role phase = .outside [] := by
  cases phase <;> simp [insideSend, role] at *

/-- In a run without a late append, everything handed to `_send` has been submitted
whenever no thread is inside it. -/
theorem no_stranded_send (tick : UInt64) (system : System Thread)
    (reached : Reachable step (fun before label after => online before label after ∧
      NoLateAppend before label after) (System.connectedStart tick) system)
    (outside : ∀ thread, insideSend (system.phase thread) = false) :
    system.sendQueue = [] ∧ system.sending = false ∧
      system.calls.flatMap Submission.segments = system.handed.flatten := by
  have holds : Invariant system ∧ Served system := by
    refine reachable_invariant step _ (fun system => Invariant system ∧ Served system)
      (System.connectedStart tick) ⟨start_invariant tick, start_served tick⟩ ?_ system reached
    intro before label after holds taken allowed
    have move := step_move before after label taken
    exact ⟨step_invariant before after label holds.1 move allowed.1,
      step_served before after label holds.2 holds.1.guarded move allowed.1 allowed.2⟩
  obtain ⟨⟨guarded, _, inOrder⟩, served⟩ := holds
  have empty : system.sendQueue = [] := by
    by_contra nonempty
    obtain ⟨thread, waiting⟩ := served.queued nonempty
    rw [outside_role _ (outside thread)] at waiting
    cases waiting
  have bare : system.segments = [] := by
    by_contra nonempty
    obtain ⟨thread, carries⟩ := served.loaded nonempty
    rw [outside_role _ (outside thread)] at carries
    rcases carries with filled | sent
    · cases filled
    · cases sent
  refine ⟨empty, ?_, ?_⟩
  · by_contra busy
    obtain ⟨thread, inside⟩ := (guarded.exclusive.covers ()).mp (by simpa using busy)
    rw [outside_role _ (outside thread)] at inside
    cases inside
  · have whole := inOrder
    simpa [InOrder, unsubmitted, empty, bare] using whole

def appendsInTime (before : System Bool) (label : Label Bool) (_ : System Bool) : Bool :=
  match label with
  | .advance thread _ _ =>
      match before.phase thread with
      | .sendEntry (_ :: _) => !drained (before.phase true) && !drained (before.phase false)
      | _ => true
  | _ => true

theorem appends_in_time_sound (before : System Bool) (label : Label Bool) (after : System Bool)
    (checked : appendsInTime before label after = true) : NoLateAppend before label after := by
  rintro thread tick result first rest rfl stands other
  simp only [appendsInTime, stands, Bool.and_eq_true, Bool.not_eq_true'] at checked
  cases other with
  | true => exact checked.1
  | false => exact checked.2

/-- Both threads send a packet and flush; the second one appends before the first drains. -/
def joinedLabels : List (Label Bool) :=
  [.send true 4 0, .flush true 2000, .advance true 2000 .done, .advance true 0 .done,
   .send false 4 100, .flush false 4000, .advance false 4000 .done, .advance false 0 .done,
   .advance true 0 .done, .advance true 0 .done, .advance true 0 .pending, .advance true 0 .done,
   .advance true 0 .done]

theorem no_stranded_send_joined : ∃ system : System Bool,
    Reachable step
      (fun before label after => online before label after ∧ NoLateAppend before label after)
      (System.connectedStart 0) system ∧
    system.handed = [[⟨0, ⟨8, 0⟩⟩], [⟨1, ⟨8, 100⟩⟩]] ∧
    system.sendQueue = [] ∧ system.calls.flatMap Submission.segments = system.handed.flatten := by
  obtain ⟨system, reached, seen⟩ := replay_reachable step
    (fun before label after => online before label after ∧ NoLateAppend before label after)
    (fun before label after => onlineStep before label after && appendsInTime before label after)
    (fun before label after checked => by
      rw [Bool.and_eq_true] at checked
      exact ⟨online_step_sound before label after checked.1,
        appends_in_time_sound before label after checked.2⟩)
    (fun system : System Bool => (system.handed, system.phase true, system.phase false))
    ([[⟨0, ⟨8, 0⟩⟩], [⟨1, ⟨8, 100⟩⟩]], .idle, .idle) joinedLabels
      (System.connectedStart 0) (by decide)
  simp only [Prod.mk.injEq] at seen
  obtain ⟨handed, first, second⟩ := seen
  have outside : ∀ thread, insideSend (system.phase thread) = false := by
    intro thread
    cases thread with
    | true => rw [first]; rfl
    | false => rw [second]; rfl
  have result := no_stranded_send 0 system reached outside
  exact ⟨system, reached, handed, result.1, result.2.2⟩

def lateLabels : List (Label Bool) :=
  [.send true 4 0, .flush true 2000, .advance true 2000 .done, .advance true 0 .done,
   .advance true 0 .done, .advance true 0 .done,
   .send false 4 100, .flush false 4000, .advance false 4000 .done, .advance false 0 .done,
   .advance true 0 .pending, .advance true 0 .done, .advance true 0 .done]

theorem late_append_stranded : ∃ system : System Bool,
    Reachable step online (System.connectedStart 0) system ∧
    (∀ thread, insideSend (system.phase thread) = false) ∧
    system.sendQueue = [⟨1, ⟨8, 100⟩⟩] ∧ system.sending = false ∧
    system.calls = [⟨[⟨0, ⟨8, 0⟩⟩], .pending⟩] := by
  obtain ⟨system, reached, seen⟩ := replay_reachable step online onlineStep online_step_sound
    (fun system : System Bool =>
      (system.phase true, system.phase false, system.sendQueue, system.sending, system.calls))
    (.idle, .idle, [⟨1, ⟨8, 100⟩⟩], false, [⟨[⟨0, ⟨8, 0⟩⟩], .pending⟩]) lateLabels
      (System.connectedStart 0)
    (by decide)
  simp only [Prod.mk.injEq] at seen
  obtain ⟨first, second, queue, sending, calls⟩ := seen
  refine ⟨system, reached, ?_, queue, sending, calls⟩
  intro thread
  cases thread with
  | true => rw [first]; rfl
  | false => rw [second]; rfl

end NetCore.SendQuiescence
