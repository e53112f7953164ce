import NetCore.SendPipeline
import NetCore.UniquePlacement

/-! Conservation and order of the buffers of one session. The flag `_sending` is
held by at most one thread, which alone touches the segments of `_sendEvent`; a
buffer moves from `_reserved` to the list of a flushing thread, to the queue, to the
segments and into one call of `WSASend`, and on the way from the queue on the order
in which `_send` took its lock is kept. The results are about runs in which the
session stays connected and `WSASend` does not fail. -/
namespace NetCore.SendConservation
open TransitionRuns UniquePlacement PacketFraming SegmentedReceive SendPipeline

variable {Thread : Type}

/-- What a thread is to the others: the buffers it is about to hand to `_send`, or how
far it is between winning and clearing `_sending`. -/
inductive Role where
  | outside (buffers : List Queued)
  | waiting
  | filled
  | sent
  | leaving
  deriving DecidableEq

def role : Phase → Role
  | .sendEntry buffers => .outside buffers
  | .registering => .waiting
  | .refused => .waiting
  | .draining => .waiting
  | .submitting => .filled
  | .clearing => .sent
  | .storing => .leaving
  | _ => .outside []

def Role.buffers : Role → List Queued
  | .outside buffers => buffers
  | _ => []

def Role.token : Role → List Unit
  | .outside _ => []
  | _ => [()]

structure Inert (before after : System Thread) : Prop where
  roles : ∀ thread, role (after.phase thread) = role (before.phase thread)
  reserved : after.reserved = before.reserved
  sendQueue : after.sendQueue = before.sendQueue
  sending : after.sending = before.sending
  segments : after.segments = before.segments
  submitted : after.submitted = before.submitted
  received : after.received = before.received
  handed : after.handed = before.handed
  calls : after.calls = before.calls

variable [DecidableEq Thread]

theorem role_enter (system : System Thread) (thread other : Thread) (phase : Phase) :
    role ((enter system thread phase).phase other) =
      if other = thread then role phase else role (system.phase other) := by
  by_cases mine : other = thread <;> simp [enter, mine]

theorem inert_enter (system : System Thread) (thread : Thread) (phase : Phase)
    (same : role phase = role (system.phase thread)) :
    Inert system (enter system thread phase) where
  roles other := by
    rw [role_enter]
    split
    case isTrue mine => rw [mine, same]
    case isFalse => rfl
  reserved := rfl
  sendQueue := rfl
  sending := rfl
  segments := rfl
  submitted := rfl
  received := rfl
  handed := rfl
  calls := rfl

inductive Move (before : System Thread) : Label Thread → System Thread → Prop where
  | inert (label : Label Thread) (after : System Thread) (quiet : Inert before after)
      (legal : before.connected = true → ∀ thread, before.phase thread ≠ .refused →
        after.phase thread ≠ .refused) :
      Move before label after
  | accept (thread : Thread) (size : UInt16) (position : Nat)
      (stands : before.phase thread = .idle) :
      Move before (.send thread size position) (accept before size position)
  | call (thread : Thread) (buffers : List Wsabuf) (stands : before.phase thread = .idle) :
      Move before (.sendList thread buffers) (callSend before thread buffers)
  | flush (thread : Thread) (tick : UInt64) (result : WsaResult)
      (stands : before.phase thread = .flushLock) :
      Move before (.advance thread tick result)
        { enter before thread (.sendEntry before.reserved) with
          reserved := []
          lastSendTick := tick
          reservedSendBytes := 0 }
  | lock (thread : Thread) (tick : UInt64) (result : WsaResult) (first : Queued)
      (rest : List Queued) (stands : before.phase thread = .sendEntry (first :: rest)) :
      Move before (.advance thread tick result) (sendLocked before thread (first :: rest))
  | abandon (thread : Thread) (tick : UInt64) (result : WsaResult) (after : System Thread)
      (stands : before.phase thread = .refused) : Move before (.advance thread tick result) after
  | drain (thread : Thread) (tick : UInt64) (result : WsaResult)
      (stands : before.phase thread = .draining) :
      Move before (.advance thread tick result)
        { enter before thread .submitting with
          segments := before.segments ++ before.sendQueue
          sendQueue := [] }
  | submit (thread : Thread) (tick : UInt64) (result : WsaResult)
      (stands : before.phase thread = .submitting) :
      Move before (.advance thread tick result) (submit before thread result)
  | clear (thread : Thread) (tick : UInt64) (result : WsaResult)
      (stands : before.phase thread = .clearing) :
      Move before (.advance thread tick result)
        { enter before thread .storing with segments := [], submitted := false }
  | store (thread : Thread) (tick : UInt64) (result : WsaResult)
      (stands : before.phase thread = .storing) :
      Move before (.advance thread tick result) { enter before thread .idle with sending := false }
  | teardown (after : System Thread) (off : after.connected = false) :
      Move before .processDisconnect after

theorem enter_move (before : System Thread) (label : Label Thread) (thread : Thread) (phase : Phase)
    (same : role phase = role (before.phase thread))
    (legal : before.connected = true → phase ≠ .refused) :
    Move before label (enter before thread phase) := by
  refine .inert label _ (inert_enter before thread phase same) ?_
  intro connected other unrefused
  by_cases mine : other = thread
  · simpa [enter, mine] using legal connected
  · simpa [enter, mine] using unrefused

theorem outside_move (before after : System Thread) (label : Label Thread)
    (phases : after.phase = before.phase) (reserved : after.reserved = before.reserved)
    (sendQueue : after.sendQueue = before.sendQueue) (sending : after.sending = before.sending)
    (segments : after.segments = before.segments) (submitted : after.submitted = before.submitted)
    (received : after.received = before.received) (handed : after.handed = before.handed)
    (calls : after.calls = before.calls) :
    Move before label after := by
  refine .inert label after ⟨?_, reserved, sendQueue, sending, segments, submitted,
    received, handed, calls⟩ ?_
  · intro thread
    rw [phases]
  · intro _ thread unrefused
    rwa [phases]

theorem advance_move (before after : System Thread) (thread : Thread) (tick : UInt64)
    (result : WsaResult) (taken : advance before thread tick result = some after) :
    Move before (.advance thread tick result) after := by
  unfold advance at taken
  cases stands : before.phase thread with
  | idle => simp [stands] at taken
  | flushBytes =>
      simp only [stands, Option.some.injEq] at taken
      subst taken
      split <;> exact enter_move before _ thread _ (by rw [stands]; rfl) (by simp)
  | flushLock =>
      simp only [stands, Option.some.injEq, flushReserved] at taken
      split at taken
      · exact taken ▸ enter_move before _ thread .idle (by rw [stands]; rfl) (by simp)
      · exact taken ▸ .flush thread tick result stands
  | sendEntry buffers =>
      cases buffers with
      | nil =>
          simp only [stands, Option.some.injEq] at taken
          exact taken ▸ enter_move before _ thread .idle (by rw [stands]; rfl) (by simp)
      | cons first rest =>
          simp only [stands, Option.some.injEq] at taken
          exact taken ▸ .lock thread tick result first rest stands
  | registering =>
      simp only [stands, Option.some.injEq] at taken
      subst taken
      apply enter_move before _ thread _
      · rw [stands]
        split <;> rfl
      · intro connected
        simp [connected]
  | refused => exact .abandon thread tick result after stands
  | draining =>
      simp only [stands, Option.some.injEq] at taken
      exact taken ▸ .drain thread tick result stands
  | submitting =>
      simp only [stands, Option.some.injEq] at taken
      exact taken ▸ .submit thread tick result stands
  | clearing =>
      simp only [stands, Option.some.injEq] at taken
      exact taken ▸ .clear thread tick result stands
  | storing =>
      simp only [stands, Option.some.injEq] at taken
      exact taken ▸ .store thread tick result stands

theorem step_move (before after : System Thread) (label : Label Thread)
    (taken : step before label = some after) : Move before label after := by
  cases label with
  | send thread size position =>
      simp only [step, Option.ite_none_right_eq_some, Option.some.injEq] at taken
      exact taken.2 ▸ .accept thread size position taken.1
  | sendRaw thread size =>
      simp only [step, Option.ite_none_right_eq_some, Option.some.injEq] at taken
      obtain ⟨_, rfl⟩ := taken
      apply outside_move <;> rfl
  | flush thread tick =>
      simp only [step, Option.ite_none_right_eq_some, Option.some.injEq] at taken
      obtain ⟨stands, rfl⟩ := taken
      split <;> exact enter_move before _ thread _ (by rw [stands]; rfl) (by simp)
  | sendList thread buffers =>
      simp only [step, Option.ite_none_right_eq_some, Option.some.injEq] at taken
      exact taken.2 ▸ .call thread buffers taken.1
  | advance thread tick result => exact advance_move before after thread tick result taken
  | complete numberOfBytesSent =>
      simp only [step, Option.ite_none_right_eq_some, Option.some.injEq] at taken
      obtain ⟨_, rfl⟩ := taken
      unfold disconnectBy
      split
      · split <;> apply outside_move <;> rfl
      · apply outside_move <;> rfl
  | connect =>
      simp only [step, Option.some.injEq] at taken
      subst taken
      apply outside_move <;> rfl
  | disconnect =>
      simp only [step, Option.some.injEq] at taken
      subst taken
      unfold SendPipeline.disconnect
      split <;> apply outside_move <;> rfl
  | processDisconnect =>
      simp only [step, Option.some.injEq] at taken
      exact .teardown after (by rw [← taken])

structure Online (before : System Thread) (label : Label Thread) (after : System Thread) :
    Prop where
  connected : after.connected = true
  answered : ∀ thread tick error, before.phase thread = .submitting →
    label ≠ .advance thread tick (.failed error)

def online : Condition (System Thread) (Label Thread) := Online

omit [DecidableEq Thread] in
theorem online_connected (before after : System Thread) (label : Label Thread)
    (allowed : Online before label after) (off : after.connected = false) : False := by
  have on := allowed.connected
  rw [off] at on
  cases on

/-- At most one thread holds the flag, and it alone decides whether the segments of
`_sendEvent` have been submitted. -/
structure Guarded (system : System Thread) : Prop where
  connected : system.connected = true
  unrefused : ∀ thread, system.phase thread ≠ .refused
  exclusive : Placed (fun thread => (role (system.phase thread)).token) fun _ =>
    system.sending = true
  stage : ∀ thread, () ∈ (role (system.phase thread)).token →
    (system.submitted = true ↔ role (system.phase thread) = .sent)
  free : system.sending = false → system.submitted = false

omit [DecidableEq Thread] in
theorem start_guarded (tick : UInt64) : Guarded (System.connectedStart tick : System Thread) where
  connected := rfl
  unrefused _ same := by cases same
  exclusive := {
    once := fun _ => .nil
    apart := fun _ _ _ member => by cases member
    covers := fun _ => by
      refine ⟨fun sending => (by cases sending), ?_⟩
      rintro ⟨_, member⟩
      cases member }
  stage _ member := by cases member
  free _ := rfl

omit [DecidableEq Thread] in
theorem guarded_sole (system : System Thread) (holds : Guarded system) (first second : Thread)
    (left : () ∈ (role (system.phase first)).token)
    (right : () ∈ (role (system.phase second)).token) :
    first = second :=
  holds.exclusive.apart () first second left right

omit [DecidableEq Thread] in
theorem guarded_inert (before after : System Thread) (holds : Guarded before)
    (quiet : Inert before after)
    (legal : before.connected = true → ∀ thread, before.phase thread ≠ .refused →
      after.phase thread ≠ .refused)
    (connected : after.connected = true) : Guarded after where
  connected := connected
  unrefused thread := legal holds.connected thread (holds.unrefused thread)
  exclusive := by
    have same : (fun thread => (role (after.phase thread)).token) =
        fun thread => (role (before.phase thread)).token := by
      funext thread
      rw [quiet.roles]
    rw [same, quiet.sending]
    exact holds.exclusive
  stage thread inside := by
    rw [quiet.roles] at inside ⊢
    rw [quiet.submitted]
    exact holds.stage thread inside
  free idle := by
    rw [quiet.sending] at idle
    rw [quiet.submitted]
    exact holds.free idle

theorem update_unrefused (before after : System Thread) (holds : Guarded before) (thread : Thread)
    (phase : Phase) (phases : after.phase = Function.update before.phase thread phase)
    (unrefused : phase ≠ .refused) (other : Thread) : after.phase other ≠ .refused := by
  by_cases mine : other = thread
  · rw [phases, mine, Function.update_self]
    exact unrefused
  · rw [phases, Function.update_of_ne mine]
    exact holds.unrefused other

theorem update_exclusive (before after : System Thread) (holds : Guarded before) (thread : Thread)
    (phase : Phase) (phases : after.phase = Function.update before.phase thread phase)
    (sending : after.sending = before.sending)
    (same : (role phase).token = (role (before.phase thread)).token) :
    Placed (fun thread => (role (after.phase thread)).token) fun _ => after.sending = true := by
  rw [sending]
  apply placed_reorder _ _ _ holds.exclusive
  intro other
  by_cases mine : other = thread
  · simp [phases, mine, same]
  · simp [phases, mine]

theorem guarded_inside (before after : System Thread) (holds : Guarded before) (thread : Thread)
    (phase : Phase) (phases : after.phase = Function.update before.phase thread phase)
    (connected : after.connected = before.connected) (sending : after.sending = before.sending)
    (was : (role (before.phase thread)).token = [()]) (stays : (role phase).token = [()])
    (unrefused : phase ≠ .refused) (stage : after.submitted = true ↔ role phase = .sent) :
    Guarded after where
  connected := connected.trans holds.connected
  unrefused := update_unrefused before after holds thread phase phases unrefused
  exclusive :=
    update_exclusive before after holds thread phase phases sending (stays.trans was.symm)
  stage other inside := by
    by_cases mine : other = thread
    · rw [phases, mine, Function.update_self]
      exact stage
    · rw [phases, Function.update_of_ne mine] at inside
      exact absurd (guarded_sole before holds other thread inside (by rw [was]; simp)) mine
  free idle := by
    rw [sending] at idle
    have busy : before.sending = true := (holds.exclusive.covers ()).mpr ⟨thread, by rw [was]; simp⟩
    rw [busy] at idle
    cases idle

theorem guarded_outside (before after : System Thread) (holds : Guarded before) (thread : Thread)
    (phase : Phase) (phases : after.phase = Function.update before.phase thread phase)
    (connected : after.connected = before.connected) (sending : after.sending = before.sending)
    (submitted : after.submitted = before.submitted) (was : (role (before.phase thread)).token = [])
    (stays : (role phase).token = []) (unrefused : phase ≠ .refused) : Guarded after where
  connected := connected.trans holds.connected
  unrefused := update_unrefused before after holds thread phase phases unrefused
  exclusive :=
    update_exclusive before after holds thread phase phases sending (stays.trans was.symm)
  stage other inside := by
    by_cases mine : other = thread
    · rw [phases, mine, Function.update_self, stays] at inside
      cases inside
    · rw [phases, Function.update_of_ne mine] at inside ⊢
      rw [submitted]
      exact holds.stage other inside
  free idle := by
    rw [sending] at idle
    rw [submitted]
    exact holds.free idle

/-- `_sending.exchange(true)` returns false: the thread obtains the flag. -/
theorem guarded_win (system : System Thread) (holds : Guarded system) (thread : Thread)
    (buffers : List Queued) (was : (role (system.phase thread)).token = [])
    (idle : system.sending = false) :
    Guarded (sendLocked system thread buffers) := by
  have phases : (sendLocked system thread buffers).phase =
      Function.update system.phase thread .registering := by simp [sendLocked, enter, idle]
  -- The flag was clear, so no thread had a token before.
  have nobody : ∀ other, () ∉ (role (system.phase other)).token :=
    placed_absent _ _ holds.exclusive () (by simp [idle])
  have clean := holds.free idle
  refine ⟨holds.connected, update_unrefused system _ holds thread _ phases (by simp), ?_, ?_, ?_⟩
  · apply placed_admit _ _ _ _ holds.exclusive thread [()] (by simp [idle]) (by simp)
    · simp only [phases, Function.update_self, was]
      rfl
    · intro other different
      simp [phases, different]
    · intro _
      simp [sendLocked]
  · intro other inside
    by_cases mine : other = thread
    · rw [phases, mine, Function.update_self]
      change system.submitted = true ↔ Role.waiting = Role.sent
      simp [clean]
    · rw [phases, Function.update_of_ne mine] at inside
      exact absurd inside (nobody other)
  · intro lost
    cases lost

theorem guarded_store (system : System Thread) (holds : Guarded system) (thread : Thread)
    (stands : system.phase thread = .storing) :
    Guarded { enter system thread .idle with sending := false } := by
  have was : (role (system.phase thread)).token = [()] := by rw [stands]; rfl
  have clean : system.submitted = false := by
    have stage := holds.stage thread (by rw [was]; simp)
    rw [stands] at stage
    simpa [role] using stage
  refine ⟨holds.connected, update_unrefused system _ holds thread .idle rfl (by simp), ?_,
    ?_, fun _ => clean⟩
  · apply placed_retire _ _ _ _ holds.exclusive thread ()
    · simp [enter, stands, role, Role.token]
    · intro other different
      simp [enter, different]
    · intro _
      simp
  · -- The thread that leaves was the only one inside.
    intro other inside
    by_cases mine : other = thread
    · simp [enter, mine, role, Role.token] at inside
    · simp only [enter, Function.update_of_ne mine] at inside
      exact absurd (guarded_sole system holds other thread inside (by rw [was]; simp)) mine

theorem step_guarded (before after : System Thread) (label : Label Thread) (holds : Guarded before)
    (move : Move before label after) (allowed : Online before label after) : Guarded after := by
  cases move with
  | inert _ _ quiet legal => exact guarded_inert before after holds quiet legal allowed.connected
  | accept thread size position stands =>
      exact ⟨holds.connected, holds.unrefused, holds.exclusive, holds.stage, holds.free⟩
  | call thread buffers stands =>
      exact guarded_outside before _ holds thread _ rfl rfl rfl rfl
        (by rw [stands]; rfl) rfl (by simp)
  | flush thread tick result stands =>
      exact guarded_outside before _ holds thread _ rfl rfl rfl rfl
        (by rw [stands]; rfl) rfl (by simp)
  | lock thread tick result first rest stands =>
      have was : (role (before.phase thread)).token = [] := by rw [stands]; rfl
      cases busy : before.sending with
      | false => exact guarded_win before holds thread _ was busy
      | true =>
          refine guarded_outside before _ holds thread .idle ?_ rfl busy.symm rfl was rfl (by simp)
          simp [sendLocked, enter, busy]
  | abandon thread tick result _ stands => exact absurd stands (holds.unrefused thread)
  | drain thread tick result stands =>
      have was : (role (before.phase thread)).token = [()] := by rw [stands]; rfl
      have stage := holds.stage thread (by rw [was]; simp)
      refine guarded_inside before _ holds thread .submitting rfl rfl rfl was rfl (by simp) ?_
      rw [stands] at stage
      simpa [role, enter] using stage
  | submit thread tick result stands =>
      exact guarded_inside before _ holds thread .clearing rfl rfl rfl
        (by rw [stands]; rfl) rfl (by simp)
        (by simp [submit, role])
  | clear thread tick result stands =>
      exact guarded_inside before _ holds thread .storing rfl rfl rfl
        (by rw [stands]; rfl) rfl (by simp)
        (by simp [role])
  | store thread tick result stands => exact guarded_store before holds thread stands
  | teardown _ off => exact (online_connected before after _ allowed off).elim

inductive Place (Thread : Type) where
  | reserved
  | list (thread : Thread)
  | queue
  | segments
  | call (index : Nat)
  deriving DecidableEq

def unsubmitted (system : System Thread) : List Queued :=
  if system.submitted then [] else system.segments

/-- Where buffers are: `_reserved`, the list of a thread on its way to `_send`,
`_sendQueue`, the segments not yet submitted, the calls of `WSASend`. -/
def contents (system : System Thread) : Place Thread → List Queued
  | .reserved => system.reserved
  | .list thread => (role (system.phase thread)).buffers
  | .queue => system.sendQueue
  | .segments => unsubmitted system
  | .call index => ((system.calls[index]?).map Submission.segments).getD []

structure Owned (system : System Thread) : Prop where
  placed : Placed (contents system) (· ∈ system.received)
  tickets : ∀ entry ∈ system.received, entry.ticket < system.received.length

omit [DecidableEq Thread] in
theorem start_owned (tick : UInt64) : Owned (System.connectedStart tick : System Thread) where
  placed := {
    once := fun place => by cases place <;> exact .nil
    apart := fun _ left _ member => by cases left <;> cases member
    covers := fun _ => by
      refine ⟨fun member => (by cases member), ?_⟩
      rintro ⟨place, member⟩
      cases place <;> cases member }
  tickets _ member := by cases member

theorem numbered_length (next : Nat) (buffers : List Wsabuf) :
    (numbered next buffers).length = buffers.length := by
  induction buffers generalizing next with
  | nil => rfl
  | cons buffer rest ih => simp [numbered, ih]

theorem numbered_range (next : Nat) (buffers : List Wsabuf) (entry : Queued)
    (member : entry ∈ numbered next buffers) :
    next ≤ entry.ticket ∧ entry.ticket < next + buffers.length := by
  induction buffers generalizing next with
  | nil => cases member
  | cons buffer rest ih =>
      rw [List.length_cons]
      rcases List.mem_cons.mp member with rfl | later
      · simp only
        omega
      · have range := ih (next + 1) later
        omega

theorem numbered_nodup (next : Nat) (buffers : List Wsabuf) : (numbered next buffers).Nodup := by
  induction buffers generalizing next with
  | nil => exact .nil
  | cons buffer rest ih =>
      refine List.nodup_cons.mpr ⟨?_, ih (next + 1)⟩
      intro member
      have range := numbered_range (next + 1) rest _ member
      simp only at range
      omega

omit [DecidableEq Thread] in
theorem owned_admit (before after : System Thread) (holds : Owned before) (target : Place Thread)
    (buffers : List Wsabuf)
    (received : after.received = before.received ++ numbered before.received.length buffers)
    (arrived :
      contents after target = contents before target ++ numbered before.received.length buffers)
    (frame : ∀ place, place ≠ target → contents after place = contents before place) :
    Owned after where
  placed := by
    refine placed_admit (contents before) _ _ _ holds.placed target _ ?_
      (numbered_nodup before.received.length buffers) (by rw [arrived])
      (fun place other => by rw [frame place other]) ?_
    · -- A ticket is the number of buffers received before it.
      intro entry new old
      have range := numbered_range _ _ entry new
      have bound := holds.tickets entry old
      omega
    · intro entry
      rw [received, List.mem_append]
  tickets entry member := by
    rw [received, List.mem_append] at member
    rw [received, List.length_append, numbered_length]
    rcases member with old | new
    · have bound := holds.tickets entry old
      omega
    · exact (numbered_range _ _ entry new).2

omit [DecidableEq Thread] in
theorem owned_transfer (before after : System Thread) (holds : Owned before)
    (source target : Place Thread) (different : source ≠ target)
    (received : after.received = before.received) (left : contents after source = [])
    (arrived : contents after target = contents before target ++ contents before source)
    (frame : ∀ place, place ≠ source → place ≠ target →
      contents after place = contents before place) :
    Owned after where
  placed := by
    rw [received]
    exact placed_transfer (contents before) _ _ holds.placed source target
      (contents before source) [] different
      (by rw [List.append_nil]) (by rw [left]) (by rw [arrived])
      (fun place notSource notTarget => by rw [frame place notSource notTarget])
  tickets := by
    rw [received]
    exact holds.tickets

omit [DecidableEq Thread] in
theorem owned_frame (before after : System Thread) (holds : Owned before)
    (received : after.received = before.received)
    (frame : ∀ place, contents after place = contents before place) :
    Owned after where
  placed := by
    rw [received]
    exact placed_reorder (contents before) _ _ holds.placed (fun place => by rw [frame place])
  tickets := by
    rw [received]
    exact holds.tickets

theorem list_elsewhere (before after : System Thread) (thread other : Thread) (phase : Phase)
    (phases : after.phase = Function.update before.phase thread phase)
    (different : (.list other : Place Thread) ≠ .list thread) :
    contents after (.list other) = contents before (.list other) := by
  have apart : other ≠ thread := fun same => different (same ▸ rfl)
  simp [contents, phases, apart]

theorem list_same (before after : System Thread) (thread : Thread) (phase : Phase)
    (phases : after.phase = Function.update before.phase thread phase)
    (same : (role phase).buffers = (role (before.phase thread)).buffers) (other : Thread) :
    contents after (.list other) = contents before (.list other) := by
  by_cases mine : other = thread
  · simp [contents, phases, mine, same]
  · simp [contents, phases, mine]

omit [DecidableEq Thread] in
theorem unsubmitted_eq (system : System Thread) (holds : Guarded system) (thread : Thread)
    (inside : () ∈ (role (system.phase thread)).token)
    (stage : role (system.phase thread) ≠ .sent) :
    system.submitted = false ∧ unsubmitted system = system.segments := by
  have clean : system.submitted = false := by
    have known := holds.stage thread inside
    simpa [stage] using known
  exact ⟨clean, by simp [unsubmitted, clean]⟩

theorem call_owned (system : System Thread) (holds : Owned system) (thread : Thread)
    (buffers : List Wsabuf) (stands : system.phase thread = .idle) :
    Owned (callSend system thread buffers) := by
  apply owned_admit system _ holds (.list thread) buffers rfl
  · simp [contents, callSend, enter, stands, role, Role.buffers]
  · intro place other
    cases place with
    | list actor => exact list_elsewhere system _ thread actor _ rfl other
    | reserved | queue | segments | call _ => rfl

theorem flush_owned (system : System Thread) (holds : Owned system) (thread : Thread)
    (tick : UInt64) (stands : system.phase thread = .flushLock) :
    Owned { enter system thread (.sendEntry system.reserved) with
            reserved := []
            lastSendTick := tick
            reservedSendBytes := 0 } := by
  refine owned_transfer system _ holds .reserved (.list thread) (by simp) rfl rfl ?_ ?_
  · simp [contents, enter, stands, role, Role.buffers]
  · intro place notReserved notList
    cases place with
    | reserved => exact absurd rfl notReserved
    | list actor => exact list_elsewhere system _ thread actor _ rfl notList
    | queue | segments | call _ => rfl

theorem lock_owned (system : System Thread) (holds : Owned system) (thread : Thread)
    (buffers : List Queued) (stands : system.phase thread = .sendEntry buffers) :
    Owned (sendLocked system thread buffers) := by
  have listed : contents system (.list thread) = buffers := by
    simp [contents, stands, role, Role.buffers]
  refine owned_transfer system _ holds (.list thread) .queue (by simp) rfl ?_ ?_ ?_
  · cases busy : system.sending <;> simp [contents, sendLocked, enter, busy, role, Role.buffers]
  · rw [listed]
    rfl
  · intro place notList notQueue
    cases place with
    | queue => exact absurd rfl notQueue
    | list actor => exact list_elsewhere system _ thread actor _ rfl notList
    | reserved | segments | call _ => rfl

theorem drain_owned (system : System Thread) (holds : Owned system) (guarded : Guarded system)
    (thread : Thread) (stands : system.phase thread = .draining) :
    Owned { enter system thread .submitting with
            segments := system.segments ++ system.sendQueue
            sendQueue := [] } := by
  obtain ⟨clean, same⟩ :=
    unsubmitted_eq system guarded thread (by rw [stands]; simp [role, Role.token])
    (by rw [stands]; simp [role])
  refine owned_transfer system _ holds .queue .segments (by simp) rfl rfl ?_ ?_
  · simp [contents, unsubmitted, enter, clean]
  · intro place notQueue notSegments
    cases place with
    | queue => exact absurd rfl notQueue
    | segments => exact absurd rfl notSegments
    | list actor => exact list_same system _ thread _ rfl (by rw [stands]; rfl) actor
    | reserved | call _ => rfl

theorem submit_owned (system : System Thread) (holds : Owned system) (guarded : Guarded system)
    (thread : Thread) (result : WsaResult) (stands : system.phase thread = .submitting) :
    Owned (submit system thread result) := by
  obtain ⟨clean, same⟩ :=
    unsubmitted_eq system guarded thread (by rw [stands]; simp [role, Role.token])
    (by rw [stands]; simp [role])
  refine owned_transfer system _ holds .segments (.call system.calls.length) (by simp) rfl ?_ ?_ ?_
  · simp [contents, unsubmitted, submit]
  · simp [contents, same, submit]
  · intro place notSegments notCall
    cases place with
    | segments => exact absurd rfl notSegments
    | list actor => exact list_same system _ thread _ rfl (by rw [stands]; rfl) actor
    | call index =>
        -- The new call has the next index; those before it keep theirs.
        have other : index ≠ system.calls.length := fun equal => notCall (equal ▸ rfl)
        rcases Nat.lt_or_gt_of_ne other with earlier | later
        · simp [contents, submit, List.getElem?_append_left earlier]
        · have beyond : system.calls.length + 1 ≤ index := later
          simp [contents, submit, List.getElem?_eq_none (Nat.le_of_lt later),
            List.getElem?_eq_none (show (system.calls ++ [_]).length ≤ index by simpa using beyond)]
    | reserved | queue => rfl

theorem step_owned (before after : System Thread) (label : Label Thread) (holds : Owned before)
    (guarded : Guarded before) (move : Move before label after)
    (allowed : Online before label after) :
    Owned after := by
  cases move with
  | inert _ _ quiet _ =>
      apply owned_frame before after holds quiet.received
      intro place
      cases place with
      | reserved => exact quiet.reserved
      | list thread => rw [contents, contents, quiet.roles]
      | queue => exact quiet.sendQueue
      | segments =>
          rw [contents, contents, unsubmitted, unsubmitted, quiet.submitted, quiet.segments]
      | call index => rw [contents, contents, quiet.calls]
  | accept thread size position _ =>
      refine owned_admit before _ holds .reserved
        [{ len := (UInt16.ofNat (headerSize + size.toNat)).toNat, buf := position }] rfl rfl ?_
      intro place other
      cases place with
      | reserved => exact absurd rfl other
      | list _ | queue | segments | call _ => rfl
  | call thread buffers stands => exact call_owned before holds thread buffers stands
  | flush thread tick _ stands => exact flush_owned before holds thread tick stands
  | lock thread _ _ first rest stands => exact lock_owned before holds thread (first :: rest) stands
  | abandon thread _ _ _ stands => exact absurd stands (guarded.unrefused thread)
  | drain thread _ _ stands => exact drain_owned before holds guarded thread stands
  | submit thread _ result stands => exact submit_owned before holds guarded thread result stands
  | clear thread _ _ stands =>
      -- What `_segments.clear()` drops is in a call already.
      have sent : before.submitted = true :=
        (guarded.stage thread (by rw [stands]; simp [role, Role.token])).mpr (by rw [stands]; rfl)
      refine owned_frame before _ holds rfl ?_
      intro place
      cases place with
      | segments => simp [contents, unsubmitted, sent]
      | list actor => exact list_same before _ thread _ rfl (by rw [stands]; rfl) actor
      | reserved | queue | call _ => rfl
  | store thread _ _ stands =>
      refine owned_frame before _ holds rfl ?_
      intro place
      cases place with
      | list actor => exact list_same before _ thread _ rfl (by rw [stands]; rfl) actor
      | reserved | queue | segments | call _ => rfl
  | teardown _ off => exact (online_connected before after _ allowed off).elim

/-- What has been submitted, what is about to be and what is queued, in this order,
are the lists handed to `_send` in the order of its lock. -/
def InOrder (system : System Thread) : Prop :=
  system.calls.flatMap Submission.segments ++ unsubmitted system ++ system.sendQueue =
    system.handed.flatten

theorem step_in_order (before after : System Thread) (label : Label Thread) (holds : InOrder before)
    (guarded : Guarded before) (move : Move before label after)
    (allowed : Online before label after) :
    InOrder after := by
  unfold InOrder at *
  cases move with
  | inert _ _ quiet _ =>
      rw [quiet.calls, unsubmitted, quiet.submitted, quiet.segments, quiet.sendQueue, quiet.handed]
      exact holds
  | accept _ _ _ _ => exact holds
  | call _ _ _ => exact holds
  | flush _ _ _ _ => exact holds
  | lock thread _ _ first rest _ =>
      have kept : unsubmitted (sendLocked before thread (first :: rest)) = unsubmitted before := rfl
      rw [kept]
      simp only [sendLocked, enter, List.flatten_append, List.flatten_singleton]
      rw [← holds, ← List.append_assoc]
  | abandon thread _ _ _ stands => exact absurd stands (guarded.unrefused thread)
  | drain thread _ _ stands =>
      obtain ⟨clean, same⟩ :=
        unsubmitted_eq before guarded thread (by rw [stands]; simp [role, Role.token])
        (by rw [stands]; simp [role])
      rw [same] at holds
      simpa [unsubmitted, enter, clean] using holds
  | submit thread _ result stands =>
      obtain ⟨clean, same⟩ :=
        unsubmitted_eq before guarded thread (by rw [stands]; simp [role, Role.token])
        (by rw [stands]; simp [role])
      rw [same] at holds
      simpa [unsubmitted, submit, enter] using holds
  | clear thread _ _ stands =>
      have sent : before.submitted = true :=
        (guarded.stage thread (by rw [stands]; simp [role, Role.token])).mpr (by rw [stands]; rfl)
      simpa [unsubmitted, enter, sent] using holds
  | store _ _ _ _ => exact holds
  | teardown _ off => exact (online_connected before after _ allowed off).elim

/-- The thread is between winning `_sending.exchange(true)` and `_sending.store(false)`. -/
def holdsFlag : Phase → Bool
  | .registering | .refused | .draining | .submitting | .clearing | .storing => true
  | _ => false

theorem holds_flag_token (phase : Phase) : holdsFlag phase = true ↔ () ∈ (role phase).token := by
  cases phase <;> simp [holdsFlag, role, Role.token]

structure Invariant (system : System Thread) : Prop where
  guarded : Guarded system
  owned : Owned system
  inOrder : InOrder system

omit [DecidableEq Thread] in
theorem start_invariant (tick : UInt64) : Invariant (System.connectedStart tick : System Thread) :=
  ⟨start_guarded tick, start_owned tick, rfl⟩

theorem step_invariant (before after : System Thread) (label : Label Thread)
    (holds : Invariant before) (move : Move before label after)
    (allowed : Online before label after) : Invariant after where
  guarded := step_guarded before after label holds.guarded move allowed
  owned := step_owned before after label holds.owned holds.guarded move allowed
  inOrder := step_in_order before after label holds.inOrder holds.guarded move allowed

/-- The flag excludes, no buffer is lost or doubled, and the order of `_send` is kept. -/
theorem send_conserved (tick : UInt64) (system : System Thread)
    (reached : Reachable step online (System.connectedStart tick) system) :
    (∀ first second, holdsFlag (system.phase first) = true →
      holdsFlag (system.phase second) = true → first = second) ∧
    (∀ entry ∈ system.received,
      ∃! slot : Place Thread × Nat, (contents system slot.1)[slot.2]? = some entry) ∧
    system.calls.flatMap Submission.segments ++ unsubmitted system ++ system.sendQueue =
      system.handed.flatten := by
  have holds :=
    reachable_invariant step online Invariant (System.connectedStart tick) (start_invariant tick)
      (fun before label after holds taken allowed =>
        step_invariant before after label holds
          (step_move before after label taken) allowed) system reached
  refine ⟨?_, ?_, holds.inOrder⟩
  · intro first second left right
    exact guarded_sole system holds.guarded first second ((holds_flag_token _).mp left)
      ((holds_flag_token _).mp right)
  · intro entry known
    exact placed_slot_unique (contents system) _ holds.owned.placed entry known

def answers (before : System Thread) : Label Thread → Bool
  | .advance thread _ (.failed _) => before.phase thread ≠ .submitting
  | _ => true

def onlineStep (before : System Thread) (label : Label Thread) (after : System Thread) : Bool :=
  after.connected && answers before label

omit [DecidableEq Thread] in
theorem online_step_sound (before : System Thread) (label : Label Thread) (after : System Thread)
    (checked : onlineStep before label after = true) : online before label after := by
  rw [onlineStep, Bool.and_eq_true] at checked
  refine ⟨checked.1, ?_⟩
  rintro thread tick error stands rfl
  have answered := checked.2
  simp [answers, stands] at answered

/-- One thread has submitted two packets and the other has taken a third one out of
`_reserved`. -/
def halfwayLabels : List (Label Bool) :=
  [.send true 10 0, .send true 20 100, .flush true 2000, .advance true 2000 .done,
   .advance true 0 .done, .advance true 0 .done, .advance true 0 .done, .advance true 0 .pending,
   .send false 30 200, .flush false 4000, .advance false 4000 .done]

theorem send_conserved_halfway : ∃ system : System Bool,
    Reachable step online (System.connectedStart 0) system ∧
    system.received = [⟨0, ⟨14, 0⟩⟩, ⟨1, ⟨24, 100⟩⟩, ⟨2, ⟨34, 200⟩⟩] ∧
    system.phase true = .clearing ∧
    ∀ entry ∈ system.received,
      ∃! slot : Place Bool × Nat, (contents system slot.1)[slot.2]? = some entry := by
  obtain ⟨system, reached, seen⟩ := replay_reachable step online onlineStep online_step_sound
    (fun system : System Bool => (system.received, system.phase true))
    ([⟨0, ⟨14, 0⟩⟩, ⟨1, ⟨24, 100⟩⟩, ⟨2, ⟨34, 200⟩⟩], .clearing) halfwayLabels
      (System.connectedStart 0) (by decide)
  rw [Prod.mk.injEq] at seen
  exact ⟨system, reached, seen.1, seen.2, (send_conserved 0 system reached).2.1⟩

end NetCore.SendConservation
