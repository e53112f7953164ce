import NetCore.SessionLife

/-! Whether a connected session listens. The receive is handed on: from `_set_connected`
to the first `WSARecv`, from each completion to the thread that processes it, and from
that thread to the next `WSARecv` or to the `DisconnectEx` that ends the session. Exactly
one of them has it, until the session is disconnected, a teardown is registered or one of
these calls fails. The last is only logged and leaves nothing in the receive's place. -/
namespace NetCore.SessionListening
open TransitionRuns SegmentedReceive SessionLife

variable {Thread : Type}

def insideReceive : Phase → Bool
  | .settingService | .settingConnected | .onConnected => true
  | .recvTest | .recvCall | .received _ | .onRecv => true
  | .disconnectTest listening => listening
  | .registering listening => listening
  | _ => false

def Listens (system : System Thread) : Prop :=
  system.connected = true → system.registered = 0 →
    (∀ thread, insideReceive (system.phase thread) = false) → system.recvOutstanding = 1

/-- The next step of the thread is the system call to which it hands the receive on. -/
def handsOn : Phase → Bool
  | .recvCall => true
  | .registering listening => listening
  | _ => false

/-- On a connected session for which no disconnect has been registered, `WSARecv` does not
fail, nor does `DisconnectEx` where a thread calls it in place of the next receive. -/
def Answered : Condition (System Thread) (Label Thread) := fun before label _ =>
  ∀ thread result processLen, label = .advance thread result processLen →
    handsOn (before.phase thread) = true → before.connected = true → before.registered = 0 →
    accepted result = true

structure Chain (system : System Thread) (holder : Option Thread) : Prop where
  holders : ∀ thread, insideReceive (system.phase thread) = true ↔ holder = some thread
  held : holder ≠ none → system.recvOutstanding = 0
  most : system.recvOutstanding ≤ 1
  alive : system.connected = true → system.registered = 0 → holder ≠ none ∨
    system.recvOutstanding = 1
  early : system.joined = false → holder = none ∧ system.recvOutstanding = 0

theorem start_chain : Chain (System.start : System Thread) none where
  holders thread := by simp [System.start, insideReceive]
  held _ := rfl
  most := Nat.zero_le 1
  alive connected := by cases connected
  early _ := ⟨rfl, rfl⟩

theorem chain_listens (system : System Thread) (holder : Option Thread)
    (chain : Chain system holder) :
    Listens system := by
  intro connected unregistered outside
  rcases chain.alive connected unregistered with busy | waiting
  · obtain ⟨thread, held⟩ := Option.ne_none_iff_exists'.mp busy
    have inside := (chain.holders thread).mpr held
    rw [outside thread] at inside
    cases inside
  · exact waiting

variable [DecidableEq Thread]

section Moves
variable (before after : System Thread) (holder : Option Thread) (chain : Chain before holder)
variable (thread : Thread) (next : Phase)
variable (phases : after.phase = Function.update before.phase thread next)

include chain phases

theorem holders_moved (owner : Option Thread)
    (own : insideReceive next = true ↔ owner = some thread)
    (others : ∀ other, other ≠ thread → (holder = some other ↔ owner = some other))
    (other : Thread) :
    insideReceive (after.phase other) = true ↔ owner = some other := by
  by_cases mine : other = thread
  · rw [phases, mine, Function.update_self]
    exact own
  · rw [phases, Function.update_of_ne mine, chain.holders other]
    exact others other mine

theorem chain_outside (was : insideReceive (before.phase thread) = false)
    (stays : insideReceive next = false) (recv : after.recvOutstanding = before.recvOutstanding)
    (joined : after.joined = before.joined)
    (connected : after.connected = true → before.connected = true)
    (registered : after.registered = 0 → before.registered = 0) : Chain after holder := by
  have other : holder ≠ some thread := by
    intro held
    have inside := (chain.holders thread).mpr held
    rw [was] at inside
    cases inside
  constructor
  case holders =>
    exact holders_moved before after holder chain thread next phases holder (by simp [stays, other])
      fun _ _ => Iff.rfl
  case held => rw [recv]; exact chain.held
  case most => rw [recv]; exact chain.most
  case alive =>
    intro on none
    rw [recv]
    exact chain.alive (connected on) (registered none)
  case early => rw [joined, recv]; exact chain.early

theorem chain_inside (was : insideReceive (before.phase thread) = true)
    (stays : insideReceive next = true) (recv : after.recvOutstanding = before.recvOutstanding)
    (joined : after.joined = before.joined) : Chain after holder := by
  have mine := (chain.holders thread).mp was
  have busy : holder ≠ none := by simp [mine]
  constructor
  case holders =>
    exact holders_moved before after holder chain thread next phases holder (by simp [stays, mine])
      fun _ _ => Iff.rfl
  case held => rw [recv]; exact chain.held
  case most => rw [recv]; exact chain.most
  case alive => exact fun _ _ => Or.inl busy
  case early =>
    intro new
    rw [joined] at new
    exact absurd (chain.early new).1 busy

theorem chain_take (free : holder = none) (inside : insideReceive next = true)
    (recv : after.recvOutstanding = 0) (joined : after.joined = true) :
    Chain after (some thread) := by
  constructor
  case holders =>
    apply holders_moved before after holder chain thread next phases (some thread)
      (by simp [inside])
    intro other different
    simp [free, Ne.symm different]
  case held => exact fun _ => recv
  case most => rw [recv]; exact Nat.zero_le 1
  case alive => exact fun _ _ => Or.inl (by simp)
  case early =>
    intro new
    rw [joined] at new
    cases new

/-- The thread that has the receive hands it to the kernel, or it is over. -/
theorem chain_leave (was : insideReceive (before.phase thread) = true)
    (leaves : insideReceive next = false) (most : after.recvOutstanding ≤ 1)
    (joined : after.joined = before.joined)
    (finished : after.connected = true → after.registered = 0 → after.recvOutstanding = 1) :
    Chain after none := by
  have mine := (chain.holders thread).mp was
  constructor
  case holders =>
    apply holders_moved before after holder chain thread next phases none (by simp [leaves])
    intro other different
    simp [mine, Ne.symm different]
  case held => exact fun busy => absurd rfl busy
  case most => exact most
  case alive => exact fun on none => Or.inr (finished on none)
  case early =>
    intro new
    rw [joined] at new
    have free := (chain.early new).1
    rw [mine] at free
    cases free

end Moves

theorem unregistered_before (result : WsaResult) (registered : Nat)
    (none : addAccepted result registered = 0) : registered = 0 := by
  unfold addAccepted at none
  split at none <;> omega

section Phases
variable (before after : System Thread) (holder : Option Thread) (chain : Chain before holder)
  (thread : Thread) (result : WsaResult) (processLen : Nat)
  (taken : advance before thread result processLen = some after)
include chain taken

theorem recv_call_chain
    (answered : handsOn (before.phase thread) = true → before.connected = true →
      before.registered = 0 → accepted result = true)
    (stands : before.phase thread = .recvCall) :
    ∃ owner, Chain after owner := by
  unfold advance at taken
  simp only [stands, Option.some.injEq] at taken
  subst taken
  have inside : insideReceive (before.phase thread) = true := by rw [stands]; rfl
  have nothing : before.recvOutstanding = 0 := by
    apply chain.held
    rw [(chain.holders thread).mp inside]
    simp
  refine ⟨none, chain_leave before _ holder chain thread .idle rfl inside rfl ?_ rfl ?_⟩
  · simp only [addAccepted, nothing]
    split <;> decide
  · intro on unregistered
    simp only [addAccepted, nothing, answered (by rw [stands]; rfl) on unregistered, if_true]

theorem exchange_chain (stands : before.phase thread = .exchange) :
    ∃ owner, Chain after owner := by
  unfold advance at taken
  simp only [stands, Option.some.injEq] at taken
  subst taken
  refine ⟨holder,
    chain_outside before _ holder chain thread _ rfl (by rw [stands]; rfl) ?_ rfl rfl ?_ id⟩
  · split <;> rfl
  · intro on
    cases on

theorem disconnect_test_chain (listening : Bool)
    (stands : before.phase thread = .disconnectTest listening) : ∃ owner, Chain after owner := by
  unfold advance at taken
  simp only [stands, Option.some.injEq] at taken
  subst taken
  cases listening with
  | false =>
      refine ⟨holder,
        chain_outside before _ holder chain thread _ rfl (by rw [stands]; rfl) ?_ rfl rfl id id⟩
      split <;> rfl
  | true =>
      have inside : insideReceive (before.phase thread) = true := by rw [stands]; rfl
      cases on : before.connected with
      | true =>
          exact ⟨holder,
            chain_inside before _ holder chain thread (.registering true) rfl inside rfl rfl rfl⟩
      | false =>
          -- The session is no longer connected, so nobody need listen.
          refine ⟨none,
            chain_leave before _ holder chain thread .idle rfl inside rfl chain.most rfl ?_⟩
          intro still
          simp [enter, on] at still

theorem registering_chain
    (answered : handsOn (before.phase thread) = true → before.connected = true →
      before.registered = 0 → accepted result = true) (listening : Bool)
    (stands : before.phase thread = .registering listening) :
    ∃ owner, Chain after owner := by
  unfold advance at taken
  simp only [stands, Option.some.injEq] at taken
  subst taken
  cases listening with
  | false =>
      exact ⟨holder,
        chain_outside before _ holder chain thread .idle rfl (by rw [stands]; rfl) rfl rfl rfl
        id (unregistered_before result before.registered)⟩
  | true =>
      refine ⟨none,
        chain_leave before _ holder chain thread .idle rfl (by rw [stands]; rfl) rfl chain.most
        rfl ?_⟩
      intro on none
      have unregistered := unregistered_before result before.registered none
      simp [addAccepted, answered (by rw [stands]; rfl) on unregistered] at none

theorem clearing_chain (stands : before.phase thread = .clearing) :
    ∃ owner, Chain after owner := by
  unfold advance at taken
  simp only [stands, Option.some.injEq] at taken
  subst taken
  split
  case isTrue =>
    exact ⟨holder,
      chain_outside before _ holder chain thread .releasing rfl (by rw [stands]; rfl) rfl rfl rfl
      id id⟩
  case isFalse =>
    exact ⟨holder, chain.holders, chain.held, chain.most, chain.alive, chain.early⟩

theorem releasing_chain (stands : before.phase thread = .releasing) :
    ∃ owner, Chain after owner := by
  unfold advance at taken
  simp only [stands, Option.some.injEq] at taken
  subst taken
  exact ⟨holder,
    chain_outside before _ holder chain thread .closing rfl (by rw [stands]; rfl) rfl rfl rfl
    id id⟩

theorem closing_chain (stands : before.phase thread = .closing) : ∃ owner, Chain after owner := by
  unfold advance at taken
  simp only [stands, Option.some.injEq] at taken
  subst taken
  refine ⟨holder,
    chain_outside before _ holder chain thread .idle rfl (by rw [stands]; rfl) rfl rfl rfl ?_ id⟩
  intro on
  cases on

end Phases

theorem advance_chain (before after : System Thread) (holder : Option Thread)
    (chain : Chain before holder) (thread : Thread) (result : WsaResult) (processLen : Nat)
    (taken : advance before thread result processLen = some after)
    (answered : handsOn (before.phase thread) = true → before.connected = true →
      before.registered = 0 → accepted result = true) : ∃ owner, Chain after owner := by
  unfold advance at taken
  cases stands : before.phase thread with
  | idle => simp [stands] at taken
  | settingService | settingConnected | onConnected =>
      simp only [stands, Option.some.injEq] at taken
      subst taken
      exact ⟨holder,
        chain_inside before _ holder chain thread _ rfl (by rw [stands]; rfl) rfl rfl rfl⟩
  | recvTest | received numberOfBytesRecvd | onRecv =>
      simp only [stands, Option.some.injEq] at taken
      subst taken
      refine ⟨holder,
        chain_inside before _ holder chain thread _ rfl (by rw [stands]; rfl) ?_ rfl rfl⟩
      split <;> rfl
  | recvCall =>
      exact recv_call_chain before after holder chain thread result processLen taken answered stands
  | sendTest | sent numberOfBytesSent | stopTest =>
      simp only [stands, Option.some.injEq] at taken
      subst taken
      refine ⟨holder,
        chain_outside before _ holder chain thread _ rfl (by rw [stands]; rfl) ?_ rfl rfl id id⟩
      split <;> rfl
  | sendCall =>
      simp only [stands, Option.some.injEq] at taken
      subst taken
      exact ⟨holder,
        chain_outside before _ holder chain thread _ rfl (by rw [stands]; rfl) rfl rfl rfl id id⟩
  | exchange => exact exchange_chain before after holder chain thread result processLen taken stands
  | disconnectTest listening =>
      exact disconnect_test_chain before after holder chain thread result processLen taken listening
        stands
  | registering listening =>
      exact registering_chain before after holder chain thread result processLen taken answered
        listening stands
  | clearing => exact clearing_chain before after holder chain thread result processLen taken stands
  | releasing =>
      exact releasing_chain before after holder chain thread result processLen taken stands
  | closing => exact closing_chain before after holder chain thread result processLen taken stands

theorem step_chain (before after : System Thread) (label : Label Thread) (holder : Option Thread)
    (chain : Chain before holder) (taken : step before label = some after)
    (allowed : Answered before label after) : ∃ owner, Chain after owner := by
  unfold step at taken
  split at taken
  case isTrue => simp at taken
  case isFalse =>
    cases label with
    | setConnected thread =>
        simp only [Option.ite_none_right_eq_some, Option.some.injEq] at taken
        obtain ⟨⟨stands, new⟩, rfl⟩ := taken
        obtain ⟨free, nothing⟩ := chain.early new
        exact ⟨some thread,
          chain_take before _ holder chain thread .settingService rfl free rfl nothing rfl⟩
    | send thread | disconnect thread | releaseAllSessions thread =>
        simp only [Option.ite_none_right_eq_some, Option.some.injEq] at taken
        obtain ⟨stands, rfl⟩ := taken
        exact ⟨holder,
          chain_outside before _ holder chain thread _ rfl (by rw [stands]; rfl) rfl rfl rfl id id⟩
    | recvComplete thread numberOfBytesRecvd =>
        simp only [Option.ite_none_right_eq_some, Option.some.injEq] at taken
        obtain ⟨⟨stands, waiting⟩, rfl⟩ := taken
        have free : holder = none := by
          by_contra busy
          have nothing := chain.held busy
          omega
        have joined : before.joined = true := by
          by_contra new
          have nothing := (chain.early (by simpa using new)).2
          omega
        have most := chain.most
        refine ⟨some thread, chain_take before _ holder chain thread _ rfl free rfl ?_ joined⟩
        simp only
        omega
    | sendComplete thread numberOfBytesSent =>
        simp only [Option.ite_none_right_eq_some, Option.some.injEq] at taken
        obtain ⟨⟨stands, _⟩, rfl⟩ := taken
        exact ⟨holder,
          chain_outside before _ holder chain thread _ rfl (by rw [stands]; rfl) rfl rfl rfl id id⟩
    | disconnectComplete thread =>
        simp only [Option.ite_none_right_eq_some, Option.some.injEq] at taken
        obtain ⟨⟨stands, _⟩, rfl⟩ := taken
        exact ⟨holder,
          chain_outside before _ holder chain thread _ rfl (by rw [stands]; rfl) rfl rfl rfl id id⟩
    | advance thread result processLen =>
        exact advance_chain before after holder chain thread result processLen taken
          (allowed thread result processLen rfl)

/-- In every run in which the calls that hand the receive on do not fail while the session
is connected and no disconnect is registered, the session listens. -/
theorem connected_session_listens (system : System Thread)
    (reached : Reachable step Answered System.start system) : Listens system := by
  have holds : ∃ holder, Chain system holder := by
    apply reachable_invariant step Answered (fun system => ∃ holder,
      Chain system holder) System.start
    case holds => exact ⟨none, start_chain⟩
    case keeps =>
      intro before label after holds taken allowed
      obtain ⟨holder, chain⟩ := holds
      exact step_chain before after label holder chain taken allowed
    case reached => exact reached
  obtain ⟨holder, chain⟩ := holds
  exact chain_listens system holder chain

def answeredStep (before : System Thread) (label : Label Thread) (_ : System Thread) : Bool :=
  match label with
  | .advance thread result _ => decide (handsOn (before.phase thread) = true →
    before.connected = true → before.registered = 0 → accepted result = true)
  | _ => true

omit [DecidableEq Thread] in
theorem answered_step_sound (before : System Thread) (label : Label Thread) (after : System Thread)
    (checked : answeredStep before label after = true) : Answered before label after := by
  rintro thread result processLen rfl
  exact of_decide_eq_true checked

/-- `_set_connected` up to the first `WSARecv`, which answers `result`. -/
def connects (result : WsaResult) : List (Label Unit) :=
  .setConnected () :: List.replicate 4 (.advance () .done 0) ++ [.advance () result 0]

/-- A message has been received and the next receive is outstanding. -/
theorem listens_after_message : ∃ system : System Unit,
    Reachable step Answered System.start system ∧ system.connected = true ∧
    system.phase () = .idle ∧
    Listens system := by
  obtain ⟨system, reached, seen⟩ := replay_reachable step Answered answeredStep answered_step_sound
    (fun system : System Unit => (system.connected, system.phase ())) (true, .idle)
    (connects .pending ++ [.recvComplete () 10, .advance () .done 0, .advance () .done 10,
      .advance () .done 0, .advance () .pending 0]) System.start (by decide)
  rw [Prod.mk.injEq] at seen
  exact ⟨system, reached, seen.1, seen.2, connected_session_listens system reached⟩

/-- The first `WSARecv` fails with `WSAECONNRESET`: the session stays connected, no
teardown is registered and nothing is outstanding. -/
theorem failed_receive_deafens : ∃ system : System Unit,
    Reachable step (fun _ _ _ => True) System.start system ∧
    system.recvOutstanding = 0 ∧ ¬ Listens system := by
  obtain ⟨system, reached, seen⟩ := replay_reachable step (fun _ _ _ => True) (fun _ _ _ => true)
    (fun _ _ _ _ => trivial)
    (fun system : System Unit =>
      (system.connected, system.registered, system.phase (), system.recvOutstanding))
    (true, 0, .idle, 0) (connects (.failed 10054)) System.start (by decide)
  simp only [Prod.mk.injEq] at seen
  obtain ⟨connected, registered, idle, nothing⟩ := seen
  refine ⟨system, reached, nothing, ?_⟩
  intro listens
  have outstanding := listens connected registered fun thread => by
    rw [show thread = () from rfl, idle]
    rfl
  rw [nothing] at outstanding
  cases outstanding

end NetCore.SessionListening
