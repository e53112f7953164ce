import NetCore.SessionLife
import Mathlib.Data.Fintype.Basic

/-! How often a session is torn down. The intended course is a small machine: the session
is open, one thread registers the disconnect, `DisconnectEx` is pending, one thread
processes its completion, the session is closed. `Disconnect()` leaves the open state with
an exchange of `_connected`; `_disconnect` only reads it, so that later triggers find it
still set. As long as no trigger finds it set while a teardown is under way, the code
follows the machine. -/
namespace NetCore.SessionTeardown
open TransitionRuns SegmentedReceive SessionLife

variable {Thread : Type}

inductive Part where
  | registering
  | clearing
  | releasing
  | closing
  deriving DecidableEq, Repr

def part : Phase → Option Part
  | .registering _ => some .registering
  | .clearing => some .clearing
  | .releasing => some .releasing
  | .closing => some .closing
  | _ => none

inductive Teardown (Thread : Type) where
  | open
  | active (thread : Thread) (part : Part)
  | pending
  | closed
  deriving DecidableEq, Repr

structure TornDownOnce (system : System Thread) : Prop where
  oneInProgress : system.disconnectOutstanding ≤ 1
  processedOnce : system.processed ≤ 1
  serviceSet : ∀ thread, system.phase thread = .clearing → system.service = true
  running : system.crashed = false

/-- The next step of the thread tests `_connected` to decide about a teardown. -/
def triggers : Phase → Bool
  | .exchange => true
  | .disconnectTest _ => true
  | _ => false

/-- A trigger that finds `_connected` set finds no teardown under way: no `DisconnectEx`
in progress and no thread about to call it or inside `_clear`. -/
def Single : Condition (System Thread) (Label Thread) := fun before label _ =>
  ∀ thread result processLen, label = .advance thread result processLen →
    triggers (before.phase thread) = true → before.connected = true →
    before.disconnectOutstanding = 0 ∧ ∀ other, part (before.phase other) = none

def setting : Phase → Bool
  | .settingService | .settingConnected => true
  | _ => false

def Teardown.outstanding : Teardown Thread → Nat
  | .pending => 1
  | _ => 0

def Teardown.processed : Teardown Thread → Nat
  | .active _ .registering => 0
  | .active _ _ => 1
  | .closed => 1
  | _ => 0

/-- `_service` is needed from the connection to the call in `_clear`. -/
def Teardown.Served (system : System Thread) : Teardown Thread → Prop
  | .open => system.connected = true → system.service = true
  | .active _ .registering => system.service = true
  | .pending => system.service = true
  | .active _ .clearing => system.service = true
  | .active _ _ => True
  | .closed => system.connected = false

variable [DecidableEq Thread]

def Teardown.partOf (thread : Thread) : Teardown Thread → Option Part
  | .active actor part => if thread = actor then some part else none
  | _ => none

structure Follows (system : System Thread) (stage : Teardown Thread) : Prop where
  parts : ∀ thread, part (system.phase thread) = stage.partOf thread
  outstanding : system.disconnectOutstanding = stage.outstanding
  processed : system.processed = stage.processed
  served : stage.Served system
  running : system.crashed = false
  setters : ∀ thread, setting (system.phase thread) = true →
    stage = .open ∧ system.connected = false ∧ system.joined = true
  ready : ∀ thread, system.phase thread = .settingConnected → system.service = true
  sole : ∀ first second, setting (system.phase first) = true →
    setting (system.phase second) = true → first = second
  early : system.joined = false → stage = .open ∧ system.connected = false

theorem start_follows : Follows (System.start : System Thread) .open where
  parts thread := rfl
  outstanding := rfl
  processed := rfl
  served connected := by cases connected
  running := rfl
  setters thread inside := by cases inside
  ready thread stands := by cases stands
  sole first second inside := by cases inside
  early _ := ⟨rfl, rfl⟩

theorem follows_torn_down_once (system : System Thread) (stage : Teardown Thread)
    (follows : Follows system stage) : TornDownOnce system := by
  constructor
  case oneInProgress =>
    rw [follows.outstanding]
    cases stage <;> simp [Teardown.outstanding]
  case processedOnce =>
    rw [follows.processed]
    cases stage with
    | active thread part => cases part <;> simp [Teardown.processed]
    | _ => simp [Teardown.processed]
  case serviceSet =>
    intro thread stands
    have mine := follows.parts thread
    have served := follows.served
    rw [stands] at mine
    cases stage with
    | active actor part =>
        by_cases own : thread = actor
        · simp only [Teardown.partOf, own, if_true] at mine
          cases mine
          exact served
        · simp only [Teardown.partOf, own, if_false] at mine
          cases mine
    | _ => cases mine
  case running => exact follows.running

section Moves
variable (before after : System Thread) (stage next : Teardown Thread)
  (follows : Follows before stage)
variable (thread : Thread) (phase : Phase)
variable (phases : after.phase = Function.update before.phase thread phase)

include follows phases

/-- A step of a thread that is past the set-up, from one stage to the same or another. -/
theorem follows_moved (own : part phase = next.partOf thread)
    (others : ∀ other, other ≠ thread → next.partOf other = stage.partOf other)
    (outstanding : after.disconnectOutstanding = next.outstanding)
    (processed : after.processed = next.processed) (served : next.Served after)
    (running : after.crashed = false) (unset : setting phase = false)
    (calm : stage = .open → before.connected = false → next = .open ∧ after.connected = false)
    (service : after.service = before.service ∨ stage ≠ .open)
    (joined : after.joined = before.joined) : Follows after next := by
  have still : ∀ other, setting (after.phase other) = true →
      setting (before.phase other) = true := by
    intro other inside
    by_cases mine : other = thread
    · rw [phases, mine, Function.update_self, unset] at inside
      cases inside
    · rwa [phases, Function.update_of_ne mine] at inside
  constructor
  case parts =>
    intro other
    by_cases mine : other = thread
    · rw [phases, mine, Function.update_self, own]
    · rw [phases, Function.update_of_ne mine, follows.parts other, others other mine]
  case outstanding => exact outstanding
  case processed => exact processed
  case served => exact served
  case running => exact running
  case setters =>
    intro other inside
    obtain ⟨opened, off, new⟩ := follows.setters other (still other inside)
    obtain ⟨stays, remains⟩ := calm opened off
    exact ⟨stays, remains, by rw [joined, new]⟩
  case ready =>
    intro other stands
    have inside := still other (by rw [stands]; rfl)
    by_cases mine : other = thread
    · rw [phases, mine, Function.update_self] at stands
      rw [stands] at unset
      cases unset
    · rw [phases, Function.update_of_ne mine] at stands
      rcases service with same | elsewhere
      · rw [same]
        exact follows.ready other stands
      · exact absurd (follows.setters other inside).1 elsewhere
  case sole =>
    exact fun first second left right =>
      follows.sole first second (still first left) (still second right)
  case early =>
    intro new
    rw [joined] at new
    obtain ⟨opened, off⟩ := follows.early new
    exact calm opened off

omit phases in
theorem acting_stage (acting : Part) (stands : part (before.phase thread) = some acting) :
    stage = .active thread acting := by
  have mine := follows.parts thread
  rw [stands] at mine
  cases stage with
  | active actor part =>
      by_cases own : thread = actor
      · simp only [Teardown.partOf, own, if_true, Option.some.injEq] at mine
        rw [own, mine]
      · simp [Teardown.partOf, own] at mine
  | _ => simp [Teardown.partOf] at mine

theorem follows_aside (was : part (before.phase thread) = none) (stays : part phase = none)
    (unset : setting phase = false)
    (outstanding : after.disconnectOutstanding = before.disconnectOutstanding)
    (processed : after.processed = before.processed) (service : after.service = before.service)
    (connected : after.connected = before.connected) (running : after.crashed = before.crashed)
    (joined : after.joined = before.joined) : Follows after stage := by
  apply follows_moved before after stage stage follows thread phase phases
  case own => rw [stays, ← follows.parts thread, was]
  case others => exact fun _ _ => rfl
  case outstanding => rw [outstanding, follows.outstanding]
  case processed => rw [processed, follows.processed]
  case served =>
    have served := follows.served
    cases stage with
    | active actor part => cases part <;> simp_all [Teardown.Served]
    | _ => simp_all [Teardown.Served]
  case running => rw [running, follows.running]
  case unset => exact unset
  case calm => exact fun opened off => ⟨opened, by rw [connected, off]⟩
  case service => exact Or.inl service
  case joined => exact joined

theorem follows_setting (inside : setting phase = true)
    (sole : ∀ other, setting (before.phase other) = true → other = thread) (opened : stage = .open)
    (off : before.connected = false)
    (outstanding : after.disconnectOutstanding = before.disconnectOutstanding)
    (processed : after.processed = before.processed)
    (connected : after.connected = before.connected) (running : after.crashed = before.crashed)
    (joined : after.joined = true) (ready : phase = .settingConnected → after.service = true) :
    Follows after .open := by
  subst opened
  have mine : ∀ other, setting (after.phase other) = true → other = thread := by
    intro other within
    by_contra different
    rw [phases, Function.update_of_ne different] at within
    exact different (sole other within)
  have none : part phase = none := by
    cases phase <;> first | rfl | cases inside
  constructor
  case parts =>
    intro other
    by_cases same : other = thread
    · rw [phases, same, Function.update_self, none]
      rfl
    · rw [phases, Function.update_of_ne same, follows.parts other]
  case outstanding => rw [outstanding, follows.outstanding]
  case processed => rw [processed, follows.processed]
  case served =>
    intro on
    rw [connected, off] at on
    cases on
  case running => rw [running, follows.running]
  case setters => exact fun _ _ => ⟨rfl, by rw [connected, off], joined⟩
  case ready =>
    intro other stands
    have same := mine other (by rw [stands]; rfl)
    rw [phases, same, Function.update_self] at stands
    exact ready stands
  case sole => exact fun first second left right => (mine first left).trans (mine second right).symm
  case early =>
    intro new
    rw [joined] at new
    cases new

/-- `_connected.store(true)` in `_set_connected`. -/
theorem follows_connected (stands : before.phase thread = .settingConnected)
    (plain : part phase = none) (unset : setting phase = false)
    (outstanding : after.disconnectOutstanding = before.disconnectOutstanding)
    (processed : after.processed = before.processed) (service : after.service = before.service)
    (running : after.crashed = before.crashed) (joined : after.joined = before.joined) :
    Follows after .open := by
  have inside : setting (before.phase thread) = true := by rw [stands]; rfl
  obtain ⟨opened, off, started⟩ := follows.setters thread inside
  subst opened
  have outside : ∀ other, setting (after.phase other) = false := by
    intro other
    by_cases same : other = thread
    · rw [phases, same, Function.update_self, unset]
    · rw [phases, Function.update_of_ne same]
      by_contra within
      exact same (follows.sole other thread (by simpa using within) inside)
  constructor
  case parts =>
    intro other
    by_cases same : other = thread
    · rw [phases, same, Function.update_self, plain]
      rfl
    · rw [phases, Function.update_of_ne same, follows.parts other]
  case outstanding => rw [outstanding, follows.outstanding]
  case processed => rw [processed, follows.processed]
  case served =>
    intro _
    rw [service]
    exact follows.ready thread stands
  case running => rw [running, follows.running]
  case setters =>
    intro other within
    rw [outside other] at within
    cases within
  case ready =>
    intro other sets
    have within := outside other
    rw [sets] at within
    cases within
  case sole =>
    intro first second within
    rw [outside first] at within
    cases within
  case early =>
    intro new
    rw [joined, started] at new
    cases new

omit phases in
theorem trigger_stage (connected : before.connected = true)
    (nothing : before.disconnectOutstanding = 0)
    (nobody : ∀ other, part (before.phase other) = none) : stage = .open := by
  cases stage with
  | «open» => rfl
  | active actor part =>
      have acts := follows.parts actor
      rw [nobody actor] at acts
      simp [Teardown.partOf] at acts
  | pending =>
      have waits := follows.outstanding
      rw [nothing] at waits
      cases waits
  | closed =>
      have off : before.connected = false := follows.served
      rw [connected] at off
      cases off

theorem follows_begun (opened : stage = .open) (connected : before.connected = true)
    (own : part phase = some .registering) (unset : setting phase = false)
    (outstanding : after.disconnectOutstanding = before.disconnectOutstanding)
    (processed : after.processed = before.processed) (service : after.service = before.service)
    (running : after.crashed = before.crashed) (joined : after.joined = before.joined) :
    Follows after (.active thread .registering) := by
  subst opened
  apply follows_moved before after .open _ follows thread phase phases
  case own => simp [own, Teardown.partOf]
  case others => intro other different; simp [Teardown.partOf, different]
  case outstanding => rw [outstanding, follows.outstanding]; rfl
  case processed => rw [processed, follows.processed]; rfl
  case served =>
    change after.service = true
    rw [service]
    exact follows.served connected
  case running => rw [running, follows.running]
  case unset => exact unset
  case calm =>
    intro _ off
    rw [connected] at off
    cases off
  case service => exact Or.inl service
  case joined => exact joined

theorem follows_acting (acting : Part) (stands : part (before.phase thread) = some acting)
    (own : part phase = next.partOf thread)
    (others : ∀ other, other ≠ thread → next.partOf other = none) (unset : setting phase = false)
    (outstanding : after.disconnectOutstanding = next.outstanding)
    (processed : after.processed = next.processed) (served : next.Served after)
    (running : after.crashed = before.crashed) (joined : after.joined = before.joined) :
    Follows after next := by
  have acts := acting_stage before stage follows thread acting stands
  subst acts
  apply follows_moved before after _ next follows thread phase phases
  case own => exact own
  case others =>
    intro other different
    rw [others other different]
    simp [Teardown.partOf, different]
  case outstanding => exact outstanding
  case processed => exact processed
  case served => exact served
  case running => rw [running, follows.running]
  case unset => exact unset
  case calm => exact fun opened => by cases opened
  case service => exact Or.inr (by simp)
  case joined => exact joined

end Moves

section Phases
variable (before after : System Thread) (stage : Teardown Thread) (follows : Follows before stage)
  (thread : Thread) (result : WsaResult) (processLen : Nat)
  (taken : advance before thread result processLen = some after)
include follows taken

theorem setting_service_follows (stands : before.phase thread = .settingService) :
    ∃ next, Follows after next := by
  unfold advance at taken
  simp only [stands, Option.some.injEq] at taken
  subst taken
  have inside : setting (before.phase thread) = true := by rw [stands]; rfl
  obtain ⟨opened, off, joined⟩ := follows.setters thread inside
  have sole := fun other within => follows.sole other thread within inside
  exact ⟨.open, follows_setting before _ stage follows thread .settingConnected rfl rfl sole opened
    off rfl rfl rfl rfl joined fun _ => rfl⟩

theorem setting_connected_follows (stands : before.phase thread = .settingConnected) :
    ∃ next, Follows after next := by
  unfold advance at taken
  simp only [stands, Option.some.injEq] at taken
  subst taken
  exact ⟨.open, follows_connected before _ stage follows thread .onConnected rfl stands rfl rfl
    rfl rfl rfl rfl rfl⟩

theorem exchange_follows
    (single : triggers (before.phase thread) = true → before.connected = true →
      before.disconnectOutstanding = 0 ∧ ∀ other, part (before.phase other) = none)
    (stands : before.phase thread = .exchange) : ∃ next, Follows after next := by
  unfold advance at taken
  simp only [stands, Option.some.injEq] at taken
  subst taken
  cases connected : before.connected with
  | true =>
      obtain ⟨nothing, nobody⟩ := single (by rw [stands]; rfl) connected
      have opened := trigger_stage before stage follows connected nothing nobody
      exact ⟨_,
        follows_begun before _ stage follows thread (.registering false) (by simp [enter]) opened
        connected rfl rfl rfl rfl rfl rfl rfl⟩
  | false =>
      have plain : part (before.phase thread) = none := by rw [stands]; rfl
      exact ⟨stage,
        follows_aside before _ stage follows thread .idle (by simp [enter]) plain rfl rfl rfl rfl
        rfl connected.symm rfl rfl⟩

theorem disconnect_test_follows
    (single : triggers (before.phase thread) = true → before.connected = true →
      before.disconnectOutstanding = 0 ∧ ∀ other, part (before.phase other) = none)
    (listening : Bool) (stands : before.phase thread = .disconnectTest listening) :
    ∃ next, Follows after next := by
  unfold advance at taken
  simp only [stands, Option.some.injEq] at taken
  subst taken
  cases connected : before.connected with
  | true =>
      obtain ⟨nothing, nobody⟩ := single (by rw [stands]; rfl) connected
      have opened := trigger_stage before stage follows connected nothing nobody
      exact ⟨_, follows_begun before _ stage follows thread (.registering listening)
        (by simp [enter]) opened
        connected rfl rfl rfl rfl rfl rfl rfl⟩
  | false =>
      have plain : part (before.phase thread) = none := by rw [stands]; rfl
      exact ⟨stage,
        follows_aside before _ stage follows thread .idle (by simp [enter]) plain rfl rfl rfl rfl
        rfl rfl rfl rfl⟩

theorem registering_follows (listening : Bool)
    (stands : before.phase thread = .registering listening) : ∃ next, Follows after next := by
  unfold advance at taken
  simp only [stands, Option.some.injEq] at taken
  subst taken
  have acting : part (before.phase thread) = some .registering := by rw [stands]; rfl
  obtain rfl := acting_stage before stage follows thread .registering acting
  have nothing := follows.outstanding
  cases answer : accepted result with
  | true =>
      exact ⟨.pending,
        follows_acting before _ _ .pending follows thread .idle rfl .registering acting rfl
        (fun _ _ => rfl) rfl (by simp [addAccepted, answer, nothing,
          Teardown.outstanding]) follows.processed
        follows.served rfl rfl⟩
  | false =>
      -- `DisconnectEx` failed: the session is as before, apart from `_connected` after an exchange.
      exact ⟨.open, follows_acting before _ _ .open follows thread .idle rfl .registering acting rfl
        (fun _ _ => rfl) rfl (by simp [addAccepted, answer, nothing,
          Teardown.outstanding]) follows.processed
        (fun _ => follows.served) rfl rfl⟩

theorem clearing_follows (stands : before.phase thread = .clearing) :
    ∃ next, Follows after next := by
  unfold advance at taken
  have acting : part (before.phase thread) = some .clearing := by rw [stands]; rfl
  obtain rfl := acting_stage before stage follows thread .clearing acting
  have served : before.service = true := by simpa [Teardown.Served] using follows.served
  simp only [stands, served, if_true, Option.some.injEq] at taken
  subst taken
  refine ⟨.active thread .releasing, follows_acting before _ _ _ follows thread .releasing rfl
    .clearing acting ?_ ?_ rfl follows.outstanding follows.processed trivial rfl rfl⟩
  · simp [part, Teardown.partOf]
  · intro other different
    simp [Teardown.partOf, different]

theorem releasing_follows (stands : before.phase thread = .releasing) :
    ∃ next, Follows after next := by
  unfold advance at taken
  simp only [stands, Option.some.injEq] at taken
  subst taken
  have acting : part (before.phase thread) = some .releasing := by rw [stands]; rfl
  obtain rfl := acting_stage before stage follows thread .releasing acting
  refine ⟨.active thread .closing, follows_acting before _ _ _ follows thread .closing rfl
    .releasing acting ?_ ?_ rfl follows.outstanding follows.processed trivial rfl rfl⟩
  · simp [part, Teardown.partOf]
  · intro other different
    simp [Teardown.partOf, different]

theorem closing_follows (stands : before.phase thread = .closing) :
    ∃ next, Follows after next := by
  unfold advance at taken
  simp only [stands, Option.some.injEq] at taken
  subst taken
  have acting : part (before.phase thread) = some .closing := by rw [stands]; rfl
  obtain rfl := acting_stage before stage follows thread .closing acting
  exact ⟨.closed, follows_acting before _ _ .closed follows thread .idle rfl .closing acting rfl
    (fun _ _ => rfl) rfl follows.outstanding follows.processed rfl rfl rfl⟩

end Phases

theorem advance_follows (before after : System Thread) (stage : Teardown Thread)
    (follows : Follows before stage) (thread : Thread) (result : WsaResult) (processLen : Nat)
    (taken : advance before thread result processLen = some after)
    (single : triggers (before.phase thread) = true → before.connected = true →
      before.disconnectOutstanding = 0 ∧ ∀ other, part (before.phase other) = none) :
    ∃ next, Follows after next := by
  unfold advance at taken
  cases stands : before.phase thread with
  | idle => simp [stands] at taken
  | settingService =>
      exact setting_service_follows before after stage follows thread result processLen taken stands
  | settingConnected =>
      exact setting_connected_follows before after stage follows thread result processLen taken
        stands
  | onConnected | recvCall | sendCall =>
      simp only [stands, Option.some.injEq] at taken
      subst taken
      have plain : part (before.phase thread) = none := by rw [stands]; rfl
      exact ⟨stage,
        follows_aside before _ stage follows thread _ rfl plain rfl rfl rfl rfl rfl rfl rfl rfl⟩
  | recvTest | received numberOfBytesRecvd | onRecv | sendTest | sent numberOfBytesSent
  | stopTest =>
      simp only [stands, Option.some.injEq] at taken
      subst taken
      have plain : part (before.phase thread) = none := by rw [stands]; rfl
      refine ⟨stage,
        follows_aside before _ stage follows thread _ rfl plain ?_ ?_ rfl rfl rfl rfl rfl rfl⟩
      · split <;> rfl
      · split <;> rfl
  | exchange =>
      exact exchange_follows before after stage follows thread result processLen taken single stands
  | disconnectTest listening =>
      exact disconnect_test_follows before after stage follows thread result processLen taken single
        listening stands
  | registering listening =>
      exact registering_follows before after stage follows thread result processLen taken listening
        stands
  | clearing =>
      exact clearing_follows before after stage follows thread result processLen taken stands
  | releasing =>
      exact releasing_follows before after stage follows thread result processLen taken stands
  | closing =>
      exact closing_follows before after stage follows thread result processLen taken stands

theorem step_follows (before after : System Thread) (label : Label Thread) (stage : Teardown Thread)
    (follows : Follows before stage) (taken : step before label = some after)
    (allowed : Single before label after) : ∃ next, Follows after next := by
  unfold step at taken
  split at taken
  case isTrue => simp at taken
  case isFalse =>
    cases label with
    | setConnected thread =>
        simp only [Option.ite_none_right_eq_some, Option.some.injEq] at taken
        obtain ⟨⟨stands, new⟩, rfl⟩ := taken
        obtain ⟨opened, off⟩ := follows.early new
        refine ⟨.open, follows_setting before _ stage follows thread .settingService rfl rfl ?_
          opened off rfl rfl rfl rfl rfl ?_⟩
        · intro other within
          have joined := (follows.setters other within).2.2
          rw [new] at joined
          cases joined
        · intro other
          cases other
    | send thread | disconnect thread | releaseAllSessions thread =>
        simp only [Option.ite_none_right_eq_some, Option.some.injEq] at taken
        obtain ⟨stands, rfl⟩ := taken
        exact ⟨stage, follows_aside before _ stage follows thread _ rfl (by rw [stands]; rfl)
          rfl rfl rfl rfl rfl
          rfl rfl rfl⟩
    | recvComplete thread numberOfBytes | sendComplete thread numberOfBytes =>
        simp only [Option.ite_none_right_eq_some, Option.some.injEq] at taken
        obtain ⟨⟨stands, _⟩, rfl⟩ := taken
        exact ⟨stage, follows_aside before _ stage follows thread _ rfl (by rw [stands]; rfl)
          rfl rfl rfl rfl rfl
          rfl rfl rfl⟩
    | disconnectComplete thread =>
        simp only [Option.ite_none_right_eq_some, Option.some.injEq] at taken
        obtain ⟨⟨stands, waiting⟩, rfl⟩ := taken
        have pending : stage = .pending := by
          rw [follows.outstanding] at waiting
          cases stage <;> first | rfl | cases waiting
        subst pending
        have served := follows.served
        have once := follows.outstanding
        have unprocessed := follows.processed
        refine ⟨.active thread .clearing,
          follows_moved before _ .pending _ follows thread .clearing rfl ?_ ?_ ?_ ?_
          served follows.running rfl (fun opened => by cases opened) (Or.inl rfl) rfl⟩
        · simp [part, Teardown.partOf]
        · intro other different
          simp [Teardown.partOf, different]
        · simp [once, Teardown.outstanding]
        · simp [unprocessed, Teardown.processed]
    | advance thread result processLen =>
        exact advance_follows before after stage follows thread result processLen taken
          (allowed thread result processLen rfl)

/-- In every run in which no trigger finds `_connected` set while a teardown is under way,
the session is torn down at most once. -/
theorem session_torn_down_once (system : System Thread)
    (reached : Reachable step Single System.start system) : TornDownOnce system := by
  have holds : ∃ stage, Follows system stage := by
    apply reachable_invariant step Single (fun system => ∃ stage, Follows system stage) System.start
    case holds => exact ⟨.open, start_follows⟩
    case keeps =>
      intro before label after holds taken allowed
      obtain ⟨stage, follows⟩ := holds
      exact step_follows before after label stage follows taken allowed
    case reached => exact reached
  obtain ⟨stage, follows⟩ := holds
  exact follows_torn_down_once system stage follows

def singleStep [Fintype Thread] (before : System Thread) (label : Label Thread)
    (_ : System Thread) : Bool :=
  match label with
  | .advance thread _ _ => decide (triggers (before.phase thread) = true → before.connected = true →
      before.disconnectOutstanding = 0 ∧ ∀ other, part (before.phase other) = none)
  | _ => true

omit [DecidableEq Thread] in
theorem single_step_sound [Fintype Thread] (before : System Thread) (label : Label Thread)
    (after : System Thread) (checked : singleStep before label after = true) :
    Single before label after := by
  rintro thread result processLen rfl
  exact of_decide_eq_true checked

/-- The session is connected, and a receive of zero bytes has made `_disconnect` call
`DisconnectEx`. -/
def closedByPeer : List (Label Unit) :=
  .setConnected () :: List.replicate 5 (.advance () .pending 0) ++
    .recvComplete () 0 :: List.replicate 3 (.advance () .pending 0)

def completesDisconnect : List (Label Unit) :=
  .disconnectComplete () :: List.replicate 3 (.advance () .done 0)

/-- The peer closes the connection and the session is torn down. -/
theorem torn_down_after_close : ∃ system : System Unit, Reachable step Single System.start system ∧
    system.processed = 1 ∧ system.connected = false ∧ TornDownOnce system := by
  obtain ⟨system, reached, seen⟩ := replay_reachable step Single singleStep single_step_sound
    (fun system : System Unit => (system.processed, system.connected)) (1, false)
    (closedByPeer ++ completesDisconnect) System.start (by decide)
  rw [Prod.mk.injEq] at seen
  exact ⟨system, reached, seen.1, seen.2, session_torn_down_once system reached⟩

/-- While `DisconnectEx` of `_disconnect` is in progress, the user calls `Disconnect()`. -/
def disconnectedTwice : List (Label Unit) :=
  closedByPeer ++ [.disconnect (), .advance () .done 0, .advance () .pending 0]

/-- `_disconnect` leaves `_connected` set, so `Disconnect()` calls `DisconnectEx` again on
the same event, and the second completion runs `_clear` with `_service` null. -/
theorem disconnect_during_teardown :
    (∃ system : System Unit, Reachable step (fun _ _ _ => True) System.start system ∧
      system.disconnectOutstanding = 2 ∧ ¬ TornDownOnce system) ∧
    ∃ system : System Unit, Reachable step (fun _ _ _ => True) System.start system ∧
      system.processed = 2 ∧ system.phase () = .clearing ∧ system.service = false ∧
      ¬ TornDownOnce system := by
  obtain ⟨overlapping, reached, seen⟩ :=
    replay_reachable step (fun _ _ _ => True) (fun _ _ _ => true)
    (fun _ _ _ _ => trivial) (fun system : System Unit => system.disconnectOutstanding) 2
    disconnectedTwice System.start (by decide)
  obtain ⟨repeated, later, found⟩ := replay_reachable step (fun _ _ _ => True) (fun _ _ _ => true)
    (fun _ _ _ _ => trivial)
    (fun system : System Unit => (system.processed, system.phase (), system.service))
      (2, .clearing, false)
    (disconnectedTwice ++ completesDisconnect ++ [.disconnectComplete ()]) System.start (by decide)
  simp only [Prod.mk.injEq] at found
  obtain ⟨processed, clearing, unset⟩ := found
  constructor
  · refine ⟨overlapping, reached, seen, ?_⟩
    intro once
    have most := once.oneInProgress
    omega
  · refine ⟨repeated, later, processed, clearing, unset, ?_⟩
    intro once
    have most := once.processedOnce
    omega

end NetCore.SessionTeardown
