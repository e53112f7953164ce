import NetCore.TransitionRuns
import NetCore.ClientServiceEx
import NetCore.ServiceObjects
import Mathlib.Data.Finset.Basic
import Mathlib.Data.Multiset.AddSub
import Mathlib.Data.List.Nodup

/-! The calls of the three services: `Start`, `Stop`, `AddNewSession`, `ReleaseSession` and
`ReleaseAllSessions`, whole and one after the other. What the registration of a handle, the
steps of `Connect` and `StartListen` and the calls of `AcceptEx` answer is part of a call. The
session factory makes a new session at every call; sessions are numbered in the order of their
creation, and so are connectors and listeners. A call that ends in a null pointer or never
returns has no state after it. `ClientServiceEx.releaseSlot` is shared with the module that
follows the null slots of the vector. -/
namespace NetCore.ServiceCalls
open TransitionRuns
open ClientServiceEx (releaseSlot)
open ServiceObjects (maxAcceptCount)

structure SockAddr where
  family : BitVec 16
  port : BitVec 16
  deriving DecidableEq, Repr

def afInet : BitVec 16 := 2#16

def maxPort : Nat := 65535

def isValid (addr : SockAddr) : Bool :=
  if addr.family ≠ afInet then false
  else if addr.port = 0#16 ∨ maxPort < addr.port.toNat then false
  else true

/-- What a service is constructed with; a pointer is given by whether it is not null. -/
structure Config where
  iocpCore : Bool
  sessionFactory : Bool
  addr : SockAddr
  sessionCount : Nat
  deriving DecidableEq, Repr

inductive Kind where
  | client
  | clientEx
  | server
  deriving DecidableEq, Repr

inductive Members where
  | client (session connector : Option Nat)
  | clientEx (sessions : List (Option Nat)) (connectors : List Nat)
  | server (sessions : Finset Nat) (listener : Option Nat)
  deriving DecidableEq

def Members.construct : Kind → Members
  | .client => .client none none
  | .clientEx => .clientEx [] []
  | .server => .server ∅ none

/-- `created` counts the sessions, `opened` the connectors and listeners. `served` says for each
session whether its `_service` is set. -/
structure Service where
  members : Members
  onGoing : Bool
  created : Nat
  opened : Nat
  served : Nat → Bool

def Service.construct (kind : Kind) : Service where
  members := .construct kind
  onGoing := false
  created := 0
  opened := 0
  served := fun _ => false

/-- What `CheckError` leaves as the last error when a call fails. -/
inductive Errors where
  | appServiceIsAlreadyStarted
  | appServiceIocpcoreNullptr
  | appServiceSessionfactoryNullptr
  | appServiceSockaddrInvalid
  | appClientserviceConnectFailed
  | appServerserviceListenFailed
  deriving DecidableEq, Repr

/-- `AddNewSession`. Both clients store the session before its handle is registered, the server
after it. -/
def addNewSession (registered : Bool) (service : Service) : Service × Option Nat :=
  let session := service.created
  let answer := if registered then some session else none
  let next := { service with created := session + 1 }
  match service.members with
  | .client _ connector => ({ next with members := .client (some session) connector }, answer)
  | .clientEx sessions connectors =>
      ({ next with members := .clientEx (sessions ++ [some session]) connectors }, answer)
  | .server sessions listener =>
      if registered then
        ({ next with members := .server (insert session sessions) listener }, answer)
      else (next, answer)

/-- `ReleaseSession`. The single client does not look at its argument. -/
def releaseSession (session : Nat) (service : Service) : Service × Bool :=
  match service.members with
  | .client none _ => (service, false)
  | .client (some _) connector => ({ service with members := .client none connector }, true)
  | .clientEx sessions connectors =>
      ({ service with members := .clientEx (releaseSlot session sessions) connectors },
        sessions.contains (some session))
  | .server sessions listener =>
      ({ service with members := .server (sessions.erase session) listener },
        decide (session ∈ sessions))

/-- The server disconnects its sessions first; that only starts an operation. -/
def releaseAllSessions (service : Service) : Service :=
  match service.members with
  | .client _ connector => { service with members := .client none connector }
  | .clientEx _ connectors => { service with members := .clientEx [] connectors }
  | .server _ listener => { service with members := .server ∅ listener }

/-- What the steps of `Connector::Connect` answer. `connectEx` is TRUE or `WSA_IO_PENDING`. -/
structure ConnectAnswers where
  registered : Bool
  reuseAddress : Bool
  bound : Bool
  connectEx : Bool
  deriving DecidableEq, Repr

/-- `Connect` on a connector just made, whose `_connected` is false. -/
def connect (answers : ConnectAnswers) : Bool :=
  if answers.registered = false then false
  else if answers.reuseAddress = false then false
  else if answers.bound = false then false
  else answers.connectEx

/-- One turn of `RegisterAccept`: the registration in `AddNewSession`, then `AcceptEx`. -/
structure AcceptAnswers where
  registered : Bool
  acceptEx : Bool
  deriving DecidableEq, Repr

structure ListenAnswers where
  registered : Bool
  linger : Bool
  reuseAddress : Bool
  bound : Bool
  listening : Bool
  accepts : Nat → List AcceptAnswers

def listens (answers : ListenAnswers) : Bool :=
  if answers.registered = false then false
  else if answers.linger = false then false
  else if answers.reuseAddress = false then false
  else if answers.bound = false then false
  else answers.listening

/-- `RegisterAccept`: an `AcceptEx` that fails is tried again with another session. -/
def registerAccept : List AcceptAnswers → Service → Option Service
  | [], _ => none
  | answers :: rest, service =>
      match addNewSession answers.registered service with
      | (_, none) => none
      | (added, some _) => if answers.acceptEx then some added else registerAccept rest added

def acceptLoop (accepts : Nat → List AcceptAnswers) : Nat → Nat → Service → Option Service
  | 0, _, service => some service
  | remaining + 1, index, service =>
      (registerAccept (accepts index) service).bind (acceptLoop accepts remaining (index + 1))

/-- The loop of `ClientServiceEx::Start`, from `index` on: whether it got through, the
connectors and how many were made. -/
def connectLoop (connects : Nat → ConnectAnswers) :
    Nat → Nat → List Nat → Nat → Bool × List Nat × Nat
  | 0, _, connectors, opened => (true, connectors, opened)
  | remaining + 1, index, connectors, opened =>
      if connect (connects index) then
        connectLoop connects remaining (index + 1) (connectors ++ [opened]) (opened + 1)
      else (false, connectors ++ [opened], opened + 1)

structure StartAnswers where
  connects : Nat → ConnectAnswers
  listen : ListenAnswers

def checkConditions (config : Config) (service : Service) : Except Errors Unit :=
  if service.onGoing then .error .appServiceIsAlreadyStarted
  else if config.iocpCore = false then .error .appServiceIocpcoreNullptr
  else if config.sessionFactory = false then .error .appServiceSessionfactoryNullptr
  else if isValid config.addr = false then .error .appServiceSockaddrInvalid
  else .ok ()

/-- `Start` once its conditions are met. A connector or listener is stored before it is used, and
no failure takes it out again. -/
def startConnections (config : Config) (answers : StartAnswers) (service : Service) :
    Option (Except Errors Unit × Service) :=
  match service.members with
  | .client session _ =>
      let made := { service with
          members := .client session (some service.opened), opened := service.opened + 1 }
      if connect (answers.connects 0) then some (.ok (), { made with onGoing := true })
      else some (.error .appClientserviceConnectFailed, made)
  | .clientEx sessions connectors =>
      let ended := connectLoop answers.connects config.sessionCount 0 connectors service.opened
      let made := { service with members := .clientEx sessions ended.2.1, opened := ended.2.2 }
      if ended.1 then some (.ok (), { made with onGoing := true })
      else some (.error .appClientserviceConnectFailed, made)
  | .server sessions _ =>
      let made := { service with
          members := .server sessions (some service.opened), opened := service.opened + 1 }
      if listens answers.listen then
        (acceptLoop answers.listen.accepts maxAcceptCount 0 made).map fun accepting =>
          (.ok (), { accepting with onGoing := true })
      else some (.error .appServerserviceListenFailed, made)

def start (config : Config) (answers : StartAnswers) (service : Service) :
    Option (Except Errors Unit × Service) :=
  match checkConditions config service with
  | .error error => some (.error error, service)
  | .ok () => startConnections config answers service

/-- `Stop`. The server clears its flag first and the others last, which no whole call sees. -/
def stop (service : Service) : Service :=
  let closed := match service.members with
    | .client session _ => Members.client session none
    | .clientEx sessions _ => .clientEx sessions []
    | .server sessions _ => .server sessions none
  { releaseAllSessions { service with members := closed } with onGoing := false }

/-- `Session::_set_connected` and `Session::_clear`, as far as the service is concerned. The
latter calls through `_service` and then resets it. -/
def setConnected (session : Nat) (service : Service) : Service :=
  { service with served := Function.update service.served session true }

def clear (session : Nat) (service : Service) : Service :=
  let released := (releaseSession session service).1
  { released with served := Function.update released.served session false }

inductive Call where
  | start (answers : StartAnswers)
  | stop
  | addNewSession (registered : Bool)
  | setConnected (session : Nat)
  | clear (session : Nat)
  | releaseAllSessions

/-- `AddNewSession` calls through the session factory and the completion port, which only
`Start` tests. A session may outlive its place in the service, as applications keep references. -/
def step (config : Config) : Step Service Call := fun service call =>
  match call with
  | .start answers => (start config answers service).map Prod.snd
  | .stop => some (stop service)
  | .addNewSession registered =>
      if config.iocpCore ∧ config.sessionFactory then
        some (addNewSession registered service).1 else none
  | .setConnected session =>
      if session < service.created then some (setConnected session service) else none
  | .clear session => if service.served session then some (clear session service) else none
  | .releaseAllSessions => some (releaseAllSessions service)

/-! What the members stand for: the sessions the service holds and what it connects or listens
through. -/

def held : Members → Multiset Nat
  | .client session _ => session.toList
  | .clientEx sessions _ => sessions.reduceOption
  | .server sessions _ => sessions.val

def endpoints : Members → List Nat
  | .client _ connector => connector.toList
  | .clientEx _ connectors => connectors
  | .server _ listener => listener.toList

structure Sound (service : Service) : Prop where
  once : (held service.members).Nodup
  numbered : ∀ session ∈ held service.members, session < service.created
  attached : ∀ endpoint ∈ endpoints service.members, endpoint < service.opened

structure ReleasesOnly (service : Service) (session : Nat) : Prop where
  answered : (releaseSession session service).2 = true ↔ session ∈ held service.members
  left : ∀ other, other ∈ held (releaseSession session service).1.members ↔
    other ∈ held service.members ∧ other ≠ session

theorem mem_held_clientEx (session : Nat) (sessions : List (Option Nat)) (connectors : List Nat) :
    session ∈ held (.clientEx sessions connectors) ↔ some session ∈ sessions :=
  List.reduceOption_mem_iff

theorem sound_construct (kind : Kind) : Sound (.construct kind) := by
  cases kind with
  | client => constructor <;> simp [Service.construct, Members.construct, held, endpoints]
  | clientEx => constructor <;> simp [Service.construct, Members.construct, held, endpoints]
  | server => constructor <;> simp [Service.construct, Members.construct, held, endpoints]

theorem created_not_held (service : Service) (sound : Sound service) :
    service.created ∉ held service.members := by
  intro member
  exact lt_irrefl service.created (sound.numbered service.created member)

theorem sound_of_fewer (before after : Service) (sound : Sound before)
    (fewer : held after.members ≤ held before.members)
    (kept : ∀ endpoint ∈ endpoints after.members, endpoint ∈ endpoints before.members)
    (created : after.created = before.created) (opened : after.opened = before.opened) :
    Sound after := by
  constructor
  case once => exact Multiset.nodup_of_le fewer sound.once
  case numbered =>
    intro session member
    rw [created]
    exact sound.numbered session (Multiset.mem_of_le fewer member)
  case attached =>
    intro endpoint member
    rw [opened]
    exact sound.attached endpoint (kept endpoint member)

@[simp] theorem add_new_session_created (registered : Bool) (service : Service) :
    (addNewSession registered service).1.created = service.created + 1 := by
  obtain ⟨members, onGoing, created, opened, served⟩ := service
  cases members <;> cases registered <;> rfl

@[simp] theorem add_new_session_opened (registered : Bool) (service : Service) :
    (addNewSession registered service).1.opened = service.opened := by
  obtain ⟨members, onGoing, created, opened, served⟩ := service
  cases members <;> cases registered <;> rfl

@[simp] theorem add_new_session_endpoints (registered : Bool) (service : Service) :
    endpoints (addNewSession registered service).1.members = endpoints service.members := by
  obtain ⟨members, onGoing, created, opened, served⟩ := service
  cases members <;> cases registered <;> rfl

theorem add_new_session_held (registered : Bool) (service : Service) (sound : Sound service) :
    held (addNewSession registered service).1.members = {service.created} ∨
    held (addNewSession registered service).1.members = service.created ::ₘ held service.members ∨
    held (addNewSession registered service).1.members = held service.members := by
  have fresh := created_not_held service sound
  obtain ⟨members, onGoing, created, opened, served⟩ := service
  cases members with
  | client session connector => exact .inl rfl
  | clientEx sessions connectors =>
      refine .inr (.inl ?_)
      simp only [addNewSession, held, ClientServiceEx.reduce_append_some]
      exact Multiset.coe_eq_coe.mpr (List.perm_append_singleton _ _)
  | server sessions listener =>
      cases registered with
      | true => exact .inr (.inl (Finset.insert_val_of_notMem fresh))
      | false => exact .inr (.inr rfl)

theorem add_new_session_sound (registered : Bool) (service : Service) (sound : Sound service) :
    Sound (addNewSession registered service).1 := by
  have fresh := created_not_held service sound
  have older : ∀ session ∈ held service.members, session < service.created + 1 :=
    fun session member => Nat.lt_succ_of_lt (sound.numbered session member)
  constructor
  case once =>
    rcases add_new_session_held registered service sound with same | same | same
    · rw [same]
      exact Multiset.nodup_singleton _
    · rw [same]
      exact Multiset.nodup_cons.mpr ⟨fresh, sound.once⟩
    · rw [same]
      exact sound.once
  case numbered =>
    intro session member
    rw [add_new_session_created]
    rcases add_new_session_held registered service sound with same | same | same
    · rw [same, Multiset.mem_singleton] at member
      omega
    · rw [same, Multiset.mem_cons] at member
      rcases member with rfl | member
      · omega
      · exact older session member
    · rw [same] at member
      exact older session member
  case attached => simpa using sound.attached

theorem register_accept_keeps (kept : Service → Prop)
    (keeps : ∀ registered service, kept service → kept (addNewSession registered service).1)
    (answers : List AcceptAnswers) (service after : Service) (holds : kept service)
    (taken : registerAccept answers service = some after) : kept after := by
  induction answers generalizing service with
  | nil => cases taken
  | cons answer rest ih =>
      have added := keeps answer.registered service holds
      unfold registerAccept at taken
      split at taken
      case h_1 => cases taken
      case h_2 next _ answered =>
        rw [answered] at added
        split at taken
        · cases taken
          exact added
        · exact ih next added taken

theorem accept_loop_keeps (kept : Service → Prop)
    (keeps : ∀ registered service, kept service → kept (addNewSession registered service).1)
    (accepts : Nat → List AcceptAnswers) (remaining index : Nat) (service after : Service)
    (holds : kept service) (taken : acceptLoop accepts remaining index service = some after) :
    kept after := by
  induction remaining generalizing index service with
  | zero =>
      cases taken
      exact holds
  | succ remaining ih =>
      obtain ⟨next, first, later⟩ := Option.bind_eq_some_iff.mp taken
      exact ih (index + 1) next (register_accept_keeps kept keeps _ service next holds first) later

theorem append_opened_attached (connectors : List Nat) (opened : Nat)
    (attached : ∀ connector ∈ connectors, connector < opened) :
    ∀ connector ∈ connectors ++ [opened], connector < opened + 1 := by
  intro connector member
  rcases List.mem_append.mp member with old | new
  · exact Nat.lt_succ_of_lt (attached connector old)
  · rw [List.mem_singleton.mp new]
    exact Nat.lt_succ_self opened

theorem connect_loop_attached (connects : Nat → ConnectAnswers) (remaining index : Nat)
    (connectors : List Nat) (opened : Nat)
    (attached : ∀ connector ∈ connectors, connector < opened) :
    ∀ connector ∈ (connectLoop connects remaining index connectors opened).2.1,
      connector < (connectLoop connects remaining index connectors opened).2.2 := by
  induction remaining generalizing index connectors opened with
  | zero => exact attached
  | succ remaining ih =>
      have pushed := append_opened_attached connectors opened attached
      unfold connectLoop
      split
      case isTrue => exact ih (index + 1) (connectors ++ [opened]) (opened + 1) pushed
      case isFalse => exact pushed

theorem start_cases (config : Config) (answers : StartAnswers) (service after : Service)
    (result : Except Errors Unit) (taken : start config answers service = some (result, after)) :
    (∃ error, checkConditions config service = .error error ∧ result = .error error ∧
      after = service) ∨
    (checkConditions config service = .ok () ∧
      startConnections config answers service = some (result, after)) := by
  unfold start at taken
  split at taken
  case h_1 error refused =>
    cases taken
    exact .inl ⟨error, refused, rfl, rfl⟩
  case h_2 passed => exact .inr ⟨passed, taken⟩

theorem start_connections_sound (config : Config) (answers : StartAnswers) (service after : Service)
    (result : Except Errors Unit) (sound : Sound service)
    (taken : startConnections config answers service = some (result, after)) : Sound after := by
  obtain ⟨members, onGoing, created, opened, served⟩ := service
  cases members with
  | client session connector =>
      have made : Sound ⟨.client session (some opened), onGoing, created, opened + 1, served⟩ :=
        ⟨sound.once, sound.numbered, by simp [endpoints]⟩
      simp only [startConnections] at taken
      split at taken
      · cases taken
        exact ⟨made.once, made.numbered, made.attached⟩
      · cases taken
        exact made
  | clientEx sessions connectors =>
      have made :=
        connect_loop_attached answers.connects config.sessionCount 0 connectors
          opened sound.attached
      simp only [startConnections] at taken
      split at taken
      · cases taken
        exact ⟨sound.once, sound.numbered, made⟩
      · cases taken
        exact ⟨sound.once, sound.numbered, made⟩
  | server sessions listener =>
      have made : Sound ⟨.server sessions (some opened), onGoing, created, opened + 1, served⟩ :=
        ⟨sound.once, sound.numbered, by simp [endpoints]⟩
      simp only [startConnections] at taken
      split at taken
      · obtain ⟨accepting, looped, same⟩ := Option.map_eq_some_iff.mp taken
        have added := accept_loop_keeps Sound add_new_session_sound _ _ _ _ accepting made looped
        cases same
        exact ⟨added.once, added.numbered, added.attached⟩
      · cases taken
        exact made

theorem release_session_sound (session : Nat) (service : Service) (sound : Sound service) :
    Sound (releaseSession session service).1 := by
  obtain ⟨members, onGoing, created, opened, served⟩ := service
  cases members with
  | client held connector =>
      cases held with
      | none => exact sound
      | some present =>
          exact sound_of_fewer _ _ sound (Multiset.zero_le _) (fun _ member => member) rfl rfl
  | clientEx sessions connectors =>
      refine sound_of_fewer _ _ sound ?_ (fun _ member => member) rfl rfl
      simp only [releaseSession, held, ClientServiceEx.release_slot_present]
      exact Multiset.coe_le.mpr (List.erase_subperm session _)
  | server sessions listener =>
      exact sound_of_fewer _ _ sound (Finset.val_le_iff.mpr (Finset.erase_subset session sessions))
        (fun _ member => member) rfl rfl

theorem release_all_sessions_sound (service : Service) (sound : Sound service) :
    Sound (releaseAllSessions service) := by
  obtain ⟨members, onGoing, created, opened, served⟩ := service
  cases members <;>
    exact sound_of_fewer _ _ sound (Multiset.zero_le _) (fun _ member => member) rfl rfl

theorem stop_sound (service : Service) (sound : Sound service) : Sound (stop service) := by
  obtain ⟨members, onGoing, created, opened, served⟩ := service
  cases members <;>
    exact sound_of_fewer _ _ sound (Multiset.zero_le _) (fun _ member => by cases member) rfl rfl

theorem step_sound (config : Config) (before : Service) (call : Call) (after : Service)
    (sound : Sound before) (taken : step config before call = some after) : Sound after := by
  cases call with
  | start answers =>
      obtain ⟨⟨result, _⟩, started, rfl⟩ := Option.map_eq_some_iff.mp taken
      rcases start_cases config answers before _ result started with ⟨_, _, _, rfl⟩ | ⟨_, connected⟩
      · exact sound
      · exact start_connections_sound config answers before _ result sound connected
  | stop =>
      cases taken
      exact stop_sound before sound
  | addNewSession registered =>
      simp only [step, Option.ite_none_right_eq_some, Option.some.injEq] at taken
      obtain ⟨_, rfl⟩ := taken
      exact add_new_session_sound registered before sound
  | setConnected session =>
      simp only [step, Option.ite_none_right_eq_some, Option.some.injEq] at taken
      obtain ⟨_, rfl⟩ := taken
      exact ⟨sound.once, sound.numbered, sound.attached⟩
  | clear session =>
      simp only [step, Option.ite_none_right_eq_some, Option.some.injEq] at taken
      obtain ⟨_, rfl⟩ := taken
      have released := release_session_sound session before sound
      exact ⟨released.once, released.numbered, released.attached⟩
  | releaseAllSessions =>
      cases taken
      exact release_all_sessions_sound before sound

theorem reachable_sound (config : Config) (admitted : Condition Service Call) (kind : Kind)
    (service : Service) (reached : Reachable (step config) admitted (.construct kind) service) :
    Sound service := by
  apply reachable_invariant (step config) admitted Sound (.construct kind) (sound_construct kind)
  case keeps =>
    intro before call after sound taken _
    exact step_sound config before call after sound taken
  case reached => exact reached

theorem release_session_erases (session : Nat) (service : Service)
    (several : ∀ present connector, service.members ≠ .client present connector) :
    held (releaseSession session service).1.members = (held service.members).erase session ∧
      ((releaseSession session service).2 = true ↔ session ∈ held service.members) := by
  obtain ⟨members, onGoing, created, opened, served⟩ := service
  cases members with
  | client present connector => exact absurd rfl (several present connector)
  | clientEx sessions connectors =>
      constructor
      · simp only [releaseSession, held, ClientServiceEx.release_slot_present, Multiset.coe_erase]
      · exact List.contains_iff_mem.trans (mem_held_clientEx session sessions connectors).symm
  | server sessions listener => exact ⟨Finset.erase_val sessions session, decide_eq_true_iff⟩

theorem release_session_several (session : Nat) (service : Service) (sound : Sound service)
    (several : ∀ present connector, service.members ≠ .client present connector) :
    ReleasesOnly service session := by
  obtain ⟨erased, answered⟩ := release_session_erases session service several
  refine ⟨answered, fun other => ?_⟩
  rw [erased, sound.once.mem_erase_iff]
  exact and_comm

/-- Where the container is one pointer, it is reset whatever it points to. -/
theorem release_session_single (session : Nat) (service : Service) (present connector : Option Nat)
    (single : service.members = .client present connector) :
    ReleasesOnly service session ↔ ∀ held, present = some held → held = session := by
  obtain ⟨members, onGoing, created, opened, served⟩ := service
  subst single
  cases present with
  | none =>
      have nothing :
          ReleasesOnly ⟨.client none connector, onGoing, created, opened, served⟩ session :=
        ⟨by simp [releaseSession, held], by simp [releaseSession, held]⟩
      exact ⟨fun _ _ same => (by cases same), fun _ => nothing⟩
  | some current =>
      constructor
      · intro released current' same
        cases same
        exact (Multiset.mem_singleton.mp (released.answered.mp rfl)).symm
      · intro same
        obtain rfl := same current rfl
        exact ⟨by simp [releaseSession, held], by simp [releaseSession, held]⟩

/-- `ReleaseSession` removes that session and no other exactly unless a `ClientService` holds
another one. -/
theorem release_session_removes_only (config : Config) (kind : Kind) (service : Service)
    (reached : Reachable (step config) (fun _ _ _ => True) (.construct kind) service)
    (session : Nat) :
    ReleasesOnly service session ↔
      ∀ present connector, service.members = .client (some present) connector →
        present = session := by
  have sound := reachable_sound config _ kind service reached
  by_cases several : ∀ present connector, service.members ≠ .client present connector
  · constructor
    · intro _ present connector single
      exact absurd single (several (some present) connector)
    · intro _
      exact release_session_several session service sound several
  · simp only [not_forall, not_not] at several
    obtain ⟨present, connector, single⟩ := several
    rw [release_session_single session service present connector single, single]
    constructor
    · rintro only current _ ⟨⟩
      exact only current rfl
    · rintro only current rfl
      exact only current connector rfl

def complete (sessionCount : Nat) : Config := ⟨true, true, ⟨afInet, 7777#16⟩, sessionCount⟩

def granted : StartAnswers where
  connects := fun _ => ⟨true, true, true, true⟩
  listen := ⟨true, true, true, true, true, fun _ => [⟨true, true⟩]⟩

def connectedClient : Service :=
  ⟨.client (some 0) (some 0), true, 1, 1, Function.update (fun _ => false) 0 true⟩

theorem connected_client_reached :
    Reachable (step (complete 1)) (fun _ _ _ => True) (.construct .client) connectedClient :=
  .next (.setConnected 0) (.next (.addNewSession true) (.next (.start granted) .start rfl trivial)
    rfl trivial) rfl trivial

/-- The teardown of the session of that client. -/
theorem release_session_removes_own :
    ∃ service, Reachable (step (complete 1)) (fun _ _ _ => True) (.construct .client) service ∧
      service.members = .client (some 0) (some 0) ∧ ReleasesOnly service 0 := by
  refine ⟨connectedClient, connected_client_reached, rfl, ?_⟩
  refine (release_session_removes_only (complete 1) .client _ connected_client_reached 0).mpr ?_
  rintro present connector ⟨⟩
  rfl

/-- The session of an earlier `Start` is torn down after a later one has connected: the later
session is released in its place. -/
theorem earlier_teardown_releases_later :
    ¬ ∀ (config : Config) (kind : Kind) (service : Service),
      Reachable (step config) (fun _ _ _ => True) (.construct kind) service →
      ∀ session, service.served session = true → ReleasesOnly service session := by
  intro only
  have restarted : Reachable (step (complete 1)) (fun _ _ _ => True) (.construct .client) _ :=
    .next (.start granted) (.next .stop connected_client_reached rfl trivial) rfl trivial
  have second : Reachable (step (complete 1)) (fun _ _ _ => True) (.construct .client) _ :=
    .next (.setConnected 1) (.next (.addNewSession true) restarted rfl trivial) rfl trivial
  have gone := (only (complete 1) .client _ second 0 rfl).answered.mp rfl
  exact absurd gone (by decide)

end NetCore.ServiceCalls
