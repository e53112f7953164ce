import NetCore.CompletionPort
import Mathlib.Data.Fintype.Basic
import Mathlib.Data.Multiset.AddSub

/-! A service with its listener, connectors and sessions, the operations they have in the
kernel and the threads that run their code. The code of a thread is the list of the calls
it has still to make. Objects are numbered in the order of their creation; who holds a
`shared_ptr` to which of them is kept, with the pointers of an object's own events left
out, as these are weak. A local `shared_ptr` is held as long as its destructor is still to
run. What a system call, `OnRecv` or a factory answers is part of the label. -/
namespace NetCore.ServiceObjects
open TransitionRuns
open CompletionPort (maxEntryCount)

inductive ServiceKind where
  | server
  | client
  | clientEx
  deriving DecidableEq, Repr

/-- `valid` stands for the checks of `_iocpCore`, `_sessionFactory` and `_addr` in `Start`. -/
structure Config where
  kind : ServiceKind
  sessionCount : Nat
  valid : Bool
  deriving DecidableEq, Repr

def maxAcceptCount : Nat := 100

inductive Operation where
  | accept (listener index : Nat)
  | connect (connector : Nat)
  | recv (session : Nat)
  | send (session : Nat)
  | disconnect (session : Nat)
  deriving DecidableEq, Repr

/-- The object in the event's `_iocpObject`. -/
def Operation.owner : Operation → Nat
  | .accept listener _ => listener
  | .connect connector => connector
  | .recv session => session
  | .send session => session
  | .disconnect session => session

inductive ServiceCall where
  | start
  | makeListener
  | makeConnector
  | makeConnectors (remaining : Nat)
  | setOnGoing (value : Bool)
  | releaseListener
  | releaseConnector
  | releaseConnectors
  | disconnectSessions
  | releaseSessions
  deriving DecidableEq, Repr

inductive ListenerCall where
  | startListen
  | registerAccept (index : Nat)
  | setSessionRef (index session : Nat)
  | acceptEx (index : Nat)
  | processAccept (index : Nat)
  deriving DecidableEq, Repr

/-- `session` is what `Connector::_session` points to, weakly. -/
inductive ConnectorCall where
  | connect
  | dispatch
  | processConnect (session : Nat)
  deriving DecidableEq, Repr

inductive SessionCall where
  | setConnected
  | registerRecv
  | wsaRecv
  | processRecv (numberOfBytesRecvd : Nat)
  | onRecv
  | registerSend
  | wsaSend
  | processSend (numberOfBytesSent : Nat)
  | stopTest
  | exchange
  | disconnectTest
  | disconnectEx
  | releaseSession
  | clearService
  | clearConnected
  deriving DecidableEq, Repr

/-- `dispatch` is `GetIOCPObjectWPtr().lock()->Dispatch(…)` for a dequeued entry, `drop` the
destructor of a local `shared_ptr`. -/
inductive Action where
  | service (call : ServiceCall)
  | listener (object : Nat) (call : ListenerCall)
  | connector (object : Nat) (call : ConnectorCall)
  | session (object : Nat) (call : SessionCall)
  | dispatch (operation : Operation) (numberOfBytesTransferred : Nat)
  | drop (object : Nat)
  deriving DecidableEq, Repr

def Action.object : Action → Option Nat
  | .service _ => none
  | .listener object _ => some object
  | .connector object _ => some object
  | .session object _ => some object
  | .dispatch operation _ => some operation.owner
  | .drop _ => none

def Action.isDrop : Action → Bool
  | .drop _ => true
  | _ => false

/-- An early return: of what is still to run, the destructors of locals are left. -/
def unwind (rest : List Action) : List Action := rest.filter Action.isDrop

structure AcceptEvent where
  listener : Nat
  index : Nat
  session : Nat
  deriving DecidableEq, Repr

/-- `connected` and `served` are `_connected` and whether `_service` is set, for each
session. The null entries of `ClientServiceEx::_sessions` are left out of `sessions`.
`nullLocked` is set by a `Dispatch` through a null `lock()`, `crashed` by any other use of a
null pointer. -/
structure System (Thread : Type) where
  onGoing : Bool
  listener : Option Nat
  connector : Option Nat
  connectors : List Nat
  session : Option Nat
  sessions : List Nat
  acceptEvents : List AcceptEvent
  created : Nat
  connected : Nat → Bool
  served : Nat → Bool
  outstanding : Multiset Operation
  todo : Thread → List Action
  nullLocked : Bool
  crashed : Bool

variable {Thread : Type}

def System.start : System Thread where
  onGoing := false
  listener := none
  connector := none
  connectors := []
  session := none
  sessions := []
  acceptEvents := []
  created := 0
  connected := fun _ => false
  served := fun _ => false
  outstanding := 0
  todo := fun _ => []
  nullLocked := false
  crashed := false

def Held (system : System Thread) (object : Nat) : Prop :=
  system.listener = some object ∨ system.connector = some object ∨ object ∈ system.connectors ∨
  system.session = some object ∨ object ∈ system.sessions ∨ ∃ thread,
  .drop object ∈ system.todo thread

/-- The object is strongly referenced. The accept events are deleted with their listener. -/
def Referenced (system : System Thread) (object : Nat) : Prop :=
  Held system object ∨
    ∃ event ∈ system.acceptEvents, event.session = object ∧ Held system event.listener

variable [Fintype Thread]

instance (system : System Thread) (object : Nat) : Decidable (Held system object) :=
  inferInstanceAs (Decidable (_ ∨ _ ∨ _ ∨ _ ∨ _ ∨ _))

instance (system : System Thread) (object : Nat) : Decidable (Referenced system object) :=
  inferInstanceAs (Decidable (_ ∨ _))

section Calls
variable (config : Config) (system : System Thread) (answer : Bool) (rest : List Action)

def addNewSession : System Thread :=
  match config.kind with
  | .server =>
      { system with created := system.created + 1, sessions := system.created :: system.sessions }
  | .client => { system with created := system.created + 1, session := some system.created }
  | .clientEx =>
      { system with created := system.created + 1, sessions := system.sessions ++ [system.created] }

def releaseSession (session : Nat) : System Thread :=
  match config.kind with
  | .client => { system with session := none }
  | _ => { system with sessions := system.sessions.erase session }

def performService : ServiceCall → System Thread × List Action
  | .start => (system, if system.onGoing || !config.valid then rest else match config.kind with
      | .server => .service .makeListener :: rest
      | .client => .service .makeConnector :: rest
      | .clientEx => .service (.makeConnectors config.sessionCount) :: rest)
  | .makeListener =>
      ({ system with created := system.created + 1, listener := some system.created },
        .listener system.created .startListen :: .service (.setOnGoing true) :: rest)
  | .makeConnector =>
      ({ system with created := system.created + 1, connector := some system.created },
        .connector system.created .connect :: .service (.setOnGoing true) :: rest)
  | .makeConnectors 0 => (system, .service (.setOnGoing true) :: rest)
  | .makeConnectors (remaining + 1) =>
      ({ system with
        created := system.created + 1, connectors := system.connectors ++ [system.created] },
        .connector system.created .connect :: .drop system.created ::
          .service (.makeConnectors remaining) :: rest)
  | .setOnGoing value => ({ system with onGoing := value }, rest)
  | .releaseListener => ({ system with listener := none }, rest)
  | .releaseConnector => ({ system with connector := none }, rest)
  | .releaseConnectors => match system.connectors with
      | [] => (system, rest)
      | _ :: others => ({ system with connectors := others }, .service .releaseConnectors :: rest)
  | .disconnectSessions => (system, system.sessions.map (.session · .stopTest) ++ rest)
  | .releaseSessions => match config.kind, system.sessions with
      | .client, _ => ({ system with session := none }, rest)
      | _, [] => (system, rest)
      | _, _ :: others => ({ system with sessions := others }, .service .releaseSessions :: rest)

def performListener (listener : Nat) : ListenerCall → System Thread × List Action
  | .startListen => (system,
      if answer then
        (List.range maxAcceptCount).map (.listener listener <| .registerAccept ·) ++ rest
      else unwind rest)
  -- The session is null when its handle could not be registered.
  | .registerAccept index =>
      if answer then
        (addNewSession config system, .listener listener (.setSessionRef index system.created) ::
          .listener listener (.acceptEx index) :: .drop system.created :: rest)
      else ({ system with crashed := true }, rest)
  | .setSessionRef index session =>
      ({ system with acceptEvents := ⟨listener, index, session⟩ ::
          system.acceptEvents.filter (fun event => event.listener ≠ listener ∨
            event.index ≠ index) }, rest)
  | .acceptEx index =>
      if answer then
        ({ system with outstanding := .accept listener index ::ₘ system.outstanding }, rest)
      else (system, .listener listener (.registerAccept index) :: rest)
  -- The answer is that of `SetUpdateAcceptSocket` alone: the result of `getpeername` is stored
  -- in a `bool`, which is never `SOCKET_ERROR`, and the branch for its failure is dead.
  | .processAccept index =>
      match system.acceptEvents.find? fun event => event.listener = listener ∧
        event.index = index with
      | some event => (system,
          if answer then .session event.session .setConnected :: .listener listener
            (.registerAccept index) :: .drop event.session :: rest
          else .listener listener (.registerAccept index) :: .drop event.session :: rest)
      | none => ({ system with crashed := true }, rest)

def performConnector (connector : Nat) : ConnectorCall → System Thread × List Action
  | .connect =>
      if answer then
        ({ system with outstanding := .connect connector ::ₘ system.outstanding }, rest)
      else (system, unwind rest)
  | .dispatch =>
      if answer then
        (addNewSession config system, .connector connector (.processConnect system.created) :: rest)
      else ({ addNewSession config system with crashed := true }, rest)
  -- `_session.lock()->_set_connected(…)`
  | .processConnect session =>
      if Referenced system session then
        (system, .session session .setConnected :: .drop session :: rest)
      else ({ system with crashed := true }, rest)

def submit (operation : Operation) : System Thread :=
  if answer then { system with outstanding := operation ::ₘ system.outstanding } else system

def performSession (session : Nat) : SessionCall → System Thread × List Action
  | .setConnected =>
      ({ system with
          connected := Function.update system.connected session true
          served := Function.update system.served session true },
        .session session .registerRecv :: rest)
  | .registerRecv =>
      (system,
        .session session (if system.connected session then .wsaRecv else .disconnectTest) :: rest)
  | .wsaRecv => (submit system answer (.recv session), rest)
  | .processRecv numberOfBytesRecvd =>
      (system,
        .session session (if numberOfBytesRecvd = 0 then .disconnectTest else .onRecv) :: rest)
  -- The answer is whether `processLen` is not 0.
  | .onRecv =>
      (system, .session session (if answer then .registerRecv else .disconnectTest) :: rest)
  | .registerSend =>
      (system,
        .session session (if system.connected session then .wsaSend else .disconnectTest) :: rest)
  | .wsaSend => (submit system answer (.send session), rest)
  | .processSend numberOfBytesSent =>
      (system, if numberOfBytesSent = 0 then .session session .disconnectTest :: rest else rest)
  | .stopTest =>
      (system, if system.connected session then .session session .disconnectTest :: rest else rest)
  | .exchange =>
      ({ system with connected := Function.update system.connected session false },
        if system.connected session then .session session .disconnectEx :: rest else rest)
  | .disconnectTest =>
      (system, if system.connected session then .session session .disconnectEx :: rest else rest)
  | .disconnectEx => (submit system answer (.disconnect session), rest)
  | .releaseSession =>
      if system.served session then
        (releaseSession config system session, .session session .clearService :: rest)
      else ({ system with crashed := true }, rest)
  | .clearService =>
      ({ system with served := Function.update system.served session false },
        .session session .clearConnected :: rest)
  | .clearConnected =>
      ({ system with connected := Function.update system.connected session false }, rest)

def dispatched (numberOfBytesTransferred : Nat) : Operation → Action
  | .accept listener index => .listener listener (.processAccept index)
  | .connect connector => .connector connector .dispatch
  | .recv session => .session session (.processRecv numberOfBytesTransferred)
  | .send session => .session session (.processSend numberOfBytesTransferred)
  | .disconnect session => .session session .releaseSession

def perform : Action → System Thread × List Action
  | .service call => performService config system rest call
  | .listener object call => performListener config system answer rest object call
  | .connector object call => performConnector config system answer rest object call
  | .session object call => performSession config system answer rest object call
  | .dispatch operation numberOfBytesTransferred =>
      if Referenced system operation.owner then
        (system, dispatched numberOfBytesTransferred operation :: .drop operation.owner :: rest)
      else ({ system with nullLocked := true }, rest)
  | .drop _ => (system, rest)

end Calls

inductive Label (Thread : Type) where
  | start (thread : Thread)
  | stop (thread : Thread)
  | send (thread : Thread) (session : Nat)
  | disconnect (thread : Thread) (session : Nat)
  | dequeue (thread : Thread) (entries : List (Operation × Nat))
  | discard (operation : Operation)
  | advance (thread : Thread) (answer : Bool)

def stopCalls : ServiceKind → List Action
  | .server => [.service (.setOnGoing false), .service .releaseListener,
      .service .disconnectSessions, .service .releaseSessions]
  | .client => [.service .releaseConnector, .service .releaseSessions, .service (.setOnGoing false)]
  | .clientEx =>
      [.service .releaseConnectors, .service .releaseSessions, .service (.setOnGoing false)]

variable [DecidableEq Thread]

def give (system : System Thread) (thread : Thread) (actions : List Action) : System Thread :=
  { system with todo := Function.update system.todo thread actions }

/-- A call begins in a thread that is in no other. A call that the user makes of a session is
made while the session is referenced; `send` is one that comes to `_register_send`. The
entries that `ProcessQueuedCompletionStatusEx` dequeues are dispatched one after the other;
`ProcessQueuedCompletionStatus` dequeues one, and discards that of a failed operation. -/
def step (config : Config) : Step (System Thread) (Label Thread) := fun system label =>
  if system.nullLocked ∨ system.crashed then none
  else match label with
  | .start thread =>
      if system.todo thread = [] then some (give system thread [.service .start]) else none
  | .stop thread =>
      if system.todo thread = [] then some (give system thread (stopCalls config.kind)) else none
  | .send thread session =>
      if system.todo thread = [] ∧ Referenced system session then
        some (give system thread [.session session .registerSend])
      else none
  | .disconnect thread session =>
      if system.todo thread = [] ∧ Referenced system session then
        some (give system thread [.session session .exchange])
      else none
  | .dequeue thread entries =>
      if system.todo thread = [] ∧ entries.length ≤ maxEntryCount ∧
          Multiset.ofList (entries.map Prod.fst) ≤ system.outstanding then
        some { give system thread (entries.map fun entry => .dispatch entry.1 entry.2) with
          outstanding := system.outstanding - Multiset.ofList (entries.map Prod.fst) }
      else none
  | .discard operation =>
      if operation ∈ system.outstanding then
        some { system with outstanding := system.outstanding.erase operation }
      else none
  | .advance thread answer => match system.todo thread with
      | [] => none
      | action :: rest =>
          let performed := perform config system answer rest action
          some (give performed.1 thread performed.2)

end NetCore.ServiceObjects
