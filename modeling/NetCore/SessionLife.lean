import NetCore.TransitionRuns
import NetCore.SegmentedReceive

/-! The life of one connection of a `Session`: `_set_connected`, the chain of receives,
the sends, and the ways into the teardown, run by any number of threads. Each read or
write of `_connected` and `_service` and each system call is one step. What a call of
user code does to the session (a `Disconnect()` in `OnRecv`, say) is the step of another
thread. Completions arrive in any order and with any byte count, those of aborted
operations with zero bytes. -/
namespace NetCore.SessionLife
open TransitionRuns SegmentedReceive

/-- Where a thread stands. `listening` tells, inside `_disconnect`, whether it was called
by the code that keeps the receive going. -/
inductive Phase where
  | idle
  | settingService
  | settingConnected
  | onConnected
  | recvTest
  | recvCall
  | received (numberOfBytesRecvd : Nat)
  | onRecv
  | sendTest
  | sendCall
  | sent (numberOfBytesSent : Nat)
  | stopTest
  | exchange
  | disconnectTest (listening : Bool)
  | registering (listening : Bool)
  | clearing
  | releasing
  | closing
  deriving DecidableEq, Repr

/-- `service` is whether `_service` is set. The outstanding operations are counted for
each event; `registered` counts the calls of `_register_disconnect` that returned true,
`processed` those of `_process_disconnect`. -/
structure System (Thread : Type) where
  joined : Bool
  service : Bool
  connected : Bool
  recvOutstanding : Nat
  sendOutstanding : Nat
  disconnectOutstanding : Nat
  registered : Nat
  processed : Nat
  crashed : Bool
  phase : Thread → Phase

def System.start {Thread : Type} : System Thread where
  joined := false
  service := false
  connected := false
  recvOutstanding := 0
  sendOutstanding := 0
  disconnectOutstanding := 0
  registered := 0
  processed := 0
  crashed := false
  phase := fun _ => .idle

inductive Label (Thread : Type) where
  | setConnected (thread : Thread)
  | send (thread : Thread)
  | disconnect (thread : Thread)
  | releaseAllSessions (thread : Thread)
  | recvComplete (thread : Thread) (numberOfBytesRecvd : Nat)
  | sendComplete (thread : Thread) (numberOfBytesSent : Nat)
  | disconnectComplete (thread : Thread)
  | advance (thread : Thread) (result : WsaResult) (processLen : Nat)

/-- The operation goes on in the kernel: the call returned success or pending. -/
def accepted : WsaResult → Bool
  | .failed _ => false
  | _ => true

def addAccepted (result : WsaResult) (outstanding : Nat) : Nat :=
  if accepted result then outstanding + 1 else outstanding

variable {Thread : Type} [DecidableEq Thread]

def enter (system : System Thread) (thread : Thread) (phase : Phase) : System Thread :=
  { system with phase := Function.update system.phase thread phase }

def advance (system : System Thread) (thread : Thread) (result : WsaResult) (processLen : Nat) :
    Option (System Thread) :=
  match system.phase thread with
  | .idle => none
  | .settingService => some { enter system thread .settingConnected with service := true }
  | .settingConnected => some { enter system thread .onConnected with connected := true }
  | .onConnected => some (enter system thread .recvTest)
  | .recvTest => some <| enter system thread <|
      if system.connected then .recvCall else .disconnectTest true
  -- An error other than pending is logged, whatever it is.
  | .recvCall => some
      { enter system thread .idle with
        recvOutstanding := addAccepted result system.recvOutstanding }
  | .received numberOfBytesRecvd => some <| enter system thread <|
      if numberOfBytesRecvd = 0 then .disconnectTest true else .onRecv
  | .onRecv => some <| enter system thread <|
      if processLen = 0 then .disconnectTest true else .recvTest
  | .sendTest => some <| enter system thread <|
      if system.connected then .sendCall else .disconnectTest false
  | .sendCall => some
      { enter system thread .idle with
        sendOutstanding := addAccepted result system.sendOutstanding }
  | .sent numberOfBytesSent => some <| enter system thread <|
      if numberOfBytesSent = 0 then .disconnectTest false else .idle
  | .stopTest => some <| enter system thread <|
      if system.connected then .disconnectTest false else .idle
  -- `_connected.exchange(false)`
  | .exchange => some
      { enter system thread (if system.connected then .registering false else .idle) with
        connected := false }
  | .disconnectTest listening => some <| enter system thread <|
      if system.connected then .registering listening else .idle
  | .registering _ => some
      { enter system thread .idle with
        disconnectOutstanding := addAccepted result system.disconnectOutstanding
        registered := addAccepted result system.registered }
  -- `_service->ReleaseSession(…)`
  | .clearing => some <|
      if system.service then enter system thread .releasing else { system with crashed := true }
  | .releasing => some { enter system thread .closing with service := false }
  | .closing => some { enter system thread .idle with connected := false }

/-- A call begins in a thread that is in no other; a session is connected once. -/
def step : Step (System Thread) (Label Thread) := fun system label =>
  if system.crashed then none
  else match label with
  | .setConnected thread =>
      if system.phase thread = .idle ∧ system.joined = false then
        some { enter system thread .settingService with joined := true }
      else none
  | .send thread =>
      if system.phase thread = .idle then some (enter system thread .sendTest) else none
  | .disconnect thread =>
      if system.phase thread = .idle then some (enter system thread .exchange) else none
  | .releaseAllSessions thread =>
      if system.phase thread = .idle then some (enter system thread .stopTest) else none
  | .recvComplete thread numberOfBytesRecvd =>
      if system.phase thread = .idle ∧ 0 < system.recvOutstanding then
        some { enter system thread (.received numberOfBytesRecvd) with
          recvOutstanding := system.recvOutstanding - 1 }
      else none
  | .sendComplete thread numberOfBytesSent =>
      if system.phase thread = .idle ∧ 0 < system.sendOutstanding then
        some { enter system thread (.sent numberOfBytesSent) with
          sendOutstanding := system.sendOutstanding - 1 }
      else none
  | .disconnectComplete thread =>
      if system.phase thread = .idle ∧ 0 < system.disconnectOutstanding then
        some { enter system thread .clearing with
          disconnectOutstanding := system.disconnectOutstanding - 1
          processed := system.processed + 1 }
      else none
  | .advance thread result processLen => advance system thread result processLen

end NetCore.SessionLife
