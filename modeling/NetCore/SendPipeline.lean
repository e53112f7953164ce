import NetCore.TransitionRuns
import NetCore.SegmentedReceive

/-! The sending side of one session: `PacketSession::Send`, `SendRaw` and `Flush`
of PacketSession.cpp, `Session::_send`, `_register_send` and `_process_send` of
Session.cpp, run by any number of threads. A block under a lock and an operation on
an atomic are one step each; the two members that `Flush` reads before it takes the
lock are read in two steps. `_sending` is set inside the lock of the queue and
cleared outside it, after the system call. The `WSABUF` of a packet and the position
it points to come with the label of the call; a null pointer makes the calls return
at once and is left out. -/
namespace NetCore.SendPipeline
open TransitionRuns PacketFraming SegmentedReceive

def flushSendMinIntervalTick : UInt64 := 1000

def flushSendMinReservedByteLength : UInt32 := 128

/-- A `WSABUF` with the number under which the session received it. -/
structure Queued where
  ticket : Nat
  buffer : Wsabuf
  deriving DecidableEq, Repr

inductive Phase where
  | idle
  | flushBytes
  | flushLock
  | sendEntry (buffers : List Queued)
  | registering
  | refused
  | draining
  | submitting
  | clearing
  | storing
  deriving DecidableEq, Repr

structure Submission where
  segments : List Queued
  result : WsaResult
  deriving DecidableEq, Repr

/-- `submitted` tells whether the segments of `_sendEvent` have been passed to
`WSASend`; `received` records the buffers the session got, `handed` the lists passed
to `_send` in the order in which it took its lock, `calls` the calls of `WSASend` and
`disconnects` the calls of `_register_disconnect` with the error that led to them. -/
structure System (Thread : Type) where
  reserved : List Queued
  reservedSendBytes : UInt32
  lastSendTick : UInt64
  connected : Bool
  sendQueue : List Queued
  sending : Bool
  segments : List Queued
  phase : Thread → Phase
  submitted : Bool
  received : List Queued
  handed : List (List Queued)
  calls : List Submission
  completed : Nat
  disconnects : List (Option DisconnectError)

variable {Thread : Type}

def System.start (tick : UInt64) : System Thread where
  reserved := []
  reservedSendBytes := 0
  lastSendTick := tick
  connected := false
  sendQueue := []
  sending := false
  segments := []
  phase := fun _ => .idle
  submitted := false
  received := []
  handed := []
  calls := []
  completed := 0
  disconnects := []

def System.connectedStart (tick : UInt64) : System Thread :=
  { System.start tick with connected := true }

inductive Label (Thread : Type) where
  | send (thread : Thread) (size : UInt16) (position : Nat)
  | sendRaw (thread : Thread) (size : UInt32)
  | flush (thread : Thread) (tick : UInt64)
  | sendList (thread : Thread) (buffers : List Wsabuf)
  | advance (thread : Thread) (tick : UInt64) (result : WsaResult)
  | complete (numberOfBytesSent : Nat)
  | connect
  | disconnect
  | processDisconnect

/-- `_disconnect(errorCode)`: ignored unless connected. -/
def disconnectBy (error : DisconnectError) (system : System Thread) : System Thread :=
  if system.connected then
    { system with disconnects := system.disconnects ++ [some error] } else system

def disconnect (system : System Thread) : System Thread :=
  if system.connected then
    { system with connected := false, disconnects := system.disconnects ++ [none] }
  else system

variable [DecidableEq Thread]

def enter (system : System Thread) (thread : Thread) (phase : Phase) : System Thread :=
  { system with phase := Function.update system.phase thread phase }

/-- The locked block of `PacketSession::Send`, with the `WSABUF` that `Serialize`
returned for the position it reserved. -/
def accept (system : System Thread) (size : UInt16) (position : Nat) : System Thread :=
  let buffer := { len := (UInt16.ofNat (headerSize + size.toNat)).toNat, buf := position }
  let entry := { ticket := system.received.length, buffer := buffer }
  { system with
    reserved := system.reserved ++ [entry]
    reservedSendBytes := system.reservedSendBytes + (size.toUInt32 + UInt32.ofNat headerSize)
    received := system.received ++ [entry] }

def numbered (next : Nat) : List Wsabuf → List Queued
  | [] => []
  | buffer :: rest => ⟨next, buffer⟩ :: numbered (next + 1) rest

def callSend (system : System Thread) (thread : Thread) (buffers : List Wsabuf) : System Thread :=
  let entries := numbered system.received.length buffers
  { enter system thread (.sendEntry entries) with received := system.received ++ entries }

/-- The locked block of `Flush`. -/
def flushReserved (system : System Thread) (thread : Thread) (tick : UInt64) : System Thread :=
  if system.reserved = [] then enter system thread .idle
  else { enter system thread (.sendEntry system.reserved) with
         reserved := []
         lastSendTick := tick
         reservedSendBytes := 0 }

/-- The locked block of `_send`, with the `exchange` that decides who registers. -/
def sendLocked (system : System Thread) (thread : Thread) (buffers : List Queued) : System Thread :=
  { enter system thread (if system.sending then .idle else .registering) with
    sendQueue := system.sendQueue ++ buffers
    sending := true
    handed := system.handed ++ [buffers] }

def submit (system : System Thread) (thread : Thread) (result : WsaResult) : System Thread :=
  { enter system thread .clearing with
    calls := system.calls ++ [⟨system.segments, result⟩]
    submitted := true }

def advance (system : System Thread) (thread : Thread) (tick : UInt64) (result : WsaResult) :
    Option (System Thread) :=
  match system.phase thread with
  | .idle => none
  | .flushBytes => some <| enter system thread <|
      if system.reservedSendBytes < flushSendMinReservedByteLength then .idle else .flushLock
  | .flushLock => some (flushReserved system thread tick)
  -- An empty list returns before the lock.
  | .sendEntry [] => some (enter system thread .idle)
  | .sendEntry (first :: rest) => some (sendLocked system thread (first :: rest))
  | .registering => some (enter system thread (if system.connected then .draining else .refused))
  -- This way out leaves `_sending` set.
  | .refused => some (disconnectBy .alreadyDisconnected (enter system thread .idle))
  -- `_sendEvent.Clear()` resets the OVERLAPPED part only; the segments are appended to.
  | .draining => some
      { enter system thread .submitting with
        segments := system.segments ++ system.sendQueue
        sendQueue := [] }
  | .submitting => some (submit system thread result)
  -- Whatever `WSASend` answered, the segments are dropped.
  | .clearing => some { enter system thread .storing with segments := [], submitted := false }
  | .storing => some { enter system thread .idle with sending := false }

/-- A call from outside, a completion of the port, or the next step of a call in progress. -/
def step : Step (System Thread) (Label Thread) := fun system label =>
  match label with
  | .send thread size position =>
      if system.phase thread = .idle then some (accept system size position) else none
  | .sendRaw thread size =>
      if system.phase thread = .idle then
        some { system with reservedSendBytes := system.reservedSendBytes + size }
      else none
  | .flush thread tick =>
      if system.phase thread = .idle then
        some <| enter system thread <|
          if tick - system.lastSendTick < flushSendMinIntervalTick then .flushBytes else .flushLock
      else none
  | .sendList thread buffers =>
      if system.phase thread = .idle then some (callSend system thread buffers) else none
  | .advance thread tick result => advance system thread tick result
  | .complete numberOfBytesSent =>
      if system.completed < system.calls.length then
        let completed := { system with completed := system.completed + 1 }
        some (if numberOfBytesSent = 0 then disconnectBy .sent0 completed else completed)
      else none
  | .connect => some { system with connected := true }
  | .disconnect => some (disconnect system)
  | .processDisconnect => some { system with sendQueue := [], connected := false }

end NetCore.SendPipeline
