import NetCore.SessionLife
import NetCore.PacketGrammar

/-! Receiving with any number of worker threads. Each completion of a `WSARecv` may be taken by
another thread of the pool, `OnRecv` reads the receive buffer packet by packet, and the kernel
writes into that buffer as long as a receive is outstanding. The session lives as in
SessionLife.lean; what is added is the buffer, the receives that the kernel holds and the loop of
every thread inside `OnRecv`. No call fails or succeeds by assumption here. -/
namespace NetCore.ReceiveStream
open TransitionRuns ByteMemory FuelLoop PacketFraming SegmentedReceive SessionLife
open PacketGrammar (Turns)

/-- A receive that the kernel holds. `arrived` is what it has stored, once it is complete. -/
structure Posted where
  wsabuf : Wsabuf
  arrived : Option (List UInt8)

/-- A call of `OnRecv`. Between the reads of a header and `OnRecvPacket` it holds the header. -/
structure Parsing where
  len : Nat
  loop : RecvLoop
  header : Option PacketHeader

/-- `chunks` is what the kernel has stored so far, completion by completion, and `shown` what the
calls of `OnRecvPacket` were given, in the order of the calls. -/
structure System (Thread : Type) where
  life : SessionLife.System Thread
  recvBuffer : RecvBuffer
  posted : List Posted
  parsing : Thread → Option Parsing
  chunks : List (List UInt8)
  shown : List Received

def System.start {Thread : Type} : System Thread where
  life := SessionLife.System.start
  recvBuffer := RecvBuffer.construct recvBufferSize
  posted := []
  parsing := fun _ => none
  chunks := []
  shown := []

/-- `begin` is the beginning of any call but that for a receive completion. -/
inductive Label (Thread : Type) where
  | begin (label : SessionLife.Label Thread)
  | arrive (index : Nat) (bytes : List UInt8)
  | take (thread : Thread) (index : Nat)
  | advance (thread : Thread) (result : WsaResult)

def begins {Thread : Type} : SessionLife.Label Thread → Bool
  | .recvComplete _ _ => false
  | .advance _ _ _ => false
  | _ => true

def emptyLoop : RecvLoop := { processed := 0, calls := [] }

/-- The `WSABUF` of `_register_recv`. -/
def offered (recvBuffer : RecvBuffer) : Posted where
  wsabuf := { len := recvBuffer.freeSize, buf := recvBuffer.writePos }
  arrived := none

/-- `OnRecvPacket` and `processed += size`. -/
def handle (dataPos : Nat) (header : PacketHeader) (loop : RecvLoop) : RecvLoop where
  processed := (loop.processed + header.size.toNat) % 2 ^ 32
  calls := loop.calls ++ [{ buffer := dataPos + loop.processed + headerSize, id := header.id }]

variable {Thread : Type} [DecidableEq Thread]

def advance (system : System Thread) (thread : Thread) (result : WsaResult) :
    Option (System Thread) :=
  match system.life.phase thread with
  | .recvCall => (SessionLife.advance system.life thread result 0).map fun life =>
      { system with
        life := life
        posted :=
          if accepted result then system.posted ++ [offered system.recvBuffer] else system.posted }
  | .received numberOfBytesRecvd =>
      (SessionLife.advance system.life thread result 0).map fun life =>
        { system with
          life := life
          parsing := Function.update system.parsing thread <|
            if numberOfBytesRecvd = 0 then none
            else some { len := numberOfBytesRecvd, loop := emptyLoop, header := none } }
  | .onRecv => (system.parsing thread).bind fun call =>
      match call.header with
      | some header => some
          { system with
            parsing := Function.update system.parsing thread
              (some { call with
                loop := handle system.recvBuffer.dataPos header call.loop, header := none })
            shown := system.shown ++ [observe system.recvBuffer.buffer
              { buffer := system.recvBuffer.dataPos + call.loop.processed + headerSize
                id := header.id }] }
      | none =>
          if call.loop.processed < call.len then some
            { system with
              parsing := Function.update system.parsing thread (some { call with
                header := some (PacketHeader.read system.recvBuffer.buffer
                  (system.recvBuffer.dataPos + call.loop.processed)) }) }
          else (SessionLife.advance system.life thread result call.loop.processed).map fun life =>
            { system with life := life, parsing := Function.update system.parsing thread none }
  | _ =>
      (SessionLife.advance system.life thread result 0).map fun life => { system with life := life }

def step : Step (System Thread) (Label Thread) := fun system label =>
  if system.life.crashed then none
  else match label with
  | .begin label =>
      if begins label then
        (SessionLife.step system.life label).map fun life => { system with life := life }
      else none
  -- The kernel stores what has come, at most as much as it was offered room for.
  | .arrive index bytes =>
      match system.posted[index]? with
      | some { wsabuf, arrived := none } =>
          if bytes.length ≤ wsabuf.len then some
            { system with
              recvBuffer :=
                { system.recvBuffer with buffer := store system.recvBuffer.buffer wsabuf.buf bytes }
              posted := system.posted.set index { wsabuf := wsabuf, arrived := some bytes }
              chunks := system.chunks ++ [bytes] }
          else none
      | _ => none
  | .take thread index =>
      match system.posted[index]? with
      | some { arrived := some bytes, .. } =>
          (SessionLife.step system.life (.recvComplete thread bytes.length)).map fun life =>
            { system with life := life, posted := system.posted.eraseIdx index }
      | _ => none
  | .advance thread result => advance system thread result

/-! The receive is handed on from thread to thread. -/
section Stages

inductive Stage where
  | outside
  | arming
  | received (numberOfBytesRecvd : Nat)
  | parsing
  | ending
  deriving DecidableEq

def stageOf : Phase → Stage
  | .settingService => .arming
  | .settingConnected => .arming
  | .onConnected => .arming
  | .recvTest => .arming
  | .recvCall => .arming
  | .received numberOfBytesRecvd => .received numberOfBytesRecvd
  | .onRecv => .parsing
  | .disconnectTest listening => if listening then .ending else .outside
  | .registering listening => if listening then .ending else .outside
  | _ => .outside

def Follows (stage next : Stage) : Prop :=
  next = stage ∨ (stage = .arming ∧ next = .ending) ∨ (stage = .ending ∧ next = .outside)

structure Moved (before after : SessionLife.System Thread) (thread : Thread) (next : Phase) :
    Prop where
  phase : after.phase = Function.update before.phase thread next
  outstanding : after.recvOutstanding = before.recvOutstanding

theorem begin_moved (before after : SessionLife.System Thread) (label : SessionLife.Label Thread)
    (beginning : begins label = true) (taken : SessionLife.step before label = some after) :
    ∃ thread next, Moved before after thread next ∧ before.phase thread = .idle ∧
      (stageOf next = .outside ∧ after.joined = before.joined ∨
        stageOf next = .arming ∧ before.joined = false ∧ after.joined = true) := by
  unfold SessionLife.step at taken
  split at taken
  case isTrue => cases taken
  case isFalse =>
    cases label with
    | setConnected thread =>
        simp only [Option.ite_none_right_eq_some, Option.some.injEq] at taken
        obtain ⟨⟨stands, new⟩, rfl⟩ := taken
        exact ⟨thread, .settingService, ⟨rfl, rfl⟩, stands, Or.inr ⟨rfl, new, rfl⟩⟩
    | send thread =>
        simp only [Option.ite_none_right_eq_some, Option.some.injEq] at taken
        obtain ⟨stands, rfl⟩ := taken
        exact ⟨thread, .sendTest, ⟨rfl, rfl⟩, stands, Or.inl ⟨rfl, rfl⟩⟩
    | disconnect thread =>
        simp only [Option.ite_none_right_eq_some, Option.some.injEq] at taken
        obtain ⟨stands, rfl⟩ := taken
        exact ⟨thread, .exchange, ⟨rfl, rfl⟩, stands, Or.inl ⟨rfl, rfl⟩⟩
    | releaseAllSessions thread =>
        simp only [Option.ite_none_right_eq_some, Option.some.injEq] at taken
        obtain ⟨stands, rfl⟩ := taken
        exact ⟨thread, .stopTest, ⟨rfl, rfl⟩, stands, Or.inl ⟨rfl, rfl⟩⟩
    | sendComplete thread numberOfBytesSent =>
        simp only [Option.ite_none_right_eq_some, Option.some.injEq] at taken
        obtain ⟨⟨stands, _⟩, rfl⟩ := taken
        exact ⟨thread, .sent numberOfBytesSent, ⟨rfl, rfl⟩, stands, Or.inl ⟨rfl, rfl⟩⟩
    | disconnectComplete thread =>
        simp only [Option.ite_none_right_eq_some, Option.some.injEq] at taken
        obtain ⟨⟨stands, _⟩, rfl⟩ := taken
        exact ⟨thread, .clearing, ⟨rfl, rfl⟩, stands, Or.inl ⟨rfl, rfl⟩⟩
    | recvComplete thread numberOfBytesRecvd => cases beginning
    | advance thread result processLen => cases beginning

theorem advance_moved (before after : SessionLife.System Thread) (thread : Thread)
    (result : WsaResult) (calls : before.phase thread ≠ .recvCall)
    (receives : ∀ count, before.phase thread ≠ .received count)
    (parses : before.phase thread ≠ .onRecv)
    (taken : SessionLife.advance before thread result 0 = some after) :
    ∃ next, Moved before after thread next ∧
      Follows (stageOf (before.phase thread)) (stageOf next) ∧
      after.joined = before.joined := by
  unfold SessionLife.advance at taken
  cases stands : before.phase thread with
  | idle => simp [stands] at taken
  | recvCall => exact absurd stands calls
  | received count => exact absurd stands (receives count)
  | onRecv => exact absurd stands parses
  | settingService | settingConnected | onConnected | sendCall | releasing | closing =>
      simp only [stands, Option.some.injEq] at taken
      subst taken
      exact ⟨_, ⟨rfl, rfl⟩, Or.inl rfl, rfl⟩
  | recvTest =>
      simp only [stands, Option.some.injEq] at taken
      subst taken
      refine ⟨_, ⟨rfl, rfl⟩, ?_, rfl⟩
      cases before.connected with
      | true => exact Or.inl rfl
      | false => exact Or.inr (Or.inl ⟨rfl, rfl⟩)
  | sendTest | sent count | stopTest =>
      simp only [stands, Option.some.injEq] at taken
      subst taken
      refine ⟨_, ⟨rfl, rfl⟩, ?_, rfl⟩
      split <;> exact Or.inl rfl
  | exchange =>
      simp only [stands, Option.some.injEq] at taken
      subst taken
      refine ⟨_, ⟨rfl, rfl⟩, ?_, rfl⟩
      split <;> exact Or.inl rfl
  | disconnectTest listening =>
      simp only [stands, Option.some.injEq] at taken
      subst taken
      refine ⟨_, ⟨rfl, rfl⟩, ?_, rfl⟩
      cases before.connected with
      | true => exact Or.inl rfl
      | false =>
          cases listening with
          | true => exact Or.inr (Or.inr ⟨rfl, rfl⟩)
          | false => exact Or.inl rfl
  | registering listening =>
      simp only [stands, Option.some.injEq] at taken
      subst taken
      refine ⟨.idle, ⟨rfl, rfl⟩, ?_, rfl⟩
      cases listening with
      | true => exact Or.inr (Or.inr ⟨rfl, rfl⟩)
      | false => exact Or.inl rfl
  | clearing =>
      simp only [stands, Option.some.injEq] at taken
      subst taken
      cases before.service with
      | true => exact ⟨.releasing, ⟨rfl, rfl⟩, Or.inl rfl, rfl⟩
      | false =>
          exact ⟨before.phase thread, ⟨(Function.update_eq_self _ _).symm, rfl⟩,
            Or.inl (by rw [stands]), rfl⟩

end Stages

/-! One thread that serves all completions, as in SegmentedReceive.lean. -/
section Sequential

def completionsOf (chunks : List (List UInt8)) : List Completion :=
  chunks.map fun bytes => { bytes := bytes, rearm := .pending }

/-- `OnRecv` has returned for each of the chunks and has left this session. -/
def Served (chunks : List (List UInt8)) (session : RecvSession) : Prop :=
  ∃ fuel, receive fuel connectedSession (completionsOf chunks) = some session

def Chunk (bytes : List UInt8) : Prop := bytes ≠ [] ∧ bytes.length ≤ recvBufferSize

theorem complete_more_fuel (fuel extra : Nat) (session after : RecvSession)
    (completion : Completion) (completed : complete fuel session completion = some after) :
    complete (fuel + extra) session completion = some after := by
  unfold complete at completed ⊢
  split at completed
  case h_1 => cases completed
  case h_2 wsabuf =>
    split at completed
    case isFalse => cases completed
    case isTrue fits =>
      rw [if_pos fits]
      unfold processRecv at completed ⊢
      split at completed
      case isTrue nothing => rw [if_pos nothing, completed]
      case isFalse something =>
        rw [if_neg something]
        obtain ⟨parsed, ended, told⟩ := Option.map_eq_some_iff.mp completed
        rw [on_recv_more_fuel _ _ _ fuel extra parsed ended]
        exact congrArg some told

theorem receive_more_fuel (fuel extra : Nat) (session after : RecvSession)
    (completions : List Completion) (received : receive fuel session completions = some after) :
    receive (fuel + extra) session completions = some after := by
  induction completions generalizing session with
  | nil => exact received
  | cons completion rest ih =>
      obtain ⟨next, completed, later⟩ := Option.bind_eq_some_iff.mp received
      rw [receive, complete_more_fuel fuel extra session next completion completed]
      exact ih next later

theorem receive_append (fuel : Nat) (session : RecvSession) (front back : List Completion) :
    receive fuel session (front ++ back) =
      (receive fuel session front).bind fun middle => receive fuel middle back := by
  induction front generalizing session with
  | nil => rfl
  | cons completion rest ih =>
      simp only [List.cons_append, receive, ih, Option.bind_assoc]

theorem served_listening (chunks : List (List UInt8)) (session : RecvSession)
    (served : Served chunks session) (chunked : ∀ bytes ∈ chunks, Chunk bytes) :
    Listening session := by
  obtain ⟨fuel, received⟩ := served
  suffices holds : ∀ source, Listening source →
    receive fuel source (completionsOf chunks) = some session →
    Listening session from holds connectedSession connected_session_listening received
  clear received
  induction chunks with
  | nil =>
      intro source listening received
      cases received
      exact listening
  | cons bytes rest ih =>
      intro source listening received
      obtain ⟨nonempty, fits⟩ := chunked bytes List.mem_cons_self
      obtain ⟨next, completed, later⟩ := Option.bind_eq_some_iff.mp received
      rw [complete_listening fuel source _ listening nonempty fits (by simp)] at completed
      obtain ⟨parsed, _, rfl⟩ := Option.map_eq_some_iff.mp completed
      exact ih (fun other member => chunked other (List.mem_cons_of_mem bytes member)) _
        (after_completion_listening source _ _ listening) later

section Next
variable (chunks : List (List UInt8)) (session : RecvSession) (served : Served chunks session)
  (chunked : ∀ bytes ∈ chunks, Chunk bytes) (bytes : List UInt8) (chunk : Chunk bytes)
include served chunked chunk

theorem receive_last : ∃ enough, ∀ fuel,
    receive (enough + fuel) connectedSession (completionsOf (chunks ++ [bytes])) =
      (onRecv (store session.recvBuffer.buffer 0 bytes) 0 bytes.length (enough + fuel)).map
        fun result =>
          afterCompletion session (store session.recvBuffer.buffer 0 bytes) result.1 := by
  have listening := served_listening chunks session served chunked
  obtain ⟨enough, received⟩ := served
  refine ⟨enough, fun fuel => ?_⟩
  have before := receive_more_fuel enough fuel connectedSession session _ received
  have completed :=
    complete_listening (enough + fuel) session ⟨bytes, .pending⟩ listening chunk.1 chunk.2 (by simp)
  have split : completionsOf (chunks ++ [bytes]) = completionsOf chunks ++ [⟨bytes, .pending⟩] := by
    simp [completionsOf]
  rw [split, receive_append, before, Option.bind_some, receive, completed]
  exact Option.bind_fun_some _

theorem served_next (fuel : Nat) (result : List PacketCall × Nat)
    (parsed : onRecv (store session.recvBuffer.buffer 0 bytes) 0 bytes.length fuel = some result) :
    Served (chunks ++ [bytes])
      (afterCompletion session (store session.recvBuffer.buffer 0 bytes) result.1) := by
  obtain ⟨enough, last⟩ := receive_last chunks session served chunked bytes chunk
  have longer := on_recv_more_fuel _ _ _ fuel enough result parsed
  rw [Nat.add_comm] at longer
  exact ⟨enough + fuel, by rw [last, longer, Option.map_some]⟩

theorem served_last (next : RecvSession) (all : Served (chunks ++ [bytes]) next) :
    ∃ fuel result,
      onRecv (store session.recvBuffer.buffer 0 bytes) 0 bytes.length fuel = some result ∧
      next = afterCompletion session (store session.recvBuffer.buffer 0 bytes) result.1 := by
  obtain ⟨enough, last⟩ := receive_last chunks session served chunked bytes chunk
  obtain ⟨fuel, ended⟩ := all
  have longer := receive_more_fuel fuel enough connectedSession next _ ended
  rw [Nat.add_comm, last] at longer
  obtain ⟨result, parsed, same⟩ := Option.map_eq_some_iff.mp longer
  exact ⟨enough + fuel, result, parsed, same.symm⟩

end Next

end Sequential

/-! How far the loop of `OnRecv` has come. -/
section Loops

/-- After its turns the loop has spent as much fuel. -/
theorem turns_fuel (memory : Memory UInt8) (len : Nat) (loop : RecvLoop)
    (turned : Turns memory 0 len loop) : ∃ turns, ∀ fuel,
      onRecvLoop memory 0 len (fuel + turns) emptyLoop = onRecvLoop memory 0 len fuel loop := by
  induction turned with
  | start => exact ⟨0, fun _ => rfl⟩
  | next loop _ inside ih =>
      obtain ⟨turns, same⟩ := ih
      refine ⟨turns + 1, fun fuel => ?_⟩
      rw [← Nat.add_assoc, Nat.add_right_comm, same]
      exact while_turn _ _ fuel loop (by simpa using inside)

theorem turned_ended (memory : Memory UInt8) (len : Nat) (loop : RecvLoop)
    (turned : Turns memory 0 len loop) (ends : ¬loop.processed < len) :
    ∃ fuel, onRecv memory 0 len fuel = some (loop.calls, loop.processed) := by
  obtain ⟨turns, same⟩ := turns_fuel memory len loop turned
  have ended := same 0
  rw [show onRecvLoop memory 0 len 0 loop = some loop
    from while_done _ _ 0 loop (by simpa using ends)] at ended
  refine ⟨0 + turns, ?_⟩
  rw [onRecv, show onRecvLoop memory 0 len (0 + turns) { processed := 0, calls := [] } =
    some loop from ended]
  rfl

theorem turned_calls (memory : Memory UInt8) (len : Nat) (loop : RecvLoop)
    (turned : Turns memory 0 len loop) (fuel : Nat) (result : List PacketCall × Nat)
    (parsed : onRecv memory 0 len fuel = some result) :
    loop.calls <+: result.1 := by
  obtain ⟨turns, same⟩ := turns_fuel memory len loop turned
  have longer := on_recv_more_fuel memory 0 len fuel turns result parsed
  obtain ⟨final, ended, answer⟩ := Option.map_eq_some_iff.mp longer
  rw [show onRecvLoop memory 0 len (fuel + turns) { processed := 0, calls := [] } = _
    from same fuel] at ended
  have kept := while_invariant _ (onRecvBody memory 0) (fun later => loop.calls <+: later.calls)
    (fun later _ before => before.trans (List.prefix_append _ _)) fuel loop final
    (List.prefix_refl _) ended
  rw [← answer]
  exact kept.1

end Loops

/-! The invariant: the receive is with one thread, with the kernel, or over, and what has been
stored and shown is what a single thread would have stored and shown. -/
section Invariant

def stage (system : System Thread) (thread : Thread) : Stage := stageOf (system.life.phase thread)

structure Alone (system : System Thread) : Prop where
  sole : ∀ first second, stage system first ≠ .outside →
    stage system second ≠ .outside → first = second
  apart : ∀ thread, stage system thread ≠ .outside → system.posted = []
  few : system.posted.length ≤ 1
  counted : system.posted.length = system.life.recvOutstanding
  early : system.life.joined = false →
    system.posted = [] ∧ system.chunks = [] ∧ ∀ thread, stage system thread = .outside

structure InLoop (memory : Memory UInt8) (bytes : List UInt8) (call : Parsing) : Prop where
  nonempty : bytes ≠ []
  len : call.len = bytes.length
  turned : Turns memory 0 call.len call.loop
  header : ∀ header, call.header = some header →
    call.loop.processed < call.len ∧ header = PacketHeader.read memory (0 + call.loop.processed)

/-- What a thread in the receive path knows of the chunk `current` that is not finished. -/
def Place (system : System Thread) (delivered : List Received) (current : Option (List UInt8))
    (thread : Thread) :
    Prop :=
  match stage system thread with
  | .arming => current = none
  | .received numberOfBytesRecvd =>
      ∃ bytes, current = some bytes ∧ numberOfBytesRecvd = bytes.length
  | .parsing => ∃ bytes call, current = some bytes ∧ system.parsing thread = some call ∧
      InLoop system.recvBuffer.buffer bytes call ∧
      system.shown = delivered ++ call.loop.calls.map (observe system.recvBuffer.buffer)
  | _ => True

def stored (session : RecvSession) (current : Option (List UInt8)) : RecvBuffer :=
  match current with
  | none => session.recvBuffer
  | some bytes => { session.recvBuffer with buffer := store session.recvBuffer.buffer 0 bytes }

structure Handled (system : System Thread) (finished : List (List UInt8)) (session : RecvSession)
    (current : Option (List UInt8)) : Prop where
  served : Served finished session
  chunked : ∀ bytes ∈ finished, Chunk bytes
  chunks : system.chunks = finished ++ current.toList
  buffer : system.recvBuffer = stored session current
  fits : ∀ bytes, current = some bytes → bytes.length ≤ recvBufferSize
  posted : ∀ entry ∈ system.posted, entry.wsabuf = { len := recvBufferSize, buf := 0 } ∧
    entry.arrived = current
  places : ∀ thread, Place system session.delivered current thread
  quiet : (∀ thread, stage system thread ≠ .parsing) → system.shown = session.delivered
  known : ∀ bytes, current = some bytes → bytes = [] ∨ system.posted ≠ [] ∨
    ∃ thread, stage system thread = .received bytes.length ∨ stage system thread = .parsing

structure Invariant (system : System Thread) : Prop where
  alone : Alone system
  handled : ∃ finished session current, Handled system finished session current

omit [DecidableEq Thread] in
theorem start_invariant : Invariant (System.start : System Thread) where
  alone :=
    { sole := fun first second inside => absurd rfl inside
      apart := fun thread inside => absurd rfl inside
      few := Nat.zero_le 1
      counted := rfl
      early := fun _ => ⟨rfl, rfl, fun _ => rfl⟩ }
  handled := ⟨[], connectedSession, none,
    { served := ⟨0, rfl⟩
      chunked := by simp
      chunks := rfl
      buffer := rfl
      fits := by simp
      posted := by simp [System.start]
      places := fun _ => trivial
      quiet := fun _ => rfl
      known := by simp }⟩

section Alone
variable (before after : System Thread) (alone : Alone before) (thread : Thread)
include alone

omit [DecidableEq Thread] in
theorem others_outside (inside : stage before thread ≠ .outside) (other : Thread)
    (different : other ≠ thread) :
    stage before other = .outside := by
  by_contra busy
  exact different (alone.sole other thread busy inside)

omit [DecidableEq Thread] in
theorem posted_outside (waiting : before.posted ≠ []) (other : Thread) :
    stage before other = .outside := by
  by_contra busy
  exact waiting (alone.apart other busy)

theorem alone_moves (next : Phase)
    (phase : after.life.phase = Function.update before.life.phase thread next)
    (enters : stageOf next ≠ .outside → (∀ other, other ≠ thread → stage before other = .outside) ∧
      after.posted = [])
    (leaves : after.posted ≠ [] → ∀ other, other ≠ thread → stage before other = .outside)
    (few : after.posted.length ≤ 1) (counted : after.posted.length = after.life.recvOutstanding)
    (early : after.life.joined = false → before.life.joined = false ∧ after.posted = [] ∧
      after.chunks = [] ∧ stageOf next = .outside) : Alone after := by
  have mine : stage after thread = stageOf next := by rw [stage, phase, Function.update_self]
  have others : ∀ other, other ≠ thread → stage after other = stage before other := by
    intro other different
    rw [stage, phase, Function.update_of_ne different, stage]
  constructor
  case sole =>
    intro first second inside within
    by_cases own : first = thread
    · by_cases same : second = thread
      · rw [own, same]
      · rw [own, mine] at inside
        rw [others second same] at within
        exact absurd ((enters inside).1 second same) within
    · rw [others first own] at inside
      by_cases same : second = thread
      · rw [same, mine] at within
        exact absurd ((enters within).1 first own) inside
      · rw [others second same] at within
        exact alone.sole first second inside within
  case apart =>
    intro other inside
    by_cases own : other = thread
    · rw [own, mine] at inside
      exact (enters inside).2
    · rw [others other own] at inside
      by_contra waiting
      exact inside (leaves waiting other own)
  case few => exact few
  case counted => exact counted
  case early =>
    intro new
    obtain ⟨old, nothing, none, out⟩ := early new
    refine ⟨nothing, none, fun other => ?_⟩
    by_cases own : other = thread
    · rw [own, mine, out]
    · rw [others other own]
      exact (alone.early old).2.2 other

end Alone

omit [DecidableEq Thread] in
theorem outside_place (system : System Thread) (delivered : List Received)
    (current : Option (List UInt8)) (thread : Thread) (out : stage system thread = .outside) :
    Place system delivered current thread := by
  rw [Place, out]
  trivial

omit [DecidableEq Thread] in
theorem parsing_place (system : System Thread) (delivered : List Received) (bytes : List UInt8)
    (thread : Thread) (call : Parsing) (parses : stage system thread = .parsing)
    (mine : system.parsing thread = some call) (inLoop : InLoop system.recvBuffer.buffer bytes call)
    (told : system.shown = delivered ++ call.loop.calls.map (observe system.recvBuffer.buffer)) :
    Place system delivered (some bytes) thread := by
  rw [Place, parses]
  exact ⟨bytes, call, rfl, mine, inLoop, told⟩

def Plain (stage : Stage) : Prop :=
  stage ≠ .parsing ∧ ∀ numberOfBytesRecvd, stage ≠ .received numberOfBytesRecvd

theorem handled_moves (before after : System Thread) (thread : Thread) (next : Phase)
    (finished : List (List UInt8)) (session : RecvSession) (current : Option (List UInt8))
    (handled : Handled before finished session current)
    (phase : after.life.phase = Function.update before.life.phase thread next)
    (same : after = { before with life := after.life })
    (moves : stageOf next = stage before thread ∨ Plain (stage before thread) ∧
      Plain (stageOf next) ∧ (stageOf next = .arming → current = none)) :
    Handled after finished session current := by
  have mine : stage after thread = stageOf next := by rw [stage, phase, Function.update_self]
  have others : ∀ other, other ≠ thread → stage after other = stage before other := by
    intro other different
    rw [stage, phase, Function.update_of_ne different, stage]
  have busy : ∀ other, ¬Plain (stage before other) → stage after other = stage before other := by
    intro other working
    by_cases own : other = thread
    · rcases moves with kept | ⟨idle, _⟩
      · rw [own, mine, kept]
      · rw [own] at working
        exact absurd idle working
    · exact others other own
  rw [same] at mine others busy ⊢
  constructor
  case served => exact handled.served
  case chunked => exact handled.chunked
  case chunks => exact handled.chunks
  case buffer => exact handled.buffer
  case fits => exact handled.fits
  case posted => exact handled.posted
  case places =>
    intro other
    have place := handled.places other
    by_cases kept : stage { before with life := after.life } other = stage before other
    · rw [Place, kept]
      exact place
    · have own : other = thread := by
        by_contra different
        exact kept (others other different)
      rw [own] at kept ⊢
      rcases moves with stays | ⟨_, plain, arms⟩
      · exact absurd (mine.trans stays) kept
      · rw [Place, mine]
        cases after : stageOf next with
        | arming => exact arms after
        | received count => exact absurd after (plain.2 count)
        | parsing => exact absurd after plain.1
        | outside | ending => trivial
  case quiet =>
    intro none
    apply handled.quiet
    intro other parsing
    refine none other ((busy other ?_).trans parsing)
    rw [parsing]
    exact fun plain => plain.1 rfl
  case known =>
    intro bytes now
    rcases handled.known bytes now with nothing | waiting | ⟨other, received | parsing⟩
    · exact Or.inl nothing
    · exact Or.inr (Or.inl waiting)
    · refine Or.inr (Or.inr ⟨other, Or.inl ((busy other ?_).trans received)⟩)
      rw [received]
      exact fun plain => plain.2 _ rfl
    · refine Or.inr (Or.inr ⟨other, Or.inr ((busy other ?_).trans parsing)⟩)
      rw [parsing]
      exact fun plain => plain.1 rfl

section Steps
variable (before after : System Thread) (holds : Invariant before)
include holds

theorem begin_keeps (label : SessionLife.Label Thread) (beginning : begins label = true)
    (life : SessionLife.System Thread) (taken : SessionLife.step before.life label = some life) :
    Invariant { before with life := life } := by
  obtain ⟨thread, next, moved, stands, outcome⟩ :=
    begin_moved before.life life label beginning taken
  have out : stage before thread = .outside := by rw [stage, stands]; rfl
  obtain ⟨finished, session, current, handled⟩ := holds.handled
  constructor
  case alone =>
    have others : stageOf next ≠ .outside →
        (∀ other, other ≠ thread → stage before other = .outside) ∧
        before.posted = [] := by
      intro inside
      rcases outcome with ⟨outside, _⟩ | ⟨_, new, _⟩
      · exact absurd outside inside
      · obtain ⟨nothing, _, idle⟩ := holds.alone.early new
        exact ⟨fun other _ => idle other, nothing⟩
    apply alone_moves before { before with life := life } holds.alone thread next moved.phase others
    case leaves => exact fun waiting other _ => posted_outside before holds.alone waiting other
    case few => exact holds.alone.few
    case counted => exact holds.alone.counted.trans moved.outstanding.symm
    case early =>
      intro new
      rcases outcome with ⟨outside, joined⟩ | ⟨_, _, joined⟩
      · have old := holds.alone.early (joined.symm.trans new)
        exact ⟨joined.symm.trans new, old.1, old.2.1, outside⟩
      · exact absurd (joined.symm.trans new) (by decide)
  case handled =>
    refine ⟨finished, session, current, ?_⟩
    apply handled_moves before { before with life := life } thread next finished session current
      handled moved.phase rfl
    rcases outcome with ⟨outside, _⟩ | ⟨arms, new, _⟩
    · exact Or.inl (outside.trans out.symm)
    · refine Or.inr ⟨?_, ?_, fun _ => ?_⟩
      · rw [out]
        exact ⟨by simp, by simp⟩
      · rw [arms]
        exact ⟨by simp, by simp⟩
      · -- Nothing has been stored before the session is connected.
        have nothing := (holds.alone.early new).2.1
        rw [handled.chunks] at nothing
        cases current with
        | none => rfl
        | some bytes => simp at nothing

omit [DecidableEq Thread] in
/-- With a receive in the kernel's hands all threads are outside and everything stored is
handled. -/
theorem posted_state (index : Nat) (entry : Posted) (found : before.posted[index]? = some entry) :
    index = 0 ∧ before.posted = [entry] ∧ ∀ thread, stage before thread = .outside := by
  have few := holds.alone.few
  obtain ⟨inside, _⟩ := List.getElem?_eq_some_iff.mp found
  have first : index = 0 := by omega
  have waiting : before.posted ≠ [] := by
    intro nothing
    rw [nothing] at inside
    cases inside
  refine ⟨first, ?_, posted_outside before holds.alone waiting⟩
  obtain ⟨only, single⟩ := List.length_eq_one_iff.mp (show before.posted.length = 1 by omega)
  rw [single, first] at found
  rw [single]
  exact congrArg (fun kept => [kept]) (Option.some.inj found)

omit [DecidableEq Thread] in
theorem arrive_keeps (index : Nat) (wsabuf : Wsabuf) (bytes : List UInt8)
    (found : before.posted[index]? = some { wsabuf := wsabuf, arrived := none })
    (room : bytes.length ≤ wsabuf.len) :
    Invariant
      { before with
        recvBuffer :=
          { before.recvBuffer with buffer := store before.recvBuffer.buffer wsabuf.buf bytes }
        posted := before.posted.set index { wsabuf := wsabuf, arrived := some bytes }
        chunks := before.chunks ++ [bytes] } := by
  obtain ⟨first, single, outside⟩ := posted_state before holds index _ found
  obtain ⟨finished, session, current, handled⟩ := holds.handled
  obtain ⟨whole, unarrived⟩ := handled.posted _ (single ▸ List.mem_singleton_self _)
  simp only at whole unarrived
  subst whole first
  subst unarrived
  constructor
  case alone =>
    constructor
    case sole => exact holds.alone.sole
    case apart => exact fun thread inside => absurd (outside thread) inside
    case few => simpa using holds.alone.few
    case counted => simpa using holds.alone.counted
    case early =>
      intro new
      have nothing := (holds.alone.early new).1
      rw [single] at nothing
      cases nothing
  case handled =>
    refine ⟨finished, session, some bytes, ?_⟩
    constructor
    case served => exact handled.served
    case chunked => exact handled.chunked
    case chunks => simp [handled.chunks]
    case buffer => simp [handled.buffer, stored]
    case fits =>
      intro other now
      cases now
      exact room
    case posted => simp [single]
    case places => exact fun thread => outside_place _ _ _ thread (outside thread)
    case quiet =>
      intro none
      exact handled.quiet none
    case known => exact fun other _ => Or.inr (Or.inl (by simp [single]))

theorem take_keeps (thread : Thread) (index : Nat) (wsabuf : Wsabuf) (bytes : List UInt8)
    (found : before.posted[index]? = some { wsabuf := wsabuf, arrived := some bytes })
    (life : SessionLife.System Thread)
    (taken : SessionLife.step before.life (.recvComplete thread bytes.length) = some life) :
    Invariant { before with life := life, posted := before.posted.eraseIdx index } := by
  obtain ⟨first, single, outside⟩ := posted_state before holds index _ found
  obtain ⟨finished, session, current, handled⟩ := holds.handled
  obtain ⟨_, arrived⟩ := handled.posted _ (single ▸ List.mem_singleton_self _)
  simp only at arrived
  subst first arrived
  unfold SessionLife.step at taken
  split at taken
  case isTrue => cases taken
  case isFalse =>
    simp only [Option.ite_none_right_eq_some, Option.some.injEq] at taken
    obtain ⟨⟨stands, waiting⟩, rfl⟩ := taken
    have shown := handled.quiet fun other parsing => by
      rw [outside other] at parsing
      cases parsing
    constructor
    case alone =>
      apply alone_moves before _ holds.alone thread (.received bytes.length) rfl
      case enters => exact fun _ => ⟨fun other _ => outside other, by simp [single]⟩
      case leaves => exact fun _ other _ => outside other
      case few => simp [single]
      case counted =>
        have counted := holds.alone.counted
        simp only [single, List.length_singleton] at counted
        simp [single, ← counted]
      case early =>
        intro new
        have nothing := (holds.alone.early new).1
        rw [single] at nothing
        cases nothing
    case handled =>
      refine ⟨finished, session, some bytes, ?_⟩
      constructor
      case served => exact handled.served
      case chunked => exact handled.chunked
      case chunks => exact handled.chunks
      case buffer => exact handled.buffer
      case fits => exact handled.fits
      case posted => simp [single]
      case places =>
        intro other
        by_cases own : other = thread
        · subst own
          simp only [Place, stage, enter, Function.update_self, stageOf]
          exact ⟨bytes, rfl, rfl⟩
        · apply outside_place
          simp only [stage, enter, Function.update_of_ne own]
          exact outside other
      case quiet => exact fun _ => shown
      case known =>
        rintro other ⟨⟩
        refine Or.inr (Or.inr ⟨thread, Or.inl ?_⟩)
        simp only [stage, enter, Function.update_self, stageOf]

section Inside
variable (thread : Thread) (result : WsaResult)

theorem alone_inside (next : Phase)
    (phase : after.life.phase = Function.update before.life.phase thread next)
    (inside : stage before thread ≠ .outside) (posted : after.posted = before.posted)
    (outstanding : after.life.recvOutstanding = before.life.recvOutstanding)
    (joined : after.life.joined = before.life.joined) : Alone after := by
  have none := holds.alone.apart thread inside
  apply alone_moves before after holds.alone thread next phase
  case enters => exact fun _ => ⟨others_outside before holds.alone thread inside, posted.trans none⟩
  case leaves => exact fun waiting => absurd (posted.trans none) waiting
  case few => exact posted ▸ holds.alone.few
  case counted => rw [posted, outstanding, holds.alone.counted]
  case early =>
    intro new
    exact absurd ((holds.alone.early (joined.symm.trans new)).2.2 thread) inside

omit [DecidableEq Thread] in
theorem quiet_inside (inside : stage before thread ≠ .outside)
    (still : stage before thread ≠ .parsing) (finished : List (List UInt8)) (session : RecvSession)
    (current : Option (List UInt8)) (handled : Handled before finished session current) :
    before.shown = session.delivered := by
  apply handled.quiet
  intro other parsing
  by_cases own : other = thread
  · rw [own] at parsing
    exact still parsing
  · rw [others_outside before holds.alone thread inside other own] at parsing
    cases parsing

theorem call_keeps (stands : before.life.phase thread = .recvCall) :
    Invariant
      { before with
        life := { enter before.life thread .idle with
          recvOutstanding := addAccepted result before.life.recvOutstanding }
        posted := if accepted result then before.posted ++ [offered before.recvBuffer]
            else before.posted } := by
  have arming : stage before thread = .arming := by rw [stage, stands]; rfl
  have inside : stage before thread ≠ .outside := by simp [arming]
  have none := holds.alone.apart thread inside
  have others := others_outside before holds.alone thread inside
  obtain ⟨finished, session, current, handled⟩ := holds.handled
  have place := handled.places thread
  rw [Place, arming] at place
  simp only at place
  subst place
  have listening := served_listening finished session handled.served handled.chunked
  have outstanding := holds.alone.counted
  rw [none] at outstanding
  have outside : ∀ other, stage
      { before with
        life := { enter before.life thread .idle with
          recvOutstanding := addAccepted result before.life.recvOutstanding }
        posted :=
          if accepted result then before.posted ++ [offered before.recvBuffer]
            else before.posted } other =
        .outside := by
    intro other
    by_cases own : other = thread
    · subst own
      simp only [stage, enter, Function.update_self, stageOf]
    · simp only [stage, enter, Function.update_of_ne own]
      exact others other own
  have shown :=
    quiet_inside before holds thread inside (by simp [arming]) finished session .none handled
  constructor
  case alone =>
    apply alone_moves before _ holds.alone thread .idle rfl
    case enters => exact fun inside => absurd rfl inside
    case leaves => exact fun _ => others
    case few =>
      rw [none]
      split <;> simp
    case counted =>
      simp only [none, addAccepted, ← outstanding, List.length_nil]
      split <;> rfl
    case early =>
      intro new
      exact absurd ((holds.alone.early new).2.2 thread) inside
  case handled =>
    refine ⟨finished, session, .none, ?_⟩
    constructor
    case served => exact handled.served
    case chunked => exact handled.chunked
    case chunks => exact handled.chunks
    case buffer => exact handled.buffer
    case fits => exact handled.fits
    case posted =>
      intro entry member
      simp only [none] at member
      split at member
      case isFalse => cases member
      case isTrue =>
        have free : session.recvBuffer.freeSize = recvBufferSize := by
          rw [RecvBuffer.freeSize, listening.size, listening.write]
          rfl
        rw [List.mem_singleton.mp member, handled.buffer]
        simp only [offered, stored, free, listening.write, and_self]
    case places => exact fun other => outside_place _ _ _ other (outside other)
    case quiet => exact fun _ => shown
    case known => exact fun bytes now => absurd now (by simp)

theorem receive_keeps (numberOfBytesRecvd : Nat)
    (stands : before.life.phase thread = .received numberOfBytesRecvd) :
    Invariant
      { before with
        life :=
          enter before.life thread (if numberOfBytesRecvd = 0 then
            .disconnectTest true else .onRecv)
        parsing := Function.update before.parsing thread <|
          if numberOfBytesRecvd = 0 then none
          else some { len := numberOfBytesRecvd, loop := emptyLoop, header := none } } := by
  have received : stage before thread = .received numberOfBytesRecvd := by rw [stage, stands]; rfl
  have inside : stage before thread ≠ .outside := by simp [received]
  have others := others_outside before holds.alone thread inside
  obtain ⟨finished, session, current, handled⟩ := holds.handled
  have place := handled.places thread
  rw [Place, received] at place
  obtain ⟨bytes, rfl, rfl⟩ := place
  have shown :=
    quiet_inside before holds thread inside (by simp [received]) finished session _ handled
  constructor
  case alone => exact alone_inside before _ holds thread _ rfl inside rfl rfl rfl
  case handled =>
    refine ⟨finished, session, some bytes, ?_⟩
    constructor
    case served => exact handled.served
    case chunked => exact handled.chunked
    case chunks => exact handled.chunks
    case buffer => exact handled.buffer
    case fits => exact handled.fits
    case posted => exact handled.posted
    case places =>
      intro other
      by_cases own : other = thread
      · subst own
        by_cases nothing : bytes.length = 0
        · simp only [Place, stage, enter, Function.update_self, if_pos nothing, stageOf, if_true]
        · simp only [Place, stage, enter, Function.update_self, if_neg nothing, stageOf]
          refine ⟨bytes, _, rfl, rfl, ⟨?_, rfl, .start, by simp⟩, ?_⟩
          · rintro rfl
            exact nothing rfl
          · simp [shown, emptyLoop]
      · apply outside_place
        simp only [stage, enter, Function.update_of_ne own]
        exact others other own
    case quiet => exact fun _ => shown
    case known =>
      rintro other ⟨⟩
      by_cases nothing : bytes.length = 0
      · exact Or.inl (List.length_eq_zero_iff.mp nothing)
      · refine Or.inr (Or.inr ⟨thread, Or.inr ?_⟩)
        simp only [stage, enter, Function.update_self, if_neg nothing, stageOf]

theorem loop_keeps (bytes : List UInt8) (call : Parsing) (finished : List (List UInt8))
    (session : RecvSession) (handled : Handled before finished session (some bytes))
    (parses : stage before thread = .parsing)
    (same : after = { before with
      parsing := Function.update before.parsing thread (some call), shown := after.shown })
    (inLoop : InLoop before.recvBuffer.buffer bytes call)
    (told :
      after.shown = session.delivered ++ call.loop.calls.map (observe before.recvBuffer.buffer)) :
    Invariant after := by
  have inside : stage before thread ≠ .outside := by simp [parses]
  have others := others_outside before holds.alone thread inside
  rw [same]
  constructor
  case alone =>
    exact ⟨holds.alone.sole, holds.alone.apart, holds.alone.few, holds.alone.counted,
      holds.alone.early⟩
  case handled =>
    refine ⟨finished, session, some bytes, ?_⟩
    constructor
    case served => exact handled.served
    case chunked => exact handled.chunked
    case chunks => exact handled.chunks
    case buffer => exact handled.buffer
    case fits => exact handled.fits
    case posted => exact handled.posted
    case places =>
      intro other
      by_cases own : other = thread
      · subst own
        exact parsing_place _ _ bytes other call parses (Function.update_self ..) inLoop told
      · exact outside_place _ _ _ other (others other own)
    case quiet => exact fun none => absurd parses (none thread)
    case known => exact handled.known

theorem return_keeps (bytes : List UInt8) (call : Parsing) (finished : List (List UInt8))
    (session : RecvSession) (handled : Handled before finished session (some bytes))
    (parses : stage before thread = .parsing) (inLoop : InLoop before.recvBuffer.buffer bytes call)
    (ends : ¬call.loop.processed < call.len)
    (told :
      before.shown = session.delivered ++ call.loop.calls.map (observe before.recvBuffer.buffer)) :
    Invariant
      { before with
        life := enter before.life thread
          (if call.loop.processed = 0 then .disconnectTest true else .recvTest)
        parsing := Function.update before.parsing thread none } := by
  have inside : stage before thread ≠ .outside := by simp [parses]
  have others := others_outside before holds.alone thread inside
  have some : bytes.length ≠ 0 := fun none => inLoop.nonempty (List.length_eq_zero_iff.mp none)
  have len := inLoop.len
  -- Every byte has been passed, so `PROCESS_LEN_0` does not occur.
  have positive : call.loop.processed ≠ 0 := by omega
  rw [if_neg positive]
  have memory : before.recvBuffer.buffer = store session.recvBuffer.buffer 0 bytes := by
    rw [handled.buffer]
    rfl
  obtain ⟨fuel, parsed⟩ := turned_ended _ _ call.loop inLoop.turned ends
  rw [memory, len] at parsed
  have chunk : Chunk bytes := ⟨inLoop.nonempty, handled.fits bytes rfl⟩
  have outside : ∀ other, other ≠ thread → stage
      { before with
        life := enter before.life thread .recvTest
        parsing := Function.update before.parsing thread none } other = .outside := by
    intro other own
    simp only [stage, enter, Function.update_of_ne own]
    exact others other own
  constructor
  case alone => exact alone_inside before _ holds thread .recvTest rfl inside rfl rfl rfl
  case handled =>
    refine ⟨finished ++ [bytes], _, .none,
      ⟨served_next finished session handled.served handled.chunked bytes chunk fuel _ parsed,
        ?chunked, ?chunks, ?buffer,
        ?fits, ?posted, ?places, ?quiet, ?known⟩⟩
    case chunked =>
      intro other member
      rcases List.mem_append.mp member with old | new
      · exact handled.chunked other old
      · rw [List.mem_singleton.mp new]
        exact chunk
    case chunks => simp [handled.chunks]
    case buffer => exact handled.buffer
    case fits => simp
    case posted => simp [holds.alone.apart thread inside]
    case places =>
      intro other
      by_cases own : other = thread
      · subst own
        simp only [Place, stage, enter, Function.update_self, stageOf]
      · exact outside_place _ _ _ other (outside other own)
    case quiet => exact fun _ => memory ▸ told
    case known => simp

end Inside

theorem parsing_keeps (thread : Thread) (result : WsaResult)
    (stands : before.life.phase thread = .onRecv)
    (taken : advance before thread result = some after) : Invariant after := by
  unfold advance at taken
  simp only [stands] at taken
  have parses : stage before thread = .parsing := by rw [stage, stands]; rfl
  obtain ⟨finished, session, current, handled⟩ := holds.handled
  have place := handled.places thread
  rw [Place, parses] at place
  obtain ⟨bytes, call, rfl, mine, inLoop, told⟩ := place
  simp only [mine, Option.bind_some] at taken
  have listening := served_listening finished session handled.served handled.chunked
  have front : before.recvBuffer.dataPos = 0 := by
    rw [handled.buffer]
    exact listening.data
  rw [front] at taken
  split at taken
  case h_1 header found =>
    rw [Option.some.injEq] at taken
    subst taken
    obtain ⟨goes, read⟩ := inLoop.header header found
    have turn : handle 0 header call.loop = onRecvBody before.recvBuffer.buffer 0 call.loop := by
      rw [read]
      rfl
    apply loop_keeps before _ holds thread bytes _ finished session handled parses rfl
    · exact ⟨inLoop.nonempty, inLoop.len, turn ▸ .next _ inLoop.turned goes, by simp⟩
    · simp [told, handle]
  case h_2 unread =>
    split at taken
    case isTrue goes =>
      rw [Option.some.injEq] at taken
      subst taken
      apply loop_keeps before _ holds thread bytes _ finished session handled parses rfl
      · refine ⟨inLoop.nonempty, inLoop.len, inLoop.turned, ?_⟩
        rintro header ⟨⟩
        exact ⟨goes, rfl⟩
      · exact told
    case isFalse ends =>
      obtain ⟨life, advanced, rfl⟩ := Option.map_eq_some_iff.mp taken
      simp only [SessionLife.advance, stands, Option.some.injEq] at advanced
      subst advanced
      exact return_keeps before holds thread bytes call finished session handled
        parses inLoop ends told

theorem plain_keeps (thread : Thread) (result : WsaResult) (life : SessionLife.System Thread)
    (calls : before.life.phase thread ≠ .recvCall)
    (receives : ∀ count, before.life.phase thread ≠ .received count)
    (parses : before.life.phase thread ≠ .onRecv)
    (advanced : SessionLife.advance before.life thread result 0 = some life) :
    Invariant { before with life := life } := by
  obtain ⟨next, moved, follows, joined⟩ :=
    advance_moved before.life life thread result calls receives parses advanced
  obtain ⟨finished, session, current, handled⟩ := holds.handled
  -- The stage keeps away from the chunk.
  have moves : stageOf next = stage before thread ∨
      Plain (stage before thread) ∧ Plain (stageOf next) ∧
      (stageOf next = .arming → current = none) := by
    rcases follows with same | ⟨arming, ending⟩ | ⟨ending, outside⟩
    · exact Or.inl same
    · rw [stage, arming, ending]
      exact Or.inr ⟨⟨by simp, by simp⟩, ⟨by simp, by simp⟩, by simp⟩
    · rw [stage, ending, outside]
      exact Or.inr ⟨⟨by simp, by simp⟩, ⟨by simp, by simp⟩, by simp⟩
  constructor
  case handled =>
    exact ⟨finished, session, current,
      handled_moves before _ thread next finished session current handled moved.phase rfl moves⟩
  case alone =>
    by_cases inside : stage before thread = .outside
    · have out : stageOf next = .outside := by
        rw [stage] at inside
        rw [inside] at follows
        rcases follows with same | ⟨arming, _⟩ | ⟨ending, _⟩
        · exact same
        · cases arming
        · cases ending
      apply alone_moves before _ holds.alone thread next moved.phase
      case enters => exact fun within => absurd out within
      case leaves => exact fun waiting other _ => posted_outside before holds.alone waiting other
      case few => exact holds.alone.few
      case counted => exact holds.alone.counted.trans moved.outstanding.symm
      case early =>
        intro new
        have old := holds.alone.early (joined.symm.trans new)
        exact ⟨joined.symm.trans new, old.1, old.2.1, out⟩
    · exact alone_inside before _ holds thread next moved.phase inside rfl moved.outstanding joined

theorem advance_keeps (thread : Thread) (result : WsaResult)
    (taken : advance before thread result = some after) :
    Invariant after := by
  have whole := taken
  unfold advance at taken
  split at taken
  case h_1 stands =>
    obtain ⟨life, advanced, rfl⟩ := Option.map_eq_some_iff.mp taken
    simp only [SessionLife.advance, stands, Option.some.injEq] at advanced
    subst advanced
    exact call_keeps before holds thread result stands
  case h_2 count stands =>
    obtain ⟨life, advanced, rfl⟩ := Option.map_eq_some_iff.mp taken
    simp only [SessionLife.advance, stands, Option.some.injEq] at advanced
    subst advanced
    exact receive_keeps before holds thread count stands
  case h_3 stands => exact parsing_keeps before after holds thread result stands whole
  case h_4 calls receives parses =>
    obtain ⟨life, advanced, rfl⟩ := Option.map_eq_some_iff.mp taken
    exact plain_keeps before holds thread result life calls receives parses advanced

theorem step_keeps (label : Label Thread) (taken : step before label = some after) :
    Invariant after := by
  unfold step at taken
  split at taken
  case isTrue => cases taken
  case isFalse =>
    cases label with
    | begin label =>
        simp only [Option.ite_none_right_eq_some] at taken
        obtain ⟨beginning, taken⟩ := taken
        obtain ⟨life, begun, rfl⟩ := Option.map_eq_some_iff.mp taken
        exact begin_keeps before holds label beginning life begun
    | arrive index bytes =>
        simp only at taken
        split at taken
        case h_1 wsabuf found =>
          simp only [Option.ite_none_right_eq_some, Option.some.injEq] at taken
          obtain ⟨room, rfl⟩ := taken
          exact arrive_keeps before holds index wsabuf bytes found room
        case h_2 => cases taken
    | take thread index =>
        simp only at taken
        split at taken
        case h_1 wsabuf bytes found =>
          obtain ⟨life, completed, rfl⟩ := Option.map_eq_some_iff.mp taken
          exact take_keeps before holds thread index wsabuf bytes found life completed
        case h_2 => cases taken
    | advance thread result => exact advance_keeps before after holds thread result taken

end Steps

end Invariant

def anyStep : Condition (System Thread) (Label Thread) := fun _ _ _ => True

theorem run_keeps (system : System Thread) (reached : Reachable step anyStep System.start system) :
    Invariant system :=
  reachable_invariant step anyStep Invariant System.start start_invariant
    (fun before label after holds taken _ =>
      step_keeps before after holds label taken) system reached

end NetCore.ReceiveStream
