import NetCore.PacketFraming
import Mathlib.Data.List.Flatten
import Mathlib.Algebra.BigOperators.Group.List.Basic

/-! The receive side of Session.cpp over RecvBuffer: `_set_connected`,
`_register_recv` and `_process_recv`, with the completions that the port delivers
one after another. A completion stores its bytes at the registered position.
`_process_recv` passes the received bytes to `OnRecv` and registers again without
calling `Write`, `Read` or `Clear`, so both cursors of the buffer stay at zero
and an unfinished frame is neither kept nor waited for. -/
namespace NetCore.SegmentedReceive
open ByteMemory FuelLoop PacketFraming

def recvBufferSize : Nat := 65536

def bufferCount : Nat := 10

structure RecvBuffer where
  buffer : Memory UInt8
  bufferSize : Nat
  capacity : Nat
  dataPos : Nat
  writePos : Nat

def RecvBuffer.construct (bufferSize : Nat) : RecvBuffer where
  buffer := fun _ => 0
  bufferSize := bufferSize
  capacity := bufferSize * bufferCount % 2 ^ 32
  dataPos := 0
  writePos := 0

/-- `_bufferSize - _writePos` in `uint32`. -/
def RecvBuffer.freeSize (recvBuffer : RecvBuffer) : Nat :=
  (recvBuffer.bufferSize + 2 ^ 32 - recvBuffer.writePos) % 2 ^ 32

inductive DisconnectError where
  | alreadyDisconnected
  | sent0
  | recv0
  | processLen0
  deriving DecidableEq, Repr

/-- What `::WSARecv` answers: done at once, pending, or an error code. -/
inductive WsaResult where
  | done
  | pending
  | failed (error : Nat)
  deriving DecidableEq, Repr

/-- What an `OnRecvPacket` call shows: the id, and the bytes from the pointer on,
as many as the header before the pointer announces. -/
structure Received where
  id : UInt16
  payload : List UInt8
  deriving DecidableEq, Repr

def observe (memory : Memory UInt8) (call : PacketCall) : Received where
  id := call.id
  payload := load memory call.buffer
    ((PacketHeader.read memory (call.buffer - headerSize)).size.toNat - headerSize)

/-- `outstanding` is the `WSABUF` of the `WSARecv` in progress; `disconnects` are
the `_disconnect` calls that went on to `_register_disconnect`. -/
structure RecvSession where
  connected : Bool
  recvBuffer : RecvBuffer
  outstanding : Option Wsabuf
  disconnects : List DisconnectError
  delivered : List Received

def disconnect (error : DisconnectError) (session : RecvSession) : RecvSession :=
  if session.connected then
    { session with disconnects := session.disconnects ++ [error] } else session

def registerRecv (result : WsaResult) (session : RecvSession) : RecvSession :=
  if session.connected then
    match result with
    -- The error is logged and nothing is registered.
    | .failed _ => { session with outstanding := none }
    | _ => { session with
        outstanding :=
          some { len := session.recvBuffer.freeSize, buf := session.recvBuffer.writePos } }
  else disconnect .alreadyDisconnected session

def processRecv (fuel : Nat) (result : WsaResult) (numberOfBytesRecvd : Nat)
    (session : RecvSession) : Option RecvSession :=
  if numberOfBytesRecvd = 0 then some (disconnect .recv0 session)
  -- The length passed on is that of this completion only.
  else
    (onRecv session.recvBuffer.buffer session.recvBuffer.dataPos numberOfBytesRecvd fuel).map
      fun (calls, processLen) =>
        let told := { session with
          delivered := session.delivered ++ calls.map (observe session.recvBuffer.buffer) }
        if processLen = 0 then disconnect .processLen0 told else registerRecv result told

/-- A receive completion, with the answer of the `WSARecv` that follows it. -/
structure Completion where
  bytes : List UInt8
  rearm : WsaResult

def complete (fuel : Nat) (session : RecvSession) (completion : Completion) : Option RecvSession :=
  match session.outstanding with
  | none => none
  | some wsabuf =>
      if completion.bytes.length ≤ wsabuf.len then
        processRecv fuel completion.rearm completion.bytes.length
          { session with
            outstanding := none
            recvBuffer := { session.recvBuffer with
              buffer := store session.recvBuffer.buffer wsabuf.buf completion.bytes } }
      else none

def receive (fuel : Nat) : RecvSession → List Completion → Option RecvSession
  | session, [] => some session
  | session, completion :: rest =>
      (complete fuel session completion).bind fun next => receive fuel next rest

def connectedSession : RecvSession :=
  registerRecv .pending
    { connected := true
      recvBuffer := RecvBuffer.construct recvBufferSize
      outstanding := none
      disconnects := []
      delivered := [] }

structure Listening (session : RecvSession) : Prop where
  connected : session.connected = true
  size : session.recvBuffer.bufferSize = recvBufferSize
  data : session.recvBuffer.dataPos = 0
  write : session.recvBuffer.writePos = 0
  outstanding : session.outstanding = some { len := recvBufferSize, buf := 0 }

theorem connected_session_listening : Listening connectedSession :=
  ⟨rfl, rfl, rfl, rfl, rfl⟩

def wireSize (received : List Received) : Nat :=
  (received.map fun packet => headerSize + packet.payload.length).sum

@[simp] theorem wire_size_append (left right : List Received) :
    wireSize (left ++ right) = wireSize left + wireSize right := by
  simp [wireSize]

/-- The cursor never runs ahead of the bytes its calls stand for; a size below
that of the header only makes it fall behind. -/
theorem on_recv_covered (memory : Memory UInt8) (buffer len fuel : Nat) (calls : List PacketCall)
    (processLen : Nat) (parsed : onRecv memory buffer len fuel = some (calls, processLen)) :
    len ≤ processLen ∧ processLen ≤ wireSize (calls.map (observe memory)) := by
  obtain ⟨final, ended, same⟩ := Option.map_eq_some_iff.mp parsed
  have outcome := while_invariant _ (onRecvBody memory buffer)
    (fun loop => loop.processed ≤ wireSize (loop.calls.map (observe memory))) ?_ fuel _ final
    (Nat.zero_le _) ended
  · cases same
    exact ⟨by simpa using outcome.2, outcome.1⟩
  · intro loop _ covered
    have shrink := Nat.mod_le
      (loop.processed + (PacketHeader.read memory (buffer + loop.processed)).size.toNat) (2 ^ 32)
    simp only [onRecvBody, List.map_append, wire_size_append]
    simp only [wireSize, List.map_cons, List.map_nil, List.sum_cons, List.sum_nil, observe,
      load_length, Nat.add_sub_cancel]
    simp only [wireSize] at covered
    omega

def afterCompletion (session : RecvSession) (memory : Memory UInt8) (calls : List PacketCall) :
    RecvSession :=
  { session with
    recvBuffer := { session.recvBuffer with buffer := memory }
    delivered := session.delivered ++ calls.map (observe memory) }

theorem after_completion_listening (session : RecvSession) (memory : Memory UInt8)
    (calls : List PacketCall) (listening : Listening session) :
    Listening (afterCompletion session memory calls) :=
  ⟨listening.connected, listening.size, listening.data, listening.write, listening.outstanding⟩

theorem register_recv_armed (result : WsaResult) (session : RecvSession)
    (armed : ∀ error, result ≠ .failed error) (connected : session.connected = true)
    (size : session.recvBuffer.bufferSize = recvBufferSize)
    (write : session.recvBuffer.writePos = 0) :
    registerRecv result session =
      { session with outstanding := some { len := recvBufferSize, buf := 0 } } := by
  have free : session.recvBuffer.freeSize = recvBufferSize := by
    rw [RecvBuffer.freeSize, size, write]
    rfl
  cases result with
  | failed error => exact False.elim (armed error rfl)
  | done => simp only [registerRecv, connected, free, write, ↓reduceIte]
  | pending => simp only [registerRecv, connected, free, write, ↓reduceIte]

/-- On a listening session `OnRecv` sees exactly the chunk, at offset zero, and
every return of `OnRecv` leaves the session listening. -/
theorem complete_listening (fuel : Nat) (session : RecvSession) (completion : Completion)
    (listening : Listening session) (nonempty : completion.bytes ≠ [])
    (offered : completion.bytes.length ≤ recvBufferSize)
    (armed : ∀ error, completion.rearm ≠ .failed error) :
    complete fuel session completion =
      (onRecv (store session.recvBuffer.buffer 0 completion.bytes) 0
        completion.bytes.length fuel).map
        fun result => afterCompletion session
            (store session.recvBuffer.buffer 0 completion.bytes) result.1 := by
  have someBytes : completion.bytes.length ≠ 0 := by simpa using nonempty
  simp only [complete, listening.outstanding, offered, ↓reduceIte, processRecv,
    someBytes, listening.data]
  cases parsed : onRecv (store session.recvBuffer.buffer 0 completion.bytes) 0
      completion.bytes.length fuel with
  | none => rfl
  | some result =>
      -- `OnRecv` never answers 0 to a chunk with bytes, so `PROCESS_LEN_0` does not occur.
      have covered := on_recv_covered _ _ _ _ result.1 result.2 parsed
      have positive : result.2 ≠ 0 := by omega
      simp only [Option.map_some, positive, ↓reduceIte]
      refine congrArg some ((register_recv_armed completion.rearm _ armed ?_ ?_ ?_).trans ?_)
      · exact listening.connected
      · exact listening.size
      · exact listening.write
      · simp only [afterCompletion, listening.outstanding, listening.data]

def Packet.received (packet : Packet) : Received := { id := packet.id, payload := packet.payload }

@[simp] theorem wire_size_packets (packets : List Packet) :
    wireSize (packets.map Packet.received) = (encodePackets packets).length := by
  induction packets with
  | nil => rfl
  | cons packet rest ih =>
      simp only [wireSize, List.map_cons, List.sum_cons, encode_packets_cons, List.length_append,
        encode_length] at ih ⊢
      rw [ih]
      rfl

theorem packet_calls_observed (memory : Memory UInt8) (ptr : Nat) (packets : List Packet)
    (placed : load memory ptr (encodePackets packets).length = encodePackets packets) :
    (packetCalls ptr packets).map (observe memory) = packets.map Packet.received := by
  induction packets generalizing ptr with
  | nil => rfl
  | cons packet rest ih =>
      simp only [encode_packets_cons, List.length_append] at placed
      have parts := load_parts memory ptr packet.encode (encodePackets rest) placed
      rw [encode_length] at parts
      have frame := load_parts memory ptr packet.header.layout packet.payload parts.1
      have header := header_read_layout memory ptr packet.header frame.1
      have length : packet.size - headerSize = packet.payload.length := Nat.add_sub_cancel_left _ _
      simp only [packetCalls, List.map_cons, ih (ptr + packet.size) parts.2, observe,
        Nat.add_sub_cancel, header, header_size_exact, length, Packet.received]
      exact congrArg (fun payload => Received.mk packet.id payload :: _) frame.2

section Runs
variable (completions : List Completion)
  (nonempty : ∀ completion ∈ completions, completion.bytes ≠ [])
  (offered : ∀ completion ∈ completions, completion.bytes.length ≤ recvBufferSize)
  (armed : ∀ completion ∈ completions, ∀ error, completion.rearm ≠ .failed error)
include nonempty offered armed

theorem receive_covered (fuel : Nat) (session after : RecvSession) (listening : Listening session)
    (ended : receive fuel session completions = some after) :
    ∃ groups : List (List Received), after.delivered = session.delivered ++ groups.flatten ∧
      List.Forall₂ (fun completion group => completion.bytes.length ≤
        wireSize group) completions groups := by
  induction completions generalizing session with
  | nil =>
      simp only [receive, Option.some.injEq] at ended
      exact ⟨[], by simp [ended], .nil⟩
  | cons completion rest ih =>
      have head := List.mem_cons_self (a := completion) (l := rest)
      have later : ∀ other ∈ rest, other ∈ completion :: rest := fun _ => List.mem_cons_of_mem _
      obtain ⟨next, completed, tail⟩ := Option.bind_eq_some_iff.mp ended
      rw [complete_listening fuel session completion listening (nonempty _ head) (offered _ head)
        (armed _ head)] at completed
      obtain ⟨result, parsed, same⟩ := Option.map_eq_some_iff.mp completed
      have covered := on_recv_covered _ _ _ _ result.1 result.2 parsed
      subst next
      obtain ⟨groups, delivered, sized⟩ :=
        ih (fun other member => nonempty other (later other member))
        (fun other member => offered other (later other member))
        (fun other member => armed other (later other member)) _
        (after_completion_listening session _ result.1 listening) tail
      refine ⟨_ :: groups, ?_, .cons (Nat.le_trans covered.1 covered.2) sized⟩
      rw [delivered, List.flatten_cons, ← List.append_assoc]
      rfl

theorem receive_aligned (groups : List (List Packet)) (session : RecvSession) (fuel : Nat)
    (listening : Listening session) (enough : groups.flatten.length ≤ fuel)
    (aligned : completions.map Completion.bytes = groups.map encodePackets) :
    ∃ after, receive fuel session completions = some after ∧
      after.delivered = session.delivered ++ groups.flatten.map Packet.received := by
  induction completions generalizing session groups with
  | nil =>
      have none : groups = [] := List.map_eq_nil_iff.mp aligned.symm
      exact ⟨session, rfl, by simp [none]⟩
  | cons completion rest ih =>
      cases groups with
      | nil => simp at aligned
      | cons group groups =>
          have head := List.mem_cons_self (a := completion) (l := rest)
          have later : ∀ other ∈ rest, other ∈ completion :: rest := fun _ => List.mem_cons_of_mem _
          simp only [List.map_cons, List.cons.injEq] at aligned
          simp only [List.flatten_cons, List.length_append] at enough
          have placed := load_store_same session.recvBuffer.buffer 0 completion.bytes
          have small := offered _ head
          rw [aligned.1] at placed small
          have parsed := on_recv_packets _ 0 group placed
            (Nat.lt_of_le_of_lt small (by simp [recvBufferSize]))
          -- One fuel serves all completions; a group needs one turn for each packet.
          have longer := on_recv_more_fuel _ _ _ _ (fuel - group.length) _ parsed
          rw [Nat.add_sub_of_le (by omega)] at longer
          have completed := complete_listening fuel session completion listening (nonempty _ head)
            (offered _ head) (armed _ head)
          rw [aligned.1] at completed
          rw [longer, Option.map_some] at completed
          obtain ⟨after, tail, delivered⟩ :=
            ih (fun other member => nonempty other (later other member))
            (fun other member => offered other (later other member))
            (fun other member => armed other (later other member)) groups _
            (after_completion_listening session _ _ listening) (by omega) aligned.2
          refine ⟨after, by rw [receive, completed]; exact tail, ?_⟩
          rw [delivered, afterCompletion]
          simp only [packet_calls_observed _ 0 group placed, List.flatten_cons, List.map_append,
            List.append_assoc]

end Runs

theorem bounds_tight (completions : List Completion) (groups : List (List Received))
    (bounded : List.Forall₂ (fun completion group => completion.bytes.length ≤ wireSize group)
      completions groups)
    (total : wireSize groups.flatten ≤ (completions.map Completion.bytes).flatten.length) :
    completions.map (fun completion => completion.bytes.length) = groups.map wireSize := by
  have sums : ∀ completions groups, List.Forall₂
      (fun (completion : Completion) group => completion.bytes.length ≤
        wireSize group) completions groups →
      (completions.map Completion.bytes).flatten.length ≤ wireSize groups.flatten := by
    intro completions groups related
    induction related with
    | nil => exact Nat.zero_le _
    | cons head _ ih =>
        simp only [List.map_cons, List.flatten_cons, List.length_append, wire_size_append]
        omega
  induction bounded with
  | nil => rfl
  | cons head tail ih =>
      have rest := sums _ _ tail
      simp only [List.map_cons, List.flatten_cons, List.length_append, wire_size_append] at total ⊢
      rw [ih (by omega), List.cons.injEq]
      exact ⟨by omega, rfl⟩

theorem observed_regroup (packets : List Packet) (groups : List (List Received))
    (same : packets.map Packet.received = groups.flatten) :
    ∃ parts : List (List Packet), parts.flatten = packets ∧
      parts.map (List.map Packet.received) = groups := by
  induction groups generalizing packets with
  | nil => exact ⟨[], (List.map_eq_nil_iff.mp same).symm, rfl⟩
  | cons group groups ih =>
      obtain ⟨front, back, split, first, rest⟩ := List.map_eq_append_iff.mp same
      obtain ⟨parts, joined, mapped⟩ := ih back rest
      exact ⟨front :: parts, by simp [joined, split], by simp [first, mapped]⟩

def Aligned (packets : List Packet) (chunks : List (List UInt8)) : Prop :=
  ∃ groups : List (List Packet), groups.flatten = packets ∧ chunks = groups.map encodePackets

def Delivers (session : RecvSession) (completions : List Completion) (packets : List Packet) :
    Prop :=
  ∃ fuel after, receive fuel session completions = some after ∧
    after.delivered = session.delivered ++ packets.map Packet.received

theorem delivers_iff_aligned (session : RecvSession) (listening : Listening session)
    (packets : List Packet) (completions : List Completion)
    (nonempty : ∀ completion ∈ completions, completion.bytes ≠ [])
    (offered : ∀ completion ∈ completions, completion.bytes.length ≤ recvBufferSize)
    (armed : ∀ completion ∈ completions, ∀ error, completion.rearm ≠ .failed error)
    (cut : (completions.map Completion.bytes).flatten = encodePackets packets) :
    Delivers session completions packets ↔ Aligned packets (completions.map Completion.bytes) := by
  constructor
  · rintro ⟨fuel, after, ended, delivered⟩
    obtain ⟨groups, observed, bounded⟩ :=
      receive_covered completions nonempty offered armed fuel session after listening ended
    have same : packets.map Packet.received = groups.flatten :=
      List.append_cancel_left (delivered.symm.trans observed)
    -- Each chunk's packets stand for at least its bytes, and all together for exactly
    -- the bytes of the stream: no chunk can have delivered more than it holds.
    have total : wireSize groups.flatten ≤ (completions.map Completion.bytes).flatten.length := by
      exact Nat.le_of_eq (by rw [← same, wire_size_packets, cut])
    have tight := bounds_tight completions groups bounded total
    obtain ⟨parts, joined, mapped⟩ := observed_regroup packets groups same
    refine ⟨parts, joined, List.eq_iff_flatten_eq.mpr ⟨?_, ?_⟩⟩
    · rw [cut, ← joined, encode_packets_flatten]
    · rw [List.map_map, List.map_map]
      rw [← mapped, List.map_map] at tight
      simpa only [Function.comp_def, wire_size_packets] using tight
  · rintro ⟨groups, joined, aligned⟩
    obtain ⟨after, ended, delivered⟩ := receive_aligned completions nonempty offered armed groups
      session groups.flatten.length listening (Nat.le_refl _) aligned
    exact ⟨_, after, ended, by rw [delivered, joined]⟩

/-- Segmentation of the stream on a session just connected. -/
theorem segmented_receive_exact (packets : List Packet) (completions : List Completion)
    (nonempty : ∀ completion ∈ completions, completion.bytes ≠ [])
    (offered : ∀ completion ∈ completions, completion.bytes.length ≤ recvBufferSize)
    (armed : ∀ completion ∈ completions, ∀ error, completion.rearm ≠ .failed error)
    (cut : (completions.map Completion.bytes).flatten = encodePackets packets) :
    Delivers connectedSession completions packets ↔
      Aligned packets (completions.map Completion.bytes) :=
  delivers_iff_aligned connectedSession connected_session_listening packets completions
    nonempty offered armed cut

/-- Two frames in one chunk, the second without payload. -/
theorem segmented_receive_two_frames :
    Delivers connectedSession [⟨[6, 0, 1, 0, 17, 34, 4, 0, 2, 0], .pending⟩]
      [⟨1, [17, 34], by decide⟩, ⟨2, [], by decide⟩] :=
  (segmented_receive_exact [⟨1, [17, 34], by decide⟩, ⟨2, [], by decide⟩]
    [⟨[6, 0, 1, 0, 17, 34, 4, 0, 2, 0], .pending⟩] (by simp) (by simp [recvBufferSize]) (by simp)
    (by decide)).mpr ⟨[[⟨1, [17, 34], by decide⟩, ⟨2, [], by decide⟩]], rfl, by decide⟩

/-- One frame of eight bytes that arrives header first: the payload is read before
it has arrived, and then taken for a header. -/
theorem split_frame_misread :
    let packet : Packet := ⟨1, [1, 2, 3, 4], by decide⟩
    let completions : List Completion := [⟨[8, 0, 1, 0], .pending⟩, ⟨[1, 2, 3, 4], .pending⟩]
    (completions.map Completion.bytes).flatten = encodePackets [packet] ∧
      (∀ completion ∈ completions, completion.bytes ≠ [] ∧
        completion.bytes.length ≤ recvBufferSize ∧ completion.rearm = .pending) ∧
      ¬ Delivers connectedSession completions [packet] := by
  intro packet completions
  have cut : (completions.map Completion.bytes).flatten = encodePackets [packet] := by decide
  refine ⟨cut, by simp [completions, recvBufferSize], ?_⟩
  rw [delivers_iff_aligned connectedSession connected_session_listening [packet] completions
    (by simp [completions]) (by simp [completions, recvBufferSize]) (by simp [completions]) cut]
  rintro ⟨groups, joined, aligned⟩
  have two : groups.length = 2 := by simpa [completions] using (congrArg List.length aligned).symm
  obtain ⟨first, second, rfl⟩ := List.length_eq_two.mp two
  simp only [completions, List.map_cons, List.map_nil, List.cons.injEq, and_true] at aligned
  simp only [List.flatten_cons, List.flatten_nil, List.append_nil] at joined
  rcases List.append_eq_singleton_iff.mp joined with ⟨empty, _⟩ | ⟨_, empty⟩
  · simp [empty] at aligned
  · simp [empty] at aligned

end NetCore.SegmentedReceive
