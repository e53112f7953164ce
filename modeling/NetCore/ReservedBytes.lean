import NetCore.FrameSerialization
import NetCore.SendPipeline

/-! `_reserved` and `_reservedSendBytes` of PacketSession.cpp over any sequence of `Send`,
`SendRaw` and `Flush`. `Send` counts `size + sizeof(PacketHeader)` in 32 bits, where `Serialize`
has computed the length of the `WSABUF` in 16; `SendRaw` counts what it copies and adds no
`WSABUF` for it. The send buffer of the calling thread and the one it would roll over to come
with the call. A frame too long for a send buffer fails the assertion of `Reserve`, and the
process ends there. -/
namespace NetCore.ReservedBytes
open TransitionRuns ByteMemory PacketFraming SendBufferPool FrameSerialization SendPipeline

/-- A `WSABUF` with the bytes that `Serialize` left where it points to. -/
structure Segment where
  wsabuf : Wsabuf
  bytes : List UInt8

/-- `accepted` are the bytes that `Send` and `SendRaw` took over, header included, and `passed`
the lists given to `Session::_send`. -/
structure PacketSession where
  reserved : List Segment
  reservedSendBytes : UInt32
  lastSendTick : UInt64
  passed : List (List Segment)
  accepted : List UInt8

def PacketSession.construct (tick : UInt64) : PacketSession where
  reserved := []
  reservedSendBytes := 0
  lastSendTick := tick
  passed := []
  accepted := []

/-- The pointers passed to `Send` and `SendRaw` may be null. -/
inductive Label where
  | send (id : UInt16) (data : Option (List UInt8)) (current popped : SendBuffer)
  | sendRaw (text : Option (List UInt8)) (current : SendBuffer)
  | flush (tick sent : UInt64)

def frame (id : UInt16) (data : List UInt8) : List UInt8 :=
  (PacketHeader.construct id (UInt16.ofNat (headerSize + data.length))).layout ++ data

def send (session : PacketSession) (id : UInt16) (data : List UInt8) (current popped : SendBuffer) :
    Except SendError PacketSession :=
  match serializeFrame id data current popped with
  | .error error => .error error
  | .ok result => .ok
      { session with
        reserved := session.reserved ++
          [⟨result.wsabuf, load result.used.buffer result.wsabuf.buf result.wsabuf.len⟩]
        reservedSendBytes := session.reservedSendBytes + UInt32.ofNat (data.length + headerSize)
        accepted := session.accepted ++ frame id data }

/-- `static_cast<uint32>(strlen(buffer))`. -/
def rawSize (text : List UInt8) : Nat := text.length % 2 ^ 32

def sendRaw (session : PacketSession) (text : List UInt8) (current : SendBuffer) :
    Except SendError PacketSession :=
  match current.reserve (rawSize text) with
  | .error error => .error error
  | .ok _ => .ok
      { session with
        reservedSendBytes := session.reservedSendBytes + UInt32.ofNat (rawSize text)
        accepted := session.accepted ++ text.take (rawSize text) }

def flush (session : PacketSession) (tick sent : UInt64) : PacketSession :=
  if tick - session.lastSendTick < flushSendMinIntervalTick ∧
      session.reservedSendBytes < flushSendMinReservedByteLength then session
  else if session.reserved.isEmpty then session
  else
    { session with
      reserved := []
      reservedSendBytes := 0
      lastSendTick := sent
      passed := session.passed ++ [session.reserved] }

def step : Step PacketSession Label := fun session label =>
  match label with
  | .send _ none _ _ => some session
  | .send id (some data) current popped =>
      if data.length < 2 ^ 16 then (send session id data current popped).toOption else none
  | .sendRaw none _ => some session
  | .sendRaw (some text) current => (sendRaw session text current).toOption
  | .flush tick sent => some (flush session tick sent)

/-- The counter is that of the list, and nothing that was accepted is anywhere else. -/
structure Exact (session : PacketSession) : Prop where
  counted : session.reservedSendBytes.toNat =
    (session.reserved.map fun segment => segment.wsabuf.len).sum % 2 ^ 32
  whole : (session.passed.flatten ++ session.reserved).flatMap Segment.bytes = session.accepted

/-- The calls after which both still hold: no `SendRaw` of a non-empty string, and no `Send` of
more than 65531 bytes. -/
def harmless : Label → Prop
  | .send _ (some data) _ _ => headerSize + data.length < 2 ^ 16
  | .sendRaw (some text) _ => rawSize text = 0
  | _ => True

theorem construct_exact (tick : UInt64) : Exact (PacketSession.construct tick) := ⟨rfl, rfl⟩

theorem fill_serializes (id : UInt16) (data : List UInt8) (before after : SendBuffer)
    (wsabuf : Wsabuf) (filled : fill id data before = .ok (after, wsabuf)) :
    ∃ memory buffer, (after.buffer, wsabuf) = serialize memory buffer id data := by
  unfold fill at filled
  simp only at filled
  split at filled
  case h_1 => cases filled
  case h_2 reserved offset taken =>
    cases filled
    exact ⟨reserved.buffer, offset, rfl⟩

theorem frame_serializes (id : UInt16) (data : List UInt8) (current popped : SendBuffer)
    (result : Serialized) (done : serializeFrame id data current popped = .ok result) :
    ∃ memory buffer, (result.used.buffer, result.wsabuf) = serialize memory buffer id data := by
  unfold serializeFrame at done
  simp only at done
  split at done
  · split at done
    case h_1 => cases done
    case h_2 after wsabuf filled =>
      cases done
      exact fill_serializes id data popped after wsabuf filled
  · split at done
    case h_1 => cases done
    case h_2 after wsabuf filled =>
      cases done
      exact fill_serializes id data current after wsabuf filled

theorem serialized_segment (id : UInt16) (data : List UInt8) (current popped : SendBuffer)
    (result : Serialized) (done : serializeFrame id data current popped = .ok result) :
    result.wsabuf.len = (headerSize + data.length) % 2 ^ 16 ∧
    (headerSize + data.length < 2 ^ 16 →
      load result.used.buffer result.wsabuf.buf result.wsabuf.len = frame id data) := by
  obtain ⟨memory, buffer, serialized⟩ := frame_serializes id data current popped result done
  obtain ⟨written, placed⟩ := Prod.mk.inj serialized
  refine ⟨?_, ?_⟩
  · rw [placed]
    exact UInt16.toNat_ofNat' ..
  · intro small
    rw [written, placed]
    exact serialize_encodes memory buffer ⟨id, data, small⟩

theorem send_exact_iff (before after : PacketSession) (id : UInt16) (data : List UInt8)
    (current popped : SendBuffer) (holds : Exact before) (ranged : data.length < 2 ^ 16)
    (sent : send before id data current popped = .ok after) :
    Exact after ↔ headerSize + data.length < 2 ^ 16 := by
  unfold send at sent
  split at sent
  case h_1 => cases sent
  case h_2 result done =>
    cases sent
    obtain ⟨length, content⟩ := serialized_segment id data current popped result done
    have counted := holds.counted
    constructor
    · intro exact
      have sum := exact.counted
      simp only [List.map_append, List.map_cons, List.map_nil, List.sum_append, List.sum_singleton,
        UInt32.toNat_add, UInt32.toNat_ofNat'] at sum
      rw [counted, length] at sum
      simp only [headerSize] at sum ⊢
      omega
    · intro small
      refine ⟨?_, ?_⟩
      · simp only [List.map_append, List.map_cons, List.map_nil, List.sum_append,
          List.sum_singleton, UInt32.toNat_add, UInt32.toNat_ofNat']
        rw [counted, length]
        simp only [headerSize] at small ⊢
        omega
      · have whole := holds.whole
        simp only [List.flatMap_append, List.flatMap_cons, List.flatMap_nil,
          List.append_nil] at whole ⊢
        rw [content small, ← List.append_assoc, whole]

theorem send_raw_exact_iff (before after : PacketSession) (text : List UInt8) (current : SendBuffer)
    (holds : Exact before) (sent : sendRaw before text current = .ok after) :
    Exact after ↔ rawSize text = 0 := by
  unfold sendRaw at sent
  split at sent
  case h_1 => cases sent
  case h_2 =>
    cases sent
    have counted := holds.counted
    have bound : rawSize text < 2 ^ 32 := Nat.mod_lt _ (by decide)
    constructor
    · intro exact
      have sum := exact.counted
      simp only [UInt32.toNat_add, UInt32.toNat_ofNat'] at sum
      rw [counted] at sum
      omega
    · intro none
      refine ⟨?_, ?_⟩
      · simpa [none] using counted
      · simpa [none] using holds.whole

theorem flush_exact (session : PacketSession) (tick sent : UInt64) (holds : Exact session) :
    Exact (flush session tick sent) := by
  unfold flush
  split
  · exact holds
  · split
    · exact holds
    · refine ⟨rfl, ?_⟩
      have whole := holds.whole
      simpa using whole

theorem step_exact_iff (before after : PacketSession) (label : Label) (holds : Exact before)
    (taken : step before label = some after) : Exact after ↔ harmless label := by
  cases label with
  | send id data current popped =>
      cases data with
      | none =>
          cases taken
          exact iff_of_true holds trivial
      | some data =>
          simp only [step, Option.ite_none_right_eq_some] at taken
          obtain ⟨ranged, returned⟩ := taken
          cases sent : send before id data current popped with
          | error error => simp [sent, Except.toOption] at returned
          | ok next =>
              simp only [sent, Except.toOption, Option.some.injEq] at returned
              subst returned
              exact send_exact_iff before next id data current popped holds ranged sent
  | sendRaw text current =>
      cases text with
      | none =>
          cases taken
          exact iff_of_true holds trivial
      | some text =>
          simp only [step] at taken
          cases sent : sendRaw before text current with
          | error error => simp [sent, Except.toOption] at taken
          | ok next =>
              simp only [sent, Except.toOption, Option.some.injEq] at taken
              subst taken
              exact send_raw_exact_iff before next text current holds sent
  | flush tick sent =>
      cases taken
      exact iff_of_true (flush_exact before tick sent holds) trivial

/-- In every run of harmless calls the account is exact, and the next call keeps it so exactly
if it is harmless too. -/
theorem reserved_bytes_exact (tick : UInt64) (session : PacketSession)
    (reached :
      Reachable step (fun _ label _ => harmless label) (PacketSession.construct tick) session) :
    Exact session ∧ ∀ label after, step session label = some after →
        (Exact after ↔ harmless label) := by
  have holds := reachable_invariant step (fun _ label _ => harmless label) Exact
    (PacketSession.construct tick) (construct_exact tick)
    (fun before label after holds taken allowed =>
      (step_exact_iff before after label holds taken).mpr allowed)
    session reached
  exact ⟨holds, fun label after taken => step_exact_iff session after label holds taken⟩

def harmlessStep (label : Label) : Bool :=
  match label with
  | .send _ (some data) _ _ => decide (headerSize + data.length < 2 ^ 16)
  | .sendRaw (some text) _ => decide (rawSize text = 0)
  | _ => true

theorem harmless_step_sound (label : Label) (checked : harmlessStep label = true) :
    harmless label := by
  unfold harmless
  split
  · exact of_decide_eq_true checked
  · exact of_decide_eq_true checked
  · trivial

/-- One packet has been passed on and a second one waits. -/
theorem reserved_bytes_exact_twice :
    ∃ session,
      Reachable step (fun _ label _ => harmless label) (PacketSession.construct 0) session ∧
      session.passed.length = 1 ∧ session.reservedSendBytes = 5 ∧ Exact session := by
  obtain ⟨session, reached, seen⟩ := replay_reachable step (fun _ label _ => harmless label)
    (fun _ label _ => harmlessStep label)
    (fun _ label _ checked => harmless_step_sound label checked)
    (fun session => (session.passed.length, session.reservedSendBytes)) (1, 5)
    [.send 7 (some [1, 2]) .construct .construct, .flush 2000 2001,
     .send 8 (some [3]) .construct .construct, .flush 2002 2003]
    (PacketSession.construct 0) (by decide +kernel)
  simp only [Prod.mk.injEq] at seen
  exact ⟨session, reached, seen.1, seen.2, (reserved_bytes_exact 0 session reached).1⟩

/-- `SendRaw` of one byte: it is counted and is nowhere. -/
theorem raw_byte_lost :
    ¬ ∀ session, Reachable step (fun _ _ _ => True) (PacketSession.construct 0) session →
      Exact session := by
  intro exact
  obtain ⟨session, reached, seen⟩ := replay_reachable step (fun _ _ _ => True) (fun _ _ _ => true)
    (fun _ _ _ _ => trivial)
    (fun session => (session.reservedSendBytes.toNat, session.reserved.length)) (1, 0)
    [.sendRaw (some [65]) .construct] (PacketSession.construct 0) (by decide +kernel)
  simp only [Prod.mk.injEq] at seen
  have counted := (exact session reached).counted
  rw [seen.1, List.length_eq_zero_iff.mp seen.2] at counted
  cases counted

end NetCore.ReservedBytes
