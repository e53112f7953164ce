import NetCore.SendBufferPool

/-! `PacketWrapper::Serialize` with the reservation it makes. The frame length is computed
in 16 bits, `Reserve` tests it in 32 bits against the size of a buffer, and the data are
copied with their own length. The three agree until the 16-bit sum wraps: from 65532 bytes
of data on, a few bytes are reserved, no overflow is seen and the copy runs on behind
them. What it overwrites past the array, the counter of the buffer included, is left out. -/
namespace NetCore.FrameSerialization
open ByteMemory PacketFraming SendBufferPool

/-- What a call of `Serialize` leaves: the buffer it rolled over to, if it did, is the
thread's from then on. `reserved` is the size passed to `Reserve`. -/
structure Serialized where
  wsabuf : Wsabuf
  reserved : Nat
  rolledOver : Bool
  current : SendBuffer
  popped : SendBuffer

def Serialized.used (result : Serialized) : SendBuffer :=
  if result.rolledOver then result.popped else result.current

def fill (id : UInt16) (data : List UInt8) (sendBuffer : SendBuffer) :
    Except SendError (SendBuffer × Wsabuf) :=
  let size := UInt16.ofNat (headerSize + data.length)
  match sendBuffer.reserve size.toNat with
  | .error error => .error error
  | .ok (reserved, offset) =>
      let written := serialize reserved.buffer offset id data
      .ok ({ reserved with buffer := written.1 }, written.2)

/-- `PacketWrapper::Serialize` on the thread's buffer `current`, where `popped` is the
buffer that `GSendBufferManager->Pop()` would return. -/
def serializeFrame (id : UInt16) (data : List UInt8) (current popped : SendBuffer) :
    Except SendError Serialized :=
  let size := UInt16.ofNat (headerSize + data.length)
  if current.freeSize < size.toNat then
    match fill id data popped with
    | .error error => .error error
    | .ok (after, wsabuf) => .ok ⟨wsabuf, size.toNat, true, current, after⟩
  else
    match fill id data current with
    | .error error => .error error
    | .ok (after, wsabuf) => .ok ⟨wsabuf, size.toNat, false, after, popped⟩

/-- The frame is whole, in a region of its own length, and nothing else was written. -/
structure WholeFrame (id : UInt16) (data : List UInt8) (current popped : SendBuffer)
    (result : Serialized) : Prop where
  fits : headerSize + data.length ≤ maxBufferSize
  length : result.wsabuf.len = headerSize + data.length
  reserved : result.reserved = headerSize + data.length
  moved : result.used.usedSize = result.wsabuf.buf + (headerSize + data.length)
  inside : result.wsabuf.buf + result.reserved ≤ maxBufferSize
  size : (PacketHeader.read result.used.buffer result.wsabuf.buf).size.toNat =
    headerSize + data.length
  id : (PacketHeader.read result.used.buffer result.wsabuf.buf).id = id
  data : load result.used.buffer (result.wsabuf.buf + headerSize) data.length = data
  elsewhere : ∀ key, key < result.wsabuf.buf ∨ result.wsabuf.buf + result.reserved ≤ key →
    result.used.buffer key = (if result.rolledOver then popped else current).buffer key
  other : if result.rolledOver then result.current = current else result.popped = popped

/-- `Serialize` crashes exactly on a frame that is too long, and writes any other whole. -/
def SerializesWhole (id : UInt16) (data : List UInt8) (current popped : SendBuffer) : Prop :=
  match serializeFrame id data current popped with
  | .error _ => maxBufferSize < headerSize + data.length
  | .ok result => WholeFrame id data current popped result

theorem size_exact (data : List UInt8) (ranged : headerSize + data.length < 2 ^ 16) :
    (UInt16.ofNat (headerSize + data.length)).toNat = headerSize + data.length := by
  rw [UInt16.toNat_ofNat']
  omega

structure Filled (id : UInt16) (data : List UInt8) (before after : SendBuffer) : Prop where
  moved : after.usedSize = before.usedSize + (headerSize + data.length)
  elsewhere : ∀ key, key < before.usedSize ∨ before.usedSize + (headerSize + data.length) ≤ key →
    after.buffer key = before.buffer key
  size : (PacketHeader.read after.buffer before.usedSize).size.toNat = headerSize + data.length
  id : (PacketHeader.read after.buffer before.usedSize).id = id
  data : load after.buffer (before.usedSize + headerSize) data.length = data

theorem fill_fits (id : UInt16) (data : List UInt8) (before : SendBuffer)
    (inside : before.usedSize + (headerSize + data.length) ≤ maxBufferSize) :
    ∃ after, fill id data before = .ok (after, ⟨headerSize + data.length, before.usedSize⟩) ∧
      Filled id data before after := by
  have fits : headerSize + data.length ≤ maxBufferSize := Nat.le_trans (Nat.le_add_left _ _) inside
  have small : headerSize + data.length < 2 ^ 16 := Nat.lt_of_le_of_lt fits (by decide)
  have exact := size_exact data small
  let packet : Packet := ⟨id, data, small⟩
  let zeroed := store before.buffer before.usedSize (List.replicate (headerSize + data.length) 0)
  have encoded := serialize_encodes zeroed before.usedSize packet
  simp only [serialize, packet, exact] at encoded
  have parts := load_parts _ before.usedSize packet.header.layout packet.payload encoded
  have header := header_read_layout _ before.usedSize packet.header parts.1
  refine ⟨_, by simp only [fill, exact, SendBuffer.reserve_inside _ _ inside, serialize]; rfl, ?_⟩
  constructor
  case moved => rfl
  case size =>
    exact (congrArg (fun header => header.size.toNat) header).trans (header_size_exact packet)
  case id => exact congrArg PacketHeader.id header
  case data => exact parts.2
  case elsewhere =>
    intro key outside
    have length :
        (PacketHeader.construct id (UInt16.ofNat (headerSize + data.length))).layout.length =
        headerSize :=
      rfl
    simp only
    rw [store_outside _ _ data key (by omega), store_outside _ _ _ key (by rw [length]; omega),
      store_outside _ _ _ key (by rw [List.length_replicate]; omega)]

theorem fill_too_long (id : UInt16) (data : List UInt8) (before : SendBuffer)
    (small : headerSize + data.length < 2 ^ 16) (long : maxBufferSize < headerSize + data.length) :
    fill id data before = .error .sizeOverflow := by
  simp only [fill, SendBuffer.reserve, size_exact data small, long, if_true]

/-- The 16-bit sum wraps: less than a header is reserved, and no overflow is seen. -/
theorem fill_wraps (id : UInt16) (data : List UInt8) (before : SendBuffer)
    (ranged : data.length < 2 ^ 16) (wraps : 2 ^ 16 ≤ headerSize + data.length) :
    ∃ after wsabuf, fill id data before = .ok (after, wsabuf) ∧ wsabuf.len < headerSize := by
  have short : (UInt16.ofNat (headerSize + data.length)).toNat < headerSize := by
    rw [UInt16.toNat_ofNat']
    unfold headerSize at *
    omega
  have accepted : ¬ maxBufferSize < (UInt16.ofNat (headerSize + data.length)).toNat := by
    unfold maxBufferSize
    unfold headerSize at short ⊢
    omega
  exact ⟨_, _, by simp only [fill, SendBuffer.reserve, accepted, if_false]; rfl, short⟩

theorem wrapped_not_whole (id : UInt16) (data : List UInt8) (current popped : SendBuffer)
    (ranged : data.length < 2 ^ 16) (wraps : 2 ^ 16 ≤ headerSize + data.length) :
    ¬ SerializesWhole id data current popped := by
  intro whole
  obtain ⟨first, firstBuf, filled, short⟩ := fill_wraps id data current ranged wraps
  obtain ⟨second, secondBuf, refilled, shortToo⟩ := fill_wraps id data popped ranged wraps
  unfold SerializesWhole serializeFrame at whole
  simp only [filled, refilled] at whole
  split at whole
  case h_1 error broken => split at broken <;> cases broken
  case h_2 result done =>
    have length := whole.length
    split at done <;> cases done <;> simp only at length <;> omega

theorem ranged_whole (id : UInt16) (data : List UInt8) (current popped : SendBuffer)
    (used : current.usedSize ≤ maxBufferSize) (fresh : popped.usedSize = 0)
    (small : headerSize + data.length < 2 ^ 16) : SerializesWhole id data current popped := by
  have free := current.free_size_exact used
  have exact := size_exact data small
  unfold SerializesWhole serializeFrame
  simp only [exact]
  by_cases long : maxBufferSize < headerSize + data.length
  · simp only [fill_too_long id data _ small long]
    split
    case h_1 => exact long
    case h_2 result done => split at done <;> cases done
  · rw [Nat.not_lt] at long
    by_cases full : current.freeSize < headerSize + data.length
    · have inside : popped.usedSize + (headerSize + data.length) ≤ maxBufferSize := by omega
      obtain ⟨after, filled, frame⟩ := fill_fits id data popped inside
      rw [if_pos full, filled]
      exact ⟨long, rfl, rfl, frame.moved, inside, frame.size, frame.id, frame.data,
        frame.elsewhere, rfl⟩
    · have inside : current.usedSize + (headerSize + data.length) ≤ maxBufferSize := by omega
      obtain ⟨after, filled, frame⟩ := fill_fits id data current inside
      rw [if_neg full, filled]
      exact ⟨long, rfl, rfl, frame.moved, inside, frame.size, frame.id, frame.data,
        frame.elsewhere, rfl⟩

/-- `Serialize` keeps its promise exactly when the frame length fits in 16 bits. -/
theorem serializes_whole_iff (id : UInt16) (data : List UInt8) (current popped : SendBuffer)
    (ranged : data.length < 2 ^ 16) (used : current.usedSize ≤ maxBufferSize)
    (fresh : popped.usedSize = 0) :
    SerializesWhole id data current popped ↔ headerSize + data.length < 2 ^ 16 := by
  constructor
  · intro whole
    by_contra wraps
    exact wrapped_not_whole id data current popped ranged (Nat.not_lt.mp wraps) whole
  · exact ranged_whole id data current popped used fresh

/-- Two bytes of data with three bytes left in the thread's buffer: the frame goes to the
buffer popped for it. -/
theorem short_frame_whole :
    SerializesWhole 7 [1, 2] { SendBuffer.construct with usedSize := 4093 } SendBuffer.construct :=
  (serializes_whole_iff 7 [1, 2] { SendBuffer.construct with usedSize := 4093 } SendBuffer.construct
    (by decide) (by decide) rfl).mpr (by decide)

/-- With 65532 bytes of data the size is 0, the reservation too, and nothing crashes. -/
theorem wrapped_frame_torn :
    ¬ ∀ (id : UInt16) (data : List UInt8) (current popped : SendBuffer), data.length < 2 ^ 16 →
      current.usedSize ≤ maxBufferSize → popped.usedSize = 0 →
      SerializesWhole id data current popped := by
  intro promised
  obtain ⟨data, length⟩ : ∃ data : List UInt8, data.length = 65532 :=
    ⟨List.replicate 65532 0, List.length_replicate⟩
  have ranged : data.length < 2 ^ 16 := by omega
  have wraps : 2 ^ 16 ≤ headerSize + data.length := by
    unfold headerSize
    omega
  exact wrapped_not_whole 7 data SendBuffer.construct SendBuffer.construct ranged wraps
    (promised 7 data SendBuffer.construct SendBuffer.construct ranged (Nat.zero_le _) rfl)

end NetCore.FrameSerialization
