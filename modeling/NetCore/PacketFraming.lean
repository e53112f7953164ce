import NetCore.ByteMemory
import NetCore.FuelLoop
import Mathlib.Data.List.Forall2

/-! Packet framing: the header and `Serialize` of PacketWrapper.h and the parse
loop `PacketSession::OnRecv` of PacketSession.cpp. Words are little-endian and
the header is packed to four bytes, size first. `OnRecv` hands `OnRecvPacket` a
pointer and an id only; the handler is taken not to write the receive buffer, so
memory is fixed during one call. A zero size never advances the cursor and the
loop has no length check of its own: both stay as they are in the source. -/
namespace NetCore.PacketFraming
open ByteMemory FuelLoop

/-- `sizeof(PacketHeader)` under `#pragma pack(push, 2)`. -/
def headerSize : Nat := 4

def maxBufferSize : Nat := 0x1000

def lowByte (word : UInt16) : UInt8 := UInt8.ofNat (word.toNat % 256)

def highByte (word : UInt16) : UInt8 := UInt8.ofNat (word.toNat / 256)

def wordOf (low high : UInt8) : UInt16 := UInt16.ofNat (low.toNat + 256 * high.toNat)

structure PacketHeader where
  size : UInt16
  id : UInt16
  deriving DecidableEq, Repr

/-- The constructor takes the id before the size; the members are laid out the
other way round. -/
def PacketHeader.construct (id size : UInt16) : PacketHeader := { size := size, id := id }

def PacketHeader.layout (header : PacketHeader) : List UInt8 :=
  [lowByte header.size, highByte header.size, lowByte header.id, highByte header.id]

/-- `reinterpret_cast<const PacketHeader*>(ptr)`. -/
def PacketHeader.read (memory : Memory UInt8) (ptr : Nat) : PacketHeader where
  size := wordOf (memory ptr) (memory (ptr + 1))
  id := wordOf (memory (ptr + 2)) (memory (ptr + 3))

structure Wsabuf where
  len : Nat
  buf : Nat
  deriving DecidableEq, Repr

/-- `PacketWrapper::Serialize`, from the pointer `buffer` that
`SendBufferManager::Reserve(size)` returned. The size is a `uint16`, so it is
truncated before it reaches the header and the `WSABUF`. -/
def serialize (memory : Memory UInt8) (buffer : Nat) (id : UInt16) (data : List UInt8) :
    Memory UInt8 × Wsabuf :=
  let size := UInt16.ofNat (headerSize + data.length)
  let withHeader := store memory buffer (PacketHeader.construct id size).layout
  (store withHeader (buffer + headerSize) data, { len := size.toNat, buf := buffer })

structure PacketCall where
  buffer : Nat
  id : UInt16
  deriving DecidableEq, Repr

structure RecvLoop where
  processed : Nat
  calls : List PacketCall

def onRecvBody (memory : Memory UInt8) (buffer : Nat) (loop : RecvLoop) : RecvLoop :=
  let ptr := buffer + loop.processed
  let header := PacketHeader.read memory ptr
  { processed := (loop.processed + header.size.toNat) % 2 ^ 32
    calls := loop.calls ++ [{ buffer := ptr + headerSize, id := header.id }] }

def onRecvLoop (memory : Memory UInt8) (buffer len fuel : Nat) (loop : RecvLoop) :
    Option RecvLoop :=
  whileLoop (fun loop => decide (loop.processed < len)) (onRecvBody memory buffer) fuel loop

/-- `PacketSession::OnRecv(buffer, len)`: the calls made and the value returned. -/
def onRecv (memory : Memory UInt8) (buffer len fuel : Nat) : Option (List PacketCall × Nat) :=
  (onRecvLoop memory buffer len fuel { processed := 0, calls := [] }).map
    fun loop => (loop.calls, loop.processed)

theorem on_recv_more_fuel (memory : Memory UInt8) (buffer len fuel extra : Nat)
    (result : List PacketCall × Nat) (parsed : onRecv memory buffer len fuel = some result) :
    onRecv memory buffer len (fuel + extra) = some result := by
  obtain ⟨loop, ended, same⟩ := Option.map_eq_some_iff.mp parsed
  rw [onRecv, onRecvLoop, while_more_fuel _ _ fuel extra _ loop ended, Option.map_some, same]

theorem word_round_trip (word : UInt16) : wordOf (lowByte word) (highByte word) = word := by
  apply UInt16.toNat_inj.mp
  have bound := word.toNat_lt
  simp only [wordOf, lowByte, highByte, UInt16.toNat_ofNat', UInt8.toNat_ofNat']
  omega

theorem byte_round_trip (low high : UInt8) :
    lowByte (wordOf low high) = low ∧ highByte (wordOf low high) = high := by
  have lowBound := low.toNat_lt
  have highBound := high.toNat_lt
  constructor <;> apply UInt8.toNat_inj.mp <;>
    simp only [wordOf, lowByte, highByte, UInt16.toNat_ofNat', UInt8.toNat_ofNat'] <;> omega

theorem header_read_layout (memory : Memory UInt8) (ptr : Nat) (header : PacketHeader)
    (placed : load memory ptr headerSize = header.layout) :
    PacketHeader.read memory ptr = header := by
  have cell (index : Nat) (inside : index < header.layout.length) :
      memory (ptr + index) = header.layout[index] :=
        load_cell memory ptr header.layout placed index inside
  have size0 := cell 0 (by simp [PacketHeader.layout])
  have size1 := cell 1 (by simp [PacketHeader.layout])
  have id0 := cell 2 (by simp [PacketHeader.layout])
  have id1 := cell 3 (by simp [PacketHeader.layout])
  simp only [PacketHeader.layout, Nat.add_zero, List.getElem_cons_zero, List.getElem_cons_succ]
    at size0 size1 id0 id1
  simp only [PacketHeader.read, size0, size1, id0, id1, word_round_trip]

/-! The abstract side of the format. A packet carries the bound that makes its
`uint16` size exact, and `encode` is the documented layout `[size][id][data]`. -/
structure Packet where
  id : UInt16
  payload : List UInt8
  fits : headerSize + payload.length < 2 ^ 16

def Packet.size (packet : Packet) : Nat := headerSize + packet.payload.length

def Packet.header (packet : Packet) : PacketHeader :=
  PacketHeader.construct packet.id (UInt16.ofNat packet.size)

def Packet.encode (packet : Packet) : List UInt8 := packet.header.layout ++ packet.payload

def encodePackets (packets : List Packet) : List UInt8 := packets.flatMap Packet.encode

@[simp] theorem layout_length (header : PacketHeader) : header.layout.length = headerSize := rfl

theorem header_size_exact (packet : Packet) : packet.header.size.toNat = packet.size := by
  have bound := packet.fits
  simp only [Packet.header, PacketHeader.construct, Packet.size, UInt16.toNat_ofNat']
  omega

@[simp] theorem encode_length (packet : Packet) : packet.encode.length = packet.size := by
  simp [Packet.encode, Packet.size]

theorem header_fits_packet (packet : Packet) : headerSize ≤ packet.size := Nat.le_add_right _ _

@[simp] theorem encode_packets_nil : encodePackets [] = [] := rfl

@[simp] theorem encode_packets_cons (packet : Packet) (rest : List Packet) :
    encodePackets (packet :: rest) = packet.encode ++ encodePackets rest := rfl

@[simp] theorem encode_packets_append (left right : List Packet) :
    encodePackets (left ++ right) = encodePackets left ++ encodePackets right := by
  simp [encodePackets]

theorem encode_packets_flatten (groups : List (List Packet)) :
    encodePackets groups.flatten = (groups.map encodePackets).flatten := by
  induction groups with
  | nil => rfl
  | cons group groups ih => simp [ih]

theorem serialize_encodes (memory : Memory UInt8) (buffer : Nat) (packet : Packet) :
    let result := serialize memory buffer packet.id packet.payload
    load result.1 result.2.buf result.2.len = packet.encode := by
  have exact : (UInt16.ofNat (headerSize + packet.payload.length)).toNat =
      headerSize + packet.payload.length := header_size_exact packet
  simp only [serialize, exact, load_append, Packet.encode]
  congr 1
  · rw [load_store_disjoint _ _ _ _ _ (Or.inl (Nat.le_refl _))]
    exact load_store_same memory buffer packet.header.layout
  · exact load_store_same _ _ _

def packetCalls : Nat → List Packet → List PacketCall
  | _, [] => []
  | ptr, packet :: rest =>
      { buffer := ptr + headerSize, id := packet.id } :: packetCalls (ptr + packet.size) rest

theorem on_recv_body_packet (memory : Memory UInt8) (buffer : Nat) (packet : Packet)
    (loop : RecvLoop) (placed : load memory (buffer + loop.processed) packet.size = packet.encode)
    (bound : loop.processed + packet.size < 2 ^ 32) :
    onRecvBody memory buffer loop =
      { processed := loop.processed + packet.size
        calls := loop.calls ++
          [{ buffer := buffer + loop.processed + headerSize, id := packet.id }] } := by
  have parts :=
    load_parts memory (buffer + loop.processed) packet.header.layout packet.payload placed
  have header := header_read_layout memory (buffer + loop.processed) packet.header parts.1
  simp only [onRecvBody, header, header_size_exact, Nat.mod_eq_of_lt bound]
  rfl

/-- The induction over the packet list: with one turn of fuel per packet the loop
ends exactly at the end of the packets and has made exactly their calls. -/
theorem on_recv_loop_packets (memory : Memory UInt8) (buffer : Nat) (packets : List Packet)
    (loop : RecvLoop)
    (placed : load memory (buffer + loop.processed) (encodePackets packets).length =
      encodePackets packets)
    (bound : loop.processed + (encodePackets packets).length < 2 ^ 32) :
    onRecvLoop memory buffer (loop.processed + (encodePackets packets).length) packets.length loop =
      some { processed := loop.processed + (encodePackets packets).length
             calls := loop.calls ++ packetCalls (buffer + loop.processed) packets } := by
  induction packets generalizing loop with
  | nil => simp [onRecvLoop, packetCalls]
  | cons packet rest ih =>
      simp only [encode_packets_cons, List.length_append, encode_length] at placed bound ⊢
      have parts := load_parts memory (buffer + loop.processed) packet.encode (encodePackets rest)
        (by simpa using placed)
      rw [encode_length] at parts
      have turn := on_recv_body_packet memory buffer packet loop parts.1 (by omega)
      have goesOn :
          loop.processed < loop.processed + (packet.size + (encodePackets rest).length) := by
        have progress := header_fits_packet packet
        unfold headerSize at progress
        omega
      -- The rest of the list starts where this turn has put the cursor.
      have tail := ih (onRecvBody memory buffer loop)
        (by rw [turn]; simpa only [Nat.add_assoc] using parts.2) (by rw [turn]; dsimp only; omega)
      rw [onRecvLoop, List.length_cons, while_turn _ _ _ _ (by simpa using goesOn)]
      rw [turn] at tail ⊢
      simp only [onRecvLoop, Nat.add_assoc, List.append_assoc] at tail ⊢
      simpa [packetCalls, Nat.add_assoc] using tail

structure Delivered (memory : Memory UInt8) (low high : Nat) (call : PacketCall)
    (packet : Packet) : Prop where
  id : call.id = packet.id
  payload : load memory call.buffer packet.payload.length = packet.payload
  above : low ≤ call.buffer
  below : call.buffer + packet.payload.length ≤ high

theorem packet_calls_delivered (memory : Memory UInt8) (low ptr : Nat) (packets : List Packet)
    (start : low ≤ ptr)
    (placed : load memory ptr (encodePackets packets).length = encodePackets packets) :
    List.Forall₂ (Delivered memory low (ptr + (encodePackets packets).length))
      (packetCalls ptr packets) packets := by
  induction packets generalizing ptr with
  | nil => exact .nil
  | cons packet rest ih =>
      simp only [encode_packets_cons, List.length_append, encode_length] at placed ⊢
      have parts := load_parts memory ptr packet.encode (encodePackets rest) (by simpa using placed)
      rw [encode_length] at parts
      have frame := load_parts memory ptr packet.header.layout packet.payload parts.1
      refine .cons ⟨rfl, frame.2, ?_, ?_⟩ ?_
      · exact Nat.le_trans start (Nat.le_add_right _ _)
      · simp only [Packet.size]
        omega
      · simpa only [Nat.add_assoc] using
          ih (ptr + packet.size) (Nat.le_trans start (Nat.le_add_right _ _)) parts.2

theorem on_recv_packets (memory : Memory UInt8) (buffer : Nat) (packets : List Packet)
    (placed : load memory buffer (encodePackets packets).length = encodePackets packets)
    (bound : (encodePackets packets).length < 2 ^ 32) :
    onRecv memory buffer (encodePackets packets).length packets.length =
      some (packetCalls buffer packets, (encodePackets packets).length) := by
  have parsed := on_recv_loop_packets memory buffer packets { processed := 0, calls := [] }
    placed (by simpa using bound)
  simp only [Nat.zero_add, Nat.add_zero, List.nil_append] at parsed
  simp only [onRecv, parsed, Option.map_some]

/-- One `Serialize` call: its packet, the send buffer it works on and the pointer
`Reserve` gave it, with the region in bounds. -/
structure Serialization where
  packet : Packet
  small : packet.payload.length ≤ maxBufferSize - headerSize
  memory : Memory UInt8
  buffer : Nat
  inBounds : buffer + packet.size ≤ maxBufferSize

/-- The bytes the returned `WSABUF` refers to after the call. -/
def Serialization.frame (call : Serialization) : List UInt8 :=
  let result := serialize call.memory call.buffer call.packet.id call.packet.payload
  load result.1 result.2.buf result.2.len

theorem serializations_encode (calls : List Serialization) :
    calls.flatMap Serialization.frame = encodePackets (calls.map Serialization.packet) := by
  induction calls with
  | nil => rfl
  | cons call rest ih =>
      rw [List.flatMap_cons, ih, List.map_cons, encode_packets_cons]
      exact congrArg (· ++ _) (serialize_encodes call.memory call.buffer call.packet)

def sizeField : List UInt8 → Option Nat
  | low :: high :: _ => some (wordOf low high).toNat
  | _ => none

def IsFrame (bytes : List UInt8) : Prop :=
  sizeField bytes = some bytes.length ∧ headerSize ≤ bytes.length ∧ bytes.length ≤ maxBufferSize

theorem sized_packet (bytes : List UInt8) (sized : sizeField bytes = some bytes.length)
    (least : headerSize ≤ bytes.length) : ∃ packet : Packet, packet.encode = bytes := by
  match bytes, sized, least with
  | low :: high :: idLow :: idHigh :: data, sized, _ =>
      simp only [sizeField, Option.some.injEq, List.length_cons] at sized
      have bound := (wordOf low high).toNat_lt
      have fits : headerSize + data.length < 2 ^ 16 := by unfold headerSize; omega
      have size : UInt16.ofNat (headerSize + data.length) = wordOf low high := by
        apply UInt16.toNat_inj.mp
        rw [UInt16.toNat_ofNat', sized]
        unfold headerSize
        omega
      refine ⟨⟨wordOf idLow idHigh, data, fits⟩, ?_⟩
      simp only [Packet.encode, Packet.header, Packet.size, PacketHeader.construct,
        PacketHeader.layout, size, byte_round_trip]
      rfl

theorem frame_is_packet (bytes : List UInt8) (frame : IsFrame bytes) :
    ∃ packet : Packet, packet.encode = bytes ∧
      packet.payload.length ≤ maxBufferSize - headerSize := by
  obtain ⟨sized, least, most⟩ := frame
  obtain ⟨packet, encoded⟩ := sized_packet bytes sized least
  have length := congrArg List.length encoded
  rw [encode_length, Packet.size] at length
  exact ⟨packet, encoded, by omega⟩

theorem frames_are_packets (frames : List (List UInt8)) (formed : ∀ frame ∈ frames, IsFrame frame) :
    ∃ packets : List Packet, encodePackets packets = frames.flatten ∧
      ∀ packet ∈ packets, packet.payload.length ≤ maxBufferSize - headerSize := by
  induction frames with
  | nil => exact ⟨[], rfl, by simp⟩
  | cons frame rest ih =>
      obtain ⟨packet, encoded, small⟩ := frame_is_packet frame (formed frame List.mem_cons_self)
      obtain ⟨packets, tail, allSmall⟩ := ih fun later member =>
        formed later (List.mem_cons_of_mem frame member)
      refine ⟨packet :: packets, by simp [encoded, tail], ?_⟩
      intro other member
      rcases List.mem_cons.mp member with same | later
      · exact same ▸ small
      · exact allSmall other later

/-- Encoder and decoder agree. What `Serialize` wrote is parsed back call by call,
and a buffer made of frames is what `Serialize` writes for the packets so
delivered. -/
theorem framing_round_trip :
    (∀ (memory : Memory UInt8) (buffer : Nat) (calls : List Serialization),
      let bytes := calls.flatMap Serialization.frame
      load memory buffer bytes.length = bytes → bytes.length < 2 ^ 31 →
      ∃ fuel delivered, onRecv memory buffer bytes.length fuel = some (delivered, bytes.length) ∧
        List.Forall₂ (Delivered memory buffer (buffer + bytes.length)) delivered
          (calls.map Serialization.packet)) ∧
    (∀ (memory : Memory UInt8) (buffer : Nat) (frames : List (List UInt8)),
      (∀ frame ∈ frames, IsFrame frame) →
      load memory buffer frames.flatten.length = frames.flatten → frames.flatten.length < 2 ^ 31 →
      ∃ fuel delivered packets,
        onRecv memory buffer frames.flatten.length fuel = some (delivered, frames.flatten.length) ∧
        List.Forall₂ (Delivered memory buffer (buffer + frames.flatten.length)) delivered packets ∧
        (∀ packet ∈ packets, packet.payload.length ≤ maxBufferSize - headerSize) ∧
        ∀ calls : List Serialization, calls.map Serialization.packet = packets →
          calls.flatMap Serialization.frame = frames.flatten) := by
  constructor
  · intro memory buffer calls bytes placed bound
    have encoded : bytes = encodePackets (calls.map Serialization.packet) :=
      serializations_encode calls
    rw [encoded] at placed bound ⊢
    exact ⟨_, _, on_recv_packets memory buffer _ placed (by omega),
      packet_calls_delivered memory buffer buffer _ (Nat.le_refl _) placed⟩
  · intro memory buffer frames formed placed bound
    obtain ⟨packets, encoded, small⟩ := frames_are_packets frames formed
    rw [← encoded] at placed bound ⊢
    refine ⟨_, _, packets, on_recv_packets memory buffer _ placed (by omega),
      packet_calls_delivered memory buffer buffer _ (Nat.le_refl _) placed, small, ?_⟩
    intro calls same
    rw [serializations_encode, same]

/-- Two packets, the second without payload, written at different places of one
send buffer and received from offset zero. -/
theorem framing_round_trip_two_packets :
    let calls : List Serialization :=
      [⟨⟨7, [1, 2], by decide⟩, by decide, fun _ => 0, 100, by decide⟩,
       ⟨⟨9, [], by decide⟩, by decide, fun _ => 0, 4092, by decide⟩]
    let memory := store (fun _ => 0) 0 [6, 0, 7, 0, 1, 2, 4, 0, 9, 0]
    ∃ fuel delivered, onRecv memory 0 10 fuel = some (delivered, 10) ∧
      List.Forall₂ (Delivered memory 0 10) delivered (calls.map Serialization.packet) :=
  framing_round_trip.1 (store (fun _ => 0) 0 [6, 0, 7, 0, 1, 2, 4, 0, 9, 0]) 0
    [⟨⟨7, [1, 2], by decide⟩, by decide, fun _ => 0, 100, by decide⟩,
     ⟨⟨9, [], by decide⟩, by decide, fun _ => 0, 4092, by decide⟩] (by decide) (by decide)

end NetCore.PacketFraming
