import NetCore.SegmentedReceive

/-! What `PacketSession::OnRecv` accepts. The bytes of a receive are meant to be a
concatenation of frames, each beginning with its own size, which is at least that of the
header. The parse loop tests nothing of this: it reads a header wherever the sizes before
it lead, delivers what it finds there, and never answers 0, the one result on which
`_process_recv` disconnects. So it keeps to the grammar on exactly the inputs that do. -/
namespace NetCore.PacketGrammar
open ByteMemory FuelLoop PacketFraming SegmentedReceive

def Framed (bytes : List UInt8) : Prop :=
  sizeField bytes = some bytes.length ∧ headerSize ≤ bytes.length

/-- The received bytes are a concatenation of frames. -/
def WellFormed (memory : Memory UInt8) (buffer len : Nat) : Prop :=
  ∃ frames : List (List UInt8), (∀ frame ∈ frames, Framed frame) ∧
    frames.flatten = load memory buffer len

def frameOf (memory : Memory UInt8) (buffer : Nat) (call : PacketCall) : Nat × Nat :=
  (call.buffer - headerSize - buffer,
    (PacketHeader.read memory (call.buffer - headerSize)).size.toNat)

def Consecutive : Nat → Nat → List (Nat × Nat) → Prop
  | low, high, [] => low = high
  | low, high, (start, size) :: rest => start = low ∧ Consecutive (low + size) high rest

structure Accepted (memory : Memory UInt8) (buffer len : Nat) (calls : List PacketCall)
    (returned : Nat) :
    Prop where
  headers : ∀ call ∈ calls, (frameOf memory buffer call).1 + headerSize ≤ len
  sized : ∀ call ∈ calls, headerSize ≤ (frameOf memory buffer call).2
  inside : ∀ call ∈ calls, (frameOf memory buffer call).1 + (frameOf memory buffer call).2 ≤ len
  consecutive : Consecutive 0 returned (calls.map (frameOf memory buffer))
  accepts : returned = len → WellFormed memory buffer len
  rejects : ¬ WellFormed memory buffer len → returned = 0

theorem framed_packets (frames : List (List UInt8)) (framed : ∀ frame ∈ frames, Framed frame) :
    ∃ packets : List Packet, encodePackets packets = frames.flatten := by
  induction frames with
  | nil => exact ⟨[], rfl⟩
  | cons frame rest ih =>
      obtain ⟨sized, least⟩ := framed frame List.mem_cons_self
      obtain ⟨packet, encoded⟩ := sized_packet frame sized least
      obtain ⟨packets, tail⟩ :=
        ih fun later member => framed later (List.mem_cons_of_mem frame member)
      exact ⟨packet :: packets, by simp [encoded, tail]⟩

theorem packet_calls_consecutive (memory : Memory UInt8) (buffer offset : Nat)
    (packets : List Packet)
    (placed : load memory (buffer + offset) (encodePackets packets).length =
      encodePackets packets) :
    Consecutive offset (offset + (encodePackets packets).length)
        ((packetCalls (buffer + offset) packets).map (frameOf memory buffer)) ∧
      ∀ call ∈ packetCalls (buffer + offset) packets, headerSize ≤ (frameOf memory buffer call).2 ∧
        (frameOf memory buffer call).1 + (frameOf memory buffer call).2 ≤
          offset + (encodePackets packets).length := by
  induction packets generalizing offset with
  | nil => simp [packetCalls, Consecutive]
  | cons packet rest ih =>
      simp only [encode_packets_cons, List.length_append, encode_length] at placed ⊢
      have parts :=
        load_parts memory (buffer + offset) packet.encode (encodePackets rest)
          (by simpa using placed)
      rw [encode_length] at parts
      have layout := load_parts memory (buffer + offset) packet.header.layout packet.payload parts.1
      have header := header_read_layout memory (buffer + offset) packet.header layout.1
      have first :
          frameOf memory buffer { buffer := buffer + offset + headerSize, id := packet.id } =
          (offset, packet.size) := by
        simp [frameOf, header, header_size_exact]
      obtain ⟨follow, inside⟩ := ih (offset + packet.size) (by rw [← Nat.add_assoc]; exact parts.2)
      rw [← Nat.add_assoc, Nat.add_assoc offset] at follow inside
      refine ⟨?_, ?_⟩
      · simp only [packetCalls, List.map_cons, first, Consecutive, true_and]
        exact follow
      · intro call member
        rcases List.mem_cons.mp member with rfl | later
        · rw [first]
          exact ⟨header_fits_packet packet, by simp only; omega⟩
        · exact inside call later

theorem on_recv_deterministic (memory : Memory UInt8) (buffer len fuel other : Nat)
    (first second : List PacketCall × Nat) (parsed : onRecv memory buffer len fuel = some first)
    (again : onRecv memory buffer len other = some second) : first = second := by
  have left := on_recv_more_fuel memory buffer len fuel other first parsed
  have right := on_recv_more_fuel memory buffer len other fuel second again
  rw [Nat.add_comm, left, Option.some.injEq] at right
  exact right

theorem well_formed_accepted (memory : Memory UInt8) (buffer len fuel : Nat) (ranged : len < 2 ^ 32)
    (calls : List PacketCall) (returned : Nat)
    (parsed : onRecv memory buffer len fuel = some (calls, returned))
    (formed : WellFormed memory buffer len) : Accepted memory buffer len calls returned := by
  obtain ⟨frames, framed, whole⟩ := formed
  obtain ⟨packets, encoded⟩ := framed_packets frames framed
  have bytes : encodePackets packets = load memory buffer len := encoded.trans whole
  have length : (encodePackets packets).length = len := by rw [bytes, load_length]
  have placed : load memory (buffer + 0) (encodePackets packets).length =
      encodePackets packets := by
    rw [Nat.add_zero, length, bytes]
  have whole := on_recv_packets memory buffer packets placed (by omega)
  rw [length] at whole
  have same := on_recv_deterministic memory buffer len fuel _ _ _ parsed whole
  rw [Prod.mk.injEq] at same
  obtain ⟨delivered, all⟩ := same
  obtain ⟨follow, inside⟩ := packet_calls_consecutive memory buffer 0 packets placed
  rw [Nat.add_zero] at follow inside
  rw [Nat.zero_add, length] at follow inside
  subst delivered all
  constructor
  case headers =>
    intro call member
    obtain ⟨least, most⟩ := inside call member
    omega
  case sized => exact fun call member => (inside call member).1
  case inside => exact fun call member => (inside call member).2
  case consecutive => exact follow
  case accepts => exact fun _ => ⟨frames, framed, encoded.symm.trans bytes⟩
  case rejects => exact fun ill => absurd ⟨frames, framed, encoded.symm.trans bytes⟩ ill

/-- `OnRecv` keeps to the grammar on exactly the inputs that are in it: it delivers them
frame by frame, and never reports any other. -/
theorem accepted_iff_well_formed (memory : Memory UInt8) (buffer len fuel : Nat)
    (positive : 0 < len) (ranged : len < 2 ^ 32) (calls : List PacketCall) (returned : Nat)
    (parsed : onRecv memory buffer len fuel = some (calls, returned)) :
    Accepted memory buffer len calls returned ↔ WellFormed memory buffer len := by
  constructor
  · intro accepted
    by_contra ill
    have reported := accepted.rejects ill
    have covered := (on_recv_covered memory buffer len fuel calls returned parsed).1
    omega
  · exact well_formed_accepted memory buffer len fuel ranged calls returned parsed

/-- Two frames in ten bytes. -/
theorem two_frames_accepted :
    let memory := store (fun _ => 0) 0 [6, 0, 7, 0, 1, 2, 4, 0, 9, 0]
    onRecv memory 0 10 2 = some ([⟨4, 7⟩, ⟨10, 9⟩], 10) ∧
        Accepted memory 0 10 [⟨4, 7⟩, ⟨10, 9⟩] 10 := by
  intro memory
  have parsed : onRecv memory 0 10 2 = some ([⟨4, 7⟩, ⟨10, 9⟩], 10) := by decide
  refine ⟨parsed,
    (accepted_iff_well_formed memory 0 10 2 (by decide) (by decide) _ _ parsed).mpr ?_⟩
  refine ⟨[[6, 0, 7, 0, 1, 2], [4, 0, 9, 0]], ?_, by decide⟩
  intro frame member
  rcases List.mem_pair.mp member with rfl | rfl <;> exact ⟨by decide, by decide⟩

/-- A header that announces 8 bytes where 5 were received: the frame is delivered and the
answer is 8. -/
theorem long_frame_delivered :
    let memory := store (fun _ => 0) 0 [8, 0, 7, 0, 1]
    onRecv memory 0 5 1 = some ([⟨4, 7⟩], 8) ∧ ¬ Accepted memory 0 5 [⟨4, 7⟩] 8 := by
  refine ⟨by decide, ?_⟩
  intro accepted
  exact absurd (accepted.inside ⟨4, 7⟩ List.mem_cons_self) (by decide)

/-! Whether the loop ends. -/

/-- The offsets that the size fields lead to, each counted from the one before. -/
inductive Leads (memory : Memory UInt8) (buffer len : Nat) : Nat → Prop where
  | start : Leads memory buffer len 0
  | next (offset : Nat) (led : Leads memory buffer len offset) (inside : offset < len) :
      Leads memory buffer len (offset + (PacketHeader.read memory (buffer + offset)).size.toNat)

/-- No size field that is led to is zero, and the sizes do not add up beyond 32 bits. -/
def Advancing (memory : Memory UInt8) (buffer len : Nat) : Prop :=
  ∀ offset, Leads memory buffer len offset → offset < len →
    0 < (PacketHeader.read memory (buffer + offset)).size.toNat ∧
      offset + (PacketHeader.read memory (buffer + offset)).size.toNat < 2 ^ 32

inductive Turns (memory : Memory UInt8) (buffer len : Nat) : RecvLoop → Prop where
  | start : Turns memory buffer len { processed := 0, calls := [] }
  | next (loop : RecvLoop) (turned : Turns memory buffer len loop) (inside : loop.processed < len) :
      Turns memory buffer len (onRecvBody memory buffer loop)

structure Ends (memory : Memory UInt8) (buffer len : Nat) : Prop where
  progress : ∀ loop, Turns memory buffer len loop → loop.processed < len →
    loop.processed < (onRecvBody memory buffer loop).processed
  returns : ∃ fuel calls returned, onRecv memory buffer len fuel = some (calls, returned)

theorem turn_progress_iff (memory : Memory UInt8) (buffer : Nat) (loop : RecvLoop)
    (ranged : loop.processed < 2 ^ 32) :
    loop.processed < (onRecvBody memory buffer loop).processed ↔
      0 < (PacketHeader.read memory (buffer + loop.processed)).size.toNat ∧
        loop.processed +
          (PacketHeader.read memory (buffer + loop.processed)).size.toNat < 2 ^ 32 := by
  have small := (PacketHeader.read memory (buffer + loop.processed)).size.toNat_lt
  simp only [onRecvBody]
  omega

theorem turn_led (memory : Memory UInt8) (buffer len : Nat)
    (advancing : Advancing memory buffer len) (loop : RecvLoop)
    (turned : Turns memory buffer len loop) : Leads memory buffer len loop.processed := by
  induction turned with
  | start => exact .start
  | next loop _ inside ih =>
      have sum : (onRecvBody memory buffer loop).processed =
          loop.processed + (PacketHeader.read memory (buffer + loop.processed)).size.toNat :=
        Nat.mod_eq_of_lt (advancing loop.processed ih inside).2
      rw [sum]
      exact .next loop.processed ih inside

theorem led_turn (memory : Memory UInt8) (buffer len : Nat) (ranged : len < 2 ^ 32)
    (progress : ∀ loop, Turns memory buffer len loop → loop.processed < len →
      loop.processed < (onRecvBody memory buffer loop).processed)
    (offset : Nat) (led : Leads memory buffer len offset) :
    ∃ loop, Turns memory buffer len loop ∧ loop.processed = offset := by
  induction led with
  | start => exact ⟨_, .start, rfl⟩
  | next offset _ inside ih =>
      obtain ⟨loop, turned, same⟩ := ih
      subst same
      have moved :=
        (turn_progress_iff memory buffer loop (by omega)).mp (progress loop turned inside)
      exact ⟨onRecvBody memory buffer loop, .next loop turned inside, Nat.mod_eq_of_lt moved.2⟩

theorem advancing_returns (memory : Memory UInt8) (buffer len : Nat) (ranged : len < 2 ^ 32)
    (advancing : Advancing memory buffer len) :
    ∃ fuel calls returned, onRecv memory buffer len fuel = some (calls, returned) := by
  obtain ⟨final, ended⟩ := while_ends (fun loop : RecvLoop => decide (loop.processed < len))
    (onRecvBody memory buffer) (Turns memory buffer len) (fun loop => len - loop.processed)
    (fun loop inside turned => .next loop turned (of_decide_eq_true inside))
    (fun loop inside turned => by
      have below := of_decide_eq_true inside
      have led := turn_led memory buffer len advancing loop turned
      have moved := (turn_progress_iff memory buffer loop (by omega)).mpr (advancing _ led below)
      omega)
    len _ .start (Nat.sub_le _ _)
  exact ⟨len, final.calls, final.processed, by rw [onRecv, onRecvLoop, ended, Option.map_some]⟩

/-- The loop makes progress in every turn and ends exactly when no size field that the sizes
before it lead to is zero and the sizes stay within 32 bits. -/
theorem on_recv_ends_iff_advancing (memory : Memory UInt8) (buffer len : Nat)
    (ranged : len < 2 ^ 32) :
    Ends memory buffer len ↔ Advancing memory buffer len := by
  constructor
  · intro ends offset led inside
    obtain ⟨loop, turned, same⟩ := led_turn memory buffer len ranged ends.progress offset led
    subst same
    exact (turn_progress_iff memory buffer loop (by omega)).mp (ends.progress loop turned inside)
  · intro advancing
    refine ⟨?_, advancing_returns memory buffer len ranged advancing⟩
    intro loop turned inside
    exact (turn_progress_iff memory buffer loop (by omega)).mpr
      (advancing _ (turn_led memory buffer len advancing loop turned) inside)

/-- A frame of four bytes and one of five: the loop goes on behind the first. -/
theorem two_frames_end : Ends (store (fun _ => 0) 0 [4, 0, 7, 0, 5, 0, 9, 0, 1]) 0 9 := by
  refine (on_recv_ends_iff_advancing _ 0 9 (by decide)).mpr ?_
  have places : ∀ offset, Leads (store (fun _ => 0) 0 [4, 0, 7, 0, 5, 0, 9, 0, 1]) 0 9 offset →
      offset = 0 ∨ offset = 4 ∨ 9 ≤ offset := by
    intro offset led
    induction led with
    | start => exact .inl rfl
    | next offset _ inside ih =>
        rcases ih with rfl | rfl | beyond
        · exact .inr (.inl (by decide))
        · exact .inr (.inr (by decide))
        · omega
  intro offset led inside
  rcases places offset led with rfl | rfl | beyond
  · exact ⟨by decide, by decide⟩
  · exact ⟨by decide, by decide⟩
  · omega

theorem zero_size_stays (fuel : Nat) (loop : RecvLoop) (start : loop.processed = 0) :
    onRecvLoop (fun _ => 0) 0 4 fuel loop = none := by
  induction fuel generalizing loop with
  | zero => simp [onRecvLoop, whileLoop, start]
  | succ fuel ih =>
      rw [onRecvLoop, while_turn _ _ _ _ (by simp [start])]
      apply ih
      simp only [onRecvBody, start]
      decide

/-- Four zero bytes keep the thread in `OnRecv` for ever. -/
theorem zero_size_never_ends :
    (∀ fuel, onRecv (fun _ => 0) 0 4 fuel = none) ∧ ¬ Ends (fun _ => 0) 0 4 := by
  have never : ∀ fuel, onRecv (fun _ => 0) 0 4 fuel = none := by
    intro fuel
    rw [onRecv, zero_size_stays fuel _ rfl, Option.map_none]
  refine ⟨never, ?_⟩
  intro ends
  obtain ⟨fuel, calls, returned, parsed⟩ := ends.returns
  rw [never fuel] at parsed
  cases parsed

end NetCore.PacketGrammar
