import NetCore.SendStream
import Mathlib.Data.List.Perm.Subperm

/-! What the calls of `WSASend` find at the pointers they are given. A `WSABUF` points into a send
buffer that other threads go on using for other sessions, before the call and until its completion.
In smooth runs it reads as the frame of its packet all the time, so the bytes on the wire are those
of the packets accepted, and the peer's `OnRecv` takes them apart again. -/
namespace NetCore.WireFrames
open TransitionRuns ByteMemory PacketFraming SegmentedReceive SendBufferPool SendBufferBounds
  SendBufferGrowth SendStream

universe u
variable {Thread : Type} {Session : Type u} [DecidableEq Thread] [DecidableEq Session]

def pointedAt (pool : SendBufferPool.System Thread) (wsabuf : Wsabuf) : List UInt8 :=
  load (pool.buffers (wsabuf.buf / maxBufferSize)).buffer (wsabuf.buf % maxBufferSize) wsabuf.len

def packetOf (accepted : List (Packet × Region)) (entry : SendPipeline.Queued) : Option Packet :=
  (accepted[entry.ticket]?).map Prod.fst

def bytesOf (pool : SendBufferPool.System Thread) (entries : List SendPipeline.Queued) :
    List UInt8 :=
  entries.flatMap fun entry => pointedAt pool entry.buffer

theorem numbered_entry (next : Nat) (buffers : List Wsabuf) (entry : SendPipeline.Queued)
    (member : entry ∈ SendPipeline.numbered next buffers) :
    ∃ index, buffers[index]? = some entry.buffer ∧ entry.ticket = next + index := by
  induction buffers generalizing next with
  | nil => cases member
  | cons buffer rest ih =>
      rcases List.mem_cons.mp member with rfl | later
      · exact ⟨0, rfl, rfl⟩
      · obtain ⟨index, found, ticket⟩ := ih (next + 1) later
        exact ⟨index + 1, by simpa using found, by omega⟩

theorem numbered_packets (front back : List (Packet × Region)) :
    (SendPipeline.numbered front.length (back.map wsabufOf)).filterMap (packetOf (front ++ back)) =
      back.map Prod.fst := by
  induction back generalizing front with
  | nil => rfl
  | cons pair rest ih =>
      have found :
          packetOf (front ++ pair :: rest) ⟨front.length, wsabufOf pair⟩ = some pair.1 := by
        simp [packetOf]
      have later := ih (front ++ [pair])
      rw [List.append_assoc, List.length_append] at later
      rw [List.map_cons, SendPipeline.numbered, List.filterMap_cons_some found, List.map_cons]
      exact congrArg (List.cons pair.1) later

theorem wsabuf_length (pair : Packet × Region) : (wsabufOf pair).len = pair.1.size := by
  have fits := pair.1.fits
  simp only [wsabufOf, Packet.size, headerSize] at *
  rw [UInt16.toNat_ofNat', UInt16.toNat_ofNat']
  omega

omit [DecidableEq Thread] in
theorem read_framed (pool : SendBufferPool.System Thread) (bounded : Bounded pool)
    (pair : Packet × Region) (framed : Framed pool pair.1 pair.2) :
    pointedAt pool (wsabufOf pair) = pair.1.encode := by
  have inside := bounded.regions pair.2 framed.reserved.given
  have sized := framed.reserved.sized
  have least := header_fits_packet pair.1
  have below : pair.2.offset < maxBufferSize := by
    unfold headerSize at least
    omega
  have buffer : address pair.2 / maxBufferSize = pair.2.sendBuffer := by
    unfold address maxBufferSize at *
    omega
  have offset : address pair.2 % maxBufferSize = pair.2.offset := by
    unfold address maxBufferSize at *
    omega
  have bytes := framed.bytes
  unfold Region.bytes at bytes
  unfold pointedAt
  rw [wsabuf_length, show (wsabufOf pair).buf = address pair.2 from rfl, buffer, offset, ← sized]
  exact bytes

section Results
variable (system : SendStream.System Thread Session) (holds : SendStream.Invariant system)
  (session : Session)
include holds

omit [DecidableEq Thread] [DecidableEq Session] in
theorem entry_read (entry : SendPipeline.Queued)
    (known : entry ∈ (system.session session).received) :
    ∃ packet, packetOf (system.accepted session) entry = some packet ∧
      pointedAt system.pool entry.buffer = packet.encode := by
  rw [holds.received session] at known
  obtain ⟨index, found, ticket⟩ := numbered_entry 0 _ entry known
  rw [List.getElem?_map] at found
  obtain ⟨pair, placed, same⟩ := Option.map_eq_some_iff.mp found
  rw [Nat.zero_add] at ticket
  refine ⟨pair.1, by rw [packetOf, ticket, placed, Option.map_some], ?_⟩
  rw [← same]
  exact read_framed system.pool holds.filled.bounded pair
    (holds.frames session pair (List.mem_of_getElem? placed))

omit [DecidableEq Thread] [DecidableEq Session] in
theorem entries_read (entries : List SendPipeline.Queued)
    (known : ∀ entry ∈ entries, entry ∈ (system.session session).received) :
    bytesOf system.pool entries =
        encodePackets (entries.filterMap (packetOf (system.accepted session))) := by
  induction entries with
  | nil => rfl
  | cons entry rest ih =>
      obtain ⟨packet, found, bytes⟩ :=
        entry_read system holds session entry (known entry List.mem_cons_self)
      rw [List.filterMap_cons_some found, encode_packets_cons, ← bytes,
        ← ih fun later member => known later (List.mem_cons_of_mem entry member)]
      rfl

omit [DecidableEq Thread] [DecidableEq Session] in
theorem entries_packets (entries : List SendPipeline.Queued)
    (known : ∀ entry ∈ entries, entry ∈ (system.session session).received) :
    (entries.filterMap (packetOf (system.accepted session))).map some =
      entries.map (packetOf (system.accepted session)) := by
  induction entries with
  | nil => rfl
  | cons entry rest ih =>
      obtain ⟨packet, found, _⟩ :=
        entry_read system holds session entry (known entry List.mem_cons_self)
      rw [List.filterMap_cons_some found, List.map_cons, List.map_cons, found,
        ih fun later member => known later (List.mem_cons_of_mem entry member)]

omit [DecidableEq Thread] [DecidableEq Session] in
theorem received_packets :
    ((system.session session).received).filterMap (packetOf (system.accepted session)) =
    (system.accepted session).map Prod.fst := by
  rw [holds.received session]
  exact numbered_packets [] (system.accepted session)

end Results

section Submitted
variable (session : SendPipeline.System Thread) (holds : SendConservation.Invariant session)

def submitted (session : SendPipeline.System Thread) : List SendPipeline.Queued :=
  session.calls.flatMap SendPipeline.Submission.segments

omit [DecidableEq Thread] in
theorem submitted_place (entry : SendPipeline.Queued) :
    entry ∈ submitted session ↔
        ∃ index, entry ∈ SendConservation.contents session (.call index) := by
  simp only [submitted, List.mem_flatMap, SendConservation.contents]
  constructor
  · rintro ⟨submission, member, inside⟩
    obtain ⟨index, found⟩ := List.mem_iff_getElem?.mp member
    exact ⟨index, by rw [found]; exact inside⟩
  · rintro ⟨index, member⟩
    cases found : session.calls[index]? with
    | none => simp [found] at member
    | some submission =>
        refine ⟨submission, List.mem_of_getElem? found, ?_⟩
        simpa [found] using member

include holds

omit [DecidableEq Thread] in
theorem submitted_received (entry : SendPipeline.Queued) (member : entry ∈ submitted session) :
    entry ∈ session.received := by
  obtain ⟨index, inside⟩ := (submitted_place session entry).mp member
  exact (holds.owned.placed.covers entry).mpr ⟨_, inside⟩

omit [DecidableEq Thread] in
/-- Nothing is passed to `WSASend` twice, in one call or in two. -/
theorem submitted_once : (submitted session).Nodup := by
  have place : ∀ (index : Nat) (inside : index < session.calls.length),
      SendConservation.contents session (.call index) = session.calls[index].segments := by
    intro index inside
    simp [SendConservation.contents, inside]
  refine List.nodup_flatMap.mpr ⟨?_, List.pairwise_iff_getElem.mpr ?_⟩
  · intro submission member
    obtain ⟨index, inside, rfl⟩ := List.mem_iff_getElem.mp member
    rw [← place index inside]
    exact holds.owned.placed.once (.call index)
  · intro first second inFirst inSecond earlier entry left right
    rw [← place first inFirst] at left
    rw [← place second inSecond] at right
    have same := holds.owned.placed.apart entry _ _ left right
    cases same
    exact Nat.lt_irrefl _ earlier

def AtRest (session : SendPipeline.System Thread) : Prop :=
  session.reserved = [] ∧ session.sendQueue = [] ∧ session.segments = [] ∧ ∀ thread,
    session.phase thread = .idle

omit [DecidableEq Thread] in
theorem rest_submitted (rest : AtRest session) (entry : SendPipeline.Queued)
    (known : entry ∈ session.received) :
    entry ∈ submitted session := by
  obtain ⟨reserved, queue, segments, idle⟩ := rest
  obtain ⟨place, inside⟩ := (holds.owned.placed.covers entry).mp known
  cases place with
  | reserved => simp [SendConservation.contents, reserved] at inside
  | list thread =>
      simp [SendConservation.contents, idle, SendConservation.role,
        SendConservation.Role.buffers] at inside
  | queue => simp [SendConservation.contents, queue] at inside
  | segments => simp [SendConservation.contents, SendConservation.unsubmitted, segments] at inside
  | call index => exact (submitted_place session entry).mpr ⟨index, inside⟩

end Submitted

def passed (system : SendStream.System Thread Session) (session : Session) : List Packet :=
  (submitted (system.session session)).filterMap (packetOf (system.accepted session))

section Passed
variable (system : SendStream.System Thread Session) (holds : SendStream.Invariant system)
  (session : Session)
include holds

omit [DecidableEq Thread] [DecidableEq Session] in
theorem passed_bytes :
    bytesOf system.pool (submitted (system.session session)) =
        encodePackets (passed system session) :=
  entries_read system holds session _ (submitted_received _ (holds.streams session))

omit [DecidableEq Thread] [DecidableEq Session] in
theorem passed_accepted : (passed system session).Subperm ((system.accepted session).map Prod.fst) ∧
    (AtRest (system.session session) →
      (passed system session).Perm ((system.accepted session).map Prod.fst)) := by
  have stream := holds.streams session
  have once := submitted_once _ stream
  have known := submitted_received _ stream
  have packets := received_packets system holds session
  refine ⟨?_, fun rest => ?_⟩
  · obtain ⟨part, same, kept⟩ := List.subperm_of_subset once known
    rw [← packets]
    exact ⟨_, same.filterMap _, kept.filterMap _⟩
  · have nodup : (system.session session).received.Nodup := by
      rw [holds.received session]
      exact SendConservation.numbered_nodup 0 _
    have all := (List.perm_ext_iff_of_nodup once nodup).mpr fun entry =>
      ⟨known entry, rest_submitted _ stream rest entry⟩
    rw [← packets]
    exact all.filterMap _

end Passed

/-- Whatever other sessions and threads do with the send buffers, what the calls of `WSASend` of a
session have read or still read is, byte for byte, a sequence of frames of packets that it
accepted, none of them twice; when nothing waits any more these are all of them. -/
theorem wire_carries_packets (tick : Session → UInt64) (system : SendStream.System Thread Session)
    (reached : Reachable SendStream.step smooth (SendStream.System.start tick) system)
    (session : Session) :
    ∃ sent : List Packet, bytesOf system.pool (submitted (system.session session)) =
      encodePackets sent ∧
      sent.Subperm ((system.accepted session).map Prod.fst) ∧
      (AtRest (system.session session) → sent.Perm ((system.accepted session).map Prod.fst)) := by
  have holds := run_keeps tick system reached
  exact ⟨passed system session, passed_bytes system holds session,
    passed_accepted system holds session⟩

/-- One thread has submitted two packets of the first session in one call, while the other has a
region for one of the second session and has not written to it. -/
def halfSentLabels : List (SendStream.Label Bool Bool) :=
  [.pool (.initTls true), .advance true 0 .done, .advance true 0 .done, .advance true 0 .done,
   .pool (.initTls false), .advance false 0 .done, .advance false 0 .done, .advance false 0 .done,
   .send true true ⟨7, [1, 2], by decide⟩,
   .advance true 0 .done, .advance true 0 .done, .advance true 0 .done,
   .send true true ⟨8, [3], by decide⟩,
   .advance true 0 .done, .advance true 0 .done, .advance true 0 .done,
   .send false false ⟨9, [], by decide⟩, .advance false 0 .done,
   .flush true true 2000, .advance true 2000 .done, .advance true 0 .done, .advance true 0 .done,
   .advance true 0 .done, .advance true 0 .pending]

def smoothLabel (before : SendStream.System Bool Bool) (label : SendStream.Label Bool Bool)
    (after : SendStream.System Bool Bool) : Bool :=
  match label with
  | .send _ _ packet => packet.size ≤ maxBufferSize
  | .advance thread _ result =>
      recycledHasRoom before.pool (.advance thread) after.pool &&
        decide (result = .done ∨ result = .pending)
  | _ => true

def smoothStep (before : SendStream.System Bool Bool) (label : SendStream.Label Bool Bool)
    (after : SendStream.System Bool Bool) : Bool :=
  smoothLabel before label after &&
    ((after.session true).connected && (after.session false).connected)

theorem smooth_step_sound (before after : SendStream.System Bool Bool)
    (label : SendStream.Label Bool Bool) (checked : smoothStep before label after = true) :
    smooth before label after := by
  rw [smoothStep, Bool.and_eq_true, Bool.and_eq_true] at checked
  obtain ⟨legal, first, second⟩ := checked
  refine ⟨?_, ?_, fun session => ?_, ?_⟩
  · rintro thread session packet rfl
    exact of_decide_eq_true legal
  · rintro thread tick result rfl
    simp only [smoothLabel, Bool.and_eq_true] at legal
    exact recycled_has_room_sound before.pool after.pool (.advance thread) legal.1
  · cases session with
    | true => exact first
    | false => exact second
  · rintro thread tick error session rfl
    simp [smoothLabel] at legal

theorem half_sent_reached : ∃ system : SendStream.System Bool Bool,
    Reachable SendStream.step smooth (SendStream.System.start fun _ => 0) system ∧
    (system.session true).calls = [⟨[⟨0, ⟨6, 0⟩⟩, ⟨1, ⟨5, 6⟩⟩], .pending⟩] ∧ system.pool.regions =
    [⟨0, 0, 6⟩, ⟨0, 6, 5⟩, ⟨1, 0, 4⟩] ∧
    bytesOf system.pool (submitted (system.session true)) = [6, 0, 7, 0, 1, 2, 5, 0, 8, 0, 3] := by
  obtain ⟨system, reached, seen⟩ := replay_reachable SendStream.step smooth smoothStep
    (fun before label after checked => smooth_step_sound before after label checked)
    (fun system : SendStream.System Bool Bool => ((system.session true).calls, system.pool.regions,
      bytesOf system.pool (submitted (system.session true))))
    ([⟨[⟨0, ⟨6, 0⟩⟩, ⟨1, ⟨5, 6⟩⟩], .pending⟩], [⟨0, 0, 6⟩, ⟨0, 6, 5⟩, ⟨1, 0, 4⟩],
      [6, 0, 7, 0, 1, 2, 5, 0, 8, 0, 3]) halfSentLabels
    (SendStream.System.start fun _ => 0) (by decide +kernel)
  simp only [Prod.mk.injEq] at seen
  exact ⟨system, reached, seen⟩

theorem wire_carries_packets_half_sent : ∃ system : SendStream.System Bool Bool,
    system.pool.regions = [⟨0, 0, 6⟩, ⟨0, 6, 5⟩, ⟨1, 0, 4⟩] ∧ ∃ sent : List Packet,
    encodePackets sent = [6, 0, 7, 0, 1, 2, 5, 0, 8, 0, 3] ∧
    sent.Subperm ((system.accepted true).map Prod.fst) := by
  obtain ⟨system, reached, _, regions, bytes⟩ := half_sent_reached
  obtain ⟨sent, same, once, _⟩ := wire_carries_packets (fun _ => 0) system reached true
  exact ⟨system, regions, sent, same.symm.trans bytes, once⟩

/-- The bytes of any calls of `WSASend` that follow each other, received in one piece, make the
`OnRecv` of the other side deliver exactly the packets that were passed to them. -/
theorem peer_receives_packets (tick : Session → UInt64) (system : SendStream.System Thread Session)
    (reached : Reachable SendStream.step smooth (SendStream.System.start tick) system)
    (session : Session) (group : List SendPipeline.Submission)
    (inside : group <:+: (system.session session).calls) (memory : Memory UInt8) (buffer : Nat)
    (bytes : List UInt8)
    (sent : bytes = bytesOf system.pool (group.flatMap SendPipeline.Submission.segments))
    (arrived : load memory buffer bytes.length = bytes) (bound : bytes.length < 2 ^ 32) :
    ∃ fuel delivered packets, onRecv memory buffer bytes.length fuel =
      some (delivered, bytes.length) ∧
      List.Forall₂ (Delivered memory buffer (buffer + bytes.length)) delivered packets ∧
      packets.map some =
        (group.flatMap SendPipeline.Submission.segments).map
          (packetOf (system.accepted session)) := by
  have holds := run_keeps tick system reached
  have known : ∀ entry ∈ group.flatMap SendPipeline.Submission.segments,
      entry ∈ (system.session session).received := by
    intro entry member
    obtain ⟨submission, among, part⟩ := List.mem_flatMap.mp member
    exact submitted_received _ (holds.streams session) entry
      (List.mem_flatMap.mpr ⟨submission, inside.subset among, part⟩)
  have encoded := entries_read system holds session _ known
  rw [← sent] at encoded
  rw [encoded] at arrived bound ⊢
  exact ⟨_, _, _, on_recv_packets memory buffer _ arrived bound,
    packet_calls_delivered memory buffer buffer _ (Nat.le_refl _) arrived,
    entries_packets system holds session _ known⟩

theorem peer_receives_packets_half_sent :
    ∃ (system : SendStream.System Bool Bool) (memory : Memory UInt8) (fuel : Nat)
      (delivered : List PacketCall) (packets : List Packet),
    load memory 0 11 = [6, 0, 7, 0, 1, 2, 5, 0, 8, 0, 3] ∧
    onRecv memory 0 11 fuel = some (delivered, 11) ∧
    List.Forall₂ (Delivered memory 0 11) delivered packets ∧
    packets.map some = [packetOf (system.accepted true) ⟨0, ⟨6, 0⟩⟩,
      packetOf (system.accepted true) ⟨1, ⟨5, 6⟩⟩] := by
  obtain ⟨system, reached, calls, _, bytes⟩ := half_sent_reached
  let frames : List UInt8 := [6, 0, 7, 0, 1, 2, 5, 0, 8, 0, 3]
  have stored : load (store (fun _ => 0) 0 frames) 0 11 = frames := load_store_same _ 0 frames
  obtain ⟨fuel, delivered, packets, parsed, exact, same⟩ :=
    peer_receives_packets (fun _ => 0) system reached true (system.session true).calls
      List.infix_rfl (store (fun _ => 0) 0 frames) 0 frames bytes.symm stored (by decide)
  rw [calls] at same
  exact ⟨system, _, fuel, delivered, packets, stored, parsed, exact, same⟩

end NetCore.WireFrames
