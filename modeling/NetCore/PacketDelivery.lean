import NetCore.WireFrames
import NetCore.ReceiveOrder

/-! A connection from a session of one process to a session of another. On the one side any number
of threads send and flush, on this session and on others; on the other side any number of workers
take the completions. Between them the network takes the bytes from where the calls of `WSASend`
point, in the order of the calls, and completes the receives of the peer with as many of them as it
likes. What the application of the peer is shown are then the packets in the order of the calls,
provided that the network cuts between packets: `OnRecv` does not wait for the rest of a packet. -/
namespace NetCore.PacketDelivery
open TransitionRuns PacketFraming SegmentedReceive WireFrames

universe u

/-! A frame says how long it is, so bytes fall into packets in one way only. -/
section Frames

theorem header_layout_injective (first second : PacketHeader)
    (same : first.layout = second.layout) :
    first = second := by
  simp only [PacketHeader.layout, List.cons.injEq] at same
  obtain ⟨sizeLow, sizeHigh, idLow, idHigh, _⟩ := same
  have size := congrArg₂ wordOf sizeLow sizeHigh
  have id := congrArg₂ wordOf idLow idHigh
  rw [word_round_trip, word_round_trip] at size id
  cases first
  cases second
  simp_all

theorem encode_split (first second : Packet) (front back : List UInt8)
    (same : first.encode ++ front = second.encode ++ back) : first = second ∧ front = back := by
  simp only [Packet.encode, List.append_assoc] at same
  obtain ⟨layouts, rest⟩ := List.append_inj same rfl
  have headers := header_layout_injective _ _ layouts
  have sizes : first.size = second.size := by
    rw [← header_size_exact, ← header_size_exact, headers]
  obtain ⟨payloads, rests⟩ := List.append_inj rest (Nat.add_left_cancel sizes)
  have ids : first.id = second.id := congrArg PacketHeader.id headers
  cases first
  cases second
  simp_all

theorem encode_packets_prefix (front all : List Packet)
    (begins : encodePackets front <+: encodePackets all) :
    front <+: all := by
  induction front generalizing all with
  | nil => exact List.nil_prefix
  | cons packet rest ih =>
      obtain ⟨more, same⟩ := begins
      cases all with
      | nil =>
          have length := congrArg List.length same
          simp [Packet.size, headerSize] at length
      | cons other later =>
          rw [encode_packets_cons, encode_packets_cons, List.append_assoc] at same
          obtain ⟨rfl, tail⟩ := encode_split packet other _ _ same
          exact (List.prefix_cons_inj packet).mpr (ih later ⟨more, tail⟩)

end Frames

structure System (Thread Worker : Type) (Session : Type u) where
  sender : SendStream.System Thread Session
  receiver : ReceiveStream.System Worker

/-- `deliver` completes a receive of the peer with the next `count` bytes, or what there is of
them. -/
inductive Label (Thread Worker : Type) (Session : Type u) where
  | send (label : SendStream.Label Thread Session)
  | receive (label : ReceiveStream.Label Worker)
  | deliver (index count : Nat)

section Connection
variable {Thread Worker : Type} {Session : Type u} [DecidableEq Thread] [DecidableEq Worker]
  [DecidableEq Session]

def System.start (tick : Session → UInt64) : System Thread Worker Session where
  sender := SendStream.System.start tick
  receiver := ReceiveStream.System.start

def arrives : ReceiveStream.Label Worker → Bool
  | .arrive _ _ => true
  | _ => false

def wire (sender : SendStream.System Thread Session) (session : Session) : List UInt8 :=
  bytesOf sender.pool (submitted (sender.session session))

def arrived (receiver : ReceiveStream.System Worker) : List UInt8 := receiver.chunks.flatten

def step (session : Session) : Step (System Thread Worker Session) (Label Thread Worker Session) :=
  fun system label =>
    match label with
    | .send label =>
        (SendStream.step system.sender label).map fun sender => { system with sender := sender }
    | .receive label =>
        if arrives label then none
        else (ReceiveStream.step system.receiver label).map fun receiver =>
          { system with receiver := receiver }
    | .deliver index count =>
        let bytes := ((wire system.sender session).drop (arrived system.receiver).length).take count
        (ReceiveStream.step system.receiver (.arrive index bytes)).map fun receiver =>
          { system with receiver := receiver }

def smooth : Condition (System Thread Worker Session) (Label Thread Worker Session) :=
    fun before label after =>
  ∀ sending, label = .send sending → SendStream.smooth before.sender sending after.sender

/-! What has been passed to `WSASend` stays as it is. -/
section Sender

omit [DecidableEq Session] in
theorem calls_grow (before after : SendPipeline.System Thread) (label : SendPipeline.Label Thread)
    (taken : SendPipeline.step before label = some after) : before.calls <+: after.calls := by
  cases label with
  | send thread size position | sendRaw thread size | flush thread tick | sendList thread buffers =>
      simp only [SendPipeline.step, Option.ite_none_right_eq_some, Option.some.injEq] at taken
      obtain ⟨_, rfl⟩ := taken
      exact List.prefix_refl _
  | advance thread tick result =>
      simp only [SendPipeline.step, SendPipeline.advance] at taken
      split at taken <;> cases taken
      case h_3 =>
        unfold SendPipeline.flushReserved
        split <;> exact List.prefix_refl _
      case h_7 =>
        unfold SendPipeline.disconnectBy
        split <;> exact List.prefix_refl _
      case h_9 => exact List.prefix_append _ _
      all_goals exact List.prefix_refl _
  | complete numberOfBytesSent =>
      simp only [SendPipeline.step, Option.ite_none_right_eq_some, Option.some.injEq] at taken
      obtain ⟨_, rfl⟩ := taken
      unfold SendPipeline.disconnectBy
      split <;> first | exact List.prefix_refl _ | (split <;> exact List.prefix_refl _)
  | connect | processDisconnect =>
      cases taken
      exact List.prefix_refl _
  | disconnect =>
      cases taken
      unfold SendPipeline.disconnect
      split <;> exact List.prefix_refl _

def Continues (before after : SendStream.System Thread Session) (session : Session) : Prop :=
  (before.session session).calls <+: (after.session session).calls ∧
    before.accepted session <+: after.accepted session

theorem sender_continues (before after : SendStream.System Thread Session)
    (label : SendStream.Label Thread Session) (taken : SendStream.step before label = some after)
    (session : Session) : Continues before after session := by
  have unchanged : Continues before before session := ⟨List.prefix_refl _, List.prefix_refl _⟩
  have moves :
      ∀ (other : Session) (label : SendPipeline.Label Thread) (next : SendPipeline.System Thread),
      SendPipeline.step (before.session other) label = some next →
      (before.session session).calls <+:
        ((SendStream.setSession before other next).session session).calls := by
    intro other label next moved
    by_cases this : session = other
    · subst other
      rw [SendStream.set_session_self]
      exact calls_grow _ _ label moved
    · have same := SendStream.set_session_other before other session next this
      exact same ▸ List.prefix_refl _
  cases label with
  | send thread other packet =>
      simp only [SendStream.step] at taken
      split at taken
      case h_1 =>
        obtain ⟨pool, _, rfl⟩ := Option.map_eq_some_iff.mp taken
        exact unchanged
      case h_2 => cases taken
  | flush thread other tick =>
      simp only [SendStream.step] at taken
      split at taken
      case h_1 =>
        simp only [Option.ite_none_right_eq_some] at taken
        obtain ⟨_, taken⟩ := taken
        obtain ⟨next, moved, rfl⟩ := Option.map_eq_some_iff.mp taken
        exact ⟨moves other _ next moved, List.prefix_refl _⟩
      case h_2 => cases taken
  | advance thread tick result =>
      simp only [SendStream.step, SendStream.advance] at taken
      split at taken
      case h_4 other packet region _ =>
        obtain ⟨next, moved, rfl⟩ := Option.map_eq_some_iff.mp taken
        refine ⟨moves other _ next moved, ?_⟩
        by_cases this : session = other
        · subst other
          simp
        · simp [this]
      case h_5 other _ =>
        obtain ⟨next, moved, rfl⟩ := Option.map_eq_some_iff.mp taken
        exact ⟨moves other _ next moved, List.prefix_refl _⟩
      all_goals
        obtain ⟨pool, _, rfl⟩ := Option.map_eq_some_iff.mp taken
        exact unchanged
  | pool label =>
      simp only [SendStream.step] at taken
      split at taken
      case h_1 =>
        obtain ⟨pool, _, rfl⟩ := Option.map_eq_some_iff.mp taken
        exact unchanged
      case h_2 => cases taken
  | session other label =>
      simp only [SendStream.step, Option.ite_none_right_eq_some] at taken
      obtain ⟨_, taken⟩ := taken
      obtain ⟨next, moved, rfl⟩ := Option.map_eq_some_iff.mp taken
      exact ⟨moves other label next moved, List.prefix_refl _⟩

omit [DecidableEq Thread] [DecidableEq Session] in
theorem passed_grow (before after : SendStream.System Thread Session) (session : Session)
    (holds : SendStream.Invariant before) (continues : Continues before after session) :
    passed before session <+: passed after session := by
  obtain ⟨⟨calls, more⟩, ⟨accepted, later⟩⟩ := continues
  have same : (submitted (before.session session)).filterMap (packetOf (after.accepted session)) =
      passed before session := by
    refine List.filterMap_congr fun entry member => ?_
    obtain ⟨packet, found, _⟩ := entry_read before holds session entry
      (submitted_received _ (holds.streams session) entry member)
    obtain ⟨pair, placed, _⟩ := Option.map_eq_some_iff.mp found
    rw [packetOf, packetOf, ← later,
      List.getElem?_append_left (List.getElem?_eq_some_iff.mp placed).1]
  have grown : submitted (after.session session) =
      submitted (before.session session) ++ calls.flatMap SendPipeline.Submission.segments := by
    rw [submitted, submitted, ← more, List.flatMap_append]
  rw [← same, passed, grown, List.filterMap_append]
  exact List.prefix_append _ _

end Sender

section Receiver
variable (before after : ReceiveStream.System Worker)

theorem chunks_arrive (index : Nat) (bytes : List UInt8)
    (taken : ReceiveStream.step before (.arrive index bytes) = some after) :
    after.chunks = before.chunks ++ [bytes] := by
  unfold ReceiveStream.step at taken
  split at taken
  · cases taken
  · simp only at taken
    split at taken
    case h_1 =>
      simp only [Option.ite_none_right_eq_some, Option.some.injEq] at taken
      obtain ⟨_, rfl⟩ := taken
      rfl
    case h_2 => cases taken

theorem chunks_kept (label : ReceiveStream.Label Worker) (quiet : arrives label = false)
    (taken : ReceiveStream.step before label = some after) : after.chunks = before.chunks := by
  unfold ReceiveStream.step at taken
  split at taken
  · cases taken
  · cases label with
    | begin label =>
        simp only [Option.ite_none_right_eq_some] at taken
        obtain ⟨_, taken⟩ := taken
        obtain ⟨life, _, rfl⟩ := Option.map_eq_some_iff.mp taken
        rfl
    | arrive index bytes => cases quiet
    | take thread index =>
        simp only at taken
        split at taken
        case h_1 =>
          obtain ⟨life, _, rfl⟩ := Option.map_eq_some_iff.mp taken
          rfl
        case h_2 => cases taken
    | advance thread result =>
        simp only [ReceiveStream.advance] at taken
        split at taken
        case h_3 =>
          obtain ⟨call, _, taken⟩ := Option.bind_eq_some_iff.mp taken
          split at taken
          case h_1 =>
            cases taken
            rfl
          case h_2 =>
            split at taken
            · cases taken
              rfl
            · obtain ⟨life, _, rfl⟩ := Option.map_eq_some_iff.mp taken
              rfl
        all_goals
          obtain ⟨life, _, rfl⟩ := Option.map_eq_some_iff.mp taken
          rfl

end Receiver

section Runs
variable (session : Session)

structure Invariant (system : System Thread Worker Session) : Prop where
  sender : SendStream.Invariant system.sender
  receiver : ReceiveStream.Invariant system.receiver
  arrived : arrived system.receiver <+: wire system.sender session

omit [DecidableEq Thread] [DecidableEq Worker] [DecidableEq Session] in
theorem start_invariant (tick : Session → UInt64) :
    Invariant session (System.start tick : System Thread Worker Session) where
  sender := SendStream.start_invariant tick
  receiver := ReceiveStream.start_invariant
  arrived := List.nil_prefix

theorem step_keeps (before after : System Thread Worker Session)
    (label : Label Thread Worker Session) (holds : Invariant session before)
    (taken : step session before label = some after) (allowed : smooth before label after) :
    Invariant session after := by
  cases label with
  | send label =>
      obtain ⟨sender, moved, rfl⟩ := Option.map_eq_some_iff.mp taken
      have kept :=
        SendStream.step_keeps before.sender sender label holds.sender moved (allowed label rfl)
      refine ⟨kept, holds.receiver, holds.arrived.trans ?_⟩
      obtain ⟨more, grown⟩ := passed_grow before.sender sender session holds.sender
        (sender_continues before.sender sender label moved session)
      rw [wire, wire, passed_bytes _ holds.sender, passed_bytes _ kept, ← grown,
        encode_packets_append]
      exact List.prefix_append _ _
  | receive label =>
      simp only [step, Option.ite_none_left_eq_some, Bool.not_eq_true] at taken
      obtain ⟨quiet, taken⟩ := taken
      obtain ⟨receiver, moved, rfl⟩ := Option.map_eq_some_iff.mp taken
      refine ⟨holds.sender,
        ReceiveStream.step_keeps before.receiver receiver holds.receiver label moved, ?_⟩
      have same := chunks_kept before.receiver receiver label quiet moved
      have arrived := holds.arrived
      unfold PacketDelivery.arrived at arrived ⊢
      rw [same]
      exact arrived
  | deliver index count =>
      obtain ⟨receiver, moved, rfl⟩ := Option.map_eq_some_iff.mp taken
      refine ⟨holds.sender,
        ReceiveStream.step_keeps before.receiver receiver holds.receiver _ moved, ?_⟩
      obtain ⟨rest, given⟩ := holds.arrived
      have chunks := chunks_arrive before.receiver receiver index _ moved
      rw [← given, List.drop_left] at chunks
      have more : arrived receiver = arrived before.receiver ++ rest.take count := by
        simp [arrived, chunks]
      rw [more, ← given]
      exact (List.prefix_append_right_inj _).mpr (List.take_prefix count rest)

theorem run_keeps (tick : Session → UInt64) (system : System Thread Worker Session)
    (reached : Reachable (step session) smooth (System.start tick) system) :
    Invariant session system :=
  reachable_invariant (step session) smooth (Invariant session) _ (start_invariant session tick)
    (fun before label after holds taken allowed =>
      step_keeps session before after label holds taken allowed)
    system reached

/-- From one end to the other: as long as the network cuts between packets, the application of the
peer is shown the packets in the order in which they were passed to `WSASend`, each of those
accepted at most once. When nothing is under way on either side it has been shown all of them. -/
theorem packets_delivered (tick : Session → UInt64) (system : System Thread Worker Session)
    (reached : Reachable (step session) smooth (System.start tick) system)
    (groups : List (List Packet)) (aligned : system.receiver.chunks = groups.map encodePackets) :
    ∃ sent : List Packet,
      sent.map some = (submitted (system.sender.session session)).map
        (packetOf (system.sender.accepted session)) ∧
      sent.Subperm ((system.sender.accepted session).map Prod.fst) ∧
      system.receiver.shown <+: sent.map Packet.received ∧
      (AtRest (system.sender.session session) → ReceiveOrder.Idle system.receiver →
        arrived system.receiver = wire system.sender session →
        sent.Perm ((system.sender.accepted session).map Prod.fst) ∧
          system.receiver.shown = sent.map Packet.received) := by
  have holds := run_keeps session tick system reached
  have bytes := passed_bytes system.sender holds.sender session
  obtain ⟨once, all⟩ := passed_accepted system.sender holds.sender session
  obtain ⟨shown, idle⟩ := ReceiveOrder.aligned_shown system.receiver holds.receiver groups aligned
  have received : arrived system.receiver = encodePackets groups.flatten := by
    rw [encode_packets_flatten, arrived, aligned]
  have begins : groups.flatten <+: passed system.sender session := by
    refine encode_packets_prefix _ _ ?_
    rw [← received, ← bytes]
    exact holds.arrived
  refine ⟨passed system.sender session, ?_, once, shown.trans (begins.map _),
    fun rest quiet complete => ?_⟩
  · exact entries_packets system.sender holds.sender session _
      (submitted_received _ (holds.sender.streams session))
  · refine ⟨all rest, ?_⟩
    rw [received, wire, bytes] at complete
    have whole :=
      encode_packets_prefix (passed system.sender session) groups.flatten
        (complete ▸ List.prefix_refl _)
    rw [idle quiet, begins.eq_of_length_le whole.length_le]

end Runs

end Connection

/-- The two packets submitted by one thread of the sending side arrive in two pieces, each taken
by another worker, while the other thread of the sender is still in the middle of a `Send`. -/
def halfSentDelivery : List (Label Bool Bool Bool) :=
  halfSentLabels.map .send ++ [.receive (.begin (.setConnected false))] ++
    List.replicate 5 (.receive (.advance false .pending)) ++
    [.deliver 0 6, .receive (.take true 0)] ++
    List.replicate 6 (.receive (.advance true .pending)) ++
    [.deliver 0 20, .receive (.take false 0)] ++
    List.replicate 3 (.receive (.advance false .pending))

def smoothDelivery (before : System Bool Bool Bool) (label : Label Bool Bool Bool)
    (after : System Bool Bool Bool) : Bool :=
  match label with
  | .send label => smoothStep before.sender label after.sender
  | _ => true

theorem smooth_delivery_sound (before : System Bool Bool Bool) (label : Label Bool Bool Bool)
    (after : System Bool Bool Bool) (checked : smoothDelivery before label after = true) :
    smooth before label after := by
  rintro sending rfl
  exact smooth_step_sound before.sender after.sender sending checked

theorem packets_delivered_half_sent : ∃ (system : System Bool Bool Bool) (sent : List Packet),
    system.receiver.shown = [{ id := 7, payload := [1, 2] }, { id := 8, payload := [3] }] ∧
      system.receiver.shown <+: sent.map Packet.received ∧
      sent.Subperm ((system.sender.accepted true).map Prod.fst) := by
  obtain ⟨system, reached, seen⟩ := replay_reachable (step true) smooth smoothDelivery
    smooth_delivery_sound
    (fun system : System Bool Bool Bool => (system.receiver.chunks, system.receiver.shown))
    ([[6, 0, 7, 0, 1, 2], [5, 0, 8, 0, 3]],
      [{ id := 7, payload := [1, 2] }, { id := 8, payload := [3] }])
    halfSentDelivery (System.start fun _ => 0) (by decide +kernel)
  simp only [Prod.mk.injEq] at seen
  obtain ⟨chunks, shown⟩ := seen
  obtain ⟨first, firstBytes⟩ := sized_packet [6, 0, 7, 0, 1, 2] (by decide) (by decide)
  obtain ⟨second, secondBytes⟩ := sized_packet [5, 0, 8, 0, 3] (by decide) (by decide)
  obtain ⟨sent, _, once, begins, _⟩ := packets_delivered true (fun _ => 0) system reached
    [[first], [second]] (by simp [chunks, firstBytes, secondBytes])
  exact ⟨system, sent, shown, begins, once⟩

end NetCore.PacketDelivery
