import NetCore.ReceiveStream

/-! The order in which a session shows its packets. Although each completion may be taken by another
thread, one thread at a time is in the receive path and the kernel holds no receive meanwhile, so
the buffer does not change under `OnRecvPacket`; and what is shown is what one thread alone would
show. -/
namespace NetCore.ReceiveOrder
open TransitionRuns ByteMemory PacketFraming SegmentedReceive ReceiveStream
open PacketGrammar (Turns)

variable {Thread : Type} [DecidableEq Thread]

/-- One thread is in the receive path or one receive is with the kernel, never two of them, and no
step writes the receive buffer while a thread is in the path. -/
theorem receive_path_exclusive (system : ReceiveStream.System Thread)
    (reached : Reachable ReceiveStream.step anyStep System.start system) :
    (∀ first second, stage system first ≠ .outside →
      stage system second ≠ .outside → first = second) ∧
    (system.posted.length = system.life.recvOutstanding ∧ system.posted.length ≤ 1) ∧
    (∀ thread, stage system thread ≠ .outside → system.posted = [] ∧
      ∀ label after, ReceiveStream.step system label = some after →
        after.recvBuffer = system.recvBuffer) := by
  have alone := (run_keeps system reached).alone
  refine ⟨alone.sole, ⟨alone.counted, alone.few⟩, fun thread inside => ?_⟩
  have none := alone.apart thread inside
  refine ⟨none, fun label after taken => ?_⟩
  unfold ReceiveStream.step at taken
  split at taken
  case isTrue => cases taken
  case isFalse =>
    cases label with
    | begin label =>
        simp only [Option.ite_none_right_eq_some] at taken
        obtain ⟨life, _, rfl⟩ := Option.map_eq_some_iff.mp taken.2
        rfl
    | arrive index bytes => simp [none] at taken
    | take thread index => simp [none] at taken
    | advance thread result =>
        simp only [ReceiveStream.advance] at taken
        split at taken
        case h_3 stands =>
          obtain ⟨call, _, turned⟩ := Option.bind_eq_some_iff.mp taken
          split at turned
          case h_1 =>
            cases turned
            rfl
          case h_2 =>
            split at turned
            case isTrue =>
              cases turned
              rfl
            case isFalse =>
              obtain ⟨life, _, rfl⟩ := Option.map_eq_some_iff.mp turned
              rfl
        all_goals
          obtain ⟨life, _, rfl⟩ := Option.map_eq_some_iff.mp taken
          rfl

def Idle (system : ReceiveStream.System Thread) : Prop :=
  (∀ thread, stage system thread = .outside) ∧ ∀ entry ∈ system.posted, entry.arrived = none

section Handled
variable (system : ReceiveStream.System Thread) (finished : List (List UInt8))
  (session : RecvSession) (current : Option (List UInt8))
  (handled : Handled system finished session current)
include handled

omit [DecidableEq Thread]

theorem idle_current (idle : Idle system) : current = none ∨ current = some [] := by
  cases now : current with
  | none => exact Or.inl rfl
  | some bytes =>
      right
      rcases handled.known bytes now with nothing | waiting | ⟨thread, received | parsing⟩
      · rw [nothing]
      · obtain ⟨entry, rest, listed⟩ := List.exists_cons_of_ne_nil waiting
        have member : entry ∈ system.posted := by rw [listed]; exact List.mem_cons_self
        have arrived := (handled.posted entry member).2
        rw [idle.2 entry member, now] at arrived
        cases arrived
      · rw [idle.1 thread] at received
        cases received
      · rw [idle.1 thread] at parsing
        cases parsing

theorem idle_shown (idle : Idle system) : system.shown = session.delivered :=
  handled.quiet fun thread parsing => by
    rw [idle.1 thread] at parsing
    cases parsing

theorem shown_so_far : system.shown = session.delivered ∨ ∃ bytes call, current = some bytes ∧
    InLoop (store session.recvBuffer.buffer 0 bytes) bytes call ∧
    system.shown = session.delivered ++
      call.loop.calls.map (observe (store session.recvBuffer.buffer 0 bytes)) := by
  by_cases quiet : ∀ thread, stage system thread ≠ .parsing
  · exact Or.inl (handled.quiet quiet)
  · obtain ⟨thread, parses⟩ := not_forall_not.mp quiet
    have place := handled.places thread
    rw [Place, parses] at place
    obtain ⟨bytes, call, now, _, inLoop, told⟩ := place
    have memory : system.recvBuffer.buffer = store session.recvBuffer.buffer 0 bytes := by
      rw [handled.buffer, now]
      rfl
    rw [memory] at inLoop told
    exact Or.inr ⟨bytes, call, now, inLoop, told⟩

end Handled

theorem served_empty (finished : List (List UInt8)) (session next : RecvSession)
    (served : Served finished session) (chunked : ∀ bytes ∈ finished, Chunk bytes)
    (all : Served (finished ++ [[]]) next) :
    next.delivered = session.delivered := by
  have listening := served_listening finished session served chunked
  obtain ⟨enough, received⟩ := served
  obtain ⟨fuel, ended⟩ := all
  have before := receive_more_fuel enough fuel connectedSession session _ received
  have whole := receive_more_fuel fuel enough connectedSession next _ ended
  have split : completionsOf (finished ++ [[]]) = completionsOf finished ++ [⟨[], .pending⟩] := by
    simp [completionsOf]
  rw [Nat.add_comm, split, receive_append, before] at whole
  simp only [Option.bind_some, receive, complete, listening.outstanding, List.length_nil,
    Nat.zero_le, if_true, processRecv, disconnect, listening.connected, Option.some.injEq] at whole
  rw [← whole]

theorem served_same (chunks : List (List UInt8)) (session other : RecvSession)
    (served : Served chunks session) (again : Served chunks other) : session = other := by
  obtain ⟨fuel, received⟩ := served
  obtain ⟨more, also⟩ := again
  have left := receive_more_fuel fuel more connectedSession session _ received
  have right := receive_more_fuel more fuel connectedSession other _ also
  rw [Nat.add_comm more fuel, left] at right
  exact Option.some.inj right

/-- Any number of threads show what one thread would show that serves the completions one after the
other: all of it when nothing is under way, and otherwise everything before the last completion and
what the loop of `OnRecv` has shown of that one so far, whether or not it will ever end. -/
theorem received_in_sequence (system : ReceiveStream.System Thread)
    (reached : Reachable ReceiveStream.step anyStep System.start system) :
    ∃ finished session current, Served finished session ∧
      system.chunks = finished ++ Option.toList current ∧
      (system.shown = session.delivered ∨ ∃ bytes loop, current = some bytes ∧
        Turns (store session.recvBuffer.buffer 0 bytes) 0 bytes.length loop ∧
        system.shown = session.delivered ++
          loop.calls.map (observe (store session.recvBuffer.buffer 0 bytes))) ∧
      session.delivered <+: system.shown ∧
      (∀ next, Served system.chunks next → system.shown <+: next.delivered) ∧
      (Idle system → system.shown = session.delivered ∧ (current = none ∨ current = some [])) := by
  obtain ⟨finished, session, current, handled⟩ := (run_keeps system reached).handled
  have soFar := shown_so_far system finished session current handled
  refine ⟨finished, session, current, handled.served, handled.chunks, ?_, ?_, ?_, fun idle => ?_⟩
  · rcases soFar with same | ⟨bytes, call, now, inLoop, told⟩
    · exact .inl same
    · exact .inr ⟨bytes, call.loop, now, inLoop.len ▸ inLoop.turned, told⟩
  · rcases soFar with same | ⟨bytes, call, _, _, told⟩
    · exact same ▸ List.prefix_refl _
    · rw [told]
      exact List.prefix_append _ _
  · intro next all
    rw [handled.chunks] at all
    cases current with
    | none =>
        rw [Option.toList_none, List.append_nil] at all
        rcases soFar with same | ⟨_, _, now, _⟩
        · have only := served_same finished session next handled.served all
          exact only ▸ same ▸ List.prefix_refl _
        · cases now
    | some bytes =>
        by_cases nothing : bytes = []
        · subst nothing
          rw [served_empty finished session next handled.served handled.chunked all]
          rcases soFar with same | ⟨_, _, now, inLoop, _⟩
          · exact same ▸ List.prefix_refl _
          · cases now
            exact absurd rfl inLoop.nonempty
        · obtain ⟨fuel, result, parsed, rfl⟩ := served_last finished session handled.served
            handled.chunked bytes ⟨nothing, handled.fits bytes rfl⟩ next all
          rcases soFar with same | ⟨_, call, now, inLoop, told⟩
          · rw [same]
            exact List.prefix_append _ _
          · cases now
            have turned := inLoop.turned
            rw [inLoop.len] at turned
            rw [told]
            exact (List.prefix_append_right_inj _).mpr
              ((turned_calls _ _ call.loop turned fuel result parsed).map _)
  · exact ⟨idle_shown system finished session current handled idle,
      idle_current system finished session current handled idle⟩

theorem served_packets (finished : List (List UInt8)) (session : RecvSession)
    (served : Served finished session) (chunked : ∀ bytes ∈ finished, Chunk bytes)
    (groups : List (List Packet)) (aligned : finished = groups.map encodePackets) :
    session.delivered = groups.flatten.map Packet.received := by
  have bytes : (completionsOf finished).map Completion.bytes = groups.map encodePackets := by
    rw [← aligned, completionsOf, List.map_map]
    exact List.map_id _
  obtain ⟨after, received, delivered⟩ := receive_aligned (completionsOf finished)
    (by
      simp only [completionsOf, List.mem_map]
      rintro _ ⟨chunk, member, rfl⟩
      exact (chunked chunk member).1)
    (by
      simp only [completionsOf, List.mem_map]
      rintro _ ⟨chunk, member, rfl⟩
      exact (chunked chunk member).2)
    (by simp [completionsOf]) groups connectedSession groups.flatten.length
      connected_session_listening
    (Nat.le_refl _) bytes
  rw [served_same finished session after served ⟨_, received⟩, delivered]
  rfl

omit [DecidableEq Thread] in
theorem aligned_shown (system : ReceiveStream.System Thread) (holds : Invariant system)
    (groups : List (List Packet)) (aligned : system.chunks = groups.map encodePackets) :
    system.shown <+: groups.flatten.map Packet.received ∧
      (Idle system → system.shown = groups.flatten.map Packet.received) := by
  obtain ⟨finished, session, current, handled⟩ := holds.handled
  have split := handled.chunks
  rw [aligned] at split
  obtain ⟨front, back, rfl, served, last⟩ := List.map_eq_append_iff.mp split
  have delivered := served_packets finished session handled.served handled.chunked front served.symm
  have whole : (front ++ back).flatten.map Packet.received =
      session.delivered ++ back.flatten.map Packet.received := by
    rw [delivered, List.flatten_append, List.map_append]
  rw [whole]
  constructor
  · rcases shown_so_far system finished session current
      handled with same | ⟨bytes, call, rfl, inLoop, told⟩
    · rw [same]
      exact List.prefix_append _ _
    · obtain ⟨group, rfl, rfl⟩ : ∃ group, back = [group] ∧ encodePackets group = bytes := by
        obtain ⟨group, rest, rfl, same, none⟩ := List.map_eq_cons_iff.mp last
        exact ⟨group, by rw [List.map_eq_nil_iff.mp none], same⟩
      have placed := load_store_same session.recvBuffer.buffer 0 (encodePackets group)
      have fits := handled.fits _ rfl
      have parsed := on_recv_packets _ 0 group placed (Nat.lt_of_le_of_lt fits (by decide))
      have turned := inLoop.turned
      rw [inLoop.len] at turned
      have calls := (turned_calls _ _ call.loop turned _ _ parsed).map
        (observe (store session.recvBuffer.buffer 0 (encodePackets group)))
      rw [packet_calls_observed _ 0 group placed] at calls
      rw [told, List.flatten_singleton]
      exact (List.prefix_append_right_inj _).mpr calls
  · intro idle
    rw [idle_shown system finished session current handled idle]
    -- At most an empty completion is left, and it holds no packet.
    have nothing : encodePackets back.flatten = [] := by
      rw [encode_packets_flatten, last]
      rcases idle_current system finished session current handled idle with rfl | rfl <;> rfl
    have none : back.flatten = [] := by
      cases rest : back.flatten with
      | nil => rfl
      | cons packet later =>
          rw [rest, encode_packets_cons, List.append_eq_nil_iff] at nothing
          have length := congrArg List.length nothing.1
          rw [encode_length] at length
          exact absurd length (by simp [Packet.size, headerSize])
    rw [none, List.map_nil, List.append_nil]

/-- If the kernel completes its receives between packets, every packet is shown once, whole and in
the order of the stream, whichever threads take the completions. -/
theorem packets_in_order (system : ReceiveStream.System Thread)
    (reached : Reachable ReceiveStream.step anyStep System.start system)
    (groups : List (List Packet)) (aligned : system.chunks = groups.map encodePackets) :
    system.shown <+: groups.flatten.map Packet.received ∧
      (Idle system → system.shown = groups.flatten.map Packet.received) :=
  aligned_shown system (run_keeps system reached) groups aligned

/-- One thread connects the session, another takes the first completion, two packets, and has shown
the first of them; meanwhile the one thread has begun a `Send`. -/
def twoPacketsLabels : List (ReceiveStream.Label Bool) :=
  [.begin (.setConnected true)] ++ List.replicate 5 (.advance true .pending) ++
    [.arrive 0 [7, 0, 7, 0, 1, 2, 3, 5, 0, 9, 0, 4], .take false 0, .begin (.send true)] ++
    List.replicate 3 (.advance false .pending)

def twoPackets : List (List Packet) := [[⟨7, [1, 2, 3], by decide⟩, ⟨9, [4], by decide⟩]]

theorem two_packets_reached : ∃ system : ReceiveStream.System Bool,
    Reachable ReceiveStream.step anyStep System.start system ∧
      (system.chunks, system.shown, stage system false) =
        ([[7, 0, 7, 0, 1, 2, 3, 5, 0, 9, 0, 4]], [{ id := 7, payload := [1, 2, 3] }], .parsing) :=
  replay_reachable ReceiveStream.step anyStep (fun _ _ _ => true) (fun _ _ _ _ => trivial)
    (fun system =>
      (system.chunks, system.shown, stage system false)) _ twoPacketsLabels System.start
    (by decide +kernel)

theorem receive_path_exclusive_two_packets : ∃ system : ReceiveStream.System Bool,
    stage system false = .parsing ∧ system.posted = [] ∧ stage system true = .outside := by
  obtain ⟨system, reached, seen⟩ := two_packets_reached
  simp only [Prod.mk.injEq] at seen
  obtain ⟨_, _, parses⟩ := seen
  have inside : stage system false ≠ .outside := by simp [parses]
  obtain ⟨sole, _, alone⟩ := receive_path_exclusive system reached
  refine ⟨system, parses, (alone false inside).1, ?_⟩
  by_contra busy
  exact absurd (sole true false busy inside) (by decide)

theorem received_in_sequence_two_packets :
    ∃ (system : ReceiveStream.System Bool) (finished : List (List UInt8)) (session : RecvSession),
      stage system false = .parsing ∧ system.shown = [{ id := 7, payload := [1, 2, 3] }] ∧
      Served finished session ∧
      (system.shown = session.delivered ∨ ∃ bytes loop,
        Turns (store session.recvBuffer.buffer 0 bytes) 0 bytes.length loop ∧
        system.shown = session.delivered ++
          loop.calls.map (observe (store session.recvBuffer.buffer 0 bytes))) := by
  obtain ⟨system, reached, seen⟩ := two_packets_reached
  simp only [Prod.mk.injEq] at seen
  obtain ⟨_, shown, parses⟩ := seen
  obtain ⟨finished, session, _, served, _, soFar, _⟩ := received_in_sequence system reached
  refine ⟨system, finished, session, parses, shown, served, ?_⟩
  rcases soFar with same | ⟨bytes, loop, _, turned, told⟩
  · exact .inl same
  · exact .inr ⟨bytes, loop, turned, told⟩

theorem packets_in_order_two_packets : ∃ system : ReceiveStream.System Bool,
    system.shown = [{ id := 7, payload := [1, 2, 3] }] ∧
      system.shown <+: twoPackets.flatten.map Packet.received := by
  obtain ⟨system, reached, seen⟩ := two_packets_reached
  simp only [Prod.mk.injEq] at seen
  obtain ⟨chunks, shown, _⟩ := seen
  exact ⟨system, shown, (packets_in_order system reached twoPackets (chunks.trans (by decide))).1⟩

end NetCore.ReceiveOrder
