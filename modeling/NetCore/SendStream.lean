import NetCore.SendBufferGrowth
import NetCore.SendConservation

/-! The way of a packet from `PacketSession::Send` to the bytes that `WSASend` reads, for any number
of sessions and threads at once. `Send` reserves a region of the thread's send buffer, writes the
frame into it and only then takes the lock of the session to append the `WSABUF`, a pointer into
the send buffer until the operation is complete. Send buffers are SendBufferPool's and sessions
SendPipeline's; the buffers lie one behind the other in one address space. A packet carries the
bound that makes its length exact in 16 bits. `SendRaw` and direct calls of `_send` are left out. -/
namespace NetCore.SendStream
open TransitionRuns ByteMemory PacketFraming SegmentedReceive SendBufferPool SendBufferOwnership
open SendBufferBounds SendBufferLayout SendBufferGrowth

universe u
variable {Thread : Type} {Session : Type u}

/-- Where a thread is in `Send`: inside `SendBufferManager::Reserve`, before the writes of
`Serialize`, before the lock. `calling` is a call of `Flush`. -/
inductive Task (Session : Type u) where
  | idle
  | reserving (session : Session) (packet : Packet)
  | writing (session : Session) (packet : Packet) (region : Region)
  | accepting (session : Session) (packet : Packet) (region : Region)
  | calling (session : Session)

/-- `accepted` records the packets a session has appended, with the regions that hold them. -/
structure System (Thread : Type) (Session : Type u) where
  pool : SendBufferPool.System Thread
  session : Session → SendPipeline.System Thread
  task : Thread → Task Session
  accepted : Session → List (Packet × Region)

inductive Label (Thread : Type) (Session : Type u) where
  | send (thread : Thread) (session : Session) (packet : Packet)
  | flush (thread : Thread) (session : Session) (tick : UInt64)
  | advance (thread : Thread) (tick : UInt64) (result : WsaResult)
  | pool (label : SendBufferPool.Label Thread)
  | session (session : Session) (label : SendPipeline.Label Thread)

def System.start (tick : Session → UInt64) : System Thread Session where
  pool := SendBufferPool.System.start
  session := fun session => SendPipeline.System.connectedStart (tick session)
  task := fun _ => .idle
  accepted := fun _ => []

def address (region : Region) : Nat := region.sendBuffer * maxBufferSize + region.offset

def ownCall : SendBufferPool.Label Thread → Option Thread
  | .initTls thread => some thread
  | .pop thread => some thread
  | .exit thread => some thread
  | _ => none

def fromOutside : SendPipeline.Label Thread → Bool
  | .complete _ => true
  | .connect => true
  | .disconnect => true
  | .processDisconnect => true
  | _ => false

def returned [DecidableEq Thread] (pool : SendBufferPool.System Thread) (thread : Thread) :
    Option Region :=
  if pool.phase thread = .idle then pool.regions.getLast? else none

variable [DecidableEq Thread] [DecidableEq Session]

def goTo (system : System Thread Session) (thread : Thread) (task : Task Session) :
    System Thread Session :=
  { system with task := Function.update system.task thread task }

def setSession (system : System Thread Session) (session : Session)
    (after : SendPipeline.System Thread) :
    System Thread Session :=
  { system with session := Function.update system.session session after }

omit [DecidableEq Session] in
@[simp] theorem go_to_self (system : System Thread Session) (thread : Thread)
    (task : Task Session) :
    (goTo system thread task).task thread = task :=
  Function.update_self ..

omit [DecidableEq Session] in
@[simp] theorem go_to_other (system : System Thread Session) (thread other : Thread)
    (task : Task Session) (different : other ≠ thread) :
    (goTo system thread task).task other = system.task other :=
  Function.update_of_ne different ..

omit [DecidableEq Thread] in
@[simp] theorem set_session_self (system : System Thread Session) (session : Session)
    (after : SendPipeline.System Thread) :
    (setSession system session after).session session = after :=
  Function.update_self ..

omit [DecidableEq Thread] in
@[simp] theorem set_session_other (system : System Thread Session) (session other : Session)
    (after : SendPipeline.System Thread) (different : other ≠ session) :
    (setSession system session after).session other = system.session other :=
  Function.update_of_ne different ..

def advance (system : System Thread Session) (thread : Thread) (tick : UInt64)
    (result : WsaResult) :
    Option (System Thread Session) :=
  match system.task thread with
  | .idle =>
      (SendBufferPool.step system.pool (.advance thread)).map fun pool =>
        { system with pool := pool }
  | .reserving session packet =>
      (SendBufferPool.step system.pool (.advance thread)).map fun pool =>
        goTo { system with pool := pool } thread <|
          match returned pool thread with
          | none => .reserving session packet
          | some region => .writing session packet region
  | .writing session packet region =>
      (SendBufferPool.step system.pool (.write region packet.encode)).map fun pool =>
        goTo { system with pool := pool } thread (.accepting session packet region)
  | .accepting session packet region =>
      (SendPipeline.step (system.session session)
          (.send thread (UInt16.ofNat packet.payload.length) (address region))).map fun after =>
        { goTo (setSession system session after) thread .idle with
          accepted :=
            Function.update system.accepted session
              (system.accepted session ++ [(packet, region)]) }
  | .calling session =>
      (SendPipeline.step (system.session session) (.advance thread tick result)).map fun after =>
        goTo (setSession system session after) thread (if after.phase thread = .idle then .idle
          else .calling session)

def step : Step (System Thread Session) (Label Thread Session) := fun system label =>
  match label with
  | .send thread session packet =>
      match system.task thread with
      | .idle =>
          (SendBufferPool.step system.pool (.reserve thread packet.size)).map fun pool =>
            goTo { system with pool := pool } thread (.reserving session packet)
      | _ => none
  | .flush thread session tick =>
      match system.task thread with
      | .idle =>
          if system.pool.phase thread = .idle then
            (SendPipeline.step (system.session session) (.flush thread tick)).map fun after =>
              goTo (setSession system session after) thread (.calling session)
          else none
      | _ => none
  | .advance thread tick result => advance system thread tick result
  | .pool label =>
      match (ownCall label).map system.task with
      | some .idle =>
          (SendBufferPool.step system.pool label).map fun pool => { system with pool := pool }
      | _ => none
  | .session session label =>
      if fromOutside label then
        (SendPipeline.step (system.session session) label).map fun after =>
          setSession system session after
      else none

/-- The step from `writing` to `accepting` is `Serialize` after its reservation. -/
theorem serialize_stores (memory : Memory UInt8) (region : Region) (packet : Packet) :
    (serialize memory region.offset packet.id packet.payload).1 =
      store memory region.offset packet.encode :=
  (store_append memory region.offset packet.header.layout packet.payload).symm

/-- Frames fit in a send buffer, a recycled buffer has room, the sessions stay connected and
`WSASend` does not fail. -/
structure Smooth (before : System Thread Session) (label : Label Thread Session)
    (after : System Thread Session) :
    Prop where
  small : ∀ thread session packet, label = .send thread session packet → packet.size ≤ maxBufferSize
  room : ∀ thread tick result, label = .advance thread tick result →
    RecycledHasRoom before.pool (.advance thread) after.pool
  connected : ∀ session, (after.session session).connected = true
  answered : ∀ thread tick error session, label = .advance thread tick (.failed error) →
    (before.session session).phase thread ≠ .submitting

def smooth : Condition (System Thread Session) (Label Thread Session) := Smooth

inductive Progress (before after : SendBufferPool.System Thread) (thread : Thread) (size : Nat) :
    Prop where
  | on (still : requested (after.phase thread) = some size) : Progress before after thread size
  | done (sendBuffer : Nat) (idle : after.phase thread = .idle)
      (regions : after.regions =
        before.regions ++ [⟨sendBuffer, (before.buffers sendBuffer).usedSize, size⟩]) :
      Progress before after thread size

omit [DecidableEq Session] in
theorem reserve_progress (before after : SendBufferPool.System Thread) (thread : Thread)
    (size : Nat) (filled : Filled before) (stands : requested (before.phase thread) = some size)
    (taken : SendBufferPool.step before (.advance thread) = some after) :
    Progress before after thread size := by
  unfold SendBufferPool.step at taken
  split at taken
  case isTrue => cases taken
  case isFalse =>
    simp only [SendBufferPool.advance] at taken
    cases phase : before.phase thread with
    | idle => simp [phase, requested] at stands
    | exited => simp [phase, requested] at stands
    | exiting => simp [phase, requested] at stands
    | popping caller =>
        cases caller with
        | initTls => simp [phase, requested] at stands
        | holder => simp [phase, requested] at stands
        | reserve wanted =>
            simp only [phase, requested] at stands taken
            split at taken
            case h_1 =>
              cases taken
              exact .on (by simpa [enter, requested] using stands)
            case h_2 =>
              cases taken
              exact .on (by simpa [enter, requested] using stands)
    | creating caller =>
        cases caller with
        | initTls => simp [phase, requested] at stands
        | holder => simp [phase, requested] at stands
        | reserve wanted =>
            simp only [phase, requested] at stands taken
            cases taken
            exact .on (by simpa [enter, requested] using stands)
    | popped caller sendBuffer =>
        cases caller with
        | initTls => simp [phase, requested] at stands
        | holder => simp [phase, requested] at stands
        | reserve wanted =>
            simp only [phase, requested] at stands taken
            cases taken
            refine .on ?_
            unfold assign
            split <;> simpa [enter, requested, Caller.resume] using stands
    | releasing caller sendBuffer =>
        cases caller with
        | initTls => simp [phase, requested] at stands
        | holder => simp [phase, requested] at stands
        | reserve wanted =>
            simp only [phase, requested] at stands taken
            cases taken
            exact .on (by simpa [push, enter, requested, Caller.resume] using stands)
    | reserving wanted =>
        simp only [phase, requested, Option.some.injEq] at stands taken
        subst wanted
        obtain ⟨sendBuffer, held, same⟩ := Option.map_eq_some_iff.mp taken
        subst same
        have legal := filled.accepted.sizes thread size (by rw [phase]; rfl)
        have inside :=
          reserving_inside before filled.bounded thread sendBuffer size held phase legal
        simp only [reserveFrom, SendBuffer.reserve_inside _ _ inside]
        exact .done sendBuffer (by simp [enter]) rfl

structure Reserved (pool : SendBufferPool.System Thread) (packet : Packet) (region : Region) :
    Prop where
  given : region ∈ pool.regions
  sized : region.size = packet.size

structure Framed (pool : SendBufferPool.System Thread) (packet : Packet) (region : Region) :
    Prop where
  reserved : Reserved pool packet region
  bytes : region.bytes pool = packet.encode

def Working (pool : SendBufferPool.System Thread) (thread : Thread) : Task Session → Prop
  | .reserving _ packet => requested (pool.phase thread) = some packet.size
  | .writing _ packet region => Reserved pool packet region
  | .accepting _ packet region => Framed pool packet region
  | _ => True

def Task.region : Task Session → Option Region
  | .writing _ _ region => some region
  | .accepting _ _ region => some region
  | _ => none

def wsabufOf (pair : Packet × Region) : Wsabuf :=
  { len := (UInt16.ofNat (headerSize +
    (UInt16.ofNat pair.1.payload.length).toNat)).toNat, buf := address pair.2 }

structure Invariant (system : System Thread Session) : Prop where
  filled : Filled system.pool
  streams : ∀ session, SendConservation.Invariant (system.session session)
  received : ∀ session, (system.session session).received =
    SendPipeline.numbered 0 ((system.accepted session).map wsabufOf)
  frames : ∀ session, ∀ pair ∈ system.accepted session, Framed system.pool pair.1 pair.2
  working : ∀ thread, Working system.pool thread (system.task thread)
  unaccepted : ∀ thread region, (system.task thread).region = some region →
    ∀ session, ∀ pair ∈ system.accepted session, pair.2 ≠ region
  apart : ∀ first second region, (system.task first).region = some region →
    (system.task second).region = some region → first = second

omit [DecidableEq Thread] [DecidableEq Session] in
theorem start_invariant (tick : Session → UInt64) :
    Invariant (System.start tick : System Thread Session) where
  filled := start_filled
  streams session := SendConservation.start_invariant (tick session)
  received _ := rfl
  frames _ _ member := by cases member
  working _ := trivial
  unaccepted _ _ held := by cases held
  apart _ _ _ held := by cases held

section Pool
variable (before after : SendBufferPool.System Thread) (label : SendBufferPool.Label Thread)
  (filled : Filled before) (taken : SendBufferPool.step before label = some after)
include taken

omit [DecidableEq Session] in
theorem reserved_kept (packet : Packet) (region : Region)
    (reserved : Reserved before packet region) :
    Reserved after packet region :=
  ⟨(step_regions before after label taken).subset reserved.given, reserved.sized⟩

include filled

omit [DecidableEq Session] in
theorem framed_kept (packet : Packet) (region : Region) (framed : Framed before packet region)
    (unwritten : ∀ bytes, label ≠ .write region bytes) : Framed after packet region := by
  refine ⟨reserved_kept before after label taken packet region framed.reserved, ?_⟩
  rw [step_bytes before after label filled.bounded filled.laid taken region framed.reserved.given
    unwritten]
  exact framed.bytes

omit [DecidableEq Session] in
theorem working_kept (thread : Thread) (task : Task Session) (other : label.thread ≠ some thread)
    (working : Working before thread task) (unwritten : ∀ region bytes, task.region = some region →
      label ≠ .write region bytes) : Working after thread task := by
  cases task with
  | idle => trivial
  | calling session => trivial
  | reserving session packet =>
      have same := (step_elsewhere before after label thread other taken).1
      simpa only [Working, same] using working
  | writing session packet region =>
      exact reserved_kept before after label taken packet region working
  | accepting session packet region =>
      exact framed_kept before after label filled taken packet region working fun bytes =>
        unwritten region bytes rfl

end Pool

omit [DecidableEq Session] in
theorem write_framed (before after : SendBufferPool.System Thread) (packet : Packet)
    (region : Region) (reserved : Reserved before packet region)
    (taken : SendBufferPool.step before (.write region packet.encode) = some after) :
    Framed after packet region := by
  refine ⟨reserved_kept before after _ taken packet region reserved, ?_⟩
  unfold SendBufferPool.step at taken
  split at taken
  case isTrue => cases taken
  case isFalse =>
    simp only [Option.ite_none_right_eq_some, Option.some.injEq] at taken
    obtain ⟨_, rfl⟩ := taken
    simp only [Region.bytes, Function.update_self]
    rw [reserved.sized, ← encode_length]
    exact load_store_same _ _ _

omit [DecidableEq Thread] in
theorem fresh_region (pool : SendBufferPool.System Thread) (filled : Filled pool)
    (sendBuffer size : Nat) (some : 0 < size) :
    ⟨sendBuffer, (pool.buffers sendBuffer).usedSize, size⟩ ∉ pool.regions := by
  intro member
  have ends := filled.laid.ends _ member
  simp only [filled.laid.used] at ends
  omega

omit [DecidableEq Thread] [DecidableEq Session] in
theorem task_given (pool : SendBufferPool.System Thread) (thread : Thread) (task : Task Session)
    (region : Region) (working : Working pool thread task) (held : task.region = some region) :
    region ∈ pool.regions := by
  cases task with
  | idle => cases held
  | calling session => cases held
  | reserving session packet => cases held
  | writing session packet other =>
      cases held
      exact working.given
  | accepting session packet other =>
      cases held
      exact working.reserved.given

omit [DecidableEq Session] in
theorem received_kept (before after : SendPipeline.System Thread)
    (label : SendPipeline.Label Thread) (holds : SendConservation.Invariant before)
    (taken : SendPipeline.step before label = some after)
    (allowed : SendConservation.Online before label after)
    (packets : ∀ thread size position, label ≠ .send thread size position)
    (direct : ∀ thread buffers, label ≠ .sendList thread buffers) :
    after.received = before.received := by
  cases SendConservation.step_move before after label taken with
  | inert _ _ quiet _ => exact quiet.received
  | accept thread size position _ => exact absurd rfl (packets thread size position)
  | call thread buffers _ => exact absurd rfl (direct thread buffers)
  | abandon thread _ _ _ stands => exact absurd stands (holds.guarded.unrefused thread)
  | teardown _ off => exact (SendConservation.online_connected before after _ allowed off).elim
  | flush | lock | drain | submit | clear | store => rfl

theorem numbered_append (next : Nat) (buffers : List Wsabuf) (buffer : Wsabuf) :
    SendPipeline.numbered next (buffers ++ [buffer]) =
      SendPipeline.numbered next buffers ++ [⟨next + buffers.length, buffer⟩] := by
  induction buffers generalizing next with
  | nil => rfl
  | cons first rest ih =>
      simp only [List.cons_append, SendPipeline.numbered, ih, List.length_cons]
      rw [Nat.add_assoc, Nat.add_comm 1 rest.length]

section Steps
variable (system : System Thread Session) (holds : Invariant system)
include holds

omit [DecidableEq Session] in
theorem pool_keeps (label : SendBufferPool.Label Thread) (pool : SendBufferPool.System Thread)
    (thread : Thread) (task : Task Session)
    (taken : SendBufferPool.step system.pool label = some pool)
    (allowed : roomy system.pool label pool)
    (acting : ∀ other, label.thread = some other → other = thread) (mine : Working pool thread task)
    (written : ∀ region bytes, label = .write region bytes →
      (system.task thread).region = some region)
    (held : ∀ region, task.region = some region → (system.task thread).region = some region ∨
      region ∉ system.pool.regions) :
    Invariant (goTo { system with pool := pool } thread task) where
  filled := step_filled system.pool pool label holds.filled taken allowed
  streams := holds.streams
  received := holds.received
  frames session pair member := by
    refine framed_kept system.pool pool label holds.filled taken _ _
      (holds.frames session pair member) ?_
    rintro bytes rfl
    exact holds.unaccepted thread _ (written _ bytes rfl) session pair member rfl
  working other := by
    by_cases this : other = thread
    · subst other
      rw [go_to_self]
      exact mine
    · rw [go_to_other _ _ _ _ this]
      refine working_kept system.pool pool label holds.filled taken other _ ?_
        (holds.working other) ?_
      · exact fun same => this (acting other same)
      · rintro region bytes theirs rfl
        exact this (holds.apart other thread region theirs (written region bytes rfl))
  unaccepted other region owns session pair member := by
    by_cases this : other = thread
    · subst other
      rw [go_to_self] at owns
      rcases held region owns with old | fresh
      · exact holds.unaccepted thread region old session pair member
      · rintro rfl
        exact fresh (holds.frames session pair member).reserved.given
    · rw [go_to_other _ _ _ _ this] at owns
      exact holds.unaccepted other region owns session pair member
  apart := by
    -- A thread that has not moved shares no region with the one that has.
    have others : ∀ other region, other ≠ thread → (system.task other).region = some region →
        task.region ≠ some region := by
      intro other region different theirs mine
      rcases held region mine with old | fresh
      · exact different (holds.apart other thread region theirs old)
      · exact fresh (task_given system.pool other _ region (holds.working other) theirs)
    intro first second region left right
    by_cases one : first = thread
    · by_cases two : second = thread
      · exact one.trans two.symm
      · rw [one, go_to_self] at left
        rw [go_to_other _ _ _ _ two] at right
        exact absurd left (others second region two right)
    · rw [go_to_other _ _ _ _ one] at left
      by_cases two : second = thread
      · rw [two, go_to_self] at right
        exact absurd right (others first region one left)
      · rw [go_to_other _ _ _ _ two] at right
        exact holds.apart first second region left right

omit [DecidableEq Session] in
theorem pool_keeps_task (label : SendBufferPool.Label Thread) (pool : SendBufferPool.System Thread)
    (thread : Thread) (taken : SendBufferPool.step system.pool label = some pool)
    (allowed : roomy system.pool label pool)
    (acting : ∀ other, label.thread = some other → other = thread)
    (free : system.task thread = .idle) (unwritten : ∀ region bytes, label ≠ .write region bytes) :
    Invariant { system with pool := pool } := by
  have kept := pool_keeps system holds label pool thread .idle taken allowed acting trivial
    (fun region bytes same => absurd same (unwritten region bytes))
    (fun region impossible => by cases impossible)
  have same : goTo { system with pool := pool } thread .idle = { system with pool := pool } := by
    simp only [goTo, ← free, Function.update_eq_self]
  exact same ▸ kept

omit [DecidableEq Session] in
theorem task_keeps (thread : Thread) (task : Task Session) (without : task.region = none)
    (working : Working system.pool thread task) : Invariant (goTo system thread task) where
  filled := holds.filled
  streams := holds.streams
  received := holds.received
  frames := holds.frames
  working other := by
    by_cases this : other = thread
    · subst other
      rw [go_to_self]
      exact working
    · rw [go_to_other _ _ _ _ this]
      exact holds.working other
  unaccepted other region owns := by
    by_cases this : other = thread
    · subst other
      rw [go_to_self, without] at owns
      cases owns
    · rw [go_to_other _ _ _ _ this] at owns
      exact holds.unaccepted other region owns
  apart first second region left right := by
    by_cases one : first = thread
    · subst first
      rw [go_to_self, without] at left
      cases left
    · by_cases two : second = thread
      · subst second
        rw [go_to_self, without] at right
        cases right
      · rw [go_to_other _ _ _ _ one] at left
        rw [go_to_other _ _ _ _ two] at right
        exact holds.apart first second region left right

theorem session_keeps (session : Session) (label : SendPipeline.Label Thread)
    (after : SendPipeline.System Thread)
    (taken : SendPipeline.step (system.session session) label = some after)
    (allowed : SendConservation.Online (system.session session) label after)
    (packets : ∀ thread size position, label ≠ .send thread size position)
    (direct : ∀ thread buffers, label ≠ .sendList thread buffers) :
    Invariant (setSession system session after) where
  filled := holds.filled
  streams other := by
    by_cases this : other = session
    · subst other
      rw [set_session_self]
      exact SendConservation.step_invariant _ after label (holds.streams session)
        (SendConservation.step_move _ after label taken) allowed
    · rw [set_session_other _ _ _ _ this]
      exact holds.streams other
  received other := by
    by_cases this : other = session
    · subst other
      rw [set_session_self,
        received_kept _ after label (holds.streams session) taken allowed packets direct]
      exact holds.received session
    · rw [set_session_other _ _ _ _ this]
      exact holds.received other
  frames := holds.frames
  working := holds.working
  unaccepted := holds.unaccepted
  apart := holds.apart

theorem accept_keeps (thread : Thread) (session : Session) (packet : Packet) (region : Region)
    (after : SendPipeline.System Thread)
    (stands : system.task thread = .accepting session packet region)
    (taken : SendPipeline.step (system.session session)
      (.send thread (UInt16.ofNat packet.payload.length) (address region)) = some after)
    (allowed : SendConservation.Online (system.session session)
      (.send thread (UInt16.ofNat packet.payload.length) (address region)) after) :
    Invariant { goTo (setSession system session after) thread .idle with
      accepted := Function.update system.accepted session
          (system.accepted session ++ [(packet, region)]) } := by
  have framed := holds.working thread
  rw [stands] at framed
  have owns : (system.task thread).region = some region := by rw [stands]; rfl
  -- What a session has accepted is the old and, for this one session, the new.
  have known : ∀ other, ∀ pair ∈ Function.update system.accepted session
      (system.accepted session ++ [(packet, region)]) other, pair ∈ system.accepted other ∨
      pair = (packet, region) := by
    intro other pair member
    by_cases this : other = session
    · subst other
      rw [Function.update_self] at member
      rcases List.mem_append.mp member with old | new
      · exact Or.inl old
      · exact Or.inr (List.mem_singleton.mp new)
    · rw [Function.update_of_ne this] at member
      exact Or.inl member
  have free : Invariant (goTo system thread .idle) :=
    task_keeps system holds thread .idle rfl trivial
  constructor
  case filled => exact holds.filled
  case streams =>
    intro other
    by_cases this : other = session
    · subst other
      simp only [goTo, setSession, Function.update_self]
      exact SendConservation.step_invariant _ after _ (holds.streams session)
        (SendConservation.step_move _ after _ taken) allowed
    · simpa only [goTo, setSession, Function.update_of_ne this] using holds.streams other
  case received =>
    intro other
    by_cases this : other = session
    · subst other
      simp only [goTo, setSession, Function.update_self]
      simp only [SendPipeline.step, Option.ite_none_right_eq_some, Option.some.injEq] at taken
      obtain ⟨_, rfl⟩ := taken
      have old := holds.received session
      simp only [SendPipeline.accept, List.map_append, List.map_cons, List.map_nil,
        numbered_append, ← old]
      rw [old, SendConservation.numbered_length, Nat.zero_add]
      rfl
    · simpa only [goTo, setSession, Function.update_of_ne this] using holds.received other
  case frames =>
    intro other pair member
    rcases known other pair member with old | rfl
    · exact holds.frames other pair old
    · exact framed
  case working => exact free.working
  case unaccepted =>
    intro other part held which pair member
    rcases known which pair member with old | rfl
    · exact free.unaccepted other part held which pair old
    · rintro rfl
      by_cases this : other = thread
      · subst other
        simp only [goTo, setSession, Function.update_self] at held
        cases held
      · simp only [goTo, setSession, Function.update_of_ne this] at held
        exact this (holds.apart other thread region held owns)
  case apart => exact free.apart

end Steps

omit [DecidableEq Thread] [DecidableEq Session] in
theorem plain_roomy (before after : SendBufferPool.System Thread)
    (label : SendBufferPool.Label Thread)
    (sizes : ∀ thread size, label = .reserve thread size → size ≤ maxBufferSize)
    (moves : ∀ thread, label ≠ .advance thread) : roomy before label after :=
  ⟨sizes, fun thread _ _ same => absurd same (moves thread)⟩

omit [DecidableEq Session] in
theorem reserve_requested (before after : SendBufferPool.System Thread) (thread : Thread)
    (size : Nat) (taken : SendBufferPool.step before (.reserve thread size) = some after) :
    requested (after.phase thread) = some size := by
  unfold SendBufferPool.step at taken
  split at taken
  case isTrue => cases taken
  case isFalse =>
    simp only at taken
    split at taken
    case h_1 =>
      cases taken
      simp only [enter, Function.update_self]
      split <;> rfl
    case h_2 => cases taken

omit [DecidableEq Session] in
theorem requested_idle (pool : SendBufferPool.System Thread) (thread : Thread) (size : Nat)
    (still : requested (pool.phase thread) = some size) : returned pool thread = none := by
  unfold returned
  split
  case isTrue idle =>
    rw [idle] at still
    cases still
  case isFalse => rfl

section Tasks
variable (before after : System Thread Session) (thread : Thread) (tick : UInt64)
  (result : WsaResult) (holds : Invariant before)
  (taken : advance before thread tick result = some after)
include holds taken

theorem reserving_keeps (allowed : Smooth before (.advance thread tick result) after)
    (session : Session) (packet : Packet)
    (stands : before.task thread = .reserving session packet) : Invariant after := by
  have roomyAdvance : ∀ pool, roomy before.pool (.advance thread) pool := fun pool =>
    ⟨by simp [LegalSize], allowed.room thread tick result rfl⟩
  unfold advance at taken
  simp only [stands] at taken
  obtain ⟨pool, moved, rfl⟩ := Option.map_eq_some_iff.mp taken
  have wanted := holds.working thread
  rw [stands] at wanted
  have acting : ∀ other, (SendBufferPool.Label.advance thread).thread =
      some other → other = thread :=
    fun other same => (Option.some.inj same).symm
  cases reserve_progress before.pool pool thread packet.size holds.filled wanted moved with
  | on still =>
      rw [requested_idle pool thread packet.size still]
      exact pool_keeps before holds _ pool thread (.reserving session packet) moved
        (roomyAdvance pool) acting still
        (fun _ _ same => by cases same) (fun _ impossible => by cases impossible)
  | done sendBuffer idle regions =>
      have last : returned pool thread =
          some ⟨sendBuffer, (before.pool.buffers sendBuffer).usedSize, packet.size⟩ := by
        simp [returned, idle, regions]
      rw [last]
      refine pool_keeps before holds _ pool thread _ moved (roomyAdvance pool) acting ?_
        (fun _ _ same => by cases same) ?_
      · exact ⟨by rw [regions]; exact List.mem_append_right _ (List.mem_singleton_self _), rfl⟩
      · intro region owns
        cases owns
        have positive : 0 < packet.size :=
          Nat.lt_of_lt_of_le (by decide) (header_fits_packet packet)
        exact Or.inr (fresh_region before.pool holds.filled sendBuffer packet.size positive)

theorem writing_keeps (session : Session) (packet : Packet) (region : Region)
    (stands : before.task thread = .writing session packet region) : Invariant after := by
  unfold advance at taken
  simp only [stands] at taken
  obtain ⟨pool, moved, rfl⟩ := Option.map_eq_some_iff.mp taken
  have reserved := holds.working thread
  rw [stands] at reserved
  refine pool_keeps before holds (.write region packet.encode) pool thread _ moved
    (plain_roomy _ _ _ (fun _ _ same => by cases same) (fun _ same => by cases same))
    (fun _ same => by cases same) ?_ ?_ ?_
  · exact write_framed before.pool pool packet region reserved moved
  · intro other bytes same
    cases same
    rw [stands]
    rfl
  · intro other owns
    left
    rw [stands]
    exact owns

theorem calling_keeps (allowed : Smooth before (.advance thread tick result) after)
    (session : Session) (stands : before.task thread = .calling session) : Invariant after := by
  unfold advance at taken
  simp only [stands] at taken
  obtain ⟨next, moved, rfl⟩ := Option.map_eq_some_iff.mp taken
  have online :
      SendConservation.Online (before.session session) (.advance thread tick result) next := by
    refine ⟨?_, ?_⟩
    · have connected : ((setSession before session next).session session).connected = true :=
        allowed.connected session
      rwa [set_session_self] at connected
    · rintro other moment error submitting same
      cases same
      exact allowed.answered thread tick error session rfl submitting
  have kept :=
    session_keeps before holds session _ next moved online (fun _ _ _ same => by cases same)
      (fun _ _ same => by cases same)
  refine task_keeps _ kept thread _ ?_ ?_
  · split <;> rfl
  · split <;> trivial

end Tasks

theorem advance_keeps (before after : System Thread Session) (thread : Thread) (tick : UInt64)
    (result : WsaResult) (holds : Invariant before)
    (taken : advance before thread tick result = some after)
    (allowed : Smooth before (.advance thread tick result) after) : Invariant after := by
  have roomyAdvance : ∀ pool, roomy before.pool (.advance thread) pool := fun pool =>
    ⟨by simp [LegalSize], allowed.room thread tick result rfl⟩
  unfold advance at taken
  cases stands : before.task thread with
  | idle =>
      simp only [stands] at taken
      obtain ⟨pool, moved, rfl⟩ := Option.map_eq_some_iff.mp taken
      refine pool_keeps_task before holds (.advance thread) pool thread moved
        (roomyAdvance pool) ?_ stands ?_
      · intro other same
        exact (Option.some.inj same).symm
      · intro region bytes same
        cases same
  | reserving session packet =>
      exact reserving_keeps before after thread tick result holds taken allowed session packet
        stands
  | writing session packet region =>
      exact writing_keeps before after thread tick result holds taken session packet region stands
  | accepting session packet region =>
      simp only [stands] at taken
      obtain ⟨next, moved, rfl⟩ := Option.map_eq_some_iff.mp taken
      refine accept_keeps before holds thread session packet region next stands moved ⟨?_, ?_⟩
      · have connected : ((setSession before session next).session session).connected = true :=
          allowed.connected session
        rwa [set_session_self] at connected
      · intro other tick error _ same
        cases same
  | calling session =>
      exact calling_keeps before after thread tick result holds taken allowed session stands

theorem step_keeps (before after : System Thread Session) (label : Label Thread Session)
    (holds : Invariant before) (taken : step before label = some after)
    (allowed : smooth before label after) : Invariant after := by
  cases label with
  | send thread session packet =>
      simp only [step] at taken
      split at taken
      case h_1 free =>
        obtain ⟨pool, moved, rfl⟩ := Option.map_eq_some_iff.mp taken
        refine pool_keeps before holds (.reserve thread packet.size) pool thread _ moved
          (plain_roomy _ _ _ ?_ (fun _ same => by cases same)) ?_ ?_ (fun _ _ same => by cases same)
          (fun _ impossible => by cases impossible)
        · intro other size same
          cases same
          exact allowed.small thread session packet rfl
        · intro other same
          exact (Option.some.inj same).symm
        · exact reserve_requested before.pool pool thread packet.size moved
      case h_2 => cases taken
  | flush thread session tick =>
      simp only [step] at taken
      split at taken
      case h_1 free =>
        simp only [Option.ite_none_right_eq_some] at taken
        obtain ⟨_, taken⟩ := taken
        obtain ⟨next, moved, rfl⟩ := Option.map_eq_some_iff.mp taken
        have connected : ((setSession before session next).session session).connected = true :=
          allowed.connected session
        rw [set_session_self] at connected
        have kept :=
          session_keeps before holds session _ next moved ⟨connected,
            fun _ _ _ _ same => by cases same⟩
            (fun _ _ _ same => by cases same) (fun _ _ same => by cases same)
        exact task_keeps _ kept thread _ rfl trivial
      case h_2 => cases taken
  | advance thread tick result =>
      exact advance_keeps before after thread tick result holds taken allowed
  | pool label =>
      simp only [step] at taken
      split at taken
      case h_1 free =>
        obtain ⟨thread, own, unoccupied⟩ := Option.map_eq_some_iff.mp free
        obtain ⟨pool, moved, rfl⟩ := Option.map_eq_some_iff.mp taken
        cases label with
        | reserve => cases own
        | advance => cases own
        | write => cases own
        | _ =>
            cases own
            refine pool_keeps_task before holds _ pool thread moved
              (plain_roomy _ _ _ (fun _ _ same => by cases same)
                (fun _ same => by cases same)) ?_ unoccupied
              (fun _ _ same => by cases same)
            intro other same
            exact (Option.some.inj same).symm
      case h_2 => cases taken
  | session session label =>
      simp only [step, Option.ite_none_right_eq_some] at taken
      obtain ⟨outside, taken⟩ := taken
      obtain ⟨next, moved, rfl⟩ := Option.map_eq_some_iff.mp taken
      have connected : ((setSession before session next).session session).connected = true :=
        allowed.connected session
      rw [set_session_self] at connected
      refine session_keeps before holds session label next moved ⟨connected, ?_⟩ ?_ ?_
      · rintro _ _ _ _ rfl
        cases outside
      · rintro _ _ _ rfl
        cases outside
      · rintro _ _ rfl
        cases outside

theorem run_keeps (tick : Session → UInt64) (system : System Thread Session)
    (reached : Reachable step smooth (System.start tick) system) : Invariant system :=
  reachable_invariant step smooth Invariant _ (start_invariant tick)
    (fun before label after holds taken allowed =>
      step_keeps before after label holds taken allowed) system reached

end NetCore.SendStream
