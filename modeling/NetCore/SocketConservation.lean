import NetCore.TransitionRuns

/-! Who owns the socket handles of sessions and connectors (Session.cpp, Connector.cpp,
`SocketUtils::Close`). Handles are numbered as `CreateSocket` returns them, and
`INVALID_SOCKET` is `none`. A connector keeps its handle when it passes it to the session
of a completed connect; `_set_socket` writes it over the handle the session was
constructed with, `_clear` forgets the session's handle, `~Session` closes it and
`~Connector` does nothing. When objects are destroyed is left open here: any live object
may be destroyed at any time. Handles are not reused. -/
namespace NetCore.SocketConservation
open TransitionRuns

inductive ServiceType where
  | client
  | server
  deriving DecidableEq, Repr

inductive Object where
  | session (number : Nat)
  | connector (number : Nat)
  deriving DecidableEq, Repr

/-- `socket` is `_socket` or `_connectSocket`; `closed` counts the calls of `closesocket`.
Of a connector the state keeps `_connected`, the connects under way and `_session`
between its assignment and `_processConnect`. -/
structure System where
  created : Nat
  closed : Nat → Nat
  sessions : Nat
  connectors : Nat
  alive : Object → Bool
  socket : Object → Option Nat
  connected : Nat → Bool
  connecting : Nat → Nat
  session : Nat → Option Nat

def System.start : System where
  created := 0
  closed := fun _ => 0
  sessions := 0
  connectors := 0
  alive := fun _ => false
  socket := fun _ => none
  connected := fun _ => false
  connecting := fun _ => 0
  session := fun _ => none

inductive Label where
  | newSession (valid : Bool)
  | newConnector (valid : Bool)
  | connect (connector : Nat) (succeeds : Bool)
  | dispatchConnect (connector : Nat) (valid : Bool)
  | processConnect (connector : Nat)
  | processAccept (session : Nat)
  | clear (session : Nat)
  | destroySession (session : Nat)
  | destroyConnector (connector : Nat)
  deriving DecidableEq, Repr

/-- An object is made with the handle `CreateSocket` returns, if it is valid. -/
def construct (system : System) (object : Object) (valid : Bool) : System :=
  { system with
    created := if valid then system.created + 1 else system.created
    alive := Function.update system.alive object true
    socket := Function.update system.socket object (if valid then some system.created else none) }

def newSession (system : System) (valid : Bool) : System :=
  { construct system (.session system.sessions) valid with sessions := system.sessions + 1 }

def newConnector (system : System) (valid : Bool) : System :=
  { construct system (.connector system.connectors) valid with connectors := system.connectors + 1 }

/-- `Session::_set_socket`, which refuses outside a client service. -/
def setSocket (kind : ServiceType) (system : System) (session : Nat)
    (connectedSocket : Option Nat) : System :=
  if kind = .client then
    { system with socket := Function.update system.socket (.session session) connectedSocket }
  else system

def setConnected (kind : ServiceType) (system : System) (session : Nat)
    (connectedSocket : Option Nat) :
    System :=
  match connectedSocket with
  | some _ => setSocket kind system session connectedSocket
  | none => system

def close (system : System) (object : Object) : System :=
  match system.socket object with
  | some handle =>
      { system with
        closed := Function.update system.closed handle (system.closed handle + 1)
        socket := Function.update system.socket object none }
  | none => system

def step (kind : ServiceType) : Step System Label := fun system label =>
  match label with
  | .newSession valid => some (newSession system valid)
  | .newConnector valid => if kind = .client then some (newConnector system valid) else none
  | .connect connector succeeds =>
      if system.alive (.connector connector) then
        if !system.connected connector && succeeds then
          some { system with
            connecting :=
              Function.update system.connecting connector (system.connecting connector + 1) }
        else some system
      else none
  -- `AddNewSession` for the completed connect.
  | .dispatchConnect connector valid =>
      if system.alive (.connector connector) ∧ 0 < system.connecting connector then
        some { newSession system valid with
          connecting :=
            Function.update system.connecting connector (system.connecting connector - 1)
          session := Function.update system.session connector (some system.sessions) }
      else none
  | .processConnect connector =>
      match system.session connector with
      | some session =>
          if system.alive (.connector connector) ∧ system.alive (.session session) then
            some { setConnected kind system session (system.socket (.connector connector)) with
              connected := Function.update system.connected connector true
              session := Function.update system.session connector none }
          else none
      | none => none
  | .processAccept session =>
      if system.alive (.session session) then some (setConnected kind system session none) else none
  | .clear session =>
      if system.alive (.session session) then
        some { system with socket := Function.update system.socket (.session session) none }
      else none
  | .destroySession session =>
      if system.alive (.session session) then
        some { close system (.session session) with
          alive := Function.update system.alive (.session session) false }
      else none
  | .destroyConnector connector =>
      if system.alive (.connector connector) then
        some { system with alive := Function.update system.alive (.connector connector) false }
      else none

def Keeps (system : System) (object : Object) (handle : Nat) : Prop :=
  system.alive object = true ∧ system.socket object = some handle

def Stored (system : System) (handle : Nat) : Prop := ∃ object, Keeps system object handle

def Dispensable (system : System) (object : Object) : Prop :=
  ∀ handle, system.socket object = some handle →
    system.closed handle ≠ 0 ∨ ∃ other, other ≠ object ∧ Keeps system other handle

/-- The steps that overwrite or forget a handle find it closed or stored elsewhere, and a
connector passes its handle to one session only. -/
def careful (kind : ServiceType) : Condition System Label := fun before label _ =>
  match label with
  | .processConnect connector => ∀ session handle, before.session connector = some session →
      before.socket (.connector connector) = some handle → kind = .client →
      Dispensable before (.session session) ∧ before.closed handle = 0 ∧
        ∀ other, ¬ Keeps before (.session other) handle
  | .clear session => Dispensable before (.session session)
  | .destroyConnector connector => Dispensable before (.connector connector)
  | _ => True

structure Invariant (system : System) : Prop where
  conserved : ∀ handle, handle < system.created →
    (system.closed handle = 0 ∧ Stored system handle) ∨ system.closed handle = 1
  unclosed : ∀ session handle, Keeps system (.session session) handle → system.closed handle = 0
  single : ∀ left right handle, Keeps system (.session left) handle →
    Keeps system (.session right) handle → left = right
  issued : ∀ object handle, system.socket object = some handle → handle < system.created
  unused : ∀ handle, system.created ≤ handle → system.closed handle = 0
  unborn : ∀ number, (system.sessions ≤ number → system.alive (.session number) = false) ∧
    (system.connectors ≤ number → system.alive (.connector number) = false)

theorem start_invariant : Invariant System.start where
  conserved _ below := absurd below (Nat.not_lt_zero _)
  unclosed _ _ kept := by cases kept.1
  single _ _ _ kept := by cases kept.1
  issued _ _ stored := by cases stored
  unused _ _ := rfl
  unborn _ := ⟨fun _ => rfl, fun _ => rfl⟩

theorem stored_without (before after : System) (object : Object) (handle : Nat)
    (others : ∀ other, other ≠ object → Keeps before other handle → Keeps after other handle)
    (spare : Dispensable before object) (unclosed : before.closed handle = 0)
    (stored : Stored before handle) : Stored after handle := by
  obtain ⟨keeper, kept⟩ := stored
  by_cases same : keeper = object
  · subst same
    rcases spare handle kept.2 with closed | ⟨other, different, elsewhere⟩
    · exact absurd unclosed closed
    · exact ⟨other, others other different elsewhere⟩
  · exact ⟨keeper, others keeper same kept⟩

theorem give_up_invariant (before after : System) (holds : Invariant before) (object : Object)
    (spare : Dispensable before object) (created : after.created = before.created)
    (closed : after.closed = before.closed) (sessions : after.sessions = before.sessions)
    (connectors : after.connectors = before.connectors)
    (keeps : ∀ other handle, Keeps after other handle ↔ other ≠ object ∧ Keeps before other handle)
    (sockets : ∀ other handle, after.socket other = some handle → before.socket other = some handle)
    (alive : ∀ other, before.alive other = false → after.alive other = false) :
    Invariant after where
  conserved handle below := by
    rw [created] at below
    rw [closed]
    rcases holds.conserved handle below with ⟨unclosed, stored⟩ | once
    · refine .inl ⟨unclosed, stored_without before after object handle ?_ spare unclosed stored⟩
      exact fun other different kept => (keeps other handle).mpr ⟨different, kept⟩
    · exact .inr once
  unclosed session handle kept := by
    rw [closed]
    exact holds.unclosed session handle ((keeps _ handle).mp kept).2
  single left right handle first second :=
    holds.single left right handle ((keeps _ handle).mp first).2 ((keeps _ handle).mp second).2
  issued other handle stored := by
    rw [created]
    exact holds.issued other handle (sockets other handle stored)
  unused handle above := by
    rw [created] at above
    rw [closed]
    exact holds.unused handle above
  unborn number := by
    rw [sessions, connectors]
    exact ⟨fun above => alive _ ((holds.unborn number).1 above),
      fun above => alive _ ((holds.unborn number).2 above)⟩

theorem die_invariant (system : System) (holds : Invariant system) (object : Object)
    (spare : Dispensable system object) :
    Invariant { system with alive := Function.update system.alive object false } := by
  refine give_up_invariant system _ holds object spare rfl rfl rfl rfl ?_ (fun _ _ => id) ?_
  · intro other handle
    by_cases same : other = object
    · simp [Keeps, same]
    · simp [Keeps, same]
  · intro other dead
    by_cases same : other = object
    · simp only [same, Function.update_self]
    · simpa only [Function.update_of_ne same] using dead

theorem keeps_forgotten (system after : System) (object : Object)
    (alive : after.alive = system.alive)
    (socket : after.socket = Function.update system.socket object none) (other : Object)
    (handle : Nat) :
    Keeps after other handle ↔ other ≠ object ∧ Keeps system other handle := by
  by_cases same : other = object
  · simp [Keeps, socket, same]
  · simp [Keeps, alive, socket, same]

theorem socket_forgotten (system : System) (object other : Object) (handle : Nat)
    (stored : Function.update system.socket object none other = some handle) :
    system.socket other = some handle := by
  by_cases same : other = object
  · rw [same, Function.update_self] at stored
    cases stored
  · rwa [Function.update_of_ne same] at stored

theorem forget_invariant (system : System) (holds : Invariant system) (object : Object)
    (spare : Dispensable system object) :
    Invariant { system with socket := Function.update system.socket object none } :=
  give_up_invariant system _ holds object spare rfl rfl rfl rfl
    (keeps_forgotten system _ object rfl rfl) (socket_forgotten system object) (fun _ => id)

/-- `after` is `system` with a new object in it, but for the counters of objects. -/
structure Constructed (system after : System) (object : Object) (valid : Bool) : Prop where
  fresh : system.alive object = false
  made : after.alive = (construct system object valid).alive
  socket : after.socket = (construct system object valid).socket
  created : after.created = (construct system object valid).created
  closed : after.closed = system.closed

section Construct
variable (system after : System) (object : Object) (valid : Bool)
  (constructed : Constructed system after object valid)
include constructed

theorem constructed_socket : after.socket object = if valid then some system.created else none := by
  rw [constructed.socket]
  exact Function.update_self ..

theorem constructed_other (keeper : Object) (different : keeper ≠ object) :
    after.alive keeper = system.alive keeper ∧ after.socket keeper = system.socket keeper := by
  rw [constructed.made, constructed.socket]
  exact ⟨Function.update_of_ne different .., Function.update_of_ne different ..⟩

theorem constructed_grown : system.created ≤ after.created := by
  rw [constructed.created, construct]
  split
  · exact Nat.le_succ _
  · exact Nat.le_refl _

theorem constructed_origin (keeper : Object) (handle : Nat) (kept : Keeps after keeper handle) :
    Keeps system keeper handle ∨ keeper = object ∧ valid = true ∧ handle = system.created := by
  by_cases same : keeper = object
  · subst same
    have stored := kept.2
    rw [constructed_socket system after keeper valid constructed] at stored
    cases valid with
    | true => exact .inr ⟨rfl, rfl, (Option.some.inj stored).symm⟩
    | false => cases stored
  · obtain ⟨alive, sockets⟩ := constructed_other system after object valid constructed keeper same
    exact .inl ⟨alive ▸ kept.1, sockets ▸ kept.2⟩

theorem constructed_keeps (keeper : Object) (handle : Nat) (keeps : Keeps system keeper handle) :
    Keeps after keeper handle := by
  have different : keeper ≠ object := by
    rintro rfl
    exact absurd (constructed.fresh.symm.trans keeps.1) Bool.false_ne_true
  obtain ⟨alive, sockets⟩ :=
    constructed_other system after object valid constructed keeper different
  exact ⟨alive ▸ keeps.1, sockets ▸ keeps.2⟩

theorem construct_invariant (holds : Invariant system)
    (unborn : ∀ number, (after.sessions ≤ number → after.alive (.session number) = false) ∧
      (after.connectors ≤ number → after.alive (.connector number) = false)) : Invariant after := by
  have mine := constructed_socket system after object valid constructed
  have origin := constructed_origin system after object valid constructed
  have closed := constructed.closed
  constructor
  case conserved =>
    intro handle below
    rw [closed]
    by_cases old : handle < system.created
    · rcases holds.conserved handle old with ⟨unclosed, keeper, keeps⟩ | once
      · exact .inl ⟨unclosed, keeper,
          constructed_keeps system after object valid constructed keeper handle keeps⟩
      · exact .inr once
    · -- The one handle above the old ones is the handle of the new object.
      rw [constructed.created, construct] at below
      cases valid with
      | false => exact absurd below old
      | true =>
          have same : handle = system.created := by simp only [if_true] at below; omega
          subst same
          refine .inl ⟨holds.unused _ (Nat.le_refl _), object, ?_, mine⟩
          rw [constructed.made]
          exact Function.update_self ..
  case unclosed =>
    intro session handle keeps
    rw [closed]
    rcases origin _ handle keeps with old | ⟨_, _, same⟩
    · exact holds.unclosed session handle old
    · exact same ▸ holds.unused _ (Nat.le_refl _)
  case single =>
    intro left right handle first second
    rcases origin _ handle first with old | ⟨atObject, _, same⟩
    · rcases origin _ handle second with older | ⟨_, _, same⟩
      · exact holds.single left right handle old older
      · exact absurd (holds.issued _ handle old.2) (by omega)
    · rcases origin _ handle second with older | ⟨here, _, _⟩
      · exact absurd (holds.issued _ handle older.2) (by omega)
      · exact Object.session.inj (atObject.trans here.symm)
  case issued =>
    intro keeper handle stored
    by_cases same : keeper = object
    · subst same
      rw [mine] at stored
      cases valid with
      | true =>
          rw [constructed.created, construct, ← Option.some.inj stored]
          exact Nat.lt_succ_self _
      | false => cases stored
    · rw [(constructed_other system after object valid constructed keeper same).2] at stored
      exact Nat.lt_of_lt_of_le (holds.issued keeper handle stored)
        (constructed_grown system after object valid constructed)
  case unused =>
    intro handle above
    rw [closed]
    exact holds.unused handle
      (Nat.le_trans (constructed_grown system after object valid constructed) above)
  case unborn => exact unborn

end Construct

/-- `_set_socket` puts the connector's handle in the place of the session's own. -/
theorem take_over_invariant (before after : System) (holds : Invariant before)
    (session handle : Nat) (spare : Dispensable before (.session session))
    (unclosed : before.closed handle = 0) (free : ∀ other, ¬ Keeps before (.session other) handle)
    (connector : Nat) (source : before.socket (.connector connector) = some handle)
    (created : after.created = before.created) (closed : after.closed = before.closed)
    (sessions : after.sessions = before.sessions)
    (connectors : after.connectors = before.connectors) (alive : after.alive = before.alive)
    (socket : after.socket = Function.update before.socket (.session session) (some handle)) :
    Invariant after := by
  have others : ∀ other value, other ≠ .session session →
      (Keeps after other value ↔ Keeps before other value) := by
    intro other value different
    simp only [Keeps, alive, socket, Function.update_of_ne different]
  have mine : ∀ value, Keeps after (.session session) value → value = handle := by
    intro value kept
    have stored := kept.2
    rw [socket, Function.update_self] at stored
    exact (Option.some.inj stored).symm
  constructor
  case conserved =>
    intro value below
    rw [created] at below
    rw [closed]
    rcases holds.conserved value below with ⟨zero, stored⟩ | once
    · refine .inl ⟨zero, stored_without before after (.session session) value ?_ spare zero stored⟩
      exact fun other different => (others other value different).mpr
    · exact .inr once
  case unclosed =>
    intro other value kept
    rw [closed]
    by_cases same : other = session
    · rw [same] at kept
      rw [mine value kept]
      exact unclosed
    · exact holds.unclosed other value
        ((others _ value fun equal => same (Object.session.inj equal)).mp kept)
  case single =>
    have alone : ∀ other value, other ≠ session → Keeps after (.session session) value →
        ¬ Keeps after (.session other) value := by
      intro other value different kept theirs
      rw [mine value kept] at theirs
      exact free other
        ((others _ handle fun equal => different (Object.session.inj equal)).mp theirs)
    intro left right value first second
    by_cases atLeft : left = session
    · by_contra different
      exact alone right value (fun same => different (atLeft.trans same.symm))
        (atLeft ▸ first) second
    · by_cases atRight : right = session
      · exact absurd first (alone left value atLeft (atRight ▸ second))
      · exact holds.single left right value
          ((others _ value fun equal => atLeft (Object.session.inj equal)).mp first)
          ((others _ value fun equal => atRight (Object.session.inj equal)).mp second)
  case issued =>
    intro other value stored
    rw [created]
    by_cases same : other = .session session
    · rw [socket, same, Function.update_self] at stored
      exact Option.some.inj stored ▸ holds.issued _ handle source
    · rw [socket, Function.update_of_ne same] at stored
      exact holds.issued other value stored
  case unused =>
    rw [created, closed]
    exact holds.unused
  case unborn =>
    rw [sessions, connectors, alive]
    exact holds.unborn

theorem close_invariant (system : System) (holds : Invariant system) (session : Nat)
    (born : system.alive (.session session) = true) :
    Invariant (close system (.session session)) := by
  cases own : system.socket (.session session) with
  | none =>
      simp only [close, own]
      exact holds
  | some handle =>
      have mine : Keeps system (.session session) handle := ⟨born, own⟩
      have unclosed := holds.unclosed session handle mine
      simp only [close, own, unclosed, Nat.zero_add]
      have keeps := keeps_forgotten system
        { system with
          closed := Function.update system.closed handle 1
          socket := Function.update system.socket (.session session) none }
        (.session session) rfl rfl
      constructor
      case conserved =>
        intro value below
        by_cases same : value = handle
        · right
          simp only [same, Function.update_self]
        · simp only [Function.update_of_ne same]
          rcases holds.conserved value below with ⟨zero, keeper, kept⟩ | once
          · refine .inl ⟨zero, keeper, (keeps keeper value).mpr ⟨?_, kept⟩⟩
            rintro rfl
            exact same (Option.some.inj (kept.2.symm.trans own))
          · exact .inr once
      case unclosed =>
        intro other value kept
        obtain ⟨different, old⟩ := (keeps _ value).mp kept
        have another : value ≠ handle := by
          rintro rfl
          exact different (congrArg Object.session (holds.single other session value old mine))
        simp only [Function.update_of_ne another]
        exact holds.unclosed other value old
      case single =>
        intro left right value first second
        exact holds.single left right value ((keeps _ value).mp first).2
          ((keeps _ value).mp second).2
      case issued =>
        intro other value stored
        exact holds.issued other value (socket_forgotten system _ other value stored)
      case unused =>
        intro value above
        have another : value ≠ handle := by
          rintro rfl
          exact absurd (holds.issued _ value own) (Nat.not_lt.mpr above)
        simp only [Function.update_of_ne another]
        exact holds.unused value above
      case unborn => exact holds.unborn

theorem destroy_session_invariant (system : System) (holds : Invariant system) (session : Nat)
    (born : system.alive (.session session) = true) :
    Invariant { close system (.session session) with
      alive := Function.update system.alive (.session session) false } := by
  have same : (close system (.session session)).alive = system.alive := by
    unfold close
    split <;> rfl
  rw [← same]
  apply die_invariant _ (close_invariant system holds session born)
  intro handle stored
  have none : (close system (.session session)).socket (.session session) = none := by
    cases own : system.socket (.session session) with
    | none => simp only [close, own]
    | some handle => simp only [close, own, Function.update_self]
  rw [none] at stored
  cases stored

theorem construct_alive_other (system : System) (object other : Object) (valid : Bool)
    (different : other ≠ object) :
    (construct system object valid).alive other = system.alive other :=
  Function.update_of_ne different ..

theorem new_session_invariant (system : System) (holds : Invariant system) (valid : Bool) :
    Invariant (newSession system valid) := by
  have dead := (holds.unborn system.sessions).1 (Nat.le_refl _)
  refine construct_invariant system _ (.session system.sessions) valid
    ⟨dead, rfl, rfl, rfl, rfl⟩ holds ?_
  intro number
  have unborn := holds.unborn number
  constructor
  · intro above
    have later : system.sessions < number := above
    have different : Object.session number ≠ .session system.sessions :=
      fun equal => Nat.ne_of_gt later (Object.session.inj equal)
    exact (construct_alive_other system _ _ valid different).trans (unborn.1 (Nat.le_of_lt later))
  · intro above
    have different : Object.connector number ≠ .session system.sessions :=
      fun equal => by cases equal
    exact (construct_alive_other system _ _ valid different).trans (unborn.2 above)

theorem new_connector_invariant (system : System) (holds : Invariant system) (valid : Bool) :
    Invariant (newConnector system valid) := by
  have dead := (holds.unborn system.connectors).2 (Nat.le_refl _)
  refine construct_invariant system _ (.connector system.connectors) valid
    ⟨dead, rfl, rfl, rfl, rfl⟩ holds ?_
  intro number
  have unborn := holds.unborn number
  constructor
  · intro above
    have different : Object.session number ≠ .connector system.connectors :=
      fun equal => by cases equal
    exact (construct_alive_other system _ _ valid different).trans (unborn.1 above)
  · intro above
    have later : system.connectors < number := above
    have different : Object.connector number ≠ .connector system.connectors :=
      fun equal => Nat.ne_of_gt later (Object.connector.inj equal)
    exact (construct_alive_other system _ _ valid different).trans (unborn.2 (Nat.le_of_lt later))

theorem ledger_invariant (before after : System) (holds : Invariant before)
    (created : after.created = before.created) (closed : after.closed = before.closed)
    (sessions : after.sessions = before.sessions)
    (connectors : after.connectors = before.connectors) (alive : after.alive = before.alive)
    (socket : after.socket = before.socket) : Invariant after := by
  have keeps : ∀ object handle, Keeps after object handle ↔ Keeps before object handle := by
    intro object handle
    rw [Keeps, Keeps, alive, socket]
  constructor
  case conserved =>
    intro handle below
    rw [created] at below
    rw [closed]
    exact (holds.conserved handle below).imp_left fun kept =>
      ⟨kept.1, kept.2.imp fun object stored => (keeps object handle).mpr stored⟩
  case unclosed =>
    intro session handle kept
    rw [closed]
    exact holds.unclosed session handle ((keeps _ handle).mp kept)
  case single =>
    intro left right handle first second
    exact holds.single left right handle ((keeps _ handle).mp first) ((keeps _ handle).mp second)
  case issued => exact created ▸ socket ▸ holds.issued
  case unused => exact created ▸ closed ▸ holds.unused
  case unborn => exact sessions ▸ connectors ▸ alive ▸ holds.unborn

theorem process_connect_invariant (kind : ServiceType) (before after : System)
    (holds : Invariant before) (connector : Nat)
    (taken : step kind before (.processConnect connector) = some after)
    (allowed : careful kind before (.processConnect connector) after) : Invariant after := by
  unfold step at taken
  simp only at taken
  split at taken
  case h_2 => cases taken
  case h_1 session found =>
    simp only [Option.ite_none_right_eq_some, Option.some.injEq] at taken
    obtain ⟨_, rfl⟩ := taken
    cases source : before.socket (.connector connector) with
    | none =>
        exact ledger_invariant before _ holds rfl rfl rfl rfl rfl rfl
    | some handle =>
        by_cases client : kind = .client
        · obtain ⟨spare, unclosed, free⟩ := allowed session handle found source client
          have moved : setConnected kind before session (some handle) =
              { before with
                socket := Function.update before.socket (.session session) (some handle) } := by
            simp only [setConnected, setSocket, client, if_true]
          rw [moved]
          exact take_over_invariant before _ holds session handle spare unclosed free connector
            source rfl rfl rfl rfl rfl rfl
        · have refused : setConnected kind before session (some handle) = before := by
            simp only [setConnected, setSocket, client, if_false]
          rw [refused]
          exact ledger_invariant before _ holds rfl rfl rfl rfl rfl rfl

theorem step_invariant (kind : ServiceType) (before after : System) (label : Label)
    (holds : Invariant before) (taken : step kind before label = some after)
    (allowed : careful kind before label after) :
    Invariant after := by
  cases label with
  | newSession valid =>
      cases taken
      exact new_session_invariant before holds valid
  | newConnector valid =>
      simp only [step, Option.ite_none_right_eq_some, Option.some.injEq] at taken
      obtain ⟨_, rfl⟩ := taken
      exact new_connector_invariant before holds valid
  | connect connector succeeds =>
      simp only [step, Option.ite_none_right_eq_some] at taken
      obtain ⟨_, taken⟩ := taken
      split at taken <;> cases taken
      · exact ledger_invariant before _ holds rfl rfl rfl rfl rfl rfl
      · exact holds
  | dispatchConnect connector valid =>
      simp only [step, Option.ite_none_right_eq_some, Option.some.injEq] at taken
      obtain ⟨_, rfl⟩ := taken
      exact ledger_invariant (newSession before valid) _ (new_session_invariant before holds valid)
        rfl rfl rfl rfl rfl rfl
  | processConnect connector =>
      exact process_connect_invariant kind before after holds connector taken allowed
  | processAccept session =>
      simp only [step, setConnected, Option.ite_none_right_eq_some, Option.some.injEq] at taken
      exact taken.2 ▸ holds
  | clear session =>
      simp only [step, Option.ite_none_right_eq_some, Option.some.injEq] at taken
      obtain ⟨_, rfl⟩ := taken
      exact forget_invariant before holds (.session session) allowed
  | destroySession session =>
      simp only [step, Option.ite_none_right_eq_some, Option.some.injEq] at taken
      obtain ⟨born, rfl⟩ := taken
      exact destroy_session_invariant before holds session born
  | destroyConnector connector =>
      simp only [step, Option.ite_none_right_eq_some, Option.some.injEq] at taken
      obtain ⟨_, rfl⟩ := taken
      exact die_invariant before holds (.connector connector) allowed

/-- In a run that loses no handle on the way, every handle is stored in a live session or
connector and open, or has been closed once. -/
theorem handles_conserved (kind : ServiceType) (system : System)
    (reached : Reachable (step kind) (careful kind) System.start system) (handle : Nat)
    (issued : handle < system.created) :
    (system.closed handle = 0 ∧ Stored system handle) ∨ system.closed handle = 1 :=
  (reachable_invariant (step kind) (careful kind) Invariant System.start start_invariant
    (fun before label after =>
      step_invariant kind before after label) system reached).conserved handle issued

def plainLabel : Label → Bool
  | .processConnect _ => false
  | .clear _ => false
  | .destroyConnector _ => false
  | _ => true

theorem plain_careful (kind : ServiceType) (before : System) (label : Label) (after : System)
    (plain : plainLabel label = true) : careful kind before label after := by
  cases label with
  | processConnect | clear | destroyConnector => cases plain
  | _ => trivial

/-- A server accepts one session, a second one waits, and the first is destroyed. -/
theorem destroyed_session_closed : ∃ system : System,
    Reachable (step .server) (careful .server) System.start system ∧ system.created = 2 ∧
    ((system.closed 0 = 0 ∧ Stored system 0) ∨ system.closed 0 = 1) := by
  obtain ⟨system, reached, created⟩ := replay_reachable (step .server) (careful .server)
    (fun _ label _ => plainLabel label) (plain_careful .server) System.created 2
    [.newSession true, .newSession true, .processAccept 0, .destroySession 0] System.start
      (by decide)
  exact ⟨system, reached, created,
    handles_conserved .server system reached 0 (by rw [created]; decide)⟩

/-- A client connects: the handle the session was made with is overwritten, and nobody has
it any more. -/
theorem connected_session_leaks :
    ¬ ∀ system : System, Reachable (step .client) (fun _ _ _ => True) System.start system →
      ∀ handle, handle < system.created →
        (system.closed handle = 0 ∧ Stored system handle) ∨ system.closed handle = 1 := by
  intro promised
  obtain ⟨system, reached, seen⟩ :=
    replay_reachable (step .client) (fun _ _ _ => True) (fun _ _ _ => true) (fun _ _ _ _ => trivial)
    (fun system => (system.created, system.closed 1, system.socket))
    (2, 0, Function.update (Function.update (Function.update (fun _ => none) (.connector 0)
      (some 0)) (.session 0) (some 1)) (.session 0) (some 0))
    [.newConnector true, .connect 0 true, .dispatchConnect 0 true, .processConnect 0]
    System.start rfl
  simp only [Prod.mk.injEq] at seen
  obtain ⟨created, unclosed, sockets⟩ := seen
  rcases promised system reached 1 (by rw [created]; decide) with ⟨_, object, _, stored⟩ | once
  · rw [sockets] at stored
    by_cases atSession : object = .session 0
    · rw [atSession, Function.update_self] at stored
      cases stored
    · rw [Function.update_of_ne atSession, Function.update_of_ne atSession] at stored
      by_cases atConnector : object = .connector 0
      · rw [atConnector, Function.update_self] at stored
        cases stored
      · rw [Function.update_of_ne atConnector] at stored
        cases stored
  · rw [unclosed] at once
    cases once

end NetCore.SocketConservation
