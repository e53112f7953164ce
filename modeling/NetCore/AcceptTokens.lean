import NetCore.ServiceObjects
import NetCore.PendingViews
import Mathlib.Data.Multiset.Filter

/-! The accept events of a server, from its `Start` on. Each event is in one place at a
time: its `AcceptEx` is in the kernel, its completion waits for `Dispatch`, or a thread has
`RegisterAccept` or `ProcessAccept` on it still to run. The index of the event is a token
that moves between these places and is never doubled; before `StartListen` has begun, all
tokens lie with `Start`. This holds whatever the system calls answer. -/
namespace NetCore.AcceptTokens
open TransitionRuns ServiceObjects PendingViews

def index : Action → List Nat
  | .service .start => List.range maxAcceptCount
  | .service .makeListener => List.range maxAcceptCount
  | .listener _ .startListen => List.range maxAcceptCount
  | .listener _ (.registerAccept index) => [index]
  | .listener _ (.acceptEx index) => [index]
  | .listener _ (.processAccept index) => [index]
  | .dispatch (.accept _ index) _ => [index]
  | _ => []

/-- A new session and the event, of a listener, that it is about to be attached to. -/
def ref : Action → List ((Nat × Nat) × Nat)
  | .listener listener (.setSessionRef index session) => [((listener, index), session)]
  | _ => []

/-- An event with a session that an accept is to be made or has been made for. -/
def arms : Action → List (Nat × Nat)
  | .listener listener (.acceptEx index) => [(listener, index)]
  | .listener listener (.processAccept index) => [(listener, index)]
  | .dispatch (.accept listener index) _ => [(listener, index)]
  | _ => []

def readies : Action → List Nat
  | .session session .setConnected => [session]
  | _ => []

def clears : Action → List Nat
  | .session session .clearService => [session]
  | _ => []

def listenerOf : Action → Option Nat
  | .listener _ (.setSessionRef _ _) => none
  | .listener listener _ => some listener
  | .dispatch (.accept listener _) _ => some listener
  | _ => none

/-- The calls that a running server has still to make, `Start` and `SetSessionRef` apart. -/
def plain : Action → Bool
  | .service (.setOnGoing _) => true
  | .service _ => false
  | .listener _ .startListen => false
  | .listener _ (.setSessionRef _ _) => false
  | .listener _ _ => true
  | .connector _ _ => false
  | .session _ _ => true
  | .dispatch (.connect _) _ => false
  | .dispatch _ _ => true
  | .drop _ => true

/-- What a thread can have to do: one of the stages of `Start`, the attachment of a new
session, or plain calls. -/
inductive Shape : List Action → Prop where
  | start : Shape [.service .start]
  | makeListener : Shape [.service .makeListener]
  | startListen (listener : Nat) :
      Shape [.listener listener .startListen, .service (.setOnGoing true)]
  | attaching (listener index session : Nat) (rest : List Action)
      (calm : ∀ action ∈ rest, plain action = true) :
      Shape (.listener listener (.setSessionRef index session) :: .listener listener
        (.acceptEx index) :: rest)
  | calm (actions : List Action) (calm : ∀ action ∈ actions, plain action = true) : Shape actions

def acceptOf : Operation → Option (Nat × Nat)
  | .accept listener index => some (listener, index)
  | _ => none

variable {Thread : Type}

def kernelAccepts (system : System Thread) : Multiset (Nat × Nat) :=
  system.outstanding.filterMap acceptOf

theorem mem_kernelAccepts (system : System Thread) (listener index : Nat) :
    (listener, index) ∈ kernelAccepts system ↔ .accept listener index ∈ system.outstanding := by
  rw [kernelAccepts, Multiset.mem_filterMap]
  constructor
  · rintro ⟨operation, member, accept⟩
    cases operation with
    | accept =>
        cases accept
        exact member
    | _ => cases accept
  · intro member
    exact ⟨_, member, rfl⟩

def getSessionRef (system : System Thread) (listener index : Nat) : Option Nat :=
  (system.acceptEvents.find? fun event => event.listener = listener ∧ event.index = index).map
    AcceptEvent.session

structure Same (old new : List Action) : Prop where
  indices : (new.flatMap index).Sublist (old.flatMap index)
  refs : new.flatMap ref = old.flatMap ref
  arms : new.flatMap arms = old.flatMap arms
  readies : new.flatMap readies = old.flatMap readies
  clears : new.flatMap clears = old.flatMap clears

structure Unmoved (before changed : System Thread) : Prop where
  listener : changed.listener = before.listener
  sessions : changed.sessions = before.sessions
  events : changed.acceptEvents = before.acceptEvents
  served : changed.served = before.served
  created : changed.created = before.created
  accepts : kernelAccepts changed = kernelAccepts before
  connects : ∀ connector, .connect connector ∈ changed.outstanding →
    .connect connector ∈ before.outstanding

theorem flags_unmoved (system : System Thread) (onGoing : Bool) (connected : Nat → Bool)
    (nullLocked crashed : Bool) :
    Unmoved system { system with
      onGoing := onGoing
      connected := connected
      nullLocked := nullLocked
      crashed := crashed } :=
  ⟨rfl, rfl, rfl, rfl, rfl, rfl, fun _ => id⟩

theorem unmoved_refl (system : System Thread) : Unmoved system system :=
  flags_unmoved system _ _ _ _

theorem submit_todo (system : System Thread) (answer : Bool) (operation : Operation) :
    (submit system answer operation).todo = system.todo := by
  unfold submit
  split
  · rfl
  · rfl

theorem submit_unmoved (system : System Thread) (answer : Bool) (operation : Operation)
    (other : acceptOf operation = none) (connects : ∀ connector, operation ≠ .connect connector) :
    Unmoved system (submit system answer operation) := by
  unfold submit
  split
  case isTrue =>
    refine ⟨rfl, rfl, rfl, rfl, rfl, ?_, ?_⟩
    · exact Multiset.filterMap_cons_none _ _ other
    · intro connector member
      rcases Multiset.mem_cons.mp member with same | old
      · exact absurd same.symm (connects connector)
      · exact old
  case isFalse => exact unmoved_refl system

def tokens [Fintype Thread] (system : System Thread) : Multiset Nat :=
  (kernelAccepts system).map Prod.snd + gather index system.todo

variable [DecidableEq Thread]

structure Quiet (before after : System Thread) (thread : Thread) (new : List Action) : Prop where
  todo : after.todo = Function.update before.todo thread new
  unmoved : Unmoved before after
  same : Same (before.todo thread) new
  shaped : Shape new
  owners : ∀ action ∈ new, ∀ listener, listenerOf action = some listener →
    ∃ old ∈ before.todo thread, listenerOf old = some listener

/-- What a step of a server run can do; `fails` is whether the step refuses or drops an accept. -/
inductive Move (before : System Thread) (fails : Bool) : System Thread → Prop where
  | quiet (thread : Thread) (new : List Action) (after : System Thread)
      (quiet : Quiet before after thread new) : Move before fails after
  | opened (thread : Thread) (stands : before.todo thread = [.service .makeListener]) :
      Move before fails (give { before with
          created := before.created + 1
          listener := some before.created } thread
        [.listener before.created .startListen, .service (.setOnGoing true)])
  | registered (thread : Thread) (listener index : Nat) (rest : List Action)
      (stands : before.todo thread = .listener listener (.registerAccept index) :: rest)
      (calm : ∀ action ∈ rest, plain action = true) :
      Move before fails (give { before with
          created := before.created + 1
          sessions := before.created :: before.sessions } thread
        (.listener listener (.setSessionRef index before.created) :: .listener listener
          (.acceptEx index) ::
          .drop before.created :: rest))
  | attached (thread : Thread) (listener index session : Nat) (rest : List Action)
      (stands : before.todo thread = .listener listener (.setSessionRef index session) ::
        .listener listener (.acceptEx index) :: rest)
      (calm : ∀ action ∈ rest, plain action = true) :
      Move before fails (give { before with
          acceptEvents := ⟨listener, index, session⟩ :: before.acceptEvents.filter
            (fun event => event.listener ≠ listener ∨ event.index ≠ index) } thread
        (.listener listener (.acceptEx index) :: rest))
  | armed (thread : Thread) (listener index : Nat) (rest : List Action)
      (stands : before.todo thread = .listener listener (.acceptEx index) :: rest)
      (calm : ∀ action ∈ rest, plain action = true) :
      Move before fails (give { before with
        outstanding := .accept listener index ::ₘ before.outstanding } thread rest)
  | rejected (thread : Thread) (listener index : Nat) (rest : List Action)
      (stands : before.todo thread = .listener listener (.acceptEx index) :: rest)
      (calm : ∀ action ∈ rest, plain action = true) (failed : fails = true) :
      Move before fails (give before thread (.listener listener (.registerAccept index) :: rest))
  | processed (thread : Thread) (listener index session : Nat) (rest : List Action)
      (stands : before.todo thread = .listener listener (.processAccept index) :: rest)
      (calm : ∀ action ∈ rest, plain action = true)
      (found : getSessionRef before listener index = some session) :
      Move before fails (give before thread (.session session .setConnected ::
        .listener listener (.registerAccept index) :: .drop session :: rest))
  | abandoned (thread : Thread) (listener index session : Nat) (rest : List Action)
      (stands : before.todo thread = .listener listener (.processAccept index) :: rest)
      (calm : ∀ action ∈ rest, plain action = true)
      (found : getSessionRef before listener index = some session) (failed : fails = true) :
      Move before fails (give before thread
        (.listener listener (.registerAccept index) :: .drop session :: rest))
  | unattached (thread : Thread) (listener index : Nat) (rest : List Action)
      (stands : before.todo thread = .listener listener (.processAccept index) :: rest)
      (calm : ∀ action ∈ rest, plain action = true)
      (found : getSessionRef before listener index = none) :
      Move before fails (give { before with crashed := true } thread rest)
  | connected (thread : Thread) (session : Nat) (rest : List Action)
      (stands : before.todo thread = .session session .setConnected :: rest)
      (calm : ∀ action ∈ rest, plain action = true) :
      Move before fails (give { before with
          connected := Function.update before.connected session true
          served := Function.update before.served session true } thread
        (.session session .registerRecv :: rest))
  | released (thread : Thread) (session : Nat) (rest : List Action)
      (stands : before.todo thread = .session session .releaseSession :: rest)
      (calm : ∀ action ∈ rest, plain action = true) (served : before.served session = true) :
      Move before fails (give { before with sessions := before.sessions.erase session } thread
        (.session session .clearService :: rest))
  | cleared (thread : Thread) (session : Nat) (rest : List Action)
      (stands : before.todo thread = .session session .clearService :: rest)
      (calm : ∀ action ∈ rest, plain action = true) :
      Move before fails
        (give { before with served := Function.update before.served session false } thread
          (.session session .clearConnected :: rest))
  | dequeued (thread : Thread) (entries : List (Operation × Nat)) (idle : before.todo thread = [])
      (there : Multiset.ofList (entries.map Prod.fst) ≤ before.outstanding) :
      Move before fails
          { give before thread (entries.map fun entry => .dispatch entry.1 entry.2) with
        outstanding := before.outstanding - Multiset.ofList (entries.map Prod.fst) }
  | discarded (operation : Operation) (there : operation ∈ before.outstanding)
      (failed : ∀ accept, acceptOf operation = some accept → fails = true) :
      Move before fails { before with outstanding := before.outstanding.erase operation }

structure Silent (action : Action) : Prop where
  index : index action = []
  ref : ref action = []
  arms : arms action = []
  readies : readies action = []
  clears : clears action = []
  listener : listenerOf action = none

theorem same_silent (action : Action) (news rest : List Action) (silent : Silent action)
    (all : ∀ new ∈ news, Silent new) : Same (action :: rest) (news ++ rest) := by
  have views : ∀ {Item : Type} (view : Action → List Item), (∀ new ∈ news, view new = []) →
      view action = [] → (news ++ rest).flatMap view = (action :: rest).flatMap view := by
    intro Item view none own
    rw [List.flatMap_append, List.flatMap_cons, own, List.flatMap_eq_nil_iff.mpr none]
  refine ⟨?_, views ref (fun new member => (all new member).ref) silent.ref,
    views arms (fun new member => (all new member).arms) silent.arms,
    views readies (fun new member => (all new member).readies) silent.readies,
    views clears (fun new member => (all new member).clears) silent.clears⟩
  rw [views index (fun new member => (all new member).index) silent.index]

variable {fails : Bool}

theorem quiet_move (before changed : System Thread) (thread : Thread) (new : List Action)
    (todo : changed.todo = before.todo) (unmoved : Unmoved before changed)
    (same : Same (before.todo thread) new) (shaped : Shape new)
    (owners : ∀ action ∈ new, ∀ listener, listenerOf action = some listener →
      ∃ old ∈ before.todo thread, listenerOf old = some listener) :
    Move before fails (give changed thread new) :=
  .quiet thread new _ ⟨congrArg (Function.update · thread _) todo,
    ⟨unmoved.listener, unmoved.sessions, unmoved.events, unmoved.served,
      unmoved.created, unmoved.accepts,
      unmoved.connects⟩, same, shaped, owners⟩

theorem silent_move (before changed : System Thread) (thread : Thread) (action : Action)
    (news rest : List Action) (stands : before.todo thread = action :: rest)
    (todo : changed.todo = before.todo) (unmoved : Unmoved before changed)
    (calm : ∀ later ∈ rest, plain later = true) (silent : Silent action)
    (all : ∀ new ∈ news, Silent new ∧ plain new = true) :
    Move before fails (give changed thread (news ++ rest)) := by
  refine quiet_move before changed thread (news ++ rest) todo unmoved ?_ ?_ ?_
  · rw [stands]
    exact same_silent action news rest silent fun new member => (all new member).1
  · refine .calm _ ?_
    intro later member
    rcases List.mem_append.mp member with new | old
    · exact (all later new).2
    · exact calm later old
  · intro later member listener owner
    rcases List.mem_append.mp member with new | old
    · rw [(all later new).1.listener] at owner
      cases owner
    · exact ⟨later, by rw [stands]; exact List.mem_cons_of_mem _ old, owner⟩

def silentCall : SessionCall → Bool
  | .setConnected => false
  | .clearService => false
  | _ => true

theorem session_silent (session : Nat) (call : SessionCall) (quiet : silentCall call = true) :
    Silent (.session session call) := by
  cases call with
  | setConnected | clearService => cases quiet
  | _ => exact ⟨rfl, rfl, rfl, rfl, rfl, rfl⟩

theorem drop_silent (object : Nat) : Silent (.drop object) := ⟨rfl, rfl, rfl, rfl, rfl, rfl⟩

theorem set_on_going_silent (value : Bool) : Silent (.service (.setOnGoing value)) :=
  ⟨rfl, rfl, rfl, rfl, rfl, rfl⟩

theorem dispatch_silent (operation : Operation) (bytes : Nat) (other : acceptOf operation = none) :
    Silent (.dispatch operation bytes) := by
  cases operation with
  | accept => cases other
  | connect | recv | send | disconnect => exact ⟨rfl, rfl, rfl, rfl, rfl, rfl⟩

theorem session_silent_move (before changed : System Thread) (thread : Thread) (session : Nat)
    (call : SessionCall) (nexts : List SessionCall) (rest : List Action)
    (stands : before.todo thread = .session session call :: rest)
    (todo : changed.todo = before.todo) (unmoved : Unmoved before changed)
    (calm : ∀ later ∈ rest, plain later = true) (quiet : silentCall call = true)
    (quiets : ∀ next ∈ nexts, silentCall next = true) :
    Move before fails (give changed thread (nexts.map (.session session) ++ rest)) := by
  refine silent_move before changed thread _ _ rest stands todo unmoved calm
    (session_silent session call quiet) ?_
  intro new member
  obtain ⟨next, chosen, rfl⟩ := List.mem_map.mp member
  exact ⟨session_silent session next (quiets next chosen), rfl⟩

variable [Fintype Thread]

structure Flow (system : System Thread) : Prop where
  shaped : ∀ thread, Shape (system.todo thread)
  unique : (tokens system).Nodup
  bounded : ∀ index ∈ tokens system, index < maxAcceptCount
  owned : ∀ thread, ∀ action ∈ system.todo thread, ∀ listener, listenerOf action = some listener →
    system.listener = some listener
  kernel : ∀ listener index, .accept listener index ∈ system.outstanding →
    system.listener = some listener
  server : ∀ connector, .connect connector ∉ system.outstanding

def registering : List Action → Bool
  | .listener _ (.registerAccept _) :: _ => true
  | _ => false

/-- From `Start` on: it is not called again, `Stop` is not called and every handle can be
registered. -/
def fromStart (before : System Thread) : Label Thread → Bool
  | .start _ => false
  | .stop _ => false
  | .advance thread answer => answer || !registering (before.todo thread)
  | _ => true

def accepting : List Action → Bool
  | .listener _ (.acceptEx _) :: _ => true
  | .listener _ (.processAccept _) :: _ => true
  | _ => false

/-- `AcceptEx` or the `SetUpdateAcceptSocket` of `ProcessAccept` fails, or
`ProcessQueuedCompletionStatus` drops the completion of a failed accept. -/
def acceptFails (before : System Thread) : Label Thread → Bool
  | .advance thread answer => !answer && accepting (before.todo thread)
  | .discard (.accept _ _) => true
  | _ => false

section Moves
variable (config : Config) (before : System Thread) (answer : Bool) (thread : Thread)
  (rest : List Action)

omit [Fintype Thread] in
theorem session_move (session : Nat) (call : SessionCall) (server : config.kind = .server)
    (stands : before.todo thread = .session session call :: rest)
    (calm : ∀ later ∈ rest, plain later = true) :
    Move before fails (give (performSession config before answer rest session call).1 thread
      (performSession config before answer rest session call).2) := by
  have goes : ∀ next, silentCall call = true → silentCall next = true →
      Move before fails (give before thread (.session session next :: rest)) :=
    fun next quiet quiets => session_silent_move before before thread session call [next] rest
      stands rfl (unmoved_refl before) calm quiet (by simpa using quiets)
  have ends : ∀ changed : System Thread, silentCall call = true → changed.todo = before.todo →
      Unmoved before changed → Move before fails (give changed thread rest) :=
    fun changed quiet todo unmoved => session_silent_move before changed thread session call []
      rest stands todo unmoved calm quiet (by simp)
  cases call with
  | setConnected => exact .connected thread session rest stands calm
  | clearService => exact .cleared thread session rest stands calm
  | registerRecv | registerSend | onRecv | processRecv =>
      refine goes _ rfl ?_
      split
      · rfl
      · rfl
  | wsaRecv | wsaSend | disconnectEx =>
      exact ends _ rfl (submit_todo before answer _)
        (submit_unmoved before answer _ rfl (fun _ => Operation.noConfusion))
  | processSend | stopTest | disconnectTest =>
      simp only [performSession]
      split
      · exact goes _ rfl rfl
      · exact ends _ rfl rfl (unmoved_refl before)
  | exchange =>
      have unmoved : Unmoved before
          { before with connected := Function.update before.connected session false } :=
        flags_unmoved before _ _ _ _
      simp only [performSession]
      split
      · exact session_silent_move before _ thread session .exchange
          [.disconnectEx] rest stands rfl unmoved calm
          rfl (by decide)
      · exact ends _ rfl rfl unmoved
  | releaseSession =>
      simp only [performSession, releaseSession, server]
      split
      case isTrue served => exact .released thread session rest stands calm served
      case isFalse => exact ends _ rfl rfl (flags_unmoved before _ _ _ _)
  | clearConnected => exact ends _ rfl rfl (flags_unmoved before _ _ _ _)

omit [Fintype Thread] in
theorem listener_move (listener : Nat) (call : ListenerCall) (server : config.kind = .server)
    (stands : before.todo thread = .listener listener call :: rest)
    (calm : ∀ later ∈ rest, plain later = true) (own : plain (.listener listener call) = true)
    (registers : answer || !registering (before.todo thread))
    (failed : answer = false → accepting (before.todo thread) = true → fails = true) :
    Move before fails (give (performListener config before answer rest listener call).1 thread
      (performListener config before answer rest listener call).2) := by
  cases call with
  | startListen | setSessionRef => cases own
  | registerAccept index =>
      have yes : answer = true := by simpa [stands, registering] using registers
      simp only [performListener, yes, if_true, addNewSession, server]
      exact .registered thread listener index rest stands calm
  | acceptEx index =>
      simp only [performListener]
      split
      · exact .armed thread listener index rest stands calm
      case isFalse refused =>
        exact .rejected thread listener index rest stands calm
          (failed (Bool.eq_false_of_not_eq_true refused) (by rw [stands]; rfl))
  | processAccept index =>
      have found : getSessionRef before listener index = (before.acceptEvents.find?
        fun event => event.listener = listener ∧ event.index = index).map AcceptEvent.session := rfl
      simp only [performListener]
      cases search : before.acceptEvents.find? fun event => event.listener = listener ∧
        event.index = index with
      | none =>
          rw [search] at found
          exact .unattached thread listener index rest stands calm found
      | some event =>
          rw [search] at found
          cases answer with
          | true => exact .processed thread listener index event.session rest stands calm found
          | false =>
              exact .abandoned thread listener index event.session rest stands calm found
                (failed rfl (by rw [stands]; rfl))

omit [DecidableEq Thread] in
theorem listener_referenced (flow : Flow before) (listener : Nat) (action : Action)
    (member : action ∈ before.todo thread) (owner : listenerOf action = some listener) :
    Referenced before listener :=
  Or.inl (Or.inl (flow.owned thread action member listener owner))

theorem dispatch_move (flow : Flow before) (operation : Operation) (numberOfBytesTransferred : Nat)
    (stands : before.todo thread = .dispatch operation numberOfBytesTransferred :: rest)
    (calm : ∀ later ∈ rest, plain later = true)
    (own : plain (.dispatch operation numberOfBytesTransferred) = true) :
    Move before fails (give
      (perform config before answer rest (.dispatch operation numberOfBytesTransferred)).1 thread
      (perform config before answer rest (.dispatch operation numberOfBytesTransferred)).2) := by
  have member : .dispatch operation numberOfBytesTransferred ∈ before.todo thread := by
    rw [stands]
    exact List.mem_cons_self
  cases operation with
  | connect connector => cases own
  | accept listener index =>
      have alive : Referenced before (Operation.accept listener index).owner :=
        listener_referenced before thread flow listener _ member rfl
      simp only [perform, if_pos alive]
      refine quiet_move before before thread _ rfl (unmoved_refl before) ?_ ?_ ?_
      · rw [stands]
        exact ⟨List.Sublist.refl _, rfl, rfl, rfl, rfl⟩
      · refine .calm _ (List.forall_mem_cons.mpr ⟨rfl, List.forall_mem_cons.mpr ⟨rfl, calm⟩⟩)
      · intro action inside owner holds
        rcases List.mem_cons.mp inside with rfl | inside
        · exact ⟨_, member, holds⟩
        rcases List.mem_cons.mp inside with rfl | inside
        · cases holds
        · exact ⟨action, by rw [stands]; exact List.mem_cons_of_mem _ inside, holds⟩
  | recv session | send session | disconnect session =>
      simp only [perform]
      split
      · refine silent_move before before thread _ [_, _] rest stands rfl (unmoved_refl before) calm
          (dispatch_silent _ _ rfl) ?_
        refine List.forall_mem_cons.mpr ⟨⟨session_silent session _ rfl, rfl⟩,
          List.forall_mem_singleton.mpr ?_⟩
        exact ⟨drop_silent session, rfl⟩
      · exact silent_move before _ thread _ [] rest stands rfl (flags_unmoved before _ _ _ _) calm
          (dispatch_silent _ _ rfl) (by simp)

theorem calm_move (flow : Flow before) (action : Action) (server : config.kind = .server)
    (stands : before.todo thread = action :: rest) (own : plain action = true)
    (calm : ∀ later ∈ rest, plain later = true)
    (registers : answer || !registering (before.todo thread))
    (failed : answer = false → accepting (before.todo thread) = true → fails = true) :
    Move before fails (give (perform config before answer rest action).1 thread
      (perform config before answer rest action).2) := by
  have silently : ∀ changed : System Thread, Silent action → changed.todo = before.todo →
      Unmoved before changed → Move before fails (give changed thread rest) := by
    intro changed silent todo unmoved
    exact silent_move before changed thread action [] rest stands todo unmoved calm silent (by simp)
  cases action with
  | service call =>
      cases call with
      | setOnGoing value =>
          exact silently _ (set_on_going_silent value) rfl (flags_unmoved before _ _ _ _)
      | _ => cases own
  | listener listener call =>
      exact listener_move config before answer thread rest listener call server stands calm
        own registers failed
  | connector connector call => cases own
  | session session call =>
      exact session_move config before answer thread rest session call server stands calm
  | dispatch operation bytes =>
      exact dispatch_move config before answer thread rest flow operation bytes stands calm own
  | drop object => exact silently _ (drop_silent object) rfl (unmoved_refl before)

omit [Fintype Thread] in
/-- The stages of `Start`. Only `StartListen` hands its events on, one call of `RegisterAccept` for
each. -/
theorem service_move (call : ServiceCall) (server : config.kind = .server)
    (stands : before.todo thread = [.service call]) (stage : call = .start ∨ call = .makeListener) :
    Move before fails (give (performService config before [] call).1 thread
      (performService config before [] call).2) := by
  rcases stage with rfl | rfl
  · simp only [performService, server]
    split
    · refine quiet_move before before thread _ rfl (unmoved_refl before) ?_
        (.calm [] (by simp)) (by simp)
      rw [stands]
      exact ⟨List.nil_sublist _, rfl, rfl, rfl, rfl⟩
    · refine quiet_move before before thread _ rfl (unmoved_refl before) ?_ .makeListener ?_
      · rw [stands]
        exact ⟨List.Sublist.refl _, rfl, rfl, rfl, rfl⟩
      · intro action member owner holds
        rw [List.mem_singleton.mp member] at holds
        cases holds
  · exact .opened thread stands

omit [Fintype Thread] in
theorem start_listen_move (listener : Nat)
    (stands : before.todo thread = [.listener listener .startListen, .service (.setOnGoing true)]) :
    Move before fails (give
      (performListener config before answer [.service (.setOnGoing true)] listener
        .startListen).1 thread
      (performListener config before answer [.service (.setOnGoing true)] listener
        .startListen).2) := by
  have views : ∀ {Item : Type} (view : Action → List Item),
      (∀ index, view (.listener listener (.registerAccept index)) = []) →
      ((List.range maxAcceptCount).map
        (.listener listener <| .registerAccept ·)).flatMap view = [] := by
    intro Item view none
    simp [List.flatMap_map, none]
  simp only [performListener]
  split
  · refine quiet_move before before thread _ rfl (unmoved_refl before) ?_ ?_ ?_
    · rw [stands]
      constructor
      · simp [List.flatMap_map, index]
      all_goals
        rw [List.flatMap_append, views _ fun _ => rfl]
        rfl
    · refine .calm _ ?_
      intro action member
      rcases List.mem_append.mp member with new | old
      · obtain ⟨index, _, rfl⟩ := List.mem_map.mp new
        rfl
      · rw [List.mem_singleton.mp old]
        rfl
    · intro action member owner holds
      refine ⟨.listener listener .startListen, by rw [stands]; exact List.mem_cons_self, ?_⟩
      rcases List.mem_append.mp member with new | old
      · obtain ⟨index, _, rfl⟩ := List.mem_map.mp new
        exact holds
      · rw [List.mem_singleton.mp old] at holds
        cases holds
  · -- `StartListen` has failed, and nothing is left of `Start`.
    have nothing : unwind [.service (.setOnGoing true)] = [] := rfl
    rw [nothing]
    refine quiet_move before before thread _ rfl (unmoved_refl before) ?_
      (.calm [] (by simp)) (by simp)
    rw [stands]
    exact ⟨List.nil_sublist _, rfl, rfl, rfl, rfl⟩

end Moves

/-- The inversion of a step of a server that has been started. -/
theorem step_move (config : Config) (before after : System Thread) (label : Label Thread)
    (server : config.kind = .server) (flow : Flow before)
    (taken : step config before label = some after) (admitted : fromStart before label = true) :
    Move before (acceptFails before label) after := by
  have begins : ∀ fails thread session call, before.todo thread = [] → silentCall call = true →
      Move before fails (give before thread [.session session call]) := by
    intro fails thread session call idle quiet
    have silent := session_silent session call quiet
    refine quiet_move before before thread _ rfl (unmoved_refl before) ?_ (.calm _ ?_) ?_
    · rw [idle]
      constructor
      all_goals simp [silent.index, silent.ref, silent.arms, silent.readies, silent.clears]
    · exact List.forall_mem_singleton.mpr rfl
    · intro action member owner holds
      rw [List.mem_singleton.mp member, silent.listener] at holds
      cases holds
  simp only [step] at taken
  split at taken
  case isTrue => cases taken
  case isFalse =>
    cases label with
    | start | stop => cases admitted
    | send thread session =>
        simp only [Option.ite_none_right_eq_some, Option.some.injEq] at taken
        obtain ⟨⟨idle, _⟩, rfl⟩ := taken
        exact begins _ thread session .registerSend idle rfl
    | disconnect thread session =>
        simp only [Option.ite_none_right_eq_some, Option.some.injEq] at taken
        obtain ⟨⟨idle, _⟩, rfl⟩ := taken
        exact begins _ thread session .exchange idle rfl
    | dequeue thread entries =>
        simp only [Option.ite_none_right_eq_some, Option.some.injEq] at taken
        obtain ⟨⟨idle, _, there⟩, rfl⟩ := taken
        exact .dequeued thread entries idle there
    | discard operation =>
        simp only [Option.ite_none_right_eq_some, Option.some.injEq] at taken
        obtain ⟨there, rfl⟩ := taken
        refine .discarded operation there fun accept found => ?_
        cases operation with
        | accept => rfl
        | _ => cases found
    | advance thread answer =>
        have shape := flow.shaped thread
        simp only at taken
        generalize stands : before.todo thread = actions at taken shape
        cases shape with
        | start =>
            cases taken
            exact service_move config before thread .start server stands (Or.inl rfl)
        | makeListener =>
            cases taken
            exact service_move config before thread .makeListener server stands (Or.inr rfl)
        | startListen listener =>
            cases taken
            exact start_listen_move config before answer thread listener stands
        | attaching listener index session rest calm =>
            cases taken
            exact .attached thread listener index session rest stands calm
        | calm _ calm =>
            cases actions with
            | nil => cases taken
            | cons action rest =>
                cases taken
                exact calm_move config before answer thread rest flow action server stands
                  (calm action List.mem_cons_self)
                  (fun later member => calm later (List.mem_cons_of_mem _ member)) admitted
                  (fun refused accepts => by simp [acceptFails, refused, accepts])

theorem tokens_exchange (before after : System Thread) (thread : Thread)
    (olds news rest : List Action) (stands : before.todo thread = olds ++ rest)
    (todo : after.todo = Function.update before.todo thread (news ++ rest))
    (fewer : (kernelAccepts after).map Prod.snd + (news.flatMap index : Multiset Nat) ≤
      (kernelAccepts before).map Prod.snd + (olds.flatMap index : Multiset Nat)) :
    tokens after ≤ tokens before := by
  have exchange := gather_exchange index before.todo thread olds news rest stands
  generalize (olds.flatMap index : Multiset Nat) = old at exchange fewer
  generalize (news.flatMap index : Multiset Nat) = new at exchange fewer
  refine le_of_add_le_add_right (a := old) ?_
  calc tokens after + old
      = (kernelAccepts after).map Prod.snd + (gather index before.todo + new) := by
        rw [tokens, todo, add_assoc, exchange]
    _ = gather index before.todo + ((kernelAccepts after).map Prod.snd + new) := by
        abel
    _ ≤ gather index before.todo + ((kernelAccepts before).map Prod.snd + old) :=
        add_le_add_right fewer _
    _ = tokens before + old := by
        rw [tokens]
        abel

omit [DecidableEq Thread] [Fintype Thread] in
theorem dequeued_accepts (system : System Thread) (entries : List (Operation × Nat))
    (there : Multiset.ofList (entries.map Prod.fst) ≤ system.outstanding) :
    (system.outstanding - Multiset.ofList (entries.map Prod.fst)).filterMap acceptOf +
      ((entries.map fun entry => Action.dispatch entry.1 entry.2).flatMap arms :
        Multiset (Nat × Nat)) =
      kernelAccepts system := by
  have shown : (entries.map fun entry => Action.dispatch entry.1 entry.2).flatMap arms =
      (entries.map Prod.fst).filterMap acceptOf := by
    induction entries with
    | nil => rfl
    | cons entry rest ih =>
        have smaller : Multiset.ofList (rest.map Prod.fst) ≤ system.outstanding :=
          le_trans (Multiset.le_cons_self _ entry.1) there
        rw [List.map_cons, List.flatMap_cons, ih smaller, List.map_cons, List.filterMap_cons]
        cases entry.1 with
        | accept | connect | recv | send | disconnect => rfl
  rw [shown, kernelAccepts, ← Multiset.filterMap_coe, ← Multiset.filterMap_add,
    Multiset.sub_add_cancel there]

theorem dispatch_indices (entries : List (Operation × Nat)) :
    (entries.map fun entry => Action.dispatch entry.1 entry.2).flatMap index =
      ((entries.map fun entry => Action.dispatch entry.1 entry.2).flatMap arms).map Prod.snd := by
  induction entries with
  | nil => rfl
  | cons entry rest ih =>
      rw [List.map_cons, List.flatMap_cons, List.flatMap_cons, List.map_append, ih]
      cases entry.1 with
      | accept | connect | recv | send | disconnect => rfl

theorem move_tokens (before after : System Thread) (move : Move before fails after) :
    tokens after ≤ tokens before := by
  cases move with
  | quiet thread new _ quiet =>
      refine tokens_exchange before after thread (before.todo thread) new [] (by simp)
        (by simpa using quiet.todo) ?_
      rw [quiet.unmoved.accepts]
      exact add_le_add_right (Multiset.coe_le.mpr quiet.same.indices.subperm) _
  | opened thread stands =>
      exact tokens_exchange before _ thread [_] [_, _] [] stands rfl (le_of_eq rfl)
  | registered thread listener index rest stands =>
      exact tokens_exchange before _ thread [_] [_, _, _] rest stands rfl (le_of_eq rfl)
  | attached thread listener index session rest stands =>
      exact tokens_exchange before _ thread [_, _] [_] rest stands rfl (le_of_eq rfl)
  | armed thread listener index rest stands =>
      refine tokens_exchange before _ thread [_] [] rest stands rfl (le_of_eq ?_)
      have entered : kernelAccepts (give { before with
            outstanding := .accept listener index ::ₘ before.outstanding } thread rest) =
          (listener, index) ::ₘ kernelAccepts before := Multiset.filterMap_cons_some _ _ _ rfl
      rw [entered, Multiset.map_cons, ← Multiset.singleton_add]
      exact (add_zero _).trans (add_comm _ _)
  | rejected thread listener index rest stands =>
      exact tokens_exchange before _ thread [_] [_] rest stands rfl (le_of_eq rfl)
  | processed thread listener index session rest stands =>
      exact tokens_exchange before _ thread [_] [_, _, _] rest stands rfl (le_of_eq rfl)
  | abandoned thread listener index session rest stands =>
      exact tokens_exchange before _ thread [_] [_, _] rest stands rfl (le_of_eq rfl)
  | unattached thread listener index rest stands =>
      refine tokens_exchange before _ thread [_] [] rest stands rfl ?_
      exact add_le_add_right (Multiset.zero_le _) _
  | connected thread session rest stands =>
      exact tokens_exchange before _ thread [_] [_] rest stands rfl (le_of_eq rfl)
  | released thread session rest stands =>
      exact tokens_exchange before _ thread [_] [_] rest stands rfl (le_of_eq rfl)
  | cleared thread session rest stands =>
      exact tokens_exchange before _ thread [_] [_] rest stands rfl (le_of_eq rfl)
  | dequeued thread entries idle there =>
      refine tokens_exchange before _ thread []
        (entries.map fun entry => .dispatch entry.1 entry.2) [] idle
        (by simp [give]) (le_of_eq ?_)
      have whole := congrArg (Multiset.map Prod.snd) (dequeued_accepts before entries there)
      rw [Multiset.map_add, Multiset.map_coe] at whole
      rw [dispatch_indices]
      exact whole.trans (add_zero _).symm
  | discarded operation there =>
      refine add_le_add_left (Multiset.map_le_map (Multiset.filterMap_le_filterMap acceptOf ?_)) _
      exact Multiset.erase_le operation _

/-- One thread takes over new work. What the others have to do is asked of them only where
the listener may have changed. -/
theorem flow_thread (before after : System Thread) (flow : Flow before)
    (move : Move before fails after) (thread : Thread) (new : List Action)
    (todo : after.todo = Function.update before.todo thread new) (shaped : Shape new)
    (own : ∀ action ∈ new, ∀ listener, listenerOf action = some listener →
      after.listener = some listener)
    (others : ∀ other, other ≠ thread → ∀ action ∈ before.todo other, ∀ listener,
      listenerOf action = some listener → after.listener = some listener)
    (kernel : ∀ listener index, .accept listener index ∈ after.outstanding →
      after.listener = some listener)
    (server : ∀ connector, .connect connector ∈ after.outstanding →
      .connect connector ∈ before.outstanding) :
    Flow after where
  shaped other := by
    rw [todo]
    by_cases same : other = thread
    · rw [same, Function.update_self]
      exact shaped
    · rw [Function.update_of_ne same]
      exact flow.shaped other
  unique := Multiset.nodup_of_le (move_tokens before after move) flow.unique
  bounded index member :=
    flow.bounded index (Multiset.mem_of_le (move_tokens before after move) member)
  owned other action member listener owner := by
    rw [todo] at member
    by_cases same : other = thread
    · rw [same, Function.update_self] at member
      exact own action member listener owner
    · rw [Function.update_of_ne same] at member
      exact others other same action member listener owner
  kernel := kernel
  server connector member := flow.server connector (server connector member)

theorem flow_advance (before after : System Thread) (flow : Flow before)
    (move : Move before fails after) (thread : Thread) (olds news rest : List Action)
    (stands : before.todo thread = olds ++ rest)
    (todo : after.todo = Function.update before.todo thread (news ++ rest))
    (shaped : Shape (news ++ rest))
    (owners : ∀ action ∈ news, ∀ listener, listenerOf action = some listener → ∃ old ∈ olds,
      listenerOf old = some listener)
    (kept : after.listener = before.listener)
    (kernel : ∀ listener index, .accept listener index ∈ after.outstanding →
      before.listener = some listener)
    (server : ∀ connector, .connect connector ∈ after.outstanding →
      .connect connector ∈ before.outstanding) :
    Flow after := by
  rw [← kept] at kernel
  refine flow_thread before after flow move thread (news ++ rest) todo shaped ?_ ?_ kernel server
  · intro action member listener owner
    have known : ∃ old ∈ before.todo thread, listenerOf old = some listener := by
      rw [stands]
      rcases List.mem_append.mp member with new | old
      · obtain ⟨old, held, holds⟩ := owners action new listener owner
        exact ⟨old, List.mem_append_left _ held, holds⟩
      · exact ⟨action, List.mem_append_right _ old, owner⟩
    obtain ⟨old, held, holds⟩ := known
    exact kept.trans (flow.owned thread old held listener holds)
  · intro other _ action member listener owner
    exact kept.trans (flow.owned other action member listener owner)

theorem alone (before : System Thread) (flow : Flow before) (thread : Thread)
    (stands : before.todo thread = [.service .makeListener]) :
    kernelAccepts before = 0 ∧ ∀ other, other ≠ thread →
        (before.todo other).flatMap index = [] := by
  have all : ∀ event ∈ tokens before, event ∈ (before.todo thread).flatMap index := by
    intro event member
    rw [stands]
    exact List.mem_range.mpr (flow.bounded event member)
  obtain ⟨_, once, disjoint⟩ := Multiset.nodup_add.mp flow.unique
  have gathered : ∀ other event, event ∈ (before.todo other).flatMap index →
      event ∈ gather index before.todo := by
    intro other event member
    obtain ⟨action, held, shown⟩ := List.mem_flatMap.mp member
    exact (gather_mem index before.todo event).mpr ⟨other, action, held, shown⟩
  constructor
  · refine Multiset.eq_zero_of_forall_notMem fun accept member => ?_
    have inside := Multiset.mem_map_of_mem Prod.snd member
    exact Multiset.disjoint_left.mp disjoint inside
      (gathered thread accept.2 (all accept.2 (Multiset.mem_add.mpr (Or.inl inside))))
  · intro other different
    refine List.eq_nil_iff_forall_not_mem.mpr fun event member => different ?_
    have inside := all event (Multiset.mem_add.mpr (Or.inr (gathered other event member)))
    exact gather_apart index before.todo once event other thread member inside

theorem listener_index (action : Action) (listener : Nat)
    (owner : listenerOf action = some listener) :
    index action ≠ [] := by
  cases action with
  | listener object call =>
      cases call with
      | setSessionRef => cases owner
      | startListen => exact List.cons_ne_nil _ _
      | registerAccept | acceptEx | processAccept => exact List.cons_ne_nil _ _
  | dispatch operation bytes =>
      cases operation with
      | accept => exact List.cons_ne_nil _ _
      | _ => cases owner
  | _ => cases owner

theorem opened_flow (before : System Thread) (flow : Flow before) (thread : Thread)
    (stands : before.todo thread = [.service .makeListener]) :
    Flow (give { before with created := before.created + 1, listener := some before.created } thread
      [.listener before.created .startListen, .service (.setOnGoing true)]) := by
  have move : Move before false _ := .opened thread stands
  obtain ⟨kernel, idle⟩ := alone before flow thread stands
  refine flow_thread before _ flow move thread _ rfl (.startListen before.created) ?_ ?_ ?_
    fun _ => id
  · intro action member listener owner
    rcases List.mem_cons.mp member with rfl | member
    · exact owner
    · rw [List.mem_singleton.mp member] at owner
      cases owner
  · -- Another thread has no event, so no call of a listener either.
    intro other same action member listener owner
    have none : index action = [] := List.flatMap_eq_nil_iff.mp (idle other same) action member
    exact False.elim (listener_index action listener owner none)
  · intro listener index member
    have accepted : (listener, index) ∈ kernelAccepts before :=
      (mem_kernelAccepts before listener index).mpr member
    rw [kernel] at accepted
    exact False.elim (Multiset.notMem_zero _ accepted)

theorem dequeued_flow (before : System Thread) (flow : Flow before) (thread : Thread)
    (entries : List (Operation × Nat)) (idle : before.todo thread = [])
    (there : Multiset.ofList (entries.map Prod.fst) ≤ before.outstanding) :
    Flow { give before thread (entries.map fun entry => .dispatch entry.1 entry.2) with
      outstanding := before.outstanding - Multiset.ofList (entries.map Prod.fst) } := by
  have move : Move before false _ := .dequeued thread entries idle there
  -- An entry was outstanding, so it is an accept of the listener or an operation of a session.
  have outstanding : ∀ entry ∈ entries, entry.1 ∈ before.outstanding := fun entry member =>
    Multiset.mem_of_le there (Multiset.mem_coe.mpr (List.mem_map_of_mem member))
  have fewer := Multiset.sub_le_self before.outstanding (Multiset.ofList (entries.map Prod.fst))
  refine flow_thread before _ flow move thread _ rfl (.calm _ ?_) ?_
    (fun other _ => flow.owned other) ?_ ?_
  · intro action member
    obtain ⟨⟨operation, bytes⟩, inside, rfl⟩ := List.mem_map.mp member
    cases operation with
    | connect connector => exact absurd (outstanding _ inside) (flow.server connector)
    | _ => rfl
  · intro action member listener owner
    obtain ⟨⟨operation, bytes⟩, inside, rfl⟩ := List.mem_map.mp member
    cases operation with
    | accept object event =>
        cases owner
        exact flow.kernel _ event (outstanding _ inside)
    | _ => cases owner
  · exact fun listener event member => flow.kernel listener event (Multiset.mem_of_le fewer member)
  · exact fun connector member => Multiset.mem_of_le fewer member

theorem move_flow (before after : System Thread) (flow : Flow before)
    (move : Move before fails after) :
    Flow after := by
  have kept := flow_advance before after flow move
  have moved := move_tokens before after move
  cases move with
  | opened thread stands => exact opened_flow before flow thread stands
  | quiet thread new _ quiet =>
      refine kept thread (before.todo thread) new [] (by simp) (by simpa using quiet.todo)
        (by simpa using quiet.shaped) quiet.owners quiet.unmoved.listener ?_ quiet.unmoved.connects
      intro listener index member
      rw [← mem_kernelAccepts, quiet.unmoved.accepts, mem_kernelAccepts] at member
      exact flow.kernel listener index member
  | registered thread listener index rest stands calm =>
      exact kept thread [_] [_, _, _] rest stands rfl
        (.attaching listener index _ _ (List.forall_mem_cons.mpr ⟨rfl, calm⟩))
          (by simp [listenerOf]) rfl
        flow.kernel fun _ => id
  | attached thread listener index session rest stands calm =>
      exact kept thread [_, _] [_] rest stands rfl (.calm _ (List.forall_mem_cons.mpr ⟨rfl, calm⟩))
        (by simp [listenerOf]) rfl flow.kernel fun _ => id
  | armed thread listener index rest stands calm =>
      refine kept thread [_] [] rest stands rfl (.calm _ calm) (by simp) rfl ?_ ?_
      · intro owner event member
        rcases Multiset.mem_cons.mp member with same | old
        · cases same
          exact flow.owned thread _ (by rw [stands]; exact List.mem_cons_self) listener rfl
        · exact flow.kernel owner event old
      · intro connector member
        exact (Multiset.mem_cons.mp member).resolve_left Operation.noConfusion
  | rejected thread listener index rest stands calm =>
      exact kept thread [_] [_] rest stands rfl (.calm _ (List.forall_mem_cons.mpr ⟨rfl, calm⟩))
        (by simp [listenerOf]) rfl flow.kernel fun _ => id
  | processed thread listener index session rest stands calm =>
      refine kept thread [_] [_, _, _] rest stands rfl (.calm _ ?_) (by simp [listenerOf]) rfl
        flow.kernel fun _ => id
      simpa [plain] using calm
  | abandoned thread listener index session rest stands calm =>
      refine kept thread [_] [_, _] rest stands rfl (.calm _ ?_) (by simp [listenerOf]) rfl
        flow.kernel fun _ => id
      simpa [plain] using calm
  | unattached thread listener index rest stands calm =>
      exact kept thread [_] [] rest stands rfl (.calm _ calm) (by simp) rfl flow.kernel fun _ => id
  | connected thread session rest stands calm | released thread session rest stands calm
  | cleared thread session rest stands calm =>
      exact kept thread [_] [_] rest stands rfl (.calm _ (List.forall_mem_cons.mpr ⟨rfl, calm⟩))
        (by simp [listenerOf]) rfl flow.kernel fun _ => id
  | dequeued thread entries idle there => exact dequeued_flow before flow thread entries idle there
  | discarded operation there =>
      have fewer := Multiset.erase_le operation before.outstanding
      exact ⟨flow.shaped, Multiset.nodup_of_le moved flow.unique,
        fun event member => flow.bounded event (Multiset.mem_of_le moved member), flow.owned,
        fun listener event member => flow.kernel listener event (Multiset.mem_of_le fewer member),
        fun connector member => flow.server connector (Multiset.mem_of_le fewer member)⟩

def started (thread : Thread) : System Thread := give System.start thread [.service .start]

theorem started_flow (thread : Thread) : Flow (started thread) := by
  have todo : ∀ other, (started thread).todo other = if other = thread then
      [.service .start] else [] := by
    intro other
    simp [started, give, System.start, Function.update_apply]
  have total : tokens (started thread) = (List.range maxAcceptCount : Multiset Nat) := by
    have exchange := gather_exchange index (fun _ : Thread => []) thread [] [.service .start] [] rfl
    rw [gather_nil, zero_add] at exchange
    exact (zero_add _).trans ((add_zero _).symm.trans exchange)
  constructor
  · intro other
    rw [todo]
    split
    · exact .start
    · exact .calm [] (by simp)
  · rw [total]
    exact List.nodup_range
  · intro event member
    rw [total] at member
    exact List.mem_range.mp member
  · intro other action member listener owner
    rw [todo] at member
    split at member
    · rw [List.mem_singleton.mp member] at owner
      cases owner
    · cases member
  · intro listener event member
    exact False.elim (Multiset.notMem_zero _ member)
  · intro connector
    exact Multiset.notMem_zero _

end NetCore.AcceptTokens
