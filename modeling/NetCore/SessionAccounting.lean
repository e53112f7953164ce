import NetCore.AcceptTokens

/-! The account of a server's sessions. `Books` is what the account is about, apart from
threads and calls; an `Entry` is one change of it, and each session goes through the roles
of `Role` in order. The steps of a server in which no accept fails are entries. A failed
accept is none: `RegisterAccept` takes a new session for the event, and the session it had
stays in `_sessions`. -/
namespace NetCore.SessionAccounting
open TransitionRuns ServiceObjects PendingViews AcceptTokens

/-- `armed` are the events, each of a listener, that have been given a session and wait for
their accept, `refs` the sessions about to be attached to an event, `readies` those about to
be set connected and `clears` those that `_clear` has removed from `_sessions`. -/
@[ext] structure Books where
  sessions : List Nat
  created : Nat
  served : Nat → Bool
  event : Nat × Nat → Option Nat
  armed : Multiset (Nat × Nat)
  refs : Multiset ((Nat × Nat) × Nat)
  readies : Multiset Nat
  clears : Multiset Nat

inductive Entry (before : Books) : Books → Prop where
  | none : Entry before before
  -- An object that is not a session takes a number.
  | numbered : Entry before { before with created := before.created + 1 }
  | registered (event : Nat × Nat) (free : event ∉ before.armed) :
      Entry before { before with
        created := before.created + 1
        sessions := before.created :: before.sessions
        armed := event ::ₘ before.armed
        refs := (event, before.created) ::ₘ before.refs }
  | attached (event : Nat × Nat) (session : Nat) (refs : Multiset ((Nat × Nat) × Nat))
      (stood : before.refs = (event, session) ::ₘ refs) (single : ∀ other, (event, other) ∉ refs) :
      Entry before { before with
        event := Function.update before.event event (some session)
        refs := refs }
  | processed (event : Nat × Nat) (session : Nat) (armed : Multiset (Nat × Nat))
      (stood : before.armed = event ::ₘ armed) (single : event ∉ armed)
      (attached : ∀ other, (event, other) ∉ before.refs)
      (found : before.event event = some session) :
      Entry before { before with armed := armed, readies := session ::ₘ before.readies }
  | connected (session : Nat) (readies : Multiset Nat)
      (stood : before.readies = session ::ₘ readies) :
      Entry before { before with
        readies := readies, served := Function.update before.served session true }
  | released (session : Nat) (served : before.served session = true) :
      Entry before { before with
        sessions := before.sessions.erase session
        clears := session ::ₘ before.clears }
  | cleared (session : Nat) (clears : Multiset Nat) (stood : before.clears = session ::ₘ clears) :
      Entry before { before with
        clears := clears, served := Function.update before.served session false }

inductive Role where
  | absent
  | attaching (event : Nat × Nat)
  | waiting (event : Nat × Nat)
  | ready
  | serving
  | gone
  deriving DecidableEq, Repr

def Role.present : Role → Bool
  | .absent => false
  | .gone => false
  | _ => true

def Waits (books : Books) (event : Nat × Nat) (session : Nat) : Prop :=
  event ∈ books.armed ∧ (∀ other, (event, other) ∉ books.refs) ∧ books.event event = some session

def Serves (books : Books) (session : Nat) : Prop :=
  books.served session = true ∧ session ∉ books.clears

structure Plays (books : Books) (session : Nat) (role : Role) : Prop where
  present : session ∈ books.sessions ↔ role.present = true
  attaching : ∀ event, (event, session) ∈ books.refs ↔ role = .attaching event
  waiting : ∀ event, Waits books event session ↔ role = .waiting event
  ready : session ∈ books.readies ↔ role = .ready
  serving : Serves books session ↔ role = .serving
  clearing : session ∈ books.clears → role = .gone
  fresh : books.created ≤ session → role = .absent

structure Ledger (books : Books) (role : Nat → Role) : Prop where
  plays : ∀ session, Plays books session (role session)
  attached : ∀ event ∈ books.armed, (∀ other, (event, other) ∉ books.refs) →
    books.event event ≠ none
  backed : ∀ event session, (event, session) ∈ books.refs → event ∈ books.armed
  once : books.sessions.Nodup
  readyOnce : books.readies.Nodup

/-- An entry concerns one session; the books say of every other what they said before. -/
structure Frame (before after : Books) (session : Nat) : Prop where
  sessions : ∀ other, other ≠ session → (other ∈ after.sessions ↔ other ∈ before.sessions)
  refs : ∀ other, other ≠ session → ∀ event, (event, other) ∈ after.refs ↔
    (event, other) ∈ before.refs
  waits : ∀ other, other ≠ session → ∀ event, Waits after event other ↔ Waits before event other
  readies : ∀ other, other ≠ session → (other ∈ after.readies ↔ other ∈ before.readies)
  serves : ∀ other, other ≠ session → (Serves after other ↔ Serves before other)
  clears : ∀ other, other ≠ session → other ∈ after.clears → other ∈ before.clears
  created : before.created ≤ after.created

theorem plays_frame (before after : Books) (session other : Nat) (role : Role)
    (frame : Frame before after session) (different : other ≠ session)
    (plays : Plays before other role) : Plays after other role where
  present := (frame.sessions other different).trans plays.present
  attaching event := (frame.refs other different event).trans (plays.attaching event)
  waiting event := (frame.waits other different event).trans (plays.waiting event)
  ready := (frame.readies other different).trans plays.ready
  serving := (frame.serves other different).trans plays.serving
  clearing member := plays.clearing (frame.clears other different member)
  fresh above := plays.fresh (le_trans frame.created above)

theorem plays_update (before after : Books) (role : Nat → Role) (session : Nat) (next : Role)
    (ledger : Ledger before role) (frame : Frame before after session)
    (own : Plays after session next) (other : Nat) :
    Plays after other (Function.update role session next other) := by
  by_cases same : other = session
  · rw [same, Function.update_self]
    exact own
  · rw [Function.update_of_ne same]
    exact plays_frame before after session other (role other) frame same (ledger.plays other)

section Roles
variable (books : Books) (role : Nat → Role) (ledger : Ledger books role)
include ledger

theorem registered_ledger (event : Nat × Nat) (free : event ∉ books.armed) :
    Ledger { books with
        created := books.created + 1
        sessions := books.created :: books.sessions
        armed := event ::ₘ books.armed
        refs := (event, books.created) ::ₘ books.refs }
      (Function.update role books.created (.attaching event)) := by
  have plays := ledger.plays books.created
  rw [plays.fresh (le_refl _)] at plays
  have absent : books.created ∉ books.sessions := fun member => by cases plays.present.mp member
  refine ⟨plays_update books _ role books.created _ ledger
    { sessions := fun other different => by simp [different]
      refs := fun other different item => by simp [different]
      waits := fun other different item => by
        -- The event itself waits for nobody before, and has a session on the way to it after.
        by_cases same : item = event
        · subst item
          exact iff_of_false (fun waits => waits.2.1 books.created (Multiset.mem_cons_self _ _))
            (fun waits => free waits.1)
        · simp [Waits, same]
      readies := fun _ _ => Iff.rfl
      serves := fun _ _ => Iff.rfl
      clears := fun _ _ => id
      created := Nat.le_succ _ }
    { present := by simp [Role.present]
      attaching := fun item => by
        have none : (item, books.created) ∉ books.refs := by simpa using plays.attaching item
        simp [none, eq_comm]
      waiting := fun item => by
        have none := plays.waiting item
        by_cases same : item = event
        · subst item
          exact iff_of_false (fun waits => waits.2.1 books.created (Multiset.mem_cons_self _ _))
            (by simp)
        · simpa [Waits, same] using none
      ready := by simpa using plays.ready
      serving := by simpa [Serves] using plays.serving
      clearing := fun member => by cases plays.clearing member
      fresh := fun above => absurd above (Nat.not_succ_le_self _) }, ?_, ?_, ?_, ledger.readyOnce⟩
  · intro item armed unreferenced
    have different : item ≠ event :=
      fun same => unreferenced books.created (same ▸ Multiset.mem_cons_self _ _)
    refine ledger.attached item ((Multiset.mem_cons.mp armed).resolve_left different)
      fun other member => ?_
    exact unreferenced other (Multiset.mem_cons_of_mem member)
  · intro item session member
    rcases Multiset.mem_cons.mp member with same | old
    · cases same
      exact Multiset.mem_cons_self _ _
    · exact Multiset.mem_cons_of_mem (ledger.backed item session old)
  · exact List.nodup_cons.mpr ⟨absent, ledger.once⟩

theorem attached_ledger (event : Nat × Nat) (session : Nat) (refs : Multiset ((Nat × Nat) × Nat))
    (stood : books.refs = (event, session) ::ₘ refs) (single : ∀ other, (event, other) ∉ refs) :
    Ledger { books with event := Function.update books.event event (some session), refs := refs }
      (Function.update role session (.waiting event)) := by
  have member : (event, session) ∈ books.refs := by
    rw [stood]
    exact Multiset.mem_cons_self _ _
  have plays := ledger.plays session
  rw [(plays.attaching event).mp member] at plays
  have armed : event ∈ books.armed := ledger.backed event session member
  have left : ∀ item other, (item, other) ∈ books.refs ↔
      (item = event ∧ other = session) ∨ (item, other) ∈ refs := by
    intro item other
    rw [stood, Multiset.mem_cons, Prod.mk.injEq]
  -- An event other than this one has the sessions on the way to it that it had.
  have elsewhere : ∀ item, item ≠ event →
      ((∀ other, (item, other) ∉ refs) ↔ ∀ other, (item, other) ∉ books.refs) := by
    intro item different
    simp [left, different]
  have waits : ∀ item other, item ≠ event → (Waits { books with
      event := Function.update books.event event (some session), refs := refs } item other ↔
        Waits books item other) := by
    intro item other different
    simp only [Waits, elsewhere item different, Function.update_of_ne different]
  refine ⟨plays_update books _ role session _ ledger
    { sessions := fun _ _ => Iff.rfl
      refs := fun other different item => by simp [left, different]
      waits := fun other different item => by
        by_cases same : item = event
        · subst item
          exact iff_of_false (fun waits => different (by simpa using waits.2.2.symm))
            (fun waits => waits.2.1 session member)
        · exact waits item other same
      readies := fun _ _ => Iff.rfl
      serves := fun _ _ => Iff.rfl
      clears := fun _ _ => id
      created := le_refl _ }
    { present := plays.present
      attaching := fun item => by
        have none : (item, session) ∉ refs := by
          intro inside
          have same := (plays.attaching item).mp ((left item session).mpr (Or.inr inside))
          cases same
          exact single session inside
        simp [none]
      waiting := fun item => by
        by_cases same : item = event
        · subst item
          simp [Waits, armed, single]
        · rw [waits item session same, plays.waiting item]
          simpa using Ne.symm same
      ready := by simpa using plays.ready
      serving := by simpa [Serves] using plays.serving
      clearing := fun inside => by cases plays.clearing inside
      fresh := fun above => by cases plays.fresh above }, ?_, ?_, ledger.once, ledger.readyOnce⟩
  · intro item waiting unreferenced
    by_cases same : item = event
    · subst item
      simp
    · simp only [Function.update_of_ne same]
      exact ledger.attached item waiting ((elsewhere item same).mp unreferenced)
  · intro item other inside
    exact ledger.backed item other ((left item other).mpr (Or.inr inside))

theorem processed_ledger (event : Nat × Nat) (session : Nat) (armed : Multiset (Nat × Nat))
    (stood : books.armed = event ::ₘ armed) (single : event ∉ armed)
    (attached : ∀ other, (event, other) ∉ books.refs) (found : books.event event = some session) :
    Ledger { books with armed := armed, readies := session ::ₘ books.readies }
      (Function.update role session .ready) := by
  have waited : Waits books event session :=
    ⟨by rw [stood]; exact Multiset.mem_cons_self _ _, attached, found⟩
  have plays := ledger.plays session
  rw [(plays.waiting event).mp waited] at plays
  have left : ∀ item, item ∈ armed ↔ item ∈ books.armed ∧ item ≠ event := by
    intro item
    rw [stood, Multiset.mem_cons]
    constructor
    · intro inside
      exact ⟨Or.inr inside, fun same => single (same ▸ inside)⟩
    · rintro ⟨same | inside, different⟩
      · exact absurd same different
      · exact inside
  have unready : session ∉ books.readies := fun inside => by cases plays.ready.mp inside
  refine ⟨plays_update books _ role session _ ledger
    { sessions := fun _ _ => Iff.rfl
      refs := fun _ _ _ => Iff.rfl
      waits := fun other different item => by
        by_cases same : item = event
        · subst item
          simp [Waits, single, found, different.symm]
        · simp [Waits, left, same]
      readies := fun other different => by simp [different]
      serves := fun _ _ => Iff.rfl
      clears := fun _ _ => id
      created := le_refl _ }
    { present := plays.present
      attaching := fun item => by simpa using plays.attaching item
      waiting := fun item => by
        have before := plays.waiting item
        by_cases same : item = event
        · subst item
          simp [Waits, single]
        · simpa [Waits, left, same, Ne.symm same] using before
      ready := by simp
      serving := by simpa [Serves] using plays.serving
      clearing := fun inside => by cases plays.clearing inside
      fresh := fun above => by cases plays.fresh above }, ?_, ?_, ledger.once, ?_⟩
  · intro item inside
    exact ledger.attached item ((left item).mp inside).1
  · intro item other inside
    refine (left item).mpr ⟨ledger.backed item other inside, ?_⟩
    rintro rfl
    exact attached other inside
  · exact Multiset.nodup_cons.mpr ⟨unready, ledger.readyOnce⟩

theorem connected_ledger (session : Nat) (readies : Multiset Nat)
    (stood : books.readies = session ::ₘ readies) :
    Ledger { books with readies := readies, served := Function.update books.served session true }
      (Function.update role session .serving) := by
  have plays := ledger.plays session
  rw [plays.ready.mp (by rw [stood]; exact Multiset.mem_cons_self _ _)] at plays
  have unique := ledger.readyOnce
  rw [stood] at unique
  obtain ⟨alone, rest⟩ := Multiset.nodup_cons.mp unique
  have unclear : session ∉ books.clears := fun inside => by cases plays.clearing inside
  refine ⟨plays_update books _ role session _ ledger
    { sessions := fun _ _ => Iff.rfl
      refs := fun _ _ _ => Iff.rfl
      waits := fun _ _ _ => Iff.rfl
      readies := fun other different => by simp [stood, different]
      serves := fun other different => by simp [Serves, different]
      clears := fun _ _ => id
      created := le_refl _ }
    { present := plays.present
      attaching := fun item => by simpa using plays.attaching item
      waiting := fun item => by simpa [Waits] using plays.waiting item
      ready := by simp [alone]
      serving := by simp [Serves, unclear]
      clearing := fun inside => absurd inside unclear
      fresh := fun above => by cases plays.fresh above },
      ledger.attached, ledger.backed, ledger.once, rest⟩

theorem released_ledger (session : Nat) (served : books.served session = true) :
    Ledger { books with
      sessions := books.sessions.erase session, clears := session ::ₘ books.clears }
      (Function.update role session .gone) := by
  have plays := ledger.plays session
  have before : role session = .serving ∨ role session = .gone := by
    by_cases clearing : session ∈ books.clears
    · exact Or.inr (plays.clearing clearing)
    · exact Or.inl (plays.serving.mp ⟨served, clearing⟩)
  have erased : ∀ other, other ∈ books.sessions.erase session ↔
      other ≠ session ∧ other ∈ books.sessions :=
    fun other => ledger.once.mem_erase_iff
  have none : ∀ next : Role, next ≠ .serving → next ≠ .gone → role session ≠ next := by
    rintro next notServing notGone rfl
    exact before.elim notServing notGone
  refine ⟨plays_update books _ role session _ ledger
    { sessions := fun other different => by simp [erased, different]
      refs := fun _ _ _ => Iff.rfl
      waits := fun _ _ _ => Iff.rfl
      readies := fun _ _ => Iff.rfl
      serves := fun other different => by simp [Serves, different]
      clears := fun other different inside => (Multiset.mem_cons.mp inside).resolve_left different
      created := le_refl _ }
    { present := by simp [erased, Role.present]
      attaching := fun item => by
        simpa [none (.attaching item) (by simp) (by simp)] using plays.attaching item
      waiting := fun item => by
        simpa [Waits, none (.waiting item) (by simp) (by simp)] using plays.waiting item
      ready := by simpa [none .ready (by simp) (by simp)] using plays.ready
      serving := by simp [Serves]
      clearing := fun _ => rfl
      fresh := fun above => absurd (plays.fresh above) (none .absent (by simp) (by simp)) },
    ledger.attached, ledger.backed, ledger.once.erase session, ledger.readyOnce⟩

theorem cleared_ledger (session : Nat) (clears : Multiset Nat)
    (stood : books.clears = session ::ₘ clears) :
    Ledger { books with clears := clears, served := Function.update books.served session false }
      (Function.update role session .gone) := by
  have plays := ledger.plays session
  rw [plays.clearing (by rw [stood]; exact Multiset.mem_cons_self _ _)] at plays
  refine ⟨plays_update books _ role session _ ledger
    { sessions := fun _ _ => Iff.rfl
      refs := fun _ _ _ => Iff.rfl
      waits := fun _ _ _ => Iff.rfl
      readies := fun _ _ => Iff.rfl
      serves := fun other different => by simp [Serves, stood, different]
      clears := fun other different inside => by simp [stood, inside]
      created := le_refl _ }
    { plays with
      serving := by simp [Serves]
      clearing := fun _ => rfl }, ledger.attached, ledger.backed, ledger.once, ledger.readyOnce⟩

end Roles

theorem entry_ledger (before after : Books) (role : Nat → Role) (ledger : Ledger before role)
    (entry : Entry before after) : ∃ next, Ledger after next := by
  cases entry with
  | none => exact ⟨role, ledger⟩
  | numbered =>
      refine ⟨role, { ledger with plays := fun session => ?_ }⟩
      have plays := ledger.plays session
      exact { plays with fresh := fun above => plays.fresh (le_trans (Nat.le_succ _) above) }
  | registered event free => exact ⟨_, registered_ledger before role ledger event free⟩
  | attached event session refs stood single =>
      exact ⟨_, attached_ledger before role ledger event session refs stood single⟩
  | processed event session armed stood single attached found =>
      exact ⟨_, processed_ledger before role ledger event session armed stood single attached found⟩
  | connected session readies stood =>
      exact ⟨_, connected_ledger before role ledger session readies stood⟩
  | released session served => exact ⟨_, released_ledger before role ledger session served⟩
  | cleared session clears stood =>
      exact ⟨_, cleared_ledger before role ledger session clears stood⟩

variable {Thread : Type}

/-- The call is one that `RegisterAccept`, `ProcessAccept` or `_clear` makes on the way from the
state before it to the state after it. -/
def inside : Action → Bool
  | .listener _ (.setSessionRef _ _) => true
  | .listener _ (.acceptEx _) => true
  | .listener _ (.processAccept _) => true
  | .session _ .setConnected => true
  | .session _ .clearService => true
  | _ => false

/-- No thread is inside `RegisterAccept`, `ProcessAccept` or `_clear`. A thread that has yet
to call `RegisterAccept` is not in it. -/
def Settled (system : System Thread) : Prop :=
  ∀ thread, ∀ action ∈ system.todo thread, inside action = false

/-- The event's `AcceptEx` is in the kernel, or its completion has not been processed. -/
def Outstanding (system : System Thread) (listener index : Nat) : Prop :=
  .accept listener index ∈ system.outstanding ∨
    ∃ thread bytes, .dispatch (.accept listener index) bytes ∈ system.todo thread

/-- `_sessions` has the sessions of outstanding accepts and those that are set connected and not
torn down. -/
def Accounted (system : System Thread) : Prop :=
  ∀ session, session ∈ system.sessions ↔
    (∃ listener index, Outstanding system listener index ∧ getSessionRef system listener index =
      some session) ∨ system.served session = true

variable [Fintype Thread]

def books (system : System Thread) : Books where
  sessions := system.sessions
  created := system.created
  served := system.served
  event event := getSessionRef system event.1 event.2
  armed := kernelAccepts system + gather arms system.todo
  refs := gather ref system.todo
  readies := gather readies system.todo
  clears := gather clears system.todo

def reserved : Action → List Nat
  | .listener _ (.acceptEx _) => []
  | .listener _ (.processAccept _) => []
  | .dispatch (.accept _ _) _ => []
  | action => index action

theorem index_split (action : Action) :
    index action = (arms action).map Prod.snd ++ reserved action := by
  cases action with
  | listener object call =>
      cases call with
      | startListen | registerAccept | setSessionRef | acceptEx | processAccept => rfl
  | dispatch operation bytes =>
      cases operation with
      | accept | connect | recv | send | disconnect => rfl
  | service | connector | session | drop => rfl

theorem indices_split (actions : List Action) : (actions.flatMap index : Multiset Nat) =
    Multiset.map Prod.snd (actions.flatMap arms : Multiset (Nat × Nat)) +
      (actions.flatMap reserved : Multiset Nat) := by
  induction actions with
  | nil => rfl
  | cons action rest ih =>
      simp only [List.flatMap_cons, ← Multiset.coe_add, ih, index_split action, Multiset.map_add,
        Multiset.map_coe]
      abel

theorem tokens_split (system : System Thread) :
    tokens system = (books system).armed.map Prod.snd + gather reserved system.todo := by
  have sums : gather index system.todo =
      (gather arms system.todo).map Prod.snd + gather reserved system.todo := by
    simp only [gather, indices_split, Finset.sum_add_distrib]
    rw [← Multiset.coe_mapAddMonoidHom, map_sum]
  rw [tokens, sums, books, Multiset.map_add, add_assoc]

theorem armed_once (system : System Thread) (flow : Flow system) : (books system).armed.Nodup := by
  have unique := flow.unique
  rw [tokens_split] at unique
  exact Multiset.Nodup.of_map Prod.snd (Multiset.nodup_add.mp unique).1

theorem reserved_free (system : System Thread) (flow : Flow system) (thread : Thread)
    (listener event : Nat) (rest : List Action)
    (stands : system.todo thread = .listener listener (.registerAccept event) :: rest) :
    (listener, event) ∉ (books system).armed := by
  intro member
  have unique := flow.unique
  rw [tokens_split] at unique
  have held : event ∈ gather reserved system.todo :=
    (gather_mem reserved system.todo event).mpr
      ⟨thread, _, by rw [stands]; exact List.mem_cons_self, List.mem_singleton.mpr rfl⟩
  exact Multiset.disjoint_left.mp (Multiset.nodup_add.mp unique).2.2
    (Multiset.mem_map_of_mem Prod.snd member) held

theorem ref_stands (actions : List Action) (shape : Shape actions) (event : Nat × Nat)
    (session : Nat) (member : (event, session) ∈ actions.flatMap ref) :
    ∃ rest, actions = .listener event.1 (.setSessionRef event.2 session) ::
      .listener event.1 (.acceptEx event.2) :: rest := by
  have calmly : ∀ later : List Action, (∀ action ∈ later, plain action = true) →
      (event, session) ∉ later.flatMap ref := by
    intro later calm inside
    obtain ⟨action, held, shown⟩ := List.mem_flatMap.mp inside
    have plainly := calm action held
    unfold ref at shown
    split at shown
    · cases plainly
    · cases shown
  cases shape with
  | start | makeListener | startListen => cases member
  | attaching listener index attached rest calm =>
      rcases List.mem_cons.mp member with same | inside
      · cases same
        exact ⟨rest, rfl⟩
      · exact absurd inside (calmly rest calm)
  | calm _ calm => exact absurd member (calmly _ calm)

theorem settled_armed (system : System Thread) (settled : Settled system) (event : Nat × Nat) :
    event ∈ (books system).armed ↔ Outstanding system event.1 event.2 := by
  simp only [books, Multiset.mem_add, Outstanding, gather_mem, ← mem_kernelAccepts]
  refine or_congr Iff.rfl ⟨?_, ?_⟩
  · rintro ⟨thread, action, member, waits⟩
    have calm := settled thread action member
    unfold arms at waits
    split at waits
    · cases calm
    · cases calm
    · rw [List.mem_singleton.mp waits]
      exact ⟨thread, _, member⟩
    · cases waits
  · rintro ⟨thread, bytes, member⟩
    exact ⟨thread, _, member, List.mem_singleton.mpr rfl⟩

theorem settled_empty {Item : Type} (view : Action → List Item)
    (seen : ∀ action, view action ≠ [] → inside action = true) (system : System Thread)
    (settled : Settled system) (item : Item) : item ∉ gather view system.todo := by
  intro member
  obtain ⟨thread, action, held, shown⟩ := (gather_mem view system.todo item).mp member
  have within := seen action (List.ne_nil_of_mem shown)
  rw [settled thread action held] at within
  cases within

theorem ledger_accounted (system : System Thread) (role : Nat → Role)
    (ledger : Ledger (books system) role) (settled : Settled system) : Accounted system := by
  have refs : ∀ event session, (event, session) ∉ (books system).refs := by
    intro event session
    refine settled_empty ref (fun action shown => ?_) system settled (event, session)
    unfold ref at shown
    split at shown
    · rfl
    · exact absurd rfl shown
  have readies : ∀ session, session ∉ (books system).readies := by
    intro session
    refine settled_empty readies (fun action shown => ?_) system settled session
    unfold AcceptTokens.readies at shown
    split at shown
    · rfl
    · exact absurd rfl shown
  have clears : ∀ session, session ∉ (books system).clears := by
    intro session
    refine settled_empty clears (fun action shown => ?_) system settled session
    unfold AcceptTokens.clears at shown
    split at shown
    · rfl
    · exact absurd rfl shown
  intro session
  have waiting : ∀ event, role session = .waiting event ↔
      Outstanding system event.1 event.2 ∧ getSessionRef system event.1 event.2 = some session := by
    intro event
    rw [← (ledger.plays session).waiting event, Waits, settled_armed system settled]
    exact and_congr_right fun _ => and_iff_right (refs event)
  have serving : role session = .serving ↔ system.served session = true := by
    rw [← (ledger.plays session).serving]
    exact and_iff_left (clears session)
  have present : session ∈ system.sessions ↔ (role session).present = true :=
    (ledger.plays session).present
  rw [present, ← serving]
  constructor
  · intro there
    cases found : role session with
    | absent | gone =>
        rw [found] at there
        cases there
    | attaching event =>
        exact absurd (((ledger.plays session).attaching event).mpr found) (refs event session)
    | ready => exact absurd ((ledger.plays session).ready.mpr found) (readies session)
    | waiting event => exact Or.inl ⟨event.1, event.2, (waiting event).mp found⟩
    | serving => exact Or.inr rfl
  · rintro (⟨listener, index, held⟩ | serves)
    · rw [(waiting (listener, index)).mpr held]
      rfl
    · rw [serves]
      rfl

variable [DecidableEq Thread]

theorem arms_apart (system : System Thread) (flow : Flow system) (event : Nat × Nat)
    (left right : Thread) (atLeft : event ∈ (system.todo left).flatMap arms)
    (atRight : event ∈ (system.todo right).flatMap arms) :
    left = right := by
  have once := (Multiset.nodup_add.mp (armed_once system flow)).2.1
  exact gather_apart arms system.todo once event left right atLeft atRight

theorem unreferenced (system : System Thread) (flow : Flow system) (thread : Thread)
    (action : Action) (rest : List Action) (stands : system.todo thread = action :: rest)
    (event : Nat × Nat) (waits : event ∈ arms action) (session : Nat) :
    (event, session) ∉ (books system).refs := by
  intro member
  obtain ⟨other, call, held, shown⟩ := (gather_mem ref system.todo (event, session)).mp member
  obtain ⟨later, ahead⟩ := ref_stands (system.todo other) (flow.shaped other) event session
    (List.mem_flatMap.mpr ⟨call, held, shown⟩)
  have atOther : event ∈ (system.todo other).flatMap arms := by
    rw [ahead]
    exact List.mem_cons_self
  have atThread : event ∈ (system.todo thread).flatMap arms := by
    rw [stands]
    exact List.mem_append_left _ waits
  have same := arms_apart system flow event thread other atThread atOther
  subst other
  rw [stands] at ahead
  cases ahead
  cases waits

theorem attached_event (system : System Thread) (thread : Thread) (actions : List Action)
    (listener index session : Nat) :
    (books (give { system with
        acceptEvents := ⟨listener, index, session⟩ :: system.acceptEvents.filter
          (fun event => event.listener ≠ listener ∨ event.index ≠ index) } thread actions)).event =
      Function.update (books system).event (listener, index) (some session) := by
  funext other
  by_cases same : other = (listener, index)
  · subst other
    simp [books, getSessionRef, give]
  · rw [Function.update_of_ne same]
    have first : ¬ (listener = other.1 ∧ index = other.2) := fun equal =>
      same (Prod.ext equal.1.symm equal.2.symm)
    simp only [books, getSessionRef, give]
    rw [List.find?_cons_of_neg (by simpa using first), List.find?_filter]
    congr 2
    funext event
    grind

theorem armed_keeps (before : System Thread) (thread : Thread) (olds news rest : List Action)
    (stands : before.todo thread = olds ++ rest) (same : news.flatMap arms = olds.flatMap arms) :
    kernelAccepts before + gather arms (Function.update before.todo thread (news ++ rest)) =
      (books before).armed := by
  rw [books, gather_keeps arms before.todo thread olds news rest stands same]

section Entries
variable (before : System Thread) (flow : Flow before) (thread : Thread)

omit flow in
theorem quiet_entry (after : System Thread) (new : List Action)
    (quiet : Quiet before after thread new) :
    Entry (books before) (books after) := by
  have stands : before.todo thread = before.todo thread ++ [] := (List.append_nil _).symm
  have kept : ∀ {Item : Type} (view : Action → List Item),
      new.flatMap view = (before.todo thread).flatMap view →
      gather view after.todo = gather view before.todo := by
    intro Item view same
    rw [quiet.todo]
    simpa using gather_keeps view before.todo thread _ new [] stands same
  have same : books after = books before := by
    refine Books.ext quiet.unmoved.sessions quiet.unmoved.created quiet.unmoved.served ?_ ?_
      (kept ref quiet.same.refs) (kept readies quiet.same.readies) (kept clears quiet.same.clears)
    · simp only [books, getSessionRef, quiet.unmoved.events]
    · simp only [books, quiet.unmoved.accepts, kept arms quiet.same.arms]
  rw [same]
  exact .none

omit flow in
theorem opened_entry (stands : before.todo thread = [.service .makeListener]) :
    Entry (books before) (books (give { before with
        created := before.created + 1
        listener := some before.created } thread
      [.listener before.created .startListen, .service (.setOnGoing true)])) := by
  have same : books
      (give { before with created := before.created + 1, listener := some before.created } thread
        [.listener before.created .startListen, .service (.setOnGoing true)]) =
      { books before with created := before.created + 1 } :=
    Books.ext rfl rfl rfl rfl
      (armed_keeps before thread [_] [_, _] [] stands rfl)
      (gather_keeps ref before.todo thread [_] [_, _] [] stands rfl)
      (gather_keeps readies before.todo thread [_] [_, _] [] stands rfl)
      (gather_keeps clears before.todo thread [_] [_, _] [] stands rfl)
  rw [same]
  exact .numbered

include flow

theorem registered_entry (listener index : Nat) (rest : List Action)
    (stands : before.todo thread = .listener listener (.registerAccept index) :: rest) :
    Entry (books before) (books (give { before with
        created := before.created + 1
        sessions := before.created :: before.sessions } thread
      (.listener listener (.setSessionRef index before.created) :: .listener listener
        (.acceptEx index) ::
        .drop before.created :: rest))) := by
  have free := reserved_free before flow thread listener index rest stands
  convert Entry.registered (listener, index) free using 1
  refine Books.ext rfl rfl rfl rfl ?_
    (gather_gains ref before.todo thread [_] [_, _, _] rest stands _ rfl rfl)
    (gather_keeps readies before.todo thread [_] [_, _, _] rest stands rfl)
    (gather_keeps clears before.todo thread [_] [_, _, _] rest stands rfl)
  exact (congrArg (kernelAccepts before + ·)
    (gather_gains arms before.todo thread [_] [_, _, _] rest stands _ rfl rfl)).trans
    (Multiset.add_cons _ _ _)

theorem attached_entry (listener index session : Nat) (rest : List Action)
    (stands : before.todo thread = .listener listener (.setSessionRef index session) ::
      .listener listener (.acceptEx index) :: rest)
    (calm : ∀ action ∈ rest, plain action = true) :
    Entry (books before) (books (give { before with
        acceptEvents := ⟨listener, index, session⟩ :: before.acceptEvents.filter
          (fun event => event.listener ≠ listener ∨ event.index ≠ index) } thread
      (.listener listener (.acceptEx index) :: rest))) := by
  have move : Move before false _ := .attached thread listener index session rest stands calm
  have later := move_flow before _ flow move
  have stood : (books before).refs = ((listener, index), session) ::ₘ
      gather ref
        (Function.update before.todo thread ([.listener listener (.acceptEx index)] ++ rest)) :=
    gather_loses ref before.todo thread [_, _] [_] rest stands _ rfl rfl
  have single :=
    unreferenced _ later thread (.listener listener (.acceptEx index)) rest (by simp [give])
      (listener, index) List.mem_cons_self
  convert Entry.attached (listener, index) session _ stood single using 1
  exact Books.ext rfl rfl rfl (attached_event before thread _ listener index session)
    (armed_keeps before thread [_, _] [_] rest stands rfl) rfl
    (gather_keeps readies before.todo thread [_, _] [_] rest stands rfl)
    (gather_keeps clears before.todo thread [_, _] [_] rest stands rfl)

omit flow in
theorem armed_entry (listener index : Nat) (rest : List Action)
    (stands : before.todo thread = .listener listener (.acceptEx index) :: rest) :
    Entry (books before) (books (give { before with
      outstanding := .accept listener index ::ₘ before.outstanding } thread rest)) := by
  have entered : kernelAccepts (give { before with
        outstanding := .accept listener index ::ₘ before.outstanding } thread rest) =
      (listener, index) ::ₘ kernelAccepts before := Multiset.filterMap_cons_some _ _ _ rfl
  have lost : gather arms before.todo =
      (listener, index) ::ₘ gather arms (Function.update before.todo thread rest) :=
    gather_loses arms before.todo thread [_] [] rest stands _ rfl rfl
  have same : books (give { before with
      outstanding := .accept listener index ::ₘ before.outstanding } thread rest) =
          books before := by
    refine Books.ext rfl rfl rfl rfl ?_ (gather_keeps ref before.todo thread [_] [] rest stands rfl)
      (gather_keeps readies before.todo thread [_] [] rest stands rfl)
      (gather_keeps clears before.todo thread [_] [] rest stands rfl)
    simp only [books, entered, lost, Multiset.cons_add, Multiset.add_cons]
    rfl
  rw [same]
  exact .none

theorem processed_entry (listener index session : Nat) (rest : List Action)
    (stands : before.todo thread = .listener listener (.processAccept index) :: rest)
    (found : getSessionRef before listener index = some session) :
    Entry (books before) (books (give before thread (.session session .setConnected ::
      .listener listener (.registerAccept index) :: .drop session :: rest))) := by
  have stood : (books before).armed = (listener, index) ::ₘ (kernelAccepts before + gather arms
      (Function.update before.todo thread ([.session session .setConnected,
        .listener listener (.registerAccept index), .drop session] ++ rest))) :=
    (congrArg (kernelAccepts before + ·)
      (gather_loses arms before.todo thread [_] [_, _, _] rest stands _ rfl rfl)).trans
      (Multiset.add_cons _ _ _)
  have once := armed_once before flow
  rw [stood] at once
  convert Entry.processed (listener, index) session _ stood (Multiset.nodup_cons.mp once).1
    (unreferenced before flow thread _ rest stands (listener, index) List.mem_cons_self) found
      using 1
  exact Books.ext rfl rfl rfl rfl rfl
    (gather_keeps ref before.todo thread [_] [_, _, _] rest stands rfl)
    (gather_gains readies before.todo thread [_] [_, _, _] rest stands session rfl rfl)
    (gather_keeps clears before.todo thread [_] [_, _, _] rest stands rfl)

omit flow

theorem connected_entry (session : Nat) (rest : List Action)
    (stands : before.todo thread = .session session .setConnected :: rest) :
    Entry (books before) (books (give { before with
        connected := Function.update before.connected session true
        served := Function.update before.served session true } thread
      (.session session .registerRecv :: rest))) := by
  have stood : (books before).readies = session ::ₘ
      gather readies
        (Function.update before.todo thread ([.session session .registerRecv] ++ rest)) :=
    gather_loses readies before.todo thread [_] [_] rest stands _ rfl rfl
  convert Entry.connected session _ stood using 1
  exact Books.ext rfl rfl rfl rfl
    (armed_keeps before thread [_] [_] rest stands rfl)
    (gather_keeps ref before.todo thread [_] [_] rest stands rfl) rfl
    (gather_keeps clears before.todo thread [_] [_] rest stands rfl)

theorem released_entry (session : Nat) (rest : List Action)
    (stands : before.todo thread = .session session .releaseSession :: rest)
    (served : before.served session = true) :
    Entry (books before)
      (books (give { before with sessions := before.sessions.erase session } thread
        (.session session .clearService :: rest))) := by
  convert (Entry.released session served : Entry (books before) _) using 1
  exact Books.ext rfl rfl rfl rfl
    (armed_keeps before thread [_] [_] rest stands rfl)
    (gather_keeps ref before.todo thread [_] [_] rest stands rfl)
    (gather_keeps readies before.todo thread [_] [_] rest stands rfl)
    (gather_gains clears before.todo thread [_] [_] rest stands session rfl rfl)

theorem cleared_entry (session : Nat) (rest : List Action)
    (stands : before.todo thread = .session session .clearService :: rest) :
    Entry (books before) (books (give { before with
        served := Function.update before.served session false } thread
      (.session session .clearConnected :: rest))) := by
  have stood : (books before).clears = session ::ₘ
      gather clears
        (Function.update before.todo thread ([.session session .clearConnected] ++ rest)) :=
    gather_loses clears before.todo thread [_] [_] rest stands _ rfl rfl
  convert Entry.cleared session _ stood using 1
  exact Books.ext rfl rfl rfl rfl
    (armed_keeps before thread [_] [_] rest stands rfl)
    (gather_keeps ref before.todo thread [_] [_] rest stands rfl)
    (gather_keeps readies before.todo thread [_] [_] rest stands rfl) rfl

theorem dequeued_entry (entries : List (Operation × Nat)) (idle : before.todo thread = [])
    (there : Multiset.ofList (entries.map Prod.fst) ≤ before.outstanding) :
    Entry (books before)
        (books { give before thread (entries.map fun entry => .dispatch entry.1 entry.2) with
      outstanding := before.outstanding - Multiset.ofList (entries.map Prod.fst) }) := by
  have unseen : ∀ {Item : Type} (view : Action → List Item),
      (∀ operation bytes, view (.dispatch operation bytes) = []) →
      gather view (Function.update before.todo thread (entries.map fun entry =>
        .dispatch entry.1 entry.2)) =
        gather view before.todo := by
    intro Item view none
    have nothing :
        (entries.map fun entry => Action.dispatch entry.1 entry.2).flatMap view = [] := by
      simp [List.flatMap_map, none]
    simpa using gather_keeps view before.todo thread []
      (entries.map fun entry => .dispatch entry.1 entry.2) [] idle nothing
  have moved := gather_exchange arms before.todo thread []
    (entries.map fun entry => .dispatch entry.1 entry.2) [] idle
  rw [List.append_nil, List.flatMap_nil, Multiset.coe_nil, add_zero] at moved
  have same : books { give before thread (entries.map fun entry => .dispatch entry.1 entry.2) with
      outstanding := before.outstanding - Multiset.ofList (entries.map Prod.fst) } =
          books before := by
    refine Books.ext rfl rfl rfl rfl ?_ (unseen ref fun _ _ => rfl) (unseen readies fun _ _ => rfl)
      (unseen clears fun _ _ => rfl)
    calc (before.outstanding - Multiset.ofList (entries.map Prod.fst)).filterMap acceptOf +
          gather arms (Function.update before.todo thread (entries.map fun entry =>
            .dispatch entry.1 entry.2))
        = (before.outstanding - Multiset.ofList (entries.map Prod.fst)).filterMap acceptOf +
            ((entries.map fun entry => Action.dispatch entry.1 entry.2).flatMap arms :
              Multiset (Nat × Nat)) +
            gather arms before.todo := by
          rw [moved]
          abel
      _ = kernelAccepts before + gather arms before.todo := by
          rw [dequeued_accepts before entries there]
  rw [same]
  exact .none

omit [DecidableEq Thread] in
theorem discarded_entry (operation : Operation) (there : operation ∈ before.outstanding)
    (other : acceptOf operation = none) :
    Entry (books before)
        (books { before with outstanding := before.outstanding.erase operation }) := by
  have kept : kernelAccepts { before with outstanding := before.outstanding.erase operation } =
      kernelAccepts before := by
    have whole := congrArg (Multiset.filterMap acceptOf) (Multiset.cons_erase there)
    rw [Multiset.filterMap_cons_none _ _ other] at whole
    exact whole
  have same :
      books { before with outstanding := before.outstanding.erase operation } = books before :=
    Books.ext rfl rfl rfl rfl (congrArg (· + gather arms before.todo) kept) rfl rfl rfl
  rw [same]
  exact .none

end Entries

theorem move_entry (before after : System Thread) (role : Nat → Role) (flow : Flow before)
    (ledger : Ledger (books before) role) (move : Move before false after) :
    Entry (books before) (books after) := by
  cases move with
  | quiet thread new _ quiet => exact quiet_entry before thread after new quiet
  | opened thread stands => exact opened_entry before thread stands
  | registered thread listener index rest stands calm =>
      exact registered_entry before flow thread listener index rest stands
  | attached thread listener index session rest stands calm =>
      exact attached_entry before flow thread listener index session rest stands calm
  | armed thread listener index rest stands calm =>
      exact armed_entry before thread listener index rest stands
  | rejected _ _ _ _ _ _ failed | abandoned _ _ _ _ _ _ _ _ failed => cases failed
  | processed thread listener index session rest stands calm found =>
      exact processed_entry before flow thread listener index session rest stands found
  | unattached thread listener index rest stands calm found =>
      -- An event that waits for its accept has a session, so this does not happen.
      have member : .listener listener (.processAccept index) ∈ before.todo thread := by
        rw [stands]
        exact List.mem_cons_self
      have armed : (listener, index) ∈ (books before).armed := Multiset.mem_add.mpr
        (Or.inr ((gather_mem arms before.todo _).mpr ⟨thread, _, member, List.mem_cons_self⟩))
      have attached :=
        unreferenced before flow thread _ rest stands (listener, index) List.mem_cons_self
      exact absurd found (ledger.attached (listener, index) armed attached)
  | connected thread session rest stands calm =>
      exact connected_entry before thread session rest stands
  | released thread session rest stands calm served =>
      exact released_entry before thread session rest stands served
  | cleared thread session rest stands calm => exact cleared_entry before thread session rest stands
  | dequeued thread entries idle there => exact dequeued_entry before thread entries idle there
  | discarded operation there failed =>
      refine discarded_entry before operation there ?_
      cases accept : acceptOf operation with
      | none => rfl
      | some event => cases failed event accept

theorem started_ledger (thread : Thread) : Ledger (books (started thread)) (fun _ => .absent) := by
  have unseen : ∀ {Item : Type} (view : Action → List Item), view (.service .start) = [] →
      gather view (started thread).todo = 0 := by
    intro Item view none
    have kept :=
      gather_keeps view (fun _ : Thread => []) thread [] [.service .start] [] rfl (by simp [none])
    exact kept.trans (gather_nil view)
  have armed : (books (started thread)).armed = 0 := by
    simp only [books, unseen arms rfl]
    rfl
  have refs : (books (started thread)).refs = 0 := unseen ref rfl
  have readies : (books (started thread)).readies = 0 := unseen readies rfl
  have clears : (books (started thread)).clears = 0 := unseen clears rfl
  have sessions : (books (started thread)).sessions = [] := rfl
  have served : (books (started thread)).served = fun _ => false := rfl
  refine ⟨fun session => ?_, ?_, ?_, ?_, ?_⟩
  · constructor
    all_goals simp [Waits, Serves, armed, refs, readies, clears, sessions, served, Role.present]
  all_goals simp [armed, refs, readies, sessions]

def accepted : Condition (System Thread) (Label Thread) := fun before label _ =>
  fromStart before label = true ∧ acceptFails before label = false

theorem reached_ledger (config : Config) (server : config.kind = .server) (thread : Thread)
    (system : System Thread) (reached : Reachable (step config) accepted (started thread) system) :
    Flow system ∧ ∃ role, Ledger (books system) role := by
  refine reachable_invariant (step config) accepted
    (fun system => Flow system ∧ ∃ role, Ledger (books system) role) (started thread)
    ⟨started_flow thread, _, started_ledger thread⟩ ?_ system reached
  rintro before label after ⟨flow, role, ledger⟩ taken ⟨admitted, fails⟩
  have move := step_move config before after label server flow taken admitted
  rw [fails] at move
  have entry := move_entry before after role flow ledger move
  exact ⟨move_flow before after flow move, entry_ledger _ _ role ledger entry⟩

/-- In every run of a server from `Start` on in which no accept fails, the account of the sessions
holds whenever the system is settled. -/
theorem sessions_accounted (config : Config) (server : config.kind = .server) (thread : Thread)
    (system : System Thread) (reached : Reachable (step config) accepted (started thread) system)
    (settled : Settled system) : Accounted system := by
  obtain ⟨_, role, ledger⟩ := reached_ledger config server thread system reached
  exact ledger_accounted system role ledger settled

/-- `Start` makes two accepts; then two clients are accepted and the second is disconnected,
while `Start` has yet to make the others. -/
def twoClients : List (Label Bool) :=
  List.replicate 11 (.advance false true) ++
  [.dequeue true [(.accept 0 0, 0), (.accept 0 1, 0)]] ++ List.replicate 22 (.advance true true) ++
  [.disconnect true 2, .advance true true, .advance true true,
    .dequeue true [(.disconnect 2, 0)]] ++
  List.replicate 5 (.advance true true)

theorem two_clients_accounted : ∃ system : System Bool,
    Reachable (step ⟨.server, 1, true⟩) accepted (started false) system ∧ Settled system ∧
      (1 ∈ system.sessions ∧ 2 ∉ system.sessions ∧ system.served 1 = true) ∧ Accounted system := by
  obtain ⟨system, reached, viewed⟩ := replay_reachable (step ⟨.server, 1, true⟩) accepted
    (fun before label _ => fromStart before label && !acceptFails before label)
    (fun _ _ _ checked => by simpa [accepted] using checked)
    (fun system : System Bool => ((system.todo false ++ system.todo true).all fun action =>
      !inside action, system.sessions.contains 1, system.sessions.contains 2, system.served 1))
    (true, true, false, true) twoClients (started false) (by decide +kernel)
  simp only [Prod.mk.injEq, List.all_eq_true, List.mem_append, Bool.not_eq_true',
    List.contains_eq_mem, decide_eq_true_eq, decide_eq_false_iff_not] at viewed
  obtain ⟨outside, served, torn, connected⟩ := viewed
  have settled : Settled system := by
    intro thread action member
    cases thread with
    | false => exact outside action (Or.inl member)
    | true => exact outside action (Or.inr member)
  exact ⟨system, reached, settled, ⟨served, torn, connected⟩,
    sessions_accounted ⟨.server, 1, true⟩ rfl false system reached settled⟩

def refusedOnce : List (Label Unit) :=
  ([true, true, true, true, true, false] ++ List.replicate 402 true).map (Label.advance ())

theorem refused_session_stays : ∃ system : System Unit,
    Reachable (step ⟨.server, 1, true⟩) (fun before label _ =>
      fromStart before label = true) (started ())
      system ∧ (∀ thread, system.todo thread = []) ∧ ¬ Accounted system := by
  obtain ⟨system, reached, viewed⟩ := replay_reachable (step ⟨.server, 1, true⟩)
    (fun before label _ => fromStart before label = true)
    (fun before label _ => fromStart before label)
    (fun _ _ _ checked => checked)
    (fun system : System Unit => (system.todo (), system.sessions.contains 1,
      system.acceptEvents.all (·.session ≠ 1), system.served 1))
    ([], true, true, false) refusedOnce (started ()) (by decide +kernel)
  simp only [Prod.mk.injEq, List.contains_iff_mem, List.all_eq_true, decide_eq_true_eq] at viewed
  obtain ⟨idle, there, abandoned, unserved⟩ := viewed
  refine ⟨system, reached, fun _ => idle, fun accounted => ?_⟩
  rcases (accounted 1).mp there with ⟨listener, index, _, found⟩ | served
  · obtain ⟨event, search, same⟩ := Option.map_eq_some_iff.mp found
    exact abandoned event (List.mem_of_find?_eq_some search) same
  · rw [unserved] at served
    cases served

end NetCore.SessionAccounting
