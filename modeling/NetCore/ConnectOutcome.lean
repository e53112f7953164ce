import NetCore.CompletionPort
import NetCore.ServiceCalls

/-! What a connector makes of the end of its `ConnectEx`. The status of the operation is in
the completion packet; `Connector::Dispatch` gets the event and a byte count, neither of which
tells. The single call returns before `Dispatch` when the status is a failure, the batch call
hands over every entry it has listed, so that a failed connect makes a connected session.
A connector connects once, as its socket is bound once, and lives until its connect has ended.
Which session each connector has made is kept beside its weak pointer. -/
namespace NetCore.ConnectOutcome
open scoped List
open TransitionRuns CompletionPort
open ServiceCalls (Service Kind ConnectAnswers connect addNewSession releaseSession)

/-- `connected` is `Connector::_connected`, `session` its `_session`. `made` is the session that
`Dispatch` had made for the connector, `marked` the sessions whose `_connected` was set, `told`
those whose `OnConnected` was called. A call through a null pointer sets `crashed`. -/
structure System where
  service : Service
  inFlight : List Nat
  queue : List (Packet Nat)
  dequeued : List (Packet Nat)
  connected : Nat → Bool
  session : Nat → Option Nat
  made : Nat → Option Nat
  marked : List Nat
  told : List Nat
  crashed : Bool

def System.start (kind : Kind) : System where
  service := .construct kind
  inFlight := []
  queue := []
  dequeued := []
  connected := fun _ => false
  session := fun _ => none
  made := fun _ => none
  marked := []
  told := []
  crashed := false

def setConnected (session : Nat) (system : System) : System :=
  { system with
    service := ServiceCalls.setConnected session system.service
    marked := session :: system.marked
    told := session :: system.told }

/-- `_processConnect`. The flag is set before the session is looked at. -/
def processConnect (connector : Nat) (system : System) : System :=
  let stored := { system with connected := Function.update system.connected connector true }
  match system.session connector with
  | none => { stored with crashed := true }
  | some session => setConnected session stored

/-- `Connector::Dispatch` of its connect event. The byte count is not used. -/
def dispatch (registered : Bool) (connector : Nat) (system : System) : System :=
  let added := addNewSession registered system.service
  processConnect connector { system with
    service := added.1
    session := Function.update system.session connector added.2
    made := Function.update system.made connector (some system.service.created) }

/-- The entries of one call in turn; `registered` answers the registration of each session. -/
def dispatchEntries (registered : Nat → Bool) : List (Nat × BitVec 32) → System → System
  | [], system => system
  | entry :: entries, system =>
      let next := dispatch (registered entry.1) entry.1 system
      if next.crashed then next else dispatchEntries registered entries next

/-- The completion function that is called, the batch one with the number of packets ready. -/
inductive Function where
  | single
  | batch (ready : Nat)
  deriving DecidableEq, Repr

def process (function : Function) (queue : List (Packet Nat)) : Port Nat :=
  match function with
  | .single => (processQueuedCompletionStatus (.holding queue)).2
  | .batch ready => (processQueuedCompletionStatusEx ready (.holding queue)).2

def taken (function : Function) (queue : List (Packet Nat)) : List (Packet Nat) :=
  match function with
  | .single => queue.take 1
  | .batch ready => queue.take (transferred ready)

def dequeue (function : Function) (system : System) : System :=
  { system with
    queue := (process function system.queue).queue
    dequeued := taken function system.queue ++ system.dequeued }

def serve (function : Function) (registered : Nat → Bool) (system : System) : System :=
  dispatchEntries registered (process function system.queue).dispatched (dequeue function system)

inductive Label where
  | connect (connector : Nat) (answers : ConnectAnswers)
  | complete (connector : Nat) (bytes : BitVec 32) (status : Status)
  | serve (function : Function) (registered : Nat → Bool)
  | release (session : Nat)

def System.tried (system : System) : List Nat :=
  system.inFlight ++ (system.queue.map Packet.event ++ system.dequeued.map Packet.event)

def step : Step System Label := fun system label =>
  if system.crashed then none else match label with
  | .connect connector answers =>
      if connector ∈ system.tried then none
      else if system.connected connector = false ∧ connect answers = true then
        some { system with inFlight := connector :: system.inFlight }
      else some system
  | .complete connector bytes status =>
      if connector ∈ system.inFlight then
        some { system with
          inFlight := system.inFlight.erase connector
          queue := system.queue ++ [⟨connector, bytes, status⟩] }
      else none
  | .serve function registered => some (serve function registered system)
  | .release session => some { system with service := (releaseSession session system.service).1 }

/-- A session is created, marked connected and told, and the connector is connected: all of
that or, when not `established`, none of it. -/
structure Shows (system : System) (connector : Nat) (established : Prop) : Prop where
  created : system.made connector ≠ none ↔ established
  marked : (∃ session, system.made connector = some session ∧ session ∈ system.marked) ↔ established
  told : (∃ session, system.made connector = some session ∧ session ∈ system.told) ↔ established
  connected : system.connected connector = true ↔ established

def Established (system : System) (packet : Packet Nat) : Prop :=
  Shows system packet.event (packet.status = .success)

/-- The connect succeeds and its session is registered, or it fails and the single call sees it. -/
def Clean (function : Function) (registered : Nat → Bool) (packet : Packet Nat) : Prop :=
  packet.status = .success ∧ registered packet.event = true ∨
    packet.status ≠ .success ∧ function = .single

instance (function : Function) (registered : Nat → Bool) (packet : Packet Nat) :
    Decidable (Clean function registered packet) :=
  inferInstanceAs (Decidable (_ ∨ _))

structure Numbered (system : System) : Prop where
  made : ∀ connector session, system.made connector = some session →
    session < system.service.created
  marked : ∀ session ∈ system.marked, session < system.service.created
  told : ∀ session ∈ system.told, session < system.service.created

theorem add_new_session_answer (registered : Bool) (service : Service) :
    (addNewSession registered service).2 = if registered then some service.created else none := by
  obtain ⟨members, onGoing, created, opened, served⟩ := service
  cases members <;> cases registered <;> rfl

theorem dispatch_registered (connector : Nat) (system : System) :
    dispatch true connector system = { system with
      service :=
        ServiceCalls.setConnected system.service.created (addNewSession true system.service).1
      session := Function.update system.session connector (some system.service.created)
      made := Function.update system.made connector (some system.service.created)
      connected := Function.update system.connected connector true
      marked := system.service.created :: system.marked
      told := system.service.created :: system.told } := by
  have answer := add_new_session_answer true system.service
  simp only [if_true] at answer
  simp only [dispatch, processConnect, answer, Function.update_self, setConnected]

/-- Without one it ends in the null pointer that `_session.lock()` returns. -/
theorem dispatch_unregistered (connector : Nat) (system : System) :
    dispatch false connector system = { system with
      service := (addNewSession false system.service).1
      session := Function.update system.session connector none
      made := Function.update system.made connector (some system.service.created)
      connected := Function.update system.connected connector true
      crashed := true } := by
  have answer := add_new_session_answer false system.service
  simp only [Bool.false_eq_true, if_false] at answer
  simp only [dispatch, processConnect, answer, Function.update_self]

@[simp] theorem dispatch_made (registered : Bool) (connector : Nat) (system : System) :
    (dispatch registered connector system).made =
      Function.update system.made connector (some system.service.created) := by
  cases registered with
  | true => rw [dispatch_registered]
  | false => rw [dispatch_unregistered]

@[simp] theorem dispatch_connected (registered : Bool) (connector : Nat) (system : System) :
    (dispatch registered connector system).connected =
      Function.update system.connected connector true := by
  cases registered with
  | true => rw [dispatch_registered]
  | false => rw [dispatch_unregistered]

@[simp] theorem dispatch_created (registered : Bool) (connector : Nat) (system : System) :
    (dispatch registered connector system).service.created = system.service.created + 1 := by
  cases registered with
  | true => simp [dispatch_registered, ServiceCalls.setConnected]
  | false => simp [dispatch_unregistered]

theorem dispatch_marks (registered : Bool) (connector : Nat) (system : System) (session : Nat) :
    (session ∈ (dispatch registered connector system).marked ↔
      registered = true ∧ session = system.service.created ∨ session ∈ system.marked) ∧
    (session ∈ (dispatch registered connector system).told ↔
      registered = true ∧ session = system.service.created ∨ session ∈ system.told) := by
  cases registered with
  | true => simp [dispatch_registered]
  | false => simp [dispatch_unregistered]

theorem dispatch_older (registered : Bool) (connector : Nat) (system : System) (session : Nat)
    (older : session < system.service.created) :
    (session ∈ (dispatch registered connector system).marked ↔ session ∈ system.marked) ∧
      (session ∈ (dispatch registered connector system).told ↔ session ∈ system.told) := by
  have other : session ≠ system.service.created := Nat.ne_of_lt older
  obtain ⟨marked, told⟩ := dispatch_marks registered connector system session
  rw [marked, told]
  simp [other]

theorem dispatch_numbered (registered : Bool) (connector : Nat) (system : System)
    (numbered : Numbered system) : Numbered (dispatch registered connector system) := by
  have newest : ∀ session, registered = true ∧ session = system.service.created →
      session < system.service.created + 1 := by
    rintro session ⟨-, rfl⟩
    exact Nat.lt_succ_self _
  constructor
  case made =>
    intro other session made
    rw [dispatch_made] at made
    rw [dispatch_created]
    by_cases same : other = connector
    · subst same
      rw [Function.update_self, Option.some.injEq] at made
      omega
    · rw [Function.update_of_ne same] at made
      exact Nat.lt_succ_of_lt (numbered.made other session made)
  case marked =>
    intro session member
    rw [dispatch_created]
    rcases (dispatch_marks registered connector system session).1.mp member with new | old
    · exact newest session new
    · exact Nat.lt_succ_of_lt (numbered.marked session old)
  case told =>
    intro session member
    rw [dispatch_created]
    rcases (dispatch_marks registered connector system session).2.mp member with new | old
    · exact newest session new
    · exact Nat.lt_succ_of_lt (numbered.told session old)

theorem shows_congr (before after : System) (connector : Nat) (established : Prop)
    (made : after.made connector = before.made connector)
    (connected : after.connected connector = before.connected connector)
    (marks : ∀ session, before.made connector = some session → (session ∈ after.marked ↔
      session ∈ before.marked) ∧ (session ∈ after.told ↔ session ∈ before.told)) :
    Shows after connector established ↔ Shows before connector established := by
  have marked : (∃ session, after.made connector = some session ∧ session ∈ after.marked) ↔
      ∃ session, before.made connector = some session ∧ session ∈ before.marked := by
    rw [made]
    exact exists_congr fun session => and_congr_right fun own => (marks session own).1
  have told : (∃ session, after.made connector = some session ∧ session ∈ after.told) ↔
      ∃ session, before.made connector = some session ∧ session ∈ before.told := by
    rw [made]
    exact exists_congr fun session => and_congr_right fun own => (marks session own).2
  constructor
  · intro shown
    exact ⟨made ▸ shown.created, marked.symm.trans shown.marked, told.symm.trans shown.told,
      connected ▸ shown.connected⟩
  · intro shown
    exact ⟨made.symm ▸ shown.created, marked.trans shown.marked, told.trans shown.told,
      connected.symm ▸ shown.connected⟩

theorem dispatch_other (registered : Bool) (connector other : Nat) (system : System)
    (established : Prop) (numbered : Numbered system) (different : other ≠ connector) :
    Shows (dispatch registered connector system) other established ↔
        Shows system other established := by
  apply shows_congr
  case made => rw [dispatch_made, Function.update_of_ne different]
  case connected => rw [dispatch_connected, Function.update_of_ne different]
  case marks =>
    intro session made
    exact dispatch_older registered connector system session (numbered.made other session made)

theorem dispatch_shows (connector : Nat) (system : System) :
    Shows (dispatch true connector system) connector True := by
  rw [dispatch_registered]
  constructor <;> simp

theorem dispatch_shows_nothing (connector : Nat) (system : System) (established : Prop)
    (numbered : Numbered system) :
    ¬ Shows (dispatch false connector system) connector established := by
  intro shown
  have created : established := shown.created.mp (by simp)
  obtain ⟨session, made, member⟩ := shown.marked.mpr created
  rw [dispatch_made, Function.update_self, Option.some.injEq] at made
  subst made
  rcases (dispatch_marks false connector system _).1.mp member with ⟨ready, -⟩ | old
  · cases ready
  · exact lt_irrefl _ (numbered.marked _ old)

theorem shows_iff (system : System) (connector : Nat) (first second : Prop) (same : first ↔ second)
    (shown : Shows system connector first) : Shows system connector second :=
  propext same ▸ shown

@[simp] theorem dispatch_crashed (registered : Bool) (connector : Nat) (system : System)
    (alive : system.crashed = false) :
    (dispatch registered connector system).crashed = !registered := by
  cases registered with
  | true => simp [dispatch_registered, alive]
  | false => simp [dispatch_unregistered]

def transit (system : System) : List Nat × List (Packet Nat) × List (Packet Nat) :=
  (system.inFlight, system.queue, system.dequeued)

theorem dispatch_transit (registered : Bool) (connector : Nat) (system : System) :
    transit (dispatch registered connector system) = transit system := by
  cases registered with
  | true => rw [dispatch_registered, transit, transit]
  | false => rw [dispatch_unregistered, transit, transit]

section Entries
variable (registered : Nat → Bool)

theorem entries_transit (entries : List (Nat × BitVec 32)) (system : System) :
    transit (dispatchEntries registered entries system) = transit system := by
  induction entries generalizing system with
  | nil => rfl
  | cons entry entries ih =>
      have next := dispatch_transit (registered entry.1) entry.1 system
      unfold dispatchEntries
      dsimp only
      split
      · exact next
      · exact (ih _).trans next

theorem entries_numbered (entries : List (Nat × BitVec 32)) (system : System)
    (numbered : Numbered system) :
    Numbered (dispatchEntries registered entries system) := by
  induction entries generalizing system with
  | nil => exact numbered
  | cons entry entries ih =>
      have next := dispatch_numbered (registered entry.1) entry.1 system numbered
      unfold dispatchEntries
      dsimp only
      split
      · exact next
      · exact ih _ next

theorem entries_other (entries : List (Nat × BitVec 32)) (system : System) (connector : Nat)
    (established : Prop) (numbered : Numbered system) (absent : connector ∉ entries.map Prod.fst) :
    Shows (dispatchEntries registered entries system) connector established ↔
      Shows system connector established := by
  induction entries generalizing system with
  | nil => exact Iff.rfl
  | cons entry entries ih =>
      rw [List.map_cons, List.mem_cons, not_or] at absent
      have first :=
        dispatch_other (registered entry.1) entry.1 connector system established numbered absent.1
      have next := dispatch_numbered (registered entry.1) entry.1 system numbered
      unfold dispatchEntries
      dsimp only
      split
      · exact first
      · exact (ih _ next absent.2).trans first

theorem entries_connect (entries : List (Nat × BitVec 32)) (system : System)
    (alive : system.crashed = false) (numbered : Numbered system)
    (once : (entries.map Prod.fst).Nodup) (all : ∀ entry ∈ entries, registered entry.1 = true) :
    ∀ entry ∈ entries, Shows (dispatchEntries registered entries system) entry.1 True := by
  induction entries generalizing system with
  | nil =>
      intro entry member
      cases member
  | cons entry entries ih =>
      obtain ⟨alone, rest⟩ := List.nodup_cons.mp once
      have ready := all entry List.mem_cons_self
      have lives := dispatch_crashed true entry.1 system alive
      have next := dispatch_numbered true entry.1 system numbered
      unfold dispatchEntries
      simp only [ready, lives, Bool.not_true, Bool.false_eq_true, if_false]
      intro other member
      rcases List.mem_cons.mp member with rfl | member
      · exact (entries_other registered entries _ _ _ next alone).mpr (dispatch_shows _ system)
      · exact ih _ lives next rest (fun entry later =>
          all entry (List.mem_cons_of_mem _ later)) other member

/-- Where every packet handed over shows its outcome, they all succeeded and were registered:
the first that did not would show. -/
theorem entries_established (packets : List (Packet Nat)) (system : System)
    (alive : system.crashed = false) (numbered : Numbered system)
    (once : (packets.map Packet.event).Nodup)
    (shown : ∀ packet ∈ packets,
      Established (dispatchEntries registered (packets.map Packet.payload) system) packet) :
    ∀ packet ∈ packets, packet.status = .success ∧ registered packet.event = true := by
  induction packets generalizing system with
  | nil =>
      intro packet member
      cases member
  | cons packet packets ih =>
      obtain ⟨alone, rest⟩ := List.nodup_cons.mp once
      have absent : packet.event ∉ (packets.map Packet.payload).map Prod.fst := by
        rw [List.map_map]
        exact alone
      have lives := dispatch_crashed (registered packet.event) packet.event system alive
      have next := dispatch_numbered (registered packet.event) packet.event system numbered
      rw [List.map_cons] at shown
      unfold dispatchEntries at shown
      simp only [Packet.payload, lives] at shown
      cases ready : registered packet.event with
      | false =>
          simp only [ready, Bool.not_false, if_true] at shown
          exact absurd (shown packet List.mem_cons_self)
            (dispatch_shows_nothing _ system _ numbered)
      | true =>
          simp only [ready, Bool.not_true, Bool.false_eq_true, if_false] at shown lives next
          have first :=
            (entries_other registered _ _ _ _ next absent).mp (shown packet List.mem_cons_self)
          have succeeded :=
            first.created.mp ((dispatch_shows packet.event system).created.mpr trivial)
          intro other member
          rcases List.mem_cons.mp member with rfl | member
          · exact ⟨succeeded, ready⟩
          · exact ih _ lives next rest (fun packet later =>
              shown packet (List.mem_cons_of_mem _ later)) other member

end Entries

def delivered (function : Function) (packet : Packet Nat) : Bool :=
  match function with
  | .single => packet.succeeded
  | .batch _ => true

theorem process_takes (function : Function) (queue : List (Packet Nat)) :
    (process function queue).dispatched =
        ((taken function queue).filter (delivered function)).map Packet.payload ∧
      taken function queue ++ (process function queue).queue = queue := by
  cases function with
  | single =>
      cases queue with
      | nil => exact ⟨rfl, rfl⟩
      | cons packet rest =>
          obtain ⟨left, grown⟩ := single_call_takes packet rest (.holding (packet :: rest)) rfl
          have first : taken .single (packet :: rest) = [packet] := rfl
          have kind : delivered .single packet = packet.succeeded := rfl
          constructor
          · simp only [process, first, grown, List.filter_cons, List.filter_nil, kind]
            cases packet.succeeded <;> rfl
          · rw [process, first, left, List.singleton_append]
  | batch ready =>
      have all : (taken (.batch ready) queue).filter (delivered (.batch ready)) =
          taken (.batch ready) queue :=
        List.filter_eq_self.mpr fun _ _ => rfl
      rw [all]
      by_cases waiting : queue = []
      · subst waiting
        obtain ⟨idle, kept⟩ := batch_call_empty ready (.holding ([] : List (Packet Nat))) rfl
        constructor
        · rw [process, kept, taken, List.take_nil]
          rfl
        · rw [process, idle, taken, List.take_nil, List.append_nil]
      · obtain ⟨left, grown⟩ := batch_call_takes ready (.holding queue) waiting
        constructor
        · exact grown
        · rw [process, left, taken]
          exact List.take_append_drop _ _

section Serve
variable (function : Function) (registered : Nat → Bool) (system : System)

def handed : List (Packet Nat) := (taken function system.queue).filter (delivered function)

theorem mem_handed (packet : Packet Nat) :
    packet ∈ handed function system ↔
      packet ∈ taken function system.queue ∧ delivered function packet = true :=
  List.mem_filter

theorem serve_unfolds : serve function registered system =
    dispatchEntries registered ((handed function system).map Packet.payload)
      (dequeue function system) := by
  rw [serve, (process_takes function system.queue).1, handed]

theorem dequeue_numbered (numbered : Numbered system) : Numbered (dequeue function system) :=
  ⟨numbered.made, numbered.marked, numbered.told⟩

theorem dequeue_shows (connector : Nat) (established : Prop) :
    Shows (dequeue function system) connector established ↔ Shows system connector established :=
  shows_congr _ _ connector established rfl rfl fun _ _ => ⟨Iff.rfl, Iff.rfl⟩

theorem serve_other (connector : Nat) (established : Prop) (numbered : Numbered system)
    (absent : connector ∉ (handed function system).map Packet.event) :
    Shows (serve function registered system) connector established ↔
        Shows system connector established := by
  have outside : connector ∉ ((handed function system).map Packet.payload).map Prod.fst := by
    rw [List.map_map]
    exact absent
  have numbers := dequeue_numbered function system numbered
  rw [serve_unfolds, entries_other registered _ _ connector established numbers outside]
  exact dequeue_shows function system connector established

theorem serve_numbered (numbered : Numbered system) : Numbered (serve function registered system) :=
  entries_numbered registered _ _ (dequeue_numbered function system numbered)

theorem clean_delivered (packet : Packet Nat) (clean : Clean function registered packet)
    (given : delivered function packet = true) :
    packet.status = .success ∧ registered packet.event = true := by
  rcases clean with succeeded | ⟨failed, rfl⟩
  · exact succeeded
  · exact absurd (of_decide_eq_true given) failed

theorem undelivered_clean (packet : Packet Nat) (kept : delivered function packet ≠ true) :
    packet.status ≠ .success ∧ function = .single := by
  cases function with
  | single => exact ⟨fun success => kept (decide_eq_true success), rfl⟩
  | batch ready => exact absurd rfl kept

/-- One call: the outcomes of all the packets it takes are shown exactly when each is clean. -/
theorem serve_established_iff (alive : system.crashed = false) (numbered : Numbered system)
    (once : ((taken function system.queue).map Packet.event).Nodup)
    (pending : ∀ packet ∈ taken function system.queue, Shows system packet.event False) :
    (∀ packet ∈ taken function system.queue,
      Established (serve function registered system) packet) ↔
      ∀ packet ∈ taken function system.queue, Clean function registered packet := by
  have numbers := dequeue_numbered function system numbered
  have single : ((handed function system).map Packet.event).Nodup :=
    once.sublist (List.filter_sublist.map Packet.event)
  constructor
  · intro shown packet member
    have succeeded : ∀ packet ∈ handed function system,
        packet.status = .success ∧ registered packet.event = true := by
      apply entries_established registered _ (dequeue function system) alive numbers single
      intro packet inside
      rw [← serve_unfolds]
      exact shown packet ((mem_handed function system packet).mp inside).1
    by_cases given : delivered function packet = true
    · exact .inl (succeeded packet ((mem_handed function system packet).mpr ⟨member, given⟩))
    · exact .inr (undelivered_clean function packet given)
  · intro clean packet member
    by_cases given : delivered function packet = true
    · have succeeded := clean_delivered function registered packet (clean packet member) given
      have inside := (mem_handed function system packet).mpr ⟨member, given⟩
      have ready : ∀ entry ∈ (handed function system).map Packet.payload,
          registered entry.1 = true := by
        intro entry delivering
        obtain ⟨other, othering, rfl⟩ := List.mem_map.mp delivering
        obtain ⟨taking, giving⟩ := (mem_handed function system other).mp othering
        exact (clean_delivered function registered other (clean other taking) giving).2
      have connected := entries_connect registered _ (dequeue function system) alive numbers
        (by rw [List.map_map]; exact single) ready packet.payload (List.mem_map_of_mem inside)
      rw [← serve_unfolds] at connected
      exact shows_iff _ _ True _ (iff_of_true trivial succeeded.1) connected
    · have failed := (undelivered_clean function packet given).1
      have absent : packet.event ∉ (handed function system).map Packet.event := by
        intro inside
        obtain ⟨other, othering, same⟩ := List.mem_map.mp inside
        obtain ⟨taking, giving⟩ := (mem_handed function system other).mp othering
        have equal := List.inj_on_of_nodup_map once taking member same
        exact given (equal ▸ giving)
      have unshown :=
        (serve_other function registered system packet.event False numbered absent).mpr
          (pending packet member)
      exact shows_iff _ _ False _ (iff_of_false id failed) unshown

end Serve

/-- Each connector has one connect under way at most, and nothing is shown of those whose
packets no call has taken. -/
structure Sound (system : System) : Prop where
  numbered : Numbered system
  once : system.tried.Nodup
  pending : ∀ connector, connector ∉ system.dequeued.map Packet.event → Shows system connector False

theorem sound_start (kind : Kind) : Sound (.start kind) := by
  constructor
  case numbered => constructor <;> simp [System.start]
  case once => exact List.nodup_nil
  case pending =>
    intro connector _
    constructor <;> simp [System.start]

theorem serve_transit (function : Function) (registered : Nat → Bool) (system : System) :
    transit (serve function registered system) = transit (dequeue function system) :=
  entries_transit registered _ (dequeue function system)

theorem serve_dequeued (function : Function) (registered : Nat → Bool) (system : System) :
    (serve function registered system).dequeued = taken function system.queue ++ system.dequeued :=
  congrArg (fun places => places.2.2) (serve_transit function registered system)

theorem serve_tried (function : Function) (registered : Nat → Bool) (system : System) :
    (serve function registered system).tried.Perm system.tried := by
  have places := serve_transit function registered system
  simp only [transit, Prod.mk.injEq] at places
  obtain ⟨inFlight, queue, dequeued⟩ := places
  have whole := congrArg (List.map Packet.event) (process_takes function system.queue).2
  rw [List.map_append] at whole
  rw [System.tried, System.tried, inFlight, queue, dequeued, ← whole, List.append_assoc]
  simp only [dequeue, List.map_append]
  exact (List.perm_append_comm_assoc _ _ _).append_left system.inFlight

theorem taken_once (function : Function) (system : System) (once : system.tried.Nodup) :
    ((taken function system.queue).map Packet.event).Nodup ∧
      ∀ packet ∈ taken function system.queue, packet.event ∉ system.dequeued.map Packet.event := by
  have apart := List.nodup_append.mp (List.nodup_append.mp once).2.1
  have part : (taken function system.queue).Sublist system.queue := by
    cases function with
    | single => exact List.take_sublist 1 _
    | batch ready => exact List.take_sublist _ _
  constructor
  · exact apart.1.sublist (part.map Packet.event)
  · intro packet member gone
    exact apart.2.2 _ (List.mem_map_of_mem (part.subset member)) _ gone rfl

theorem serve_sound (function : Function) (registered : Nat → Bool) (system : System)
    (sound : Sound system) : Sound (serve function registered system) := by
  have moved := serve_tried function registered system
  have dequeued := serve_dequeued function registered system
  constructor
  case numbered => exact serve_numbered function registered system sound.numbered
  case once => exact moved.nodup_iff.mpr sound.once
  case pending =>
    intro connector absent
    rw [dequeued, List.map_append, List.mem_append, not_or] at absent
    have outside : connector ∉ (handed function system).map Packet.event :=
      fun inside => absent.1 (List.map_subset _ (List.filter_subset_self _) inside)
    exact (serve_other function registered system connector False sound.numbered outside).mpr
      (sound.pending connector absent.2)

theorem release_session_created (session : Nat) (service : Service) :
    (releaseSession session service).1.created = service.created := by
  obtain ⟨members, onGoing, created, opened, served⟩ := service
  cases members with
  | client present connector => cases present <;> rfl
  | clientEx sessions connectors => rfl
  | server sessions listener => rfl

structure Frame (before after : System) : Prop where
  created : after.service.created = before.service.created
  made : after.made = before.made
  marked : after.marked = before.marked
  told : after.told = before.told
  connected : after.connected = before.connected
  dequeued : after.dequeued = before.dequeued

theorem frame_shows (before after : System) (frame : Frame before after) (connector : Nat)
    (established : Prop) :
    Shows after connector established ↔ Shows before connector established := by
  apply shows_congr
  case made => rw [frame.made]
  case connected => rw [frame.connected]
  case marks =>
    intro session _
    rw [frame.marked, frame.told]
    exact ⟨Iff.rfl, Iff.rfl⟩

theorem frame_sound (before after : System) (sound : Sound before) (frame : Frame before after)
    (once : after.tried.Nodup) : Sound after := by
  obtain ⟨made, marked, told⟩ := sound.numbered
  constructor
  case numbered =>
    rw [← frame.created, ← frame.made] at made
    rw [← frame.created, ← frame.marked] at marked
    rw [← frame.created, ← frame.told] at told
    exact ⟨made, marked, told⟩
  case once => exact once
  case pending =>
    intro connector absent
    rw [frame.dequeued] at absent
    exact (frame_shows before after frame connector False).mpr (sound.pending connector absent)

theorem complete_tried (connector : Nat) (bytes : BitVec 32) (status : Status) (system : System)
    (waits : connector ∈ system.inFlight) :
    System.tried { system with
      inFlight := system.inFlight.erase connector
      queue := system.queue ++ [⟨connector, bytes, status⟩] } ~ system.tried := by
  have queued : (((system.queue ++ [(⟨connector, bytes, status⟩ : Packet Nat)]).map Packet.event) ++
      system.dequeued.map Packet.event).Perm
      (connector :: (system.queue.map Packet.event ++ system.dequeued.map Packet.event)) := by
    rw [List.map_append, List.append_assoc]
    exact List.perm_middle
  have removed := List.perm_cons_erase waits
  calc _ ~ system.inFlight.erase connector ++
          (connector :: (system.queue.map Packet.event ++ system.dequeued.map Packet.event)) :=
        queued.append_left _
    _ ~ connector :: system.inFlight.erase connector ++
          (system.queue.map Packet.event ++ system.dequeued.map Packet.event) := List.perm_middle
    _ ~ system.tried := removed.symm.append_right _

theorem step_cases (before : System) (label : Label) (after : System) (once : before.tried.Nodup)
    (stepped : step before label = some after) :
    (∃ function registered, label = .serve function registered ∧ before.crashed = false ∧
      after = serve function registered before) ∨ Frame before after ∧ after.tried.Nodup := by
  unfold step at stepped
  split at stepped
  case isTrue => cases stepped
  case isFalse alive =>
    cases label with
    | connect connector answers =>
        dsimp only at stepped
        split at stepped
        case isTrue => cases stepped
        case isFalse untried =>
          split at stepped
          case isTrue =>
            cases stepped
            exact .inr ⟨⟨rfl, rfl, rfl, rfl, rfl, rfl⟩, List.nodup_cons.mpr ⟨untried, once⟩⟩
          case isFalse =>
            cases stepped
            exact .inr ⟨⟨rfl, rfl, rfl, rfl, rfl, rfl⟩, once⟩
    | complete connector bytes status =>
        simp only [Option.ite_none_right_eq_some, Option.some.injEq] at stepped
        obtain ⟨waits, rfl⟩ := stepped
        have moved := complete_tried connector bytes status before waits
        exact .inr ⟨⟨rfl, rfl, rfl, rfl, rfl, rfl⟩, moved.nodup_iff.mpr once⟩
    | serve function registered =>
        cases stepped
        exact .inl ⟨function, registered, rfl, Bool.eq_false_of_not_eq_true alive, rfl⟩
    | release session =>
        cases stepped
        have created := release_session_created session before.service
        exact .inr ⟨⟨created, rfl, rfl, rfl, rfl, rfl⟩, once⟩

theorem step_sound (before : System) (label : Label) (after : System) (sound : Sound before)
    (stepped : step before label = some after) : Sound after := by
  rcases step_cases before label after sound.once stepped with
    ⟨function, registered, _, _, rfl⟩ | ⟨frame, once⟩
  · exact serve_sound function registered before sound
  · exact frame_sound before after sound frame once

theorem reachable_sound (admitted : Condition System Label) (kind : Kind) (system : System)
    (reached : Reachable step admitted (.start kind) system) : Sound system := by
  apply reachable_invariant step admitted Sound (.start kind) (sound_start kind)
  case keeps =>
    intro before label after sound stepped _
    exact step_sound before label after sound stepped
  case reached => exact reached

theorem call_established_iff (function : Function) (registered : Nat → Bool) (system : System)
    (sound : Sound system) (alive : system.crashed = false) :
    (∀ packet ∈ taken function system.queue,
      Established (serve function registered system) packet) ↔
      ∀ packet ∈ taken function system.queue, Clean function registered packet := by
  obtain ⟨once, fresh⟩ := taken_once function system sound.once
  exact serve_established_iff function registered system alive sound.numbered once
    fun packet member => sound.pending packet.event (fresh packet member)

def cleanCalls : Condition System Label := fun before label _ =>
  ∀ function registered, label = .serve function registered →
    ∀ packet ∈ taken function before.queue, Clean function registered packet

theorem step_established (before : System) (label : Label) (after : System) (sound : Sound before)
    (shown : ∀ packet ∈ before.dequeued, Established before packet)
    (stepped : step before label = some after) (clean : cleanCalls before label after) :
    ∀ packet ∈ after.dequeued, Established after packet := by
  rcases step_cases before label after sound.once stepped with
    ⟨function, registered, rfl, alive, rfl⟩ | ⟨frame, _⟩
  · rw [serve_dequeued]
    intro packet member
    rcases List.mem_append.mp member with new | old
    · exact (call_established_iff function registered before sound alive).mpr
        (clean function registered rfl) packet new
    · have absent : packet.event ∉ (handed function before).map Packet.event := by
        intro inside
        obtain ⟨other, othering, same⟩ := List.mem_map.mp inside
        have fresh :=
          (taken_once function before sound.once).2 other (List.mem_of_mem_filter othering)
        exact fresh (same ▸ List.mem_map_of_mem old)
      exact (serve_other function registered before _ _ sound.numbered absent).mpr
        (shown packet old)
  · rw [frame.dequeued]
    intro packet member
    exact (frame_shows before after frame _ _).mpr (shown packet member)

/-- The outcomes of the packets of a call are shown exactly when each succeeded and had its
session registered or failed and was seen by the single call; in runs of such calls every connect
that has ended is shown for what it was. -/
theorem connect_outcome_shown (kind : Kind) :
    (∀ system, Reachable step (fun _ _ _ => True) (.start kind) system → system.crashed = false →
      ∀ function registered,
        (∀ packet ∈ taken function system.queue,
          Established (serve function registered system) packet) ↔
          ∀ packet ∈ taken function system.queue, Clean function registered packet) ∧
    ∀ system, Reachable step cleanCalls (.start kind) system →
      ∀ packet ∈ system.dequeued, Established system packet := by
  constructor
  · intro system reached alive function registered
    exact call_established_iff function registered system
      (reachable_sound _ kind system reached) alive
  · intro system reached
    have both : Sound system ∧ ∀ packet ∈ system.dequeued, Established system packet := by
      apply reachable_invariant step cleanCalls
        (fun system => Sound system ∧ ∀ packet ∈ system.dequeued,
          Established system packet) (.start kind)
        ⟨sound_start kind, fun packet member => (by cases member)⟩
      case keeps =>
        intro before label after holds stepped clean
        exact ⟨step_sound before label after holds.1 stepped,
          step_established before label after holds.1 holds.2 stepped clean⟩
      case reached => exact reached
    exact both.2

def started : ConnectAnswers := ⟨true, true, true, true⟩

/-- The peer's answer to a connect that is refused (`ERROR_CONNECTION_REFUSED`). -/
def refusal : Status := .failure 1225#32

/-- One connect succeeds and is taken by the batch call, another is refused and the single call
takes it. -/
theorem refused_connect_not_shown :
    ∃ system, Reachable step cleanCalls (.start .clientEx) system ∧
      Established system ⟨0, 0#32, .success⟩ ∧ Established system ⟨1, 0#32, refusal⟩ := by
  have waiting : Reachable step cleanCalls (.start .clientEx) _ :=
    .next (.connect 1 started) (.next (.connect 0 started) .start rfl nofun) rfl nofun
  have ended : Reachable step cleanCalls (.start .clientEx) _ :=
    .next (.complete 1 0#32 refusal) (.next (.complete 0 0#32 .success) waiting rfl nofun) rfl nofun
  have first : Reachable step cleanCalls (.start .clientEx) _ :=
    .next (.serve (.batch 1) fun _ => true) ended rfl (by
      rintro function registered ⟨⟩
      decide)
  have both : Reachable step cleanCalls (.start .clientEx) _ :=
    .next (.serve .single fun _ => true) first rfl (by
      rintro function registered ⟨⟩
      decide)
  have shown := (connect_outcome_shown .clientEx).2 _ both
  exact ⟨_, both, shown _ (.tail _ (.head _)), shown _ (.head _)⟩

/-- The batch call takes the packet of a refused connect, and the connector is connected. -/
theorem refused_connect_shown :
    ¬ ∀ (kind : Kind) (system : System), Reachable step (fun _ _ _ => True) (.start kind) system →
      system.crashed = false → ∀ (function : Function),
        ∀ packet ∈ taken function system.queue,
          Established (serve function (fun _ => true) system) packet := by
  intro shown
  have ended : Reachable step (fun _ _ _ => True) (.start .client) _ :=
    .next (.complete 0 0#32 refusal) (.next (.connect 0 started) .start rfl trivial) rfl trivial
  have connected := (shown .client _ ended rfl (.batch 1) ⟨0, 0#32, refusal⟩ (.head _)).connected
  cases connected.mp rfl

end NetCore.ConnectOutcome
