import Mathlib.Data.List.ReduceOption
import Mathlib.Logic.Function.Basic

/-! The sessions of ClientServiceEx.cpp. A session that is torn down leaves a null slot in
`_sessions`, and slots disappear only when all sessions are released. `Send` tests every
slot before it calls through it; `DisconnectAll` does not. The operations are whole calls,
one after the other: the vector has no lock, and calls that overlap are not modelled.
Sessions are numbered in the order of their creation. -/
namespace NetCore.ClientServiceEx

structure Service where
  sessions : List (Option Nat)
  connected : Nat → Bool
  created : Nat

def Service.construct : Service where
  sessions := []
  connected := fun _ => false
  created := 0

/-- A member function is called through a null slot. -/
inductive Fault where
  | nullSlot
  deriving DecidableEq, Repr

/-- `AddNewSession`: the session stays in the vector when its handle is not registered. -/
def addNewSession (service : Service) (registered : Bool) : Service × Option Nat :=
  ({ service with
    sessions := service.sessions ++ [some service.created], created := service.created + 1 },
    if registered then some service.created else none)

def setConnected (service : Service) (session : Nat) : Service :=
  { service with connected := Function.update service.connected session true }

/-- `Session::Disconnect` up to the call of `DisconnectEx`: whether it is made. -/
def disconnect (service : Service) (session : Nat) : Service × Bool :=
  ({ service with connected := Function.update service.connected session false },
    service.connected session)

/-- `*find(…) = nullptr` on the first slot that holds the session. -/
def releaseSlot (session : Nat) : List (Option Nat) → List (Option Nat)
  | [] => []
  | slot :: rest => if slot = some session then none :: rest else slot :: releaseSlot session rest

def releaseSession (service : Service) (session : Nat) : Service × Bool :=
  ({ service with sessions := releaseSlot session service.sessions },
    decide (some session ∈ service.sessions))

/-- `Session::_clear`, as far as the service sees it. -/
def clear (service : Service) (session : Nat) : Service :=
  let released := (releaseSession service session).1
  { released with connected := Function.update released.connected session false }

def sendLoop (connected : Nat → Bool) : List (Option Nat) → List Nat
  | [] => []
  | none :: rest => sendLoop connected rest
  | some session :: rest =>
      if connected session then session :: sendLoop connected rest else sendLoop connected rest

def disconnectLoop : List (Option Nat) → Service → Except Fault (Service × List Nat)
  | [], service => .ok (service, [])
  | none :: _, _ => .error .nullSlot
  | some session :: rest, service =>
      match disconnectLoop rest (disconnect service session).1 with
      | .error fault => .error fault
      | .ok (after, reached) => .ok (after, session :: reached)

def disconnectAll (service : Service) : Except Fault (Service × List Nat) :=
  disconnectLoop service.sessions service

def releaseAllSessions (service : Service) : Service := { service with sessions := [] }

/-- `Stop`, without the connectors and the flag that no operation here reads. -/
def stop (service : Service) : Service := releaseAllSessions service

inductive Operation where
  | addNewSession (registered : Bool)
  | setConnected (session : Nat)
  | disconnect (session : Nat)
  | clear (session : Nat)
  | send
  | disconnectAll
  | releaseAllSessions
  | stop
  deriving DecidableEq, Repr

def operate (service : Service) : Operation → Except Fault (Service × List Nat)
  | .addNewSession registered => .ok ((addNewSession service registered).1, [])
  | .setConnected session => .ok (setConnected service session, [])
  | .disconnect session => .ok ((disconnect service session).1, [])
  | .clear session => .ok (clear service session, [])
  | .send => .ok (service, sendLoop service.connected service.sessions)
  | .disconnectAll => disconnectAll service
  | .releaseAllSessions => .ok (releaseAllSessions service, [])
  | .stop => .ok (stop service, [])

/-! What the vector stands for: the sessions added and not released since, in order. -/

def presentAfter (present : List Nat) (created : Nat) : Operation → List Nat
  | .addNewSession _ => present ++ [created]
  | .clear session => present.erase session
  | .releaseAllSessions => []
  | .stop => []
  | _ => present

def expected (present : List Nat) (connected : Nat → Bool) : Operation → List Nat
  | .send => present.filter connected
  | .disconnectAll => present
  | _ => []

def RunsSafely : Service → List Nat → List Operation → Prop
  | _, _, [] => True
  | service, present, operation :: rest =>
      match operate service operation with
      | .error _ => False
      | .ok (after, reached) => reached = expected present service.connected operation ∧
          RunsSafely after (presentAfter present service.created operation) rest

def Avoids : Service → List Operation → Prop
  | _, [] => True
  | service, operation :: rest =>
      (operation = .disconnectAll → none ∉ service.sessions) ∧
        match operate service operation with
        | .error _ => True
        | .ok (after, _) => Avoids after rest

@[simp] theorem reduce_append_some (slots : List (Option Nat)) (session : Nat) :
    (slots ++ [some session]).reduceOption = slots.reduceOption ++ [session] := by
  simp [List.reduceOption_append]

theorem release_slot_present (session : Nat) (slots : List (Option Nat)) :
    (releaseSlot session slots).reduceOption = slots.reduceOption.erase session := by
  induction slots with
  | nil => rfl
  | cons slot rest ih =>
      cases slot with
      | none =>
          rw [releaseSlot, if_neg (by simp), List.reduceOption_cons_of_none,
            List.reduceOption_cons_of_none, ih]
      | some other =>
          by_cases same : other = session
          · subst same
            rw [releaseSlot, if_pos rfl, List.reduceOption_cons_of_none,
              List.reduceOption_cons_of_some, List.erase_cons_head]
          · rw [releaseSlot, if_neg (by simpa using same), List.reduceOption_cons_of_some,
              List.reduceOption_cons_of_some, ih, List.erase_cons_tail (by simpa using same)]

theorem send_loop_reaches (connected : Nat → Bool) (slots : List (Option Nat)) :
    sendLoop connected slots = slots.reduceOption.filter connected := by
  induction slots with
  | nil => rfl
  | cons slot rest ih =>
      cases slot with
      | none => rw [sendLoop, List.reduceOption_cons_of_none, ih]
      | some session =>
          rw [sendLoop, List.reduceOption_cons_of_some, List.filter_cons, ih]

/-- `DisconnectAll` gets through exactly when no slot is null, and then calls everybody. -/
theorem disconnect_loop_reaches (slots : List (Option Nat)) (service : Service)
    (present : none ∉ slots) :
    ∃ after, disconnectLoop slots service = .ok (after, slots.reduceOption) ∧
      after.sessions = service.sessions := by
  induction slots generalizing service with
  | nil => exact ⟨service, rfl, rfl⟩
  | cons slot rest ih =>
      cases slot with
      | none => exact absurd List.mem_cons_self present
      | some session =>
          obtain ⟨after, ended, sessions⟩ := ih (disconnect service session).1
            (fun member => present (List.mem_cons_of_mem _ member))
          refine ⟨after, ?_, sessions⟩
          rw [disconnectLoop, ended, List.reduceOption_cons_of_some]

theorem disconnect_loop_faults (slots : List (Option Nat)) (service : Service)
    (hole : none ∈ slots) :
    disconnectLoop slots service = .error .nullSlot := by
  induction slots generalizing service with
  | nil => cases hole
  | cons slot rest ih =>
      cases slot with
      | none => rfl
      | some session =>
          rcases List.mem_cons.mp hole with same | later
          · cases same
          · rw [disconnectLoop, ih (disconnect service session).1 later]

/-- One operation: it is safe exactly when it is not a `DisconnectAll` over a null slot,
and the vector goes on to stand for the sessions present. -/
theorem operate_safe (service : Service) (operation : Operation)
    (avoided : operation = .disconnectAll → none ∉ service.sessions) :
    ∃ after, operate service operation =
        .ok (after, expected service.sessions.reduceOption service.connected operation) ∧
      after.sessions.reduceOption =
        presentAfter service.sessions.reduceOption service.created operation := by
  cases operation with
  | addNewSession registered => exact ⟨_, rfl, reduce_append_some _ _⟩
  | setConnected session => exact ⟨_, rfl, rfl⟩
  | disconnect session => exact ⟨_, rfl, rfl⟩
  | clear session => exact ⟨_, rfl, release_slot_present session service.sessions⟩
  | send => exact ⟨service, by rw [operate, send_loop_reaches, expected], rfl⟩
  | disconnectAll =>
      obtain ⟨after, ended, sessions⟩ :=
        disconnect_loop_reaches service.sessions service (avoided rfl)
      exact ⟨after, ended, congrArg List.reduceOption sessions⟩
  | releaseAllSessions => exact ⟨_, rfl, rfl⟩
  | stop => exact ⟨_, rfl, rfl⟩

theorem runs_safely_from (operations : List Operation) (service : Service) :
    RunsSafely service service.sessions.reduceOption operations ↔ Avoids service operations := by
  induction operations generalizing service with
  | nil => exact Iff.rfl
  | cons operation rest ih =>
      by_cases avoided : operation = .disconnectAll → none ∉ service.sessions
      · obtain ⟨after, done, present⟩ := operate_safe service operation avoided
        simp only [RunsSafely, Avoids, done, ← present, ih after, true_and]
        exact ⟨fun later => ⟨avoided, later⟩, fun both => both.2⟩
      · simp only [not_forall, not_not] at avoided
        obtain ⟨rfl, hole⟩ := avoided
        have faults : operate service .disconnectAll = .error .nullSlot :=
          disconnect_loop_faults service.sessions service hole
        simp only [RunsSafely, Avoids, faults, true_implies, and_true]
        exact ⟨False.elim, fun none => none hole⟩

/-- A sequence of operations is safe exactly when it does not call `DisconnectAll` after a
session has been released and before all are. -/
theorem client_service_safe_iff (operations : List Operation) :
    RunsSafely .construct [] operations ↔ Avoids .construct operations :=
  runs_safely_from operations .construct

/-- A session is set up, disconnects and is torn down; then `DisconnectAll` is called. -/
theorem disconnect_all_after_teardown :
    ¬ ∀ operations : List Operation, RunsSafely .construct [] operations := by
  intro promised
  have safe :=
    promised [.addNewSession true, .setConnected 0, .disconnect 0, .clear 0, .disconnectAll]
  exact safe.2.2.2.2

end NetCore.ClientServiceEx
