import NetCore.ServiceCalls

/-! What a failed call leaves behind. `AddNewSession` of the two clients stores the session
before its handle is registered, and `Start` stores each connector or the listener before it is
used; neither takes anything back, so a call that fails at or after that point has changed the
service. The server's `AddNewSession` registers first. A `Start` refused by its conditions
changes nothing. `ClientServiceEx` keeps its bound on connectors where no other failure
occurs: its `Start` appends to the vector that an earlier failure has filled. -/
namespace NetCore.FailedCalls
open TransitionRuns ServiceCalls

def FailureKeeps (config : Config) (service : Service) : Call → Prop
  | .start answers => ∀ error after, start config answers service = some (.error error, after) →
      after.members = service.members ∧ after.onGoing = service.onGoing
  | .addNewSession registered => (addNewSession registered service).2 = none →
      (addNewSession registered service).1.members = service.members
  | _ => True

def Answered (config : Config) (answers : StartAnswers) : Members → Prop
  | .client _ _ => connect (answers.connects 0) = true
  | .clientEx _ _ => ∀ index < config.sessionCount, connect (answers.connects index) = true
  | .server _ _ => listens answers.listen = true

def Registers (registered : Bool) : Members → Prop
  | .server _ _ => True
  | _ => registered = true

def Harmless (config : Config) (service : Service) : Call → Prop
  | .start answers =>
      checkConditions config service = .ok () → Answered config answers service.members
  | .addNewSession registered => Registers registered service.members
  | _ => True

theorem connect_loop_succeeds (connects : Nat → ConnectAnswers) (remaining index : Nat)
    (connectors : List Nat) (opened : Nat) :
    (connectLoop connects remaining index connectors opened).1 = true ↔
      ∀ turn < remaining, connect (connects (index + turn)) = true := by
  induction remaining generalizing index connectors opened with
  | zero => simp [connectLoop]
  | succ remaining ih =>
      unfold connectLoop
      by_cases first : connect (connects index) = true
      · rw [if_pos first, ih]
        constructor
        · intro later turn bound
          cases turn with
          | zero => exact first
          | succ turn =>
              have found := later turn (by omega)
              rwa [Nat.add_right_comm] at found
        · intro all turn bound
          have found := all (turn + 1) (by omega)
          rwa [← Nat.add_assoc, Nat.add_right_comm] at found
      · rw [if_neg first]
        constructor
        · intro got
          cases got
        · intro all
          exact absurd (all 0 (by omega)) first

/-- The connectors made stay in the vector, the one that failed among them. -/
theorem connect_loop_length (connects : Nat → ConnectAnswers) (remaining index : Nat)
    (connectors : List Nat) (opened : Nat) :
    if (connectLoop connects remaining index connectors opened).1 then
      (connectLoop connects remaining index connectors opened).2.1.length =
        connectors.length + remaining
    else connectors.length <
        (connectLoop connects remaining index connectors opened).2.1.length := by
  induction remaining generalizing index connectors opened with
  | zero => simp [connectLoop]
  | succ remaining ih =>
      unfold connectLoop
      split
      case isTrue =>
        have later := ih (index + 1) (connectors ++ [opened]) (opened + 1)
        rw [List.length_append, List.length_singleton] at later
        split at later
        case isTrue got =>
          rw [if_pos got]
          omega
        case isFalse failed =>
          rw [if_neg failed]
          omega
      case isFalse => simp

theorem start_connections_fails (config : Config) (answers : StartAnswers) (service : Service) :
    (∃ error after, startConnections config answers service = some (.error error, after)) ↔
      ¬ Answered config answers service.members := by
  obtain ⟨members, onGoing, created, opened, served⟩ := service
  cases members with
  | client session connector =>
      by_cases got : connect (answers.connects 0) = true <;> simp [startConnections, Answered, got]
  | clientEx sessions connectors =>
      have through := connect_loop_succeeds answers.connects config.sessionCount 0 connectors opened
      simp only [Nat.zero_add] at through
      simp only [startConnections, Answered, ← through]
      split <;> simp [*]
  | server sessions listener =>
      by_cases got : listens answers.listen = true <;> simp [startConnections, Answered, got]

theorem start_connections_changes (config : Config) (answers : StartAnswers)
    (service after : Service) (error : Errors) (sound : Sound service)
    (failed : startConnections config answers service = some (.error error, after)) :
    after.members ≠ service.members := by
  have fresh : service.opened ∉ endpoints service.members :=
    fun member => lt_irrefl _ (sound.attached service.opened member)
  obtain ⟨members, onGoing, created, opened, served⟩ := service
  cases members with
  | client session connector =>
      simp only [startConnections] at failed
      split at failed
      · cases failed
      · cases failed
        rintro ⟨⟩
        exact fresh (by simp [endpoints])
  | clientEx sessions connectors =>
      have grown := connect_loop_length answers.connects config.sessionCount 0 connectors opened
      simp only [startConnections] at failed
      split at failed
      · cases failed
      case isFalse short =>
        cases failed
        rw [if_neg short] at grown
        intro same
        have lists := (Members.clientEx.inj same).2
        rw [lists] at grown
        exact lt_irrefl _ grown
  | server sessions listener =>
      simp only [startConnections] at failed
      split at failed
      · obtain ⟨accepting, _, same⟩ := Option.map_eq_some_iff.mp failed
        cases same
      · cases failed
        rintro ⟨⟩
        exact fresh (by simp [endpoints])

theorem start_failure_keeps (config : Config) (answers : StartAnswers) (service : Service)
    (sound : Sound service) :
    FailureKeeps config service (.start answers) ↔ Harmless config service (.start answers) := by
  constructor
  · intro keeps passed
    by_contra unanswered
    obtain ⟨error, after, failed⟩ := (start_connections_fails config answers service).mpr unanswered
    have started : start config answers service = some (.error error, after) := by
      unfold start
      rw [passed]
      exact failed
    exact start_connections_changes config answers service after error sound failed
      (keeps error after started).1
  · intro harmless error after started
    rcases start_cases config answers service after _ started with ⟨_, _, _, rfl⟩ | ⟨passed, failed⟩
    · exact ⟨rfl, rfl⟩
    · exact absurd (harmless passed) ((start_connections_fails config answers service).mp
        ⟨error, after, failed⟩)

theorem add_new_session_failure_keeps (config : Config) (registered : Bool) (service : Service)
    (sound : Sound service) :
    FailureKeeps config service (.addNewSession registered) ↔
      Harmless config service (.addNewSession registered) := by
  have fresh := created_not_held service sound
  obtain ⟨members, onGoing, created, opened, served⟩ := service
  cases registered with
  | true => cases members <;> simp [FailureKeeps, Harmless, Registers, addNewSession]
  | false =>
      cases members with
      | client session connector =>
          have other : session ≠ some created := by
            rintro rfl
            exact fresh (by simp [held])
          simpa [FailureKeeps, Harmless, Registers, addNewSession] using other.symm
      | clientEx sessions connectors => simp [FailureKeeps, Harmless, Registers, addNewSession]
      | server sessions listener => simp [FailureKeeps, Harmless, Registers, addNewSession]

theorem failure_keeps_iff_harmless (config : Config) (call : Call) (service : Service)
    (sound : Sound service) :
    FailureKeeps config service call ↔ Harmless config service call := by
  cases call with
  | start answers => exact start_failure_keeps config answers service sound
  | addNewSession registered => exact add_new_session_failure_keeps config registered service sound
  | stop => exact Iff.rfl
  | setConnected session => exact Iff.rfl
  | clear session => exact Iff.rfl
  | releaseAllSessions => exact Iff.rfl

/-! The bound on the connectors, over runs without the failures above. -/

def capacity (config : Config) : Members → Nat
  | .clientEx _ _ => config.sessionCount
  | _ => 1

structure Bounded (config : Config) (service : Service) : Prop where
  idle : service.onGoing = false → endpoints service.members = []
  within : (endpoints service.members).length ≤ capacity config service.members

theorem bounded_construct (config : Config) (kind : Kind) : Bounded config (.construct kind) := by
  cases kind <;>
    exact ⟨fun _ => rfl, Nat.zero_le _⟩

@[simp] theorem add_new_session_on_going (registered : Bool) (service : Service) :
    (addNewSession registered service).1.onGoing = service.onGoing := by
  obtain ⟨members, onGoing, created, opened, served⟩ := service
  cases members <;> cases registered <;> rfl

@[simp] theorem add_new_session_capacity (config : Config) (registered : Bool) (service : Service) :
    capacity config (addNewSession registered service).1.members =
        capacity config service.members := by
  obtain ⟨members, onGoing, created, opened, served⟩ := service
  cases members <;> cases registered <;> rfl

theorem add_new_session_bounded (config : Config) (registered : Bool) (service : Service)
    (bounded : Bounded config service) : Bounded config (addNewSession registered service).1 := by
  constructor
  case idle => simpa using bounded.idle
  case within => simpa using bounded.within

theorem start_connections_bounded (config : Config) (answers : StartAnswers)
    (service after : Service) (result : Except Errors Unit)
    (answered : Answered config answers service.members) (empty : endpoints service.members = [])
    (taken : startConnections config answers service = some (result, after)) :
    Bounded config after := by
  obtain ⟨members, onGoing, created, opened, served⟩ := service
  cases members with
  | client session connector =>
      have got : connect (answers.connects 0) = true := answered
      simp only [startConnections, got, if_true] at taken
      cases taken
      exact ⟨fun stopped => (by cases stopped), le_refl 1⟩
  | clientEx sessions connectors =>
      obtain rfl : connectors = [] := empty
      have through : (connectLoop answers.connects config.sessionCount 0 [] opened).1 = true := by
        rw [connect_loop_succeeds]
        simpa only [Nat.zero_add, Answered] using answered
      have filled := connect_loop_length answers.connects config.sessionCount 0 [] opened
      rw [if_pos through, List.length_nil, Nat.zero_add] at filled
      simp only [startConnections, through, if_true] at taken
      cases taken
      exact ⟨fun stopped => (by cases stopped), le_of_eq filled⟩
  | server sessions listener =>
      have got : listens answers.listen = true := answered
      simp only [startConnections, got, if_true] at taken
      obtain ⟨accepting, looped, same⟩ := Option.map_eq_some_iff.mp taken
      -- The accept loop adds sessions and touches neither the listener nor the flag.
      have one := accept_loop_keeps
        (fun service => (endpoints service.members).length = 1 ∧
          capacity config service.members = 1)
        (fun registered service holds => by simpa using holds) _ _ _ _ accepting ⟨rfl, rfl⟩ looped
      cases same
      exact ⟨fun stopped => (by cases stopped), by rw [one.1, one.2]⟩

theorem check_conditions_passed (config : Config) (service : Service)
    (passed : checkConditions config service = .ok ()) : service.onGoing = false := by
  unfold checkConditions at passed
  split at passed
  · cases passed
  case isFalse stopped => exact Bool.eq_false_of_not_eq_true stopped

theorem release_session_bounded (config : Config) (session : Nat) (service : Service)
    (bounded : Bounded config service) : Bounded config (releaseSession session service).1 := by
  obtain ⟨members, onGoing, created, opened, served⟩ := service
  cases members with
  | client present connector => cases present <;> exact ⟨bounded.idle, bounded.within⟩
  | clientEx sessions connectors => exact ⟨bounded.idle, bounded.within⟩
  | server sessions listener => exact ⟨bounded.idle, bounded.within⟩

theorem step_bounded (config : Config) (before : Service) (call : Call) (after : Service)
    (bounded : Bounded config before) (taken : step config before call = some after)
    (harmless : Harmless config before call) : Bounded config after := by
  cases call with
  | start answers =>
      obtain ⟨⟨result, _⟩, started, rfl⟩ := Option.map_eq_some_iff.mp taken
      rcases start_cases config answers before _ result
        started with ⟨_, _, _, rfl⟩ | ⟨passed, connected⟩
      · exact bounded
      · have empty := bounded.idle (check_conditions_passed config before passed)
        exact start_connections_bounded config answers before _ result
          (harmless passed) empty connected
  | stop =>
      cases taken
      obtain ⟨members, onGoing, created, opened, served⟩ := before
      cases members <;> exact ⟨fun _ => rfl, Nat.zero_le _⟩
  | addNewSession registered =>
      simp only [step, Option.ite_none_right_eq_some, Option.some.injEq] at taken
      obtain ⟨_, rfl⟩ := taken
      exact add_new_session_bounded config registered before bounded
  | setConnected session =>
      simp only [step, Option.ite_none_right_eq_some, Option.some.injEq] at taken
      obtain ⟨_, rfl⟩ := taken
      exact ⟨bounded.idle, bounded.within⟩
  | clear session =>
      simp only [step, Option.ite_none_right_eq_some, Option.some.injEq] at taken
      obtain ⟨_, rfl⟩ := taken
      have released := release_session_bounded config session before bounded
      exact ⟨released.idle, released.within⟩
  | releaseAllSessions =>
      cases taken
      obtain ⟨members, onGoing, created, opened, served⟩ := before
      cases members <;> exact ⟨bounded.idle, bounded.within⟩

theorem reachable_bounded (config : Config) (kind : Kind) (service : Service)
    (reached : Reachable (step config) (fun before call _ => Harmless config before call)
      (.construct kind) service) : Bounded config service := by
  apply reachable_invariant (step config) _ (Bounded config) (.construct kind)
    (bounded_construct config kind)
  case keeps =>
    intro before call after bounded taken harmless
    exact step_bounded config before call after bounded taken harmless
  case reached => exact reached

/-- A failed call changes nothing exactly when it is none of those that store first, and runs
without those keep the multi-session client within its number of connectors. -/
theorem failed_calls_change_nothing (config : Config) (kind : Kind) :
    (∀ service, Reachable (step config) (fun _ _ _ => True) (.construct kind) service →
      ∀ call, FailureKeeps config service call ↔ Harmless config service call) ∧
    ∀ service, Reachable (step config) (fun before call _ => Harmless config before call)
        (.construct kind) service →
      ∀ sessions connectors, service.members = .clientEx sessions connectors →
        connectors.length ≤ config.sessionCount := by
  constructor
  · intro service reached call
    exact failure_keeps_iff_harmless config call service
      (reachable_sound config _ kind service reached)
  · intro service reached sessions connectors several
    have bounded := (reachable_bounded config kind service reached).within
    rw [several] at bounded
    exact bounded

/-- Two connections are started, and a second `Start` is refused. -/
theorem refused_start_changes_nothing :
    ∃ service,
        Reachable (step (complete 2)) (fun before call _ => Harmless (complete 2) before call)
        (.construct .clientEx) service ∧
      (endpoints service.members).length ≤ 2 ∧
      FailureKeeps (complete 2) service (.start granted) := by
  have reached :
      Reachable (step (complete 2)) (fun before call _ => Harmless (complete 2) before call)
      (.construct .clientEx) ⟨.clientEx [] [0, 1], true, 0, 2, fun _ => false⟩ :=
    .next (.start granted) .start rfl fun _ _ _ => rfl
  have unconditional : Reachable (step (complete 2)) (fun _ _ _ => True)
      (.construct .clientEx) ⟨.clientEx [] [0, 1], true, 0, 2, fun _ => false⟩ :=
    .next (.start granted) .start rfl trivial
  refine ⟨_, reached, (failed_calls_change_nothing (complete 2) .clientEx).2 _ reached _ _ rfl, ?_⟩
  exact ((failed_calls_change_nothing (complete 2) .clientEx).1 _ unconditional
    (.start granted)).mpr
    fun passed => by cases passed

def refused : StartAnswers := { granted with connects := fun _ => ⟨true, true, true, false⟩ }

/-- `ConnectEx` fails, and `Start` is tried again: the connector of the first try is still there. -/
theorem failed_start_keeps_connector :
    ¬ FailureKeeps (complete 1) (.construct .clientEx) (.start refused) ∧
    ¬ ∀ service, Reachable (step (complete 1)) (fun _ _ _ => True) (.construct .clientEx) service →
      ∀ sessions connectors, service.members = .clientEx sessions connectors →
        connectors.length ≤ 1 := by
  constructor
  · intro keeps
    cases (keeps .appClientserviceConnectFailed _ rfl).1
  · intro bounded
    have reached : Reachable (step (complete 1)) (fun _ _ _ => True) (.construct .clientEx)
        ⟨.clientEx [] [0, 1], true, 0, 2, fun _ => false⟩ :=
      .next (.start granted) (.next (.start refused) .start rfl trivial) rfl trivial
    exact absurd (bounded _ reached [] [0, 1] rfl) (by decide)

end NetCore.FailedCalls
