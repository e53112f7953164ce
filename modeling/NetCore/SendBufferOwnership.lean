import NetCore.SendBufferPool
import NetCore.UniquePlacement

/-! Ownership of the send buffers. Every buffer is in the pool, in the
`TLS_SendBuffer` of one thread or in transit in one thread, in every run: the pool,
the thread-local slots and the deleter that pushes a buffer back only pass it on. -/
namespace NetCore.SendBufferOwnership
open TransitionRuns UniquePlacement ByteMemory PacketFraming SendBufferPool

variable {Thread : Type} [DecidableEq Thread]

inductive Place (Thread : Type) where
  | pool
  | tls (thread : Thread)
  | transit (thread : Thread)
  deriving DecidableEq

def contents (system : System Thread) : Place Thread → List Nat
  | .pool => system.pool
  | .tls thread => (system.tls thread).toList
  | .transit thread => (system.phase thread).transit.toList

def Owned (system : System Thread) : Prop :=
  Placed (contents system) fun sendBuffer => sendBuffer < system.created

omit [DecidableEq Thread] in
theorem start_owned : Owned (System.start : System Thread) where
  once place := by cases place <;> simp [contents, System.start, Phase.transit]
  apart item left right member := by
    cases left <;> simp [contents, System.start, Phase.transit] at member
  covers item := by
    refine ⟨fun live => absurd live (Nat.not_lt_zero _), ?_⟩
    rintro ⟨place, member⟩
    cases place <;> simp [contents, System.start, Phase.transit] at member

@[simp] theorem resume_transit (caller : Caller) : caller.resume.transit = none := by
  cases caller <;> rfl

@[simp] theorem popped_transit (caller : Caller) (sendBuffer : Nat) :
    (Phase.popped caller sendBuffer).transit = some sendBuffer := rfl

@[simp] theorem releasing_transit (caller : Caller) (sendBuffer : Nat) :
    (Phase.releasing caller sendBuffer).transit = some sendBuffer := rfl

omit [DecidableEq Thread] in
theorem contents_elsewhere (before after : System Thread) (thread : Thread) (place : Place Thread)
    (pool : place ≠ .pool ∨ after.pool = before.pool)
    (tls : place ≠ .tls thread ∨ after.tls thread = before.tls thread)
    (transit : place ≠ .transit thread ∨
      (after.phase thread).transit = (before.phase thread).transit)
    (others : ∀ other, other ≠ thread →
      after.tls other = before.tls other ∧ after.phase other = before.phase other) :
    contents after place = contents before place := by
  cases place with
  | pool =>
      rcases pool with notPool | same
      · exact absurd rfl notPool
      · exact same
  | tls other =>
      by_cases mine : other = thread
      · subst other
        rcases tls with notTls | same
        · exact absurd rfl notTls
        · rw [contents, contents, same]
      · rw [contents, contents, (others other mine).1]
  | transit other =>
      by_cases mine : other = thread
      · subst other
        rcases transit with notTransit | same
        · exact absurd rfl notTransit
        · rw [contents, contents, same]
      · rw [contents, contents, (others other mine).2]

theorem enter_owned (system : System Thread) (thread : Thread) (phase : Phase)
    (owned : Owned system) (same : phase.transit = (system.phase thread).transit) :
    Owned (enter system thread phase) := by
  apply placed_reorder (contents system) _ _ owned
  intro place
  exact .of_eq (contents_elsewhere system _ thread place (.inr rfl) (.inr rfl)
    (.inr (by simpa [enter] using same)) fun other different => ⟨rfl, by simp [enter, different]⟩)

theorem push_owned (system : System Thread) (thread : Thread) (sendBuffer : Nat) (next : Phase)
    (owned : Owned system) (carried : (system.phase thread).transit = some sendBuffer)
    (arrives : next.transit = none) : Owned (push system thread sendBuffer next) := by
  refine placed_transfer (contents system) _ _ owned (.transit thread) .pool [sendBuffer] []
    (by simp) ?_ ?_ ?_ ?_
  · simp [contents, carried]
  · simp [contents, push, enter, arrives]
  · exact .rfl
  · intro place notTransit notPool
    exact .of_eq (contents_elsewhere system _ thread place (.inl notPool) (.inr rfl)
      (.inl notTransit) fun other different => ⟨rfl, by simp [push, enter, different]⟩)

theorem assign_owned (system : System Thread) (thread : Thread) (caller : Caller) (sendBuffer : Nat)
    (owned : Owned system) (carried : (system.phase thread).transit = some sendBuffer) :
    Owned (assign system thread caller sendBuffer) := by
  apply placed_exchange (contents system) _ _ owned (.tls thread) (.transit thread) (by simp)
  · simp [contents, assign, carried]
  · cases held : system.tls thread with
    | none => simp [contents, assign, enter, held]
    | some old => simp [contents, assign, enter, held]
  · intro place notTls notTransit
    exact .of_eq (contents_elsewhere system _ thread place (.inr rfl)
      (.inl notTls) (.inl notTransit) fun other different => by simp [assign, enter, different])

theorem take_owned (system : System Thread) (thread : Thread) (caller : Caller) (sendBuffer : Nat)
    (owned : Owned system) (free : (system.phase thread).transit = none)
    (last : system.pool.getLast? = some sendBuffer) :
    Owned { enter system thread (.popped caller sendBuffer) with
        pool := system.pool.dropLast } := by
  have whole : system.pool = system.pool.dropLast ++ [sendBuffer] :=
    (List.dropLast_append_getLast? sendBuffer last).symm
  refine placed_transfer (contents system) _ _ owned .pool (.transit thread) [sendBuffer]
    system.pool.dropLast (by simp) ?_ ?_ ?_ ?_
  · simp only [contents]
    rw [whole, List.dropLast_concat]
    exact List.perm_append_comm
  · exact .rfl
  · simp [contents, enter, free]
  · intro place notPool notTransit
    exact .of_eq (contents_elsewhere system _ thread place (.inl notPool)
      (.inr rfl) (.inl notTransit)
      fun other different => ⟨rfl, by simp [enter, different]⟩)

/-- `xxnew<SendBuffer>()` on an empty pool. -/
theorem create_owned (system : System Thread) (thread : Thread) (caller : Caller)
    (owned : Owned system) (free : (system.phase thread).transit = none) :
    Owned { enter system thread (.popped caller system.created) with
            buffers := Function.update system.buffers system.created SendBuffer.construct
            created := system.created + 1 } := by
  refine placed_admit (contents system) _ _ _ owned (.transit thread) [system.created] (by simp)
    (by simp) ?_ ?_ ?_
  · simp [contents, enter, free]
  · intro place notTransit
    exact .of_eq (contents_elsewhere system _ thread place (.inr rfl) (.inr rfl) (.inl notTransit)
      fun other different => ⟨rfl, by simp [enter, different]⟩)
  · intro sendBuffer
    simp only [List.mem_singleton]
    omega

/-- The destructor of `TLS_SendBuffer` at thread exit. -/
theorem exit_owned (system : System Thread) (thread : Thread) (owned : Owned system)
    (free : (system.phase thread).transit = none) :
    Owned { enter system thread (((system.tls thread).map Phase.exiting).getD .exited) with
            tls := Function.update system.tls thread none } := by
  apply placed_exchange (contents system) _ _ owned (.tls thread) (.transit thread) (by simp)
  · simp [contents, free]
  · cases held : system.tls thread with
    | none => simp [contents, enter, held, Phase.transit]
    | some old => simp [contents, enter, held, Phase.transit]
  · intro place notTls notTransit
    exact .of_eq (contents_elsewhere system _ thread place (.inr rfl)
      (.inl notTls) (.inl notTransit)
      fun other different => by simp [enter, different])

theorem reserve_owned (system : System Thread) (thread : Thread) (sendBuffer size : Nat)
    (owned : Owned system) (free : (system.phase thread).transit = none) :
    Owned (reserveFrom system thread sendBuffer size) := by
  unfold reserveFrom
  split
  · exact owned
  · exact enter_owned system thread .idle owned free.symm

theorem advance_owned (before after : System Thread) (thread : Thread) (owned : Owned before)
    (taken : advance before thread = some after) : Owned after := by
  unfold advance at taken
  cases stands : before.phase thread with
  | idle => simp [stands] at taken
  | exited => simp [stands] at taken
  | popping caller =>
      have free : (before.phase thread).transit = none := by rw [stands]; rfl
      cases last : before.pool.getLast? with
      | none =>
          simp only [stands, last, Option.some.injEq] at taken
          exact taken ▸ enter_owned before thread _ owned free.symm
      | some sendBuffer =>
          simp only [stands, last, Option.some.injEq] at taken
          exact taken ▸ take_owned before thread caller sendBuffer owned free last
  | creating caller =>
      simp only [stands, Option.some.injEq] at taken
      exact taken ▸ create_owned before thread caller owned (by rw [stands]; rfl)
  | popped caller sendBuffer =>
      have carried : (before.phase thread).transit = some sendBuffer := by rw [stands]; rfl
      cases caller with
      | initTls =>
          simp only [stands, Option.some.injEq] at taken
          exact taken ▸ assign_owned before thread _ sendBuffer owned carried
      | reserve size =>
          simp only [stands, Option.some.injEq] at taken
          exact taken ▸ assign_owned before thread _ sendBuffer owned carried
      | holder =>
          simp only [stands, Option.some.injEq] at taken
          exact taken ▸ enter_owned before thread _ owned (by rw [carried]; rfl)
  | releasing caller sendBuffer =>
      simp only [stands, Option.some.injEq] at taken
      exact taken ▸ push_owned before thread sendBuffer _ owned (by rw [stands]; rfl)
        (resume_transit caller)
  | reserving size =>
      simp only [stands] at taken
      obtain ⟨sendBuffer, _, same⟩ := Option.map_eq_some_iff.mp taken
      exact same ▸ reserve_owned before thread sendBuffer size owned (by rw [stands]; rfl)
  | exiting sendBuffer =>
      simp only [stands, Option.some.injEq] at taken
      exact taken ▸ push_owned before thread sendBuffer _ owned (by rw [stands]; rfl) rfl

theorem step_owned (before after : System Thread) (label : Label Thread) (owned : Owned before)
    (taken : step before label = some after) : Owned after := by
  unfold step at taken
  split at taken
  · simp at taken
  cases label with
  | initTls thread =>
      simp only [Option.ite_none_right_eq_some, Option.some.injEq] at taken
      exact taken.2 ▸ enter_owned before thread _ owned (by rw [taken.1]; rfl)
  | pop thread =>
      simp only [Option.ite_none_right_eq_some, Option.some.injEq] at taken
      exact taken.2 ▸ enter_owned before thread _ owned (by rw [taken.1]; rfl)
  | reserve thread size =>
      simp only at taken
      split at taken
      case h_1 idle _ =>
        rw [Option.some.injEq] at taken
        apply taken ▸ enter_owned before thread _ owned
        rw [idle]
        split <;> rfl
      case h_2 => simp at taken
  | exit thread =>
      simp only [Option.ite_none_right_eq_some, Option.some.injEq] at taken
      exact taken.2 ▸ exit_owned before thread owned (by rw [taken.1]; rfl)
  | advance thread => exact advance_owned before after thread owned taken
  | write region bytes =>
      simp only [Option.ite_none_right_eq_some, Option.some.injEq] at taken
      exact taken.2 ▸ owned

inductive Change (before after : System Thread) : Label Thread → Prop where
  | none (label : Label Thread) (buffers : after.buffers = before.buffers)
      (created : after.created = before.created) (regions : after.regions = before.regions)
      (crash : after.crash = before.crash) :
      Change before after label
  | constructed (label : Label Thread)
      (buffers : after.buffers = Function.update before.buffers before.created SendBuffer.construct)
      (created : after.created = before.created + 1) (regions : after.regions = before.regions)
      (crash : after.crash = before.crash) :
      Change before after label
  | reserved (thread : Thread) (sendBuffer size : Nat) (held : before.tls thread = some sendBuffer)
      (stands : before.phase thread = .reserving size)
      (grown : SendBuffer) (offset : Nat)
      (answered : (before.buffers sendBuffer).reserve size = .ok (grown, offset))
      (buffers : after.buffers = Function.update before.buffers sendBuffer grown)
      (created : after.created = before.created)
      (regions : after.regions = before.regions ++ [⟨sendBuffer, offset, size⟩])
      (idle : after.phase thread = .idle)
      (crash : after.crash = before.crash) :
      Change before after (.advance thread)
  | refused (thread : Thread) (sendBuffer size : Nat) (held : before.tls thread = some sendBuffer)
      (stands : before.phase thread = .reserving size) (large : maxBufferSize < size)
      (buffers : after.buffers = before.buffers) (created : after.created = before.created)
      (regions : after.regions = before.regions) : Change before after (.advance thread)
  | written (region : Region) (bytes : List UInt8) (given : region ∈ before.regions)
      (fits : bytes.length ≤ region.size)
      (buffers : after.buffers = Function.update before.buffers region.sendBuffer
        ((before.buffers region.sendBuffer).overwrite region.offset bytes.length bytes))
      (created : after.created = before.created) (regions : after.regions = before.regions)
      (crash : after.crash = before.crash) :
      Change before after (.write region bytes)

theorem reserve_change (system : System Thread) (thread : Thread) (sendBuffer size : Nat)
    (held : system.tls thread = some sendBuffer) (stands : system.phase thread = .reserving size) :
    Change system (reserveFrom system thread sendBuffer size) (.advance thread) := by
  cases answered : (system.buffers sendBuffer).reserve size with
  | error error =>
      have large : maxBufferSize < size := by
        by_contra accepted
        simp [SendBuffer.reserve, accepted] at answered
      simp only [reserveFrom, answered]
      exact .refused thread sendBuffer size held stands large rfl rfl rfl
  | ok result =>
      obtain ⟨grown, offset⟩ := result
      simp only [reserveFrom, answered]
      exact .reserved thread sendBuffer size held stands grown offset answered rfl rfl rfl
        (by simp [enter]) rfl

theorem advance_change (before after : System Thread) (thread : Thread)
    (taken : advance before thread = some after) : Change before after (.advance thread) := by
  unfold advance at taken
  cases stands : before.phase thread with
  | idle => simp [stands] at taken
  | exited => simp [stands] at taken
  | popping caller =>
      cases last : before.pool.getLast? with
      | none =>
          simp only [stands, last, Option.some.injEq] at taken
          exact taken ▸ .none _ rfl rfl rfl rfl
      | some sendBuffer =>
          simp only [stands, last, Option.some.injEq] at taken
          exact taken ▸ .none _ rfl rfl rfl rfl
  | creating caller =>
      simp only [stands, Option.some.injEq] at taken
      exact taken ▸ .constructed _ rfl rfl rfl rfl
  | popped caller sendBuffer =>
      cases caller <;> simp only [stands, Option.some.injEq] at taken <;>
        exact taken ▸ .none _ rfl rfl rfl rfl
  | releasing caller sendBuffer =>
      simp only [stands, Option.some.injEq] at taken
      exact taken ▸ .none _ rfl rfl rfl rfl
  | reserving size =>
      simp only [stands] at taken
      obtain ⟨sendBuffer, held, same⟩ := Option.map_eq_some_iff.mp taken
      exact same ▸ reserve_change before thread sendBuffer size held stands
  | exiting sendBuffer =>
      simp only [stands, Option.some.injEq] at taken
      exact taken ▸ .none _ rfl rfl rfl rfl

theorem step_change (before after : System Thread) (label : Label Thread)
    (taken : step before label = some after) : Change before after label := by
  unfold step at taken
  split at taken
  · simp at taken
  cases label with
  | initTls thread =>
      simp only [Option.ite_none_right_eq_some, Option.some.injEq] at taken
      exact taken.2 ▸ .none _ rfl rfl rfl rfl
  | pop thread =>
      simp only [Option.ite_none_right_eq_some, Option.some.injEq] at taken
      exact taken.2 ▸ .none _ rfl rfl rfl rfl
  | reserve thread size =>
      simp only at taken
      split at taken
      · rw [Option.some.injEq] at taken
        exact taken ▸ .none _ rfl rfl rfl rfl
      · simp at taken
  | exit thread =>
      simp only [Option.ite_none_right_eq_some, Option.some.injEq] at taken
      exact taken.2 ▸ .none _ rfl rfl rfl rfl
  | advance thread => exact advance_change before after thread taken
  | write region bytes =>
      simp only [Option.ite_none_right_eq_some, Option.some.injEq] at taken
      obtain ⟨⟨given, fits⟩, same⟩ := taken
      exact same ▸ .written region bytes given fits rfl rfl rfl rfl

omit [DecidableEq Thread] in
theorem tls_created (system : System Thread) (owned : Owned system) (thread : Thread)
    (sendBuffer : Nat) (held : system.tls thread = some sendBuffer) : sendBuffer < system.created :=
  (owned.covers sendBuffer).mpr ⟨.tls thread, by simp [contents, held]⟩

theorem run_owned (admitted : Condition (System Thread) (Label Thread)) (system : System Thread)
    (reached : Reachable step admitted System.start system) : Owned system :=
  reachable_invariant step admitted Owned System.start start_owned
    (fun before label after owned taken _ => step_owned before after label owned taken)
    system reached

theorem step_regions (before after : System Thread) (label : Label Thread)
    (taken : step before label = some after) : before.regions <+: after.regions := by
  cases step_change before after label taken with
  | none _ _ _ regions | refused _ _ _ _ _ _ _ _ regions => exact regions ▸ List.prefix_rfl
  | constructed _ _ _ regions _ => exact regions ▸ List.prefix_rfl
  | reserved _ _ _ _ _ _ _ _ _ _ regions _ _ => exact ⟨_, regions.symm⟩
  | written _ _ _ _ _ _ regions _ => exact regions ▸ List.prefix_rfl

end NetCore.SendBufferOwnership
