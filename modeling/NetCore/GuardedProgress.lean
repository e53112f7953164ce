import NetCore.LockProgress
import NetCore.EndingRuns
import NetCore.ContainerHistories

/-! Calls on a guarded object come back. From every state of every run, as long as no wait has run
into the time-out, the threads can finish without a new call: first whoever holds the lock, each one
alone, then the others one after the other. So no interleaving of the lock's steps and of the guards
of the member functions leads into a deadlock. A code has to say how much it has left when it runs
alone. -/
namespace NetCore.GuardedProgress
open TransitionRuns EndingRuns ReaderWriterLock LockExclusion GuardNesting HeldGuards Linearizations
  GuardedObjects LockProgress

section Nesting
variable {Thread : Type} [DecidableEq Thread] (tlsId : Thread → BitVec 32)
  (system : GuardNesting.System Thread) (thread : Thread)

def AllWait (system : ReaderWriterLock.System Thread) : Prop :=
  ∀ thread, Waits (system.depth thread) (system.reads thread) (system.point thread)

def AllInTime (now : Nat) (system : ReaderWriterLock.System Thread) : Prop :=
  ∀ thread, InTime now (system.point thread)

def calling (guards : List Guard) (op : ReaderWriterLock.Op) : GuardNesting.System Thread :=
  { shared := { system.shared with point := Function.update system.shared.point thread op.entry }
    guards := Function.update system.guards thread guards }

theorem calling_waits (guards : List Guard) (op : ReaderWriterLock.Op)
    (waits : AllWait system.shared) (unread : op = .writeLock → system.shared.reads thread = 0) :
    AllWait (calling system thread guards op).shared := by
  intro other
  by_cases mine : other = thread
  · subst other
    simp only [calling, Function.update_self]
    cases op with
    | writeLock => exact unread rfl
    | writeUnlock | readLock | readUnlock => trivial
  · simpa only [calling, Function.update_of_ne mine] using waits other

theorem calling_in_time (guards : List Guard) (op : ReaderWriterLock.Op) (now : Nat)
    (inTime : AllInTime now system.shared) :
    AllInTime now (calling system thread guards op).shared := by
  intro other
  by_cases mine : other = thread
  · subst other
    simpa only [calling, Function.update_self] using entry_in_time now op
  · simpa only [calling, Function.update_of_ne mine] using inTime other

variable (alive : system.shared.crash = none) (outside : system.shared.point thread = .outside)
include alive outside

theorem construct_taken (guard : Guard) : GuardNesting.step tlsId system (.construct thread guard) =
    some (calling system thread (guard :: system.guards thread) guard.constructor) := by
  cases guard <;>
    simp [GuardNesting.step, ReaderWriterLock.step, alive, outside, entitled,
      Guard.constructor, calling]

theorem destroy_taken (nested : Nested system) (guard : Guard) (rest : List Guard)
    (top : system.guards thread = guard :: rest) :
    GuardNesting.step tlsId system (.destroy thread) =
        some (calling system thread rest guard.destructor) := by
  have counts := outside_holding system nested thread outside
  rw [top] at counts
  have allowed : entitled system.shared thread guard.destructor = true := by
    cases guard with
    | write =>
        rw [List.count_cons_self] at counts
        exact decide_eq_true (by omega)
    | read =>
        rw [List.count_cons_self] at counts
        exact decide_eq_true (by omega)
  simp [GuardNesting.step, ReaderWriterLock.step, alive, outside, allowed, top, calling]

end Nesting

section Objects
variable {Thread : Type} {Data Op Local Result : Type*} [DecidableEq Thread]
  (code : Code Data Op Local Result) (apply : Op → Data → Result × Data)
  (outcome : Local → Data → Result × Data) (ready : Local → Data → Prop)
  (guards : Local → List Guard) (worth : Local → Data → Nat)

/-- A function running alone has at most `worth` instructions left before its last. -/
structure Ends : Prop where
  access : ∀ state run, code.instruction state = .access run → ∀ data next after, ready state data →
    run data = some (next, after) → worth next after < worth state data
  construct : ∀ state guard next, code.instruction state = .construct guard next → ∀ data,
    worth next data < worth state data
  destroy : ∀ state next, code.instruction state = .destroy next →
    ∀ data, worth next data < worth state data

def placeWork (data : Data) (op : Op) : Place Local Result → Nat
  | .entry => worth (code.first op) data + 3
  | .body state => worth state data + 2
  | .exit _ => 1

/-- What a thread has left to do alone. None of the lock's functions takes five steps. -/
def work (system : System Thread Data Op Local Result) (thread : Thread) : Nat :=
  match system.task thread with
  | none => 0
  | some call => 5 * placeWork code worth system.data call.op call.place +
      remaining system.locking.shared.lock (system.locking.shared.point thread)

def Answering (system : System Thread Data Op Local Result) : Prop :=
  ∀ id op, .call id op ∈ system.history →
    (∃ result, .answer id result ∈ system.history) ∨ ∃ thread call,
    system.task thread = some call ∧ call.id = id

omit [DecidableEq Thread] in
theorem start_answering : Answering (System.start code : System Thread Data Op Local Result) := by
  intro id op member
  cases member

theorem go_to_answering (system : System Thread Data Op Local Result) (thread : Thread)
    (call : Call Op Local Result) (place : Place Local Result)
    (locking : GuardNesting.System Thread) (running : system.task thread = some call)
    (answering : Answering system) : Answering (goTo system thread call place locking) := by
  intro id op member
  rcases answering id op member with done | ⟨other, found, listed, same⟩
  · exact Or.inl done
  · by_cases mine : other = thread
    · subst other
      rw [running, Option.some.injEq] at listed
      subst found
      exact Or.inr ⟨thread, { call with place := place }, Function.update_self _ _ _, same⟩
    · exact Or.inr ⟨other, found, (Function.update_of_ne mine _ _).trans listed, same⟩

def Alone (system : System Thread Data Op Local Result) (thread : Thread) : Prop :=
  Clear system.locking.shared thread ∨
    (system.locking.shared.point thread = .outside ∧
      ∀ call, system.task thread = some call → ∃ result, call.place = .exit result)

structure Nearer (now : Nat) (thread : Thread) (before after : System Thread Data Op Local Result) :
    Prop where
  alive : after.locking.shared.crash = none
  inTime : AllInTime now after.locking.shared
  alone : Alone after thread
  others : ∀ other, other ≠ thread → after.task other = before.task other
  less : work code worth after thread < work code worth before thread

variable [Fintype Thread] (tlsId : Thread → BitVec 32)

structure Sound (system : System Thread Data Op Local Result) : Prop where
  known : Invariant code apply outcome ready guards tlsId system
  waits : AllWait system.locking.shared
  answering : Answering system

section Runs
variable (implements : Implements code apply outcome ready guards)

omit [DecidableEq Thread] in
theorem start_sound :
    Sound code apply outcome ready guards tlsId (System.start code :
      System Thread Data Op Local Result) where
  known := start_invariant code apply outcome ready guards tlsId
  waits _ := trivial
  answering := start_answering code

omit [Fintype Thread] in
theorem advance_all_wait [Fintype Thread] (before after : GuardNesting.System Thread)
    (thread : Thread) (tick : Nat) (known : LockExclusion.Invariant tlsId before.shared)
    (waits : AllWait before.shared)
    (taken : GuardNesting.step tlsId before (.advance thread tick) = some after) :
    AllWait after.shared := by
  obtain ⟨shared, stepped, rfl⟩ := Option.map_eq_some_iff.mp taken
  unfold ReaderWriterLock.step at stepped
  split at stepped
  · cases stepped
  case isFalse running =>
    have alive : before.shared.crash = none := by simpa using running
    obtain ⟨owner, rep⟩ := known alive
    obtain ⟨result, moves, rfl⟩ := Option.map_eq_some_iff.mp stepped
    cases result with
    | crash error => exact waits
    | next lock point effect =>
        intro other
        rw [settle_moved]
        by_cases mine : other = thread
        · subst other
          simp only [moved, Function.update_self]
          exact advance_waits tlsId before.shared owner rep thread tick lock point effect moves
            (waits thread)
        · simpa only [moved, Function.update_of_ne mine] using waits other

variable (before : System Thread Data Op Local Result)
  (sound : Sound code apply outcome ready guards tlsId before)
  (alive : before.locking.shared.crash = none) (thread : Thread) (call : Call Op Local Result)
  (running : before.task thread = some call)
include sound running

include implements alive in
theorem execute_sound (after : System Thread Data Op Local Result)
    (outside : before.locking.shared.point thread = .outside)
    (taken : execute code tlsId before thread call = some after) :
    AllWait after.locking.shared ∧ Answering after := by
  have nested := sound.known.locked.nested
  have guardsMine := sound.known.guarded thread
  have reads := (outside_holding before.locking nested thread outside).2
  rw [running] at guardsMine
  rw [guardsMine] at reads
  have goes :=
    fun place locking => go_to_answering before thread call place locking running sound.answering
  have calls := fun rest op => calling_waits before.locking thread rest op sound.waits
  obtain ⟨id, op, place⟩ := call
  cases place with
  | entry =>
      simp only [execute, construct_taken tlsId before.locking thread alive outside,
        Option.map_some, Option.some.injEq] at taken
      subst after
      exact ⟨calls _ _ fun _ => reads, goes _ _⟩
  | body state =>
      simp only [execute] at taken
      cases next : code.instruction state with
      | access run =>
          simp only [next] at taken
          obtain ⟨found, _, rfl⟩ := Option.map_eq_some_iff.mp taken
          exact ⟨sound.waits, goes _ before.locking⟩
      | construct guard later =>
          simp only [next, construct_taken tlsId before.locking thread alive outside,
            Option.map_some, Option.some.injEq] at taken
          subst after
          refine ⟨calls _ _ fun writes => ?_, goes _ _⟩
          -- A write guard is constructed over write guards only.
          have write : guard = .write := by cases guard with
            | write => rfl
            | read => cases writes
          exact reads.trans
            (List.count_eq_zero.mpr ((implements.construct state guard later next).2.2.2 write))
      | destroy later =>
          obtain ⟨_, _, guard, top⟩ := implements.destroy state later next
          simp only [next, destroy_taken tlsId before.locking thread alive outside nested guard _
            (guardsMine.trans top), Option.map_some, Option.some.injEq] at taken
          subst after
          exact ⟨calls _ _ fun writes => (by cases guard <;> cases writes), goes _ _⟩
      | finish result =>
          obtain ⟨_, guard, top⟩ := implements.finish state result next
          simp only [next, destroy_taken tlsId before.locking thread alive outside nested guard _
            (guardsMine.trans top), Option.map_some, Option.some.injEq] at taken
          subst after
          exact ⟨calls _ _ fun writes => (by cases guard <;> cases writes), goes _ _⟩
  | exit result =>
      simp only [execute, Option.some.injEq] at taken
      subst after
      refine ⟨sound.waits, fun called op member => ?_⟩
      have old : .call called op ∈ before.history := by simpa using member
      rcases sound.answering called op old with ⟨answer, done⟩ | ⟨other, found, listed, same⟩
      · exact Or.inl ⟨answer, List.mem_append_left _ done⟩
      · by_cases mine : other = thread
        · subst other
          rw [running, Option.some.injEq] at listed
          subst found
          subst called
          exact Or.inl ⟨result, List.mem_append_right _ List.mem_cons_self⟩
        · exact Or.inr ⟨other, found, (Function.update_of_ne mine _ _).trans listed, same⟩

end Runs

section Steps
variable (distinct : Function.Injective tlsId)
  (ranged : ∀ thread, 1 ≤ (tlsId thread).toNat ∧ (tlsId thread).toNat ≤ 65535)
  (implements : Implements code apply outcome ready guards)

include distinct ranged implements in
theorem step_sound (before after : System Thread Data Op Local Result) (label : Label Thread Op)
    (sound : Sound code apply outcome ready guards tlsId before)
    (taken : step code tlsId before label = some after) :
    Sound code apply outcome ready guards tlsId after := by
  have known := step_keeps_invariant code apply outcome ready guards tlsId distinct ranged
    implements before after label sound.known taken
  suffices rest : AllWait after.locking.shared ∧ Answering after from ⟨known, rest.1, rest.2⟩
  unfold GuardedObjects.step at taken
  split at taken
  · cases taken
  case isFalse goesOn =>
    have alive : before.locking.shared.crash = none := by simpa using goesOn
    cases label with
    | call thread op =>
        simp only at taken
        cases idle : before.task thread with
        | some call => simp [idle] at taken
        | none =>
            simp only [idle, Option.ite_none_right_eq_some, Option.some.injEq] at taken
            obtain ⟨_, rfl⟩ := taken
            refine ⟨sound.waits, fun id op member => ?_⟩
            rcases List.mem_append.mp member with old | new
            · rcases sound.answering id op old with ⟨answer, done⟩ | ⟨other, found, listed, same⟩
              · exact Or.inl ⟨answer, List.mem_append_left _ done⟩
              · have different : other ≠ thread := by
                  rintro rfl
                  rw [idle] at listed
                  cases listed
                exact Or.inr ⟨other, found,
                  (Function.update_of_ne different _ _).trans listed, same⟩
            · cases List.mem_singleton.mp new
              exact Or.inr ⟨thread, _, Function.update_self _ _ _, rfl⟩
    | advance thread tick =>
        simp only at taken
        cases running : before.task thread with
        | none => simp [running] at taken
        | some call =>
            simp only [running] at taken
            split at taken
            case isTrue outside =>
              exact execute_sound code apply outcome ready guards tlsId implements before sound
                alive thread call running after outside taken
            case isFalse inside =>
              obtain ⟨locking, stepped, rfl⟩ := Option.map_eq_some_iff.mp taken
              exact ⟨advance_all_wait tlsId before.locking locking thread tick
                sound.known.locked.known sound.waits stepped, sound.answering⟩

include distinct ranged implements in
theorem reachable_sound (system : System Thread Data Op Local Result)
    (reached : Reachable (step code tlsId) (fun _ _ _ => True) (System.start code) system) :
    Sound code apply outcome ready guards tlsId system :=
  reachable_invariant (step code tlsId) (fun _ _ _ => True)
    (Sound code apply outcome ready guards tlsId) _
    (start_sound code apply outcome ready guards tlsId)
    (fun before label after sound taken _ =>
      step_sound code apply outcome ready guards tlsId distinct ranged implements before after
        label sound taken)
    system reached

/-! One thread running alone, with the clock at `now`. -/
section Solo
variable (system : System Thread Data Op Local Result) (alive : system.locking.shared.crash = none)
  (now : Nat) (inTime : AllInTime now system.locking.shared) (thread : Thread)
  (call : Call Op Local Result) (running : system.task thread = some call)
include alive running

omit [Fintype Thread] in
theorem step_executes (outside : system.locking.shared.point thread = .outside) :
    step code tlsId system (.advance thread now) = execute code tlsId system thread call := by
  simp [GuardedObjects.step, alive, running, outside]

include inTime

omit [Fintype Thread] in
theorem calling_nearer (outside : system.locking.shared.point thread = .outside)
    (clear : Clear system.locking.shared thread) (held : List Guard) (op : ReaderWriterLock.Op)
    (place : Place Local Result)
    (less : placeWork code worth system.data call.op place <
      placeWork code worth system.data call.op call.place) :
    Nearer code worth now thread system
      (goTo system thread call place (calling system.locking thread held op)) where
  alive := alive
  inTime := calling_in_time system.locking thread held op now inTime
  alone := Or.inl clear
  others other different := Function.update_of_ne different _ _
  less := by
    have few := entry_few system.locking.shared.lock op
    simp only [work, goTo, calling, Function.update_self, running, outside]
    simp only [remaining] at *
    omega

omit [Fintype Thread] in
theorem access_nearer (clear : Clear system.locking.shared thread) (state next : Local)
    (data : Data) (stands : call.place = .body state)
    (less : worth next data < worth state system.data) :
    Nearer code worth now thread system { goTo system thread call (.body next) system.locking with
      data := data } where
  alive := alive
  inTime := inTime
  alone := Or.inl clear
  others other different := Function.update_of_ne different _ _
  less := by
    simp only [work, goTo, Function.update_self, running, stands, placeWork]
    omega

omit [Fintype Thread] in
theorem answer_nearer (outside : system.locking.shared.point thread = .outside) (result : Result) :
    Nearer code worth now thread system { system with
      task := Function.update system.task thread none
      history := system.history ++ [.answer call.id result] } where
  alive := alive
  inTime := inTime
  alone := Or.inr ⟨outside, fun found listed => by simp at listed⟩
  others other different := Function.update_of_ne different _ _
  less := by
    have positive : 0 < placeWork code worth system.data call.op call.place := by
      cases call.place <;> simp [placeWork]
    simp only [work, Function.update_self, running]
    omega

omit [Fintype Thread] alive running inTime in
theorem moved_clear (shared : ReaderWriterLock.System Thread) (lock : RWLock) (point : Point)
    (depth reads : Nat)
    (stays : Holding shared thread → Holding (moved shared thread lock point depth reads) thread)
    (clear : Clear shared thread) : Clear (moved shared thread lock point depth reads) thread := by
  rcases clear with holds | released
  · exact Or.inl (stays holds)
  · by_cases taken : Holding (moved shared thread lock point depth reads) thread
    · exact Or.inl taken
    · refine Or.inr fun other => ?_
      by_cases mine : other = thread
      · subst other
        exact taken
      · simpa only [Holding, moved, Function.update_of_ne mine] using released other

variable (sound : Sound code apply outcome ready guards tlsId system) (alone : Alone system thread)
include sound alone implements

include distinct ranged in
theorem inside_goes (inside : system.locking.shared.point thread ≠ .outside) :
    ∃ after, step code tlsId system (.advance thread now) = some after ∧
      Nearer code worth now thread system after := by
  have clear := alone.resolve_right fun done => inside done.1
  have held := sound.known.locked.nested.threads thread
  have few := (sound.known.locked.few thread).reads
  obtain ⟨owner, rep⟩ := sound.known.locked.known alive
  obtain ⟨lock, point, effect, taken, less⟩ := advance_nearer tlsId system.locking.shared owner
    rep thread distinct ranged (system.locking.guards thread) now held (Nat.le_of_add_right_le few)
    (sound.waits thread) clear (inTime thread) inside
  refine ⟨{ system with locking := { system.locking with
    shared :=
      moved system.locking.shared thread lock point
        (depthAfter (system.locking.shared.depth thread) effect)
        (readsAfter (system.locking.shared.reads thread) effect) } }, ?_, alive, ?_, ?_,
          fun _ _ => rfl, ?_⟩
  · simp [GuardedObjects.step, alive, running, inside, GuardNesting.step, ReaderWriterLock.step,
      taken, settle_moved]
  · intro other
    by_cases mine : other = thread
    · subst other
      simp only [moved, Function.update_self]
      exact advance_in_time _ now _ lock _ point effect taken (inTime thread)
    · simpa only [moved, Function.update_of_ne mine] using inTime other
  · have guardsMine := sound.known.guarded thread
    rw [running] at guardsMine
    rw [guardsMine] at held
    obtain ⟨log, _, coupled⟩ := sound.known.linear
    have stage := (coupled alive).stages thread
    rw [running] at stage
    obtain ⟨id, op, place⟩ := call
    cases place with
    | entry => exact absurd stage.1 inside
    | body state =>
        have stays := (guarded_stays _ _ _ _ _ _ _ _ _ _ held (implements.inside state) taken).2
        refine Or.inl (moved_clear thread _ _ _ _ _ (fun holds => ?_) clear)
        simpa only [Holding, moved, Function.update_self] using stays holds
    | exit result =>
        rcases unguarded_leaves _ _ _ _ _ _ _ _ _ held
          taken with ⟨sameDepth, sameReads⟩ | ⟨outside, _⟩
        · refine Or.inl (moved_clear thread _ _ _ _ _ (fun holds => ?_) clear)
          simpa only [Holding, moved, Function.update_self, sameDepth, sameReads] using holds
        · refine Or.inr ⟨(Function.update_self _ _ _).trans outside, fun found listed => ?_⟩
          rw [running, Option.some.injEq] at listed
          exact ⟨result, by rw [← listed]⟩
  · simpa only [work, running, moved, Function.update_self, Nat.add_lt_add_iff_left] using less

theorem outside_goes (ends : Ends code ready worth)
    (outside : system.locking.shared.point thread = .outside) :
    ∃ after, step code tlsId system (.advance thread now) = some after ∧
      Nearer code worth now thread system after := by
  have nested := sound.known.locked.nested
  have guardsMine := sound.known.guarded thread
  rw [running] at guardsMine
  rw [step_executes code tlsId system alive now thread call running outside]
  have clear : (¬ ∃ result, call.place = .exit result) → Clear system.locking.shared thread :=
    fun unfinished =>
      alone.resolve_right fun done => unfinished (done.2 call running)
  have calls := fun unfinished =>
    calling_nearer code worth system alive now inTime thread call running outside (clear unfinished)
  cases stands : call.place with
  | entry =>
      simp only [execute, stands,
        construct_taken tlsId system.locking thread alive outside, Option.map_some]
      exact ⟨_, rfl, calls (by simp [stands]) _ _ _ (by simp [stands, placeWork])⟩
  | body state =>
      have unfinished : ¬ ∃ result, call.place = .exit result := by simp [stands]
      replace guardsMine : system.locking.guards thread = guards state := by
        rw [guardsMine]
        simp [guardsAt, stands]
      simp only [execute, stands]
      cases next : code.instruction state with
      | access run =>
          obtain ⟨knows, _, _⟩ := accessing_stage code apply outcome ready guards tlsId implements
            system sound.known alive thread state run ⟨call, running, stands, outside, next⟩
          obtain ⟨later, data, found, _⟩ := implements.access state run next system.data knows
          simp only [found, Option.map_some]
          exact ⟨_, rfl,
            access_nearer code worth system alive now inTime thread call running (clear unfinished)
            state later data stands (ends.access state run next system.data later data knows found)⟩
      | construct guard later =>
          simp only [construct_taken tlsId system.locking thread alive outside, Option.map_some]
          refine ⟨_, rfl, calls unfinished _ _ _ ?_⟩
          simpa [stands, placeWork] using ends.construct state guard later next system.data
      | destroy later =>
          obtain ⟨_, _, guard, top⟩ := implements.destroy state later next
          simp only [destroy_taken tlsId system.locking thread alive outside nested guard _
            (guardsMine.trans top), Option.map_some]
          refine ⟨_, rfl, calls unfinished _ _ _ ?_⟩
          simpa [stands, placeWork] using ends.destroy state later next system.data
      | finish result =>
          obtain ⟨_, guard, top⟩ := implements.finish state result next
          simp only [destroy_taken tlsId system.locking thread alive outside nested guard _
            (guardsMine.trans top), Option.map_some]
          exact ⟨_, rfl, calls unfinished _ _ _ (by simp [stands, placeWork])⟩
  | exit result =>
      simp only [execute, stands]
      exact ⟨_, rfl,
        answer_nearer code worth system alive now inTime thread call running outside result⟩

end Solo

/-- No new calls, and the clock stands at `now`. -/
def standing (now : Nat) : Condition (System Thread Data Op Local Result) (Label Thread Op) :=
  fun _ label _ => ∃ thread, label = .advance thread now

structure Finishing (now : Nat) (system : System Thread Data Op Local Result) : Prop where
  sound : Sound code apply outcome ready guards tlsId system
  alive : system.locking.shared.crash = none
  inTime : AllInTime now system.locking.shared

variable (ends : Ends code ready worth) (now : Nat) (system : System Thread Data Op Local Result)
  (finishing : Finishing code apply outcome ready guards tlsId now system)
include finishing implements

include distinct ranged ends in
theorem alone_returns (thread : Thread) (alone : Alone system thread) :
    ∃ later, Reachable (step code tlsId) (standing now) system later ∧
      Finishing code apply outcome ready guards tlsId now later ∧ later.task thread = none ∧
      ∀ other, other ≠ thread → later.task other = system.task other := by
  obtain ⟨later, reached, ⟨kept, _, others⟩, returned⟩ :=
    goal_reached (step code tlsId) (standing now)
    (fun state => Finishing code apply outcome ready guards tlsId now state ∧ Alone state thread ∧
      ∀ other, other ≠ thread → state.task other = system.task other)
    (fun state => work code worth state thread) (fun state => state.task thread = none)
    (fun state known unreturned => by
      obtain ⟨⟨sound, alive, inTime⟩, alone, others⟩ := known
      obtain ⟨call, running⟩ := Option.ne_none_iff_exists'.mp unreturned
      have goes : ∃ after, step code tlsId state (.advance thread now) = some after ∧
          Nearer code worth now thread state after := by
        by_cases outside : state.locking.shared.point thread = .outside
        · exact outside_goes code apply outcome ready guards worth tlsId implements state alive now
            inTime thread call running sound alone ends outside
        · exact inside_goes code apply outcome ready guards worth tlsId distinct ranged implements
            state alive now inTime thread call running sound alone outside
      obtain ⟨after, taken, nearer⟩ := goes
      have kept :=
        step_sound code apply outcome ready guards tlsId distinct ranged implements state
          after _ sound taken
      refine ⟨after, .next _ .start taken ⟨thread, rfl⟩,
        ⟨⟨kept, nearer.alive, nearer.inTime⟩, nearer.alone, ?_⟩, nearer.less⟩
      exact fun other different => (nearer.others other different).trans (others other different))
    system ⟨finishing, alone, fun _ _ => rfl⟩
  exact ⟨later, reached, kept, returned, others⟩

omit [DecidableEq Thread] implements in
/-- As long as calls are under way, one of their threads has the lock in nobody's way. -/
theorem clear_caller (busy : ¬ ∀ thread, system.task thread = none) :
    ∃ thread call, system.task thread = some call ∧ Clear system.locking.shared thread := by
  obtain ⟨log, _, coupled⟩ := finishing.sound.known.linear
  by_cases held : ∃ thread, Holding system.locking.shared thread
  · obtain ⟨thread, holds⟩ := held
    have stage := (coupled finishing.alive).stages thread
    cases running : system.task thread with
    | none =>
        rw [running] at stage
        exact absurd holds stage.2
    | some call => exact ⟨thread, call, running, Or.inl holds⟩
  · obtain ⟨thread, running⟩ := not_forall.mp busy
    obtain ⟨call, running⟩ := Option.ne_none_iff_exists'.mp running
    exact ⟨thread, call, running, Or.inr fun other holds => held ⟨other, holds⟩⟩

include distinct ranged ends in
theorem all_return : ∃ later, Reachable (step code tlsId) (standing now) system later ∧
    Finishing code apply outcome ready guards tlsId now later ∧ ∀ thread,
    later.task thread = none :=
  goal_reached (step code tlsId) (standing now)
    (Finishing code apply outcome ready guards tlsId now)
    (fun state => (Finset.univ.filter fun thread => state.task thread ≠ none).card)
    (fun state => ∀ thread, state.task thread = none)
    (fun state finishing busy => by
      obtain ⟨thread, call, running, clear⟩ :=
        clear_caller code apply outcome ready guards tlsId now state finishing busy
      obtain ⟨later, reached, kept, returned, others⟩ := alone_returns code apply outcome ready
        guards worth tlsId distinct ranged implements ends now state finishing thread (Or.inl clear)
      refine ⟨later, reached, kept,
        Finset.card_lt_card ((Finset.ssubset_iff_of_subset ?_).mpr ⟨thread, ?_, ?_⟩)⟩
      · intro other member
        by_cases mine : other = thread
        · simp [mine, returned] at member
        · simpa [others other mine] using member
      · simp [running]
      · simp [returned])
    system finishing

include distinct ranged ends in
theorem calls_answered : ∃ later log, Reachable (step code tlsId) (standing now) system later ∧
    (∀ thread, later.task thread = none) ∧
    (∀ id op, .call id op ∈ later.history → ∃ result, .answer id result ∈ later.history) ∧
    Linearization (meaning code apply) later.history log ∧ later.data = current code apply log := by
  obtain ⟨later, reached, ended, idle⟩ := all_return code apply outcome ready guards worth tlsId
    distinct ranged implements ends now system finishing
  obtain ⟨log, linear, coupled⟩ := ended.sound.known.linear
  refine ⟨later, log, reached, idle, fun id op called => ?_, linear,
    (coupled ended.alive).settled fun thread => ?_⟩
  · rcases ended.sound.answering id op called with answered | ⟨thread, call, running, _⟩
    · exact answered
    · rw [idle thread] at running
      cases running
  · have free := (coupled ended.alive).stages thread
    rw [idle thread] at free
    exact Nat.eq_zero_of_not_pos fun deep => free.2 (Or.inl deep)

end Steps

end Objects

section Containers
universe u v
open LockContainers PopSequence

variable {Item : Type u} (container : Container.{u, v} Item)
  (offers : LockContainers.Op Item → Bool) (truth : Item → Bool) (default : Item)

/-- What a function of a locked container has left to do. Only its loops depend on how much is
queued. -/
def left : Local Item → container.State → Nat
  | .push _, _ => 1
  | .popTest none, _ => 3
  | .popFront none, _ => 2
  | .popRemove none _, _ => 1
  | .popReturn none _, _ => 0
  | .popTest (some _), state => 5 * container.size state + 4
  | .popFront (some _), state => 5 * container.size state + 3
  | .popRemove (some _) _, state => 5 * container.size state + 2
  | .popReturn (some _) item, state => if truth item then 5 * container.size state + 6 else 1
  | .tryPopTest, _ => 3
  | .tryPopFront, _ => 2
  | .tryPopRemove _, _ => 1
  | .ifTest _, _ => 3
  | .ifTop _, _ => 2
  | .allTest _ _, state => 3 * container.size state + 3
  | .allTop _ _, state => 3 * container.size state + 2
  | .allRemove _ _ _, state => 3 * container.size state + 1
  | .allEmpty _, _ => 1
  | .frontTest, _ => 2
  | .frontFront, _ => 1
  | .tryPeekTest, _ => 2
  | .tryPeekFront, _ => 1
  | .clearTest, state => 2 * container.size state + 1
  | .clearPop, state => 2 * container.size state
  | .collect _, state => 5 * container.size state + 5
  | .setNew, _ => 1
  | .size, _ => 1
  | .ended _ _, _ => 0

def Falls (here : Local Item) (run : container.State → Option (Local Item × container.State)) :
    Prop :=
  ∀ state next after, run state = some (next, after) →
    left container truth next after < left container truth here state

section Accesses
variable (here : Local Item) (run : container.State → Option (Local Item × container.State))

theorem test_falls (onEmpty onItem : Local Item)
    (accesses : test container onEmpty onItem = .access run)
    (nothing : ∀ state, left container truth onEmpty state < left container truth here state)
    (something : ∀ state, left container truth onItem state < left container truth here state) :
    Falls container truth here run := by
  cases accesses
  intro state next after found
  cases found
  cases empty container state with
  | true => exact nothing state
  | false => exact something state

theorem front_falls (goesOn : Item → Local Item) (accesses : front container goesOn = .access run)
    (falls : ∀ state item, left container truth (goesOn item) state <
      left container truth here state) :
    Falls container truth here run := by
  cases accesses
  intro state next after found
  obtain ⟨item, _, same⟩ := Option.map_eq_some_iff.mp found
  cases same
  exact falls state item.1

theorem remove_falls (goesOn : Local Item) (accesses : remove container goesOn = .access run)
    (falls : ∀ state rest, container.size rest < container.size state →
      left container truth goesOn rest < left container truth here state) :
    Falls container truth here run := by
  cases accesses
  intro state next after found
  obtain ⟨⟨item, rest⟩, top, same⟩ := Option.map_eq_some_iff.mp found
  cases same
  exact falls state rest (container.shrinks state item rest top)

theorem instruction_falls (stops : truth default = false)
    (accesses : instructionOf container truth default here = .access run) :
    Falls container truth here run := by
  cases here with
  | push item | allEmpty items | setNew | size =>
      cases accesses
      intro state next after found
      cases found
      simp [left]
  | popTest caller =>
      cases caller with
      | none => exact test_falls container truth _ _ _ _ accesses (by simp [left]) (by simp [left])
      | some popped =>
          exact test_falls container truth _ _ _ _ accesses (by simp [left, stops]) (by simp [left])
  | popFront caller =>
      cases caller <;> exact front_falls container truth _ _ _ accesses (by simp [left])
  | popRemove caller item =>
      cases caller with
      | none => exact remove_falls container truth _ _ _ accesses (by simp [left])
      | some popped =>
          refine remove_falls container truth _ _ _ accesses fun state rest shorter => ?_
          simp only [left]
          split <;> omega
  | popReturn caller item => cases caller <;> cases accesses
  | tryPopTest | ifTest condition | frontTest | tryPeekTest | clearTest =>
      exact test_falls container truth _ _ _ _ accesses (by simp [left]) (by simp [left])
  | allTest condition items =>
      refine test_falls container truth _ _ _ _ accesses (fun state => ?_) (by simp [left])
      simp only [left]
      omega
  | tryPopFront | frontFront | tryPeekFront =>
      simp only [instructionOf] at accesses
      exact front_falls container truth _ _ _ accesses (by simp [left])
  | ifTop condition =>
      simp only [instructionOf] at accesses
      refine front_falls container truth _ _ _ accesses fun state item => ?_
      split <;> simp [left]
  | allTop condition items =>
      simp only [instructionOf] at accesses
      refine front_falls container truth _ _ _ accesses fun state item => ?_
      split
      · simp [left]
      · simp only [left]
        omega
  | tryPopRemove item => exact remove_falls container truth _ _ _ accesses (by simp [left])
  | allRemove condition items item | clearPop =>
      refine remove_falls container truth _ _ _ accesses fun state rest shorter => ?_
      simp only [left]
      omega
  | collect popped | ended guard result => cases accesses

end Accesses

theorem code_ends (stops : truth default = false) :
    Ends (code container offers truth default) (ready container) (left container truth) where
  access here run accesses data next after _ found :=
    instruction_falls container truth default here run stops accesses data next after found
  construct here guard next constructs data := by
    cases here with
    | collect popped =>
        cases constructs
        simp [left]
    | popReturn caller item => cases caller <;> cases constructs
    | _ => cases constructs
  destroy here next destroys data := by
    cases here with
    | popReturn caller item =>
        cases caller with
        | none => cases destroys
        | some popped =>
            cases destroys
            cases accepted : truth item <;> simp [left, accepted]
    | _ => cases destroys

variable {Thread : Type} [DecidableEq Thread] [Fintype Thread] (tlsId : Thread → BitVec 32)

/-- Whatever calls on a locked container are under way and wherever in the lock and in the functions
their threads stand, there is a run without a new call in which every call returns, as long as the
clock has not reached the time-out of one of the waits. The container is then as the calls leave it
one after the other. -/
theorem container_calls_return (stops : truth default = false) (distinct : Function.Injective tlsId)
    (ranged : ∀ thread, 1 ≤ (tlsId thread).toNat ∧ (tlsId thread).toNat ≤ 65535)
    (system : System Thread container.State (LockContainers.Op Item) (Local Item) (Result Item))
    (reached : Reachable (step (code container offers truth default) tlsId) (fun _ _ _ => True)
      (System.start (code container offers truth default)) system)
    (alive : system.locking.shared.crash = none) (now : Nat)
    (inTime : AllInTime now system.locking.shared) :
    ∃ later log, Reachable (step (code container offers truth default) tlsId)
        (fun _ label _ => ∃ thread, label = .advance thread now) system later ∧
      (∀ thread, later.task thread = none) ∧
      (∀ id op, .call id op ∈ later.history → ∃ result, .answer id result ∈ later.history) ∧
      Linearization { initial := container.empty, apply := apply container truth default }
        later.history log ∧
      later.data = runFrom { initial := container.empty, apply := apply container truth default }
        container.empty log := by
  have implements := code_implements container offers truth default stops
  have sound := reachable_sound _ _ _ _ _ tlsId distinct ranged implements system reached
  exact calls_answered _ _ _ _ _ _ tlsId distinct ranged implements
    (code_ends container offers truth default stops) now system ⟨sound, alive, inTime⟩

end Containers

open LockContainers ContainerHistories in
/-- One thread is about to push under its guard while the other one waits for the lock. -/
theorem container_calls_return_overlap :
    ∃ system later : System Bool (queue (Option Nat)).State (LockContainers.Op (Option Nat))
        (Local (Option Nat))
        (Result (Option Nat)),
      ((system.task true).isSome ∧ (system.task false).isSome) ∧
      Reachable (step pointers twoIds) (fun _ label _ => ∃ thread,
        label = .advance thread 5) system later ∧
      later.task true = none ∧ later.task false = none := by
  obtain ⟨system, reached, seen⟩ := overlap_reached overlapLabels
    (fun system => (system.locking.shared.crash, system.locking.shared.point,
      (system.task true).isSome, (system.task false).isSome))
    (none, fun thread => if thread then .outside else .writeSpin 0 1, true, true)
      (by decide +kernel)
  simp only [Prod.mk.injEq] at seen
  obtain ⟨alive, points, pushes, waits⟩ := seen
  have inTime : AllInTime 5 system.locking.shared := by
    intro thread
    rw [points]
    cases thread with
    | true => trivial
    | false =>
        show elapsed 5 0 < timeoutTick
        decide
  obtain ⟨later, _, onward, idle, _⟩ :=
    container_calls_return (queue (Option Nat)) lockQueueOffers Option.isSome none
    twoIds rfl (by decide) (by decide) system reached alive 5 inTime
  exact ⟨system, later, ⟨pushes, waits⟩, onward, idle true, idle false⟩

end NetCore.GuardedProgress
