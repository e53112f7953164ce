import NetCore.ExecutionTurns
import NetCore.JobOrder
import NetCore.AllocationSizes
import Mathlib.Data.Fintype.Card

/-! The order of execution, with the storage of the batches. `ExecuteJobs` drains
`_jobs` into a `Vector`, whose storage `STLAllocator::allocate` obtains by a number
of bytes that it narrows to `int32`. A batch for which that number is no longer
exact is asked for with a negative one, `Memory::Allocate` indexes `_poolTable` below
its start, and the process ends: no step follows. The queue itself may grow as long
as it likes, so `_queuedCount` may wrap, but only when the queue can no longer be
drained. Then whoever finds the count at zero fails at the drain, and the jobs that
are in hand already are the only ones that are still started. -/
namespace NetCore.JobStorage
open TransitionRuns JobSerializer ExecutionRight SerializedExecution ExecutionTurns JobOrder
open AllocationSizes

universe u v w
variable {Thread : Type u} {Name : Type v} {Job : Type w}

/-- `sizeof(JobSPtr)`: a `shared_ptr` is two pointers. -/
def sizeofJobSPtr (platform : Platform) : BitVec platform.bits := BitVec.ofNat _ (platform.bits / 4)

/-- Whether `allocate(count)` of a `Vector<JobSPtr>` asks for as many bytes as it needs. The
capacity is at least the number of elements, so a longer vector asks for no less. -/
def stored (platform : Platform) (count : Nat) : Bool :=
  (stlSize (sizeofJobSPtr platform) (BitVec.ofNat _ count)).toInt =
    count * (sizeofJobSPtr platform).toNat

variable [DecidableEq Thread] [DecidableEq Name]

def starved (platform : Platform) (system : System Thread Name Job) : Label Thread Name Job → Bool
  | .advance thread _ =>
      match system.stack thread with
      | .execDrain name _ :: _ => !stored platform (system.serializers name).clear.1.length
      | _ => false
  | _ => false

def step (platform : Platform) : Step (System Thread Name Job) (Label Thread Name Job) :=
  fun system label =>
    if starved platform system label then none else JobSerializer.step system label

def regular : Condition (System Thread Name Job) (Label Thread Name Job) :=
  fun _ label _ => disciplinedLabel label = true

/-- No platform has storage for a batch of this many jobs. -/
def batchLimit : Nat := 2 ^ 28

theorem stored_short (platform : Platform) (count : Nat) (enough : stored platform count = true) :
    count < batchLimit := by
  rw [stored, decide_eq_true_eq] at enough
  have top := BitVec.toInt_lt (x := stlSize (sizeofJobSPtr platform) (BitVec.ofNat _ count))
  rw [enough] at top
  have least : 8 ≤ (sizeofJobSPtr platform).toNat := by cases platform <;> decide
  have scaled : count * 8 ≤ count * (sizeofJobSPtr platform).toNat :=
    Nat.mul_le_mul_left count least
  unfold batchLimit
  omega

example : stored .x64 (2 ^ 27) = false ∧ stored .x64 (2 ^ 27 - 1) = true := by decide

def unstarted (hands : Multiset (Batch Thread Job)) : Multiset (List (Entry Thread Job)) :=
  (hands.map Batch.rest).filter fun rest => rest ≠ []

def alone (rest : List (Entry Thread Job)) : Multiset (List (Entry Thread Job)) :=
  if rest = [] then 0 else {rest}

omit [DecidableEq Thread] in
theorem unstarted_cons (batch : Batch Thread Job) (hands : Multiset (Batch Thread Job)) :
    unstarted (batch ::ₘ hands) = alone batch.rest + unstarted hands := by
  rw [unstarted, Multiset.map_cons, Multiset.filter_cons, ite_not]
  rfl

omit [DecidableEq Thread] in
theorem alone_only (first rest : List (Entry Thread Job))
    (others : Multiset (List (Entry Thread Job))) (some : first ≠ [])
    (same : alone first + others = alone rest) : rest = first ∧ others = 0 := by
  rw [alone, if_neg some, Multiset.singleton_add, alone] at same
  split at same
  case isTrue => exact absurd same (Multiset.cons_ne_zero)
  case isFalse =>
    obtain ⟨equal, none⟩ := (Multiset.singleton_eq_cons_iff _).mp same.symm
    exact ⟨equal, none⟩

structure Healthy (serializer : Serializer Thread Job) (hands : Multiset (Batch Thread Job))
    (batch : Batch Thread Job) : Prop where
  account : Account serializer batch
  short : batch.count < batchLimit
  held : hands = if counted serializer batch = 0 then 0 else {batch}

/-- The jobs started, the rest in hand and the queue are what has been queued. The account is
exact while the queue can be drained. -/
structure Sound (serializer : Serializer Thread Job) (hands : Multiset (Batch Thread Job)) :
    Prop where
  ordered : ∃ rest, serializer.enqueued.map some =
      (serializer.started ++ rest).map some ++ serializer.jobs ∧ unstarted hands = alone rest
  healthy : serializer.jobs.length < batchLimit → ∃ batch, Healthy serializer hands batch

omit [DecidableEq Thread] in
theorem healthy_ordered (serializer : Serializer Thread Job) (hands : Multiset (Batch Thread Job))
    (batch : Batch Thread Job) (healthy : Healthy serializer hands batch) :
    ∃ rest, serializer.enqueued.map some =
      (serializer.started ++ rest).map some ++ serializer.jobs ∧ unstarted hands = alone rest := by
  refine ⟨batch.rest, healthy.account.order, ?_⟩
  rw [healthy.held]
  split
  case isTrue dead =>
    rw [batch_empty serializer batch healthy.account dead]
    rfl
  case isFalse =>
    rw [← Multiset.cons_zero, unstarted_cons]
    exact add_zero _

omit [DecidableEq Thread] in
/-- While the queue can be drained, a batch in hand is the only one. -/
theorem sound_hand (serializer : Serializer Thread Job) (hands others : Multiset (Batch Thread Job))
    (sound : Sound serializer hands) (top : Batch Thread Job) (held : hands = top ::ₘ others)
    (room : serializer.jobs.length < batchLimit) :
    Healthy serializer hands top ∧ others = 0 ∧ counted serializer top ≠ 0 := by
  obtain ⟨batch, healthy⟩ := sound.healthy room
  have only := healthy.held
  rw [held] at only
  split at only
  case isTrue => exact absurd only Multiset.cons_ne_zero
  case isFalse live =>
    obtain ⟨rfl, none⟩ := (Multiset.singleton_eq_cons_iff _).mp only.symm
    exact ⟨healthy, none, live⟩

section Turns
variable (serializer : Serializer Thread Job) (hands : Multiset (Batch Thread Job))
  (few : serializer.arriving.length < 2 ^ 30)
include few

omit [DecidableEq Thread] in
theorem healthy_pending (batch : Batch Thread Job) (healthy : Healthy serializer hands batch)
    (room : serializer.jobs.length < batchLimit) : pending serializer < 2 ^ 31 := by
  have lengths := pending_lengths serializer batch healthy.account
  have covers := healthy.account.covers
  have short := healthy.short
  unfold batchLimit at room short
  omega

omit [DecidableEq Thread] in
/-- The jobs of an account are not null, so a batch that fits is the whole queue. -/
theorem drain_sound (sound : Sound serializer hands) (others : Multiset (Batch Thread Job))
    (held : hands = .empty ::ₘ others) (short : serializer.clear.1.length < batchLimit) :
    Sound serializer.clear.2 (⟨serializer.clear.1.length, [], serializer.clear.1⟩ ::ₘ others) := by
  obtain ⟨rest, order, _⟩ := sound.ordered
  obtain ⟨first, popped, _, _, queued⟩ := List.map_eq_append_iff.mp order
  have drained : serializer.clear.1 = popped := by
    rw [Serializer.clear, ← queued, LockQueue.clear_some]
  have room : serializer.jobs.length < batchLimit := by
    rw [← queued, List.length_map, ← drained]
    exact short
  obtain ⟨healthy, rfl, live⟩ := sound_hand serializer hands others sound .empty held room
  have bounded := healthy_pending serializer hands few .empty healthy room
  obtain ⟨account, same⟩ := clear_account serializer healthy.account bounded
  have after : Healthy serializer.clear.2 {⟨serializer.clear.1.length, [], serializer.clear.1⟩}
      ⟨serializer.clear.1.length, [], serializer.clear.1⟩ :=
    ⟨account, short, by rw [same, if_neg live]⟩
  exact ⟨healthy_ordered _ _ _ after, fun _ => ⟨_, after⟩⟩

omit [DecidableEq Thread] in
theorem add_sound (sound : Sound serializer hands) (thread : Thread) :
    Sound (serializer.fetchAdd thread) (if serializer.queuedCount = 0 then
      .empty ::ₘ hands else hands) where
  ordered := by
    obtain ⟨rest, order, single⟩ := sound.ordered
    refine ⟨rest, order, ?_⟩
    split
    · rw [unstarted_cons, single]
      exact zero_add _
    · exact single
  healthy room := by
    obtain ⟨batch, healthy⟩ := sound.healthy room
    have account := fetch_add_account serializer batch healthy.account thread
    have zero := zero_count_iff serializer batch healthy.account
      (healthy_pending serializer hands few batch healthy room)
    have more : counted (serializer.fetchAdd thread) batch ≠ 0 := by
      simp [counted, Serializer.fetchAdd]
    refine ⟨batch, account, healthy.short, ?_⟩
    rw [if_neg more, healthy.held]
    by_cases first : serializer.queuedCount = 0
    · have dead := zero.mp first
      rw [if_pos first, if_pos dead, batch_empty serializer batch healthy.account dead]
      rfl
    · rw [if_neg first, if_neg fun dead => first (zero.mpr dead)]

omit [DecidableEq Thread] in
/-- `fetch_sub` gives the right up when nothing else is counted. A holder without jobs in an
account that is not exact changes nothing about the order. -/
theorem subtract_sound (currentCount : Nat) (others : Multiset (Batch Thread Job))
    (held : hands = ⟨currentCount, [], []⟩ ::ₘ others) (sound : Sound serializer hands) :
    Sound (serializer.fetchSub currentCount)
      (if countMatches serializer.queuedCount currentCount then others else .empty ::ₘ others) where
  ordered := by
    obtain ⟨rest, order, single⟩ := sound.ordered
    rw [held, unstarted_cons] at single
    have bare : unstarted others = alone rest := (zero_add _).symm.trans single
    refine ⟨rest, order, ?_⟩
    split
    · exact bare
    · rw [unstarted_cons, bare]
      exact zero_add _
  healthy room := by
    obtain ⟨healthy, rfl, live⟩ := sound_hand serializer hands others sound _ held room
    have bounded := healthy_pending serializer hands few _ healthy room
    have left := fetch_sub_account serializer currentCount healthy.account
    have fewer : counted serializer ⟨currentCount, [], []⟩ =
        counted (serializer.fetchSub currentCount) .empty + currentCount := by
      simp only [counted, Serializer.fetchSub, Batch.empty]
      omega
    have compared := count_matches_iff _ currentCount
      (counted_small _ _ healthy.account bounded) healthy.account.small
    rw [← healthy.account.count] at compared
    refine ⟨.empty, left, Nat.two_pow_pos 28, ?_⟩
    split
    case isTrue equal =>
      have total := compared.mp equal
      rw [if_pos (by omega)]
    case isFalse differs =>
      have unequal : counted serializer ⟨currentCount, [], []⟩ ≠ currentCount :=
        fun total => differs (compared.mpr total)
      rw [if_neg (by omega)]
      rfl

theorem turn_sound (later : Serializer Thread Job) (left : Multiset (Batch Thread Job))
    (sound : Sound serializer hands) (turn : Turn batchLimit serializer hands later left) :
    Sound later left := by
  cases turn with
  | same => exact sound
  | add thread => exact add_sound serializer hands few sound thread
  | queue thread entry arrives =>
      obtain ⟨rest, order, single⟩ := sound.ordered
      refine ⟨⟨rest, ?_, single⟩, ?_⟩
      · simp [Serializer.enqueue, LockQueue.push, order]
      · intro room
        simp only [Serializer.enqueue, LockQueue.push, List.length_append] at room
        obtain ⟨batch, healthy⟩ := sound.healthy (by omega)
        obtain ⟨account, same⟩ :=
          enqueue_account serializer batch healthy.account thread entry arrives
        exact ⟨batch, account, healthy.short, by rw [same, healthy.held]⟩
  | drain others held short => exact drain_sound serializer hands few sound others held short
  | begin currentCount entry rest others held =>
      constructor
      case ordered =>
        obtain ⟨whole, order, single⟩ := sound.ordered
        rw [held, unstarted_cons] at single
        obtain ⟨rfl, bare⟩ := alone_only _ _ _ (List.cons_ne_nil entry rest) single
        refine ⟨rest, ?_, ?_⟩
        · rw [Serializer.begin, List.append_assoc]
          exact order
        · rw [unstarted_cons, bare]
          exact add_zero _
      case healthy =>
        intro room
        obtain ⟨healthy, rfl, live⟩ := sound_hand serializer hands others sound _ held room
        exact ⟨_, begin_account serializer currentCount entry rest healthy.account, healthy.short,
          (if_neg live).symm⟩
  | complete currentCount entry rest others held =>
      constructor
      case ordered =>
        obtain ⟨whole, order, single⟩ := sound.ordered
        rw [held, unstarted_cons] at single
        refine ⟨whole, order, ?_⟩
        rw [unstarted_cons]
        exact single
      case healthy =>
        intro room
        obtain ⟨healthy, rfl, live⟩ := sound_hand serializer hands others sound _ held room
        exact ⟨_, complete_account serializer currentCount entry rest healthy.account,
          healthy.short, (if_neg live).symm⟩
  | subtract currentCount others held =>
      exact subtract_sound serializer hands few currentCount others held sound

end Turns

theorem step_stored (platform : Platform) (before after : System Thread Name Job)
    (label : Label Thread Name Job) (taken : step platform before label = some after) :
    JobSerializer.step before label = some after ∧
      ∀ thread tick name startTick below, label = .advance thread tick →
        before.stack thread = .execDrain name startTick :: below →
        (before.serializers name).clear.1.length < batchLimit := by
  rw [step, Option.ite_none_left_eq_some] at taken
  refine ⟨taken.2, ?_⟩
  rintro thread tick name startTick below rfl stands
  have fed := taken.1
  simp only [starved, stands, Bool.not_eq_true', Bool.not_eq_false] at fed
  exact stored_short platform _ fed

omit [DecidableEq Thread] [DecidableEq Name] in
theorem regular_label (before after : System Thread Name Job) (label : Label Thread Name Job)
    (allowed : regular before label after) :
    (∀ thread name, label ≠ .push thread name none) ∧ label ≠ .clearJobs := by
  constructor
  · rintro thread name rfl
    cases allowed
  · rintro rfl
    cases allowed

structure Invariant [Fintype Thread] (system : System Thread Name Job) : Prop where
  arrivals : Arrivals system
  ordered : Ordered system
  sound : ∀ name, Sound (system.serializers name) (hands system name)

omit [DecidableEq Thread] in
theorem start_invariant [Fintype Thread] : Invariant (System.start : System Thread Name Job) where
  arrivals := start_arrivals
  ordered := start_ordered
  sound name := by
    rw [start_hands]
    have healthy : Healthy (Serializer.construct : Serializer Thread Job) 0 .empty :=
      ⟨⟨rfl, rfl, rfl, Nat.two_pow_pos 31, Nat.le_refl 0⟩, Nat.two_pow_pos 28, rfl⟩
    exact ⟨healthy_ordered _ _ _ healthy, fun _ => ⟨_, healthy⟩⟩

/-- The jobs started so far are the first ones queued, each once, and the queue keeps the
program order of every thread. Windows tells the threads of a process apart by 32-bit ids
that are multiples of four, so there are no more of them than the bound allows. -/
theorem jobs_start_in_order [Fintype Thread] (threads : Fintype.card Thread < 2 ^ 30)
    (platform : Platform) (system : System Thread Name Job)
    (reached : Reachable (step platform) regular System.start system) (name : Name) :
    (system.serializers name).started <+: (system.serializers name).enqueued ∧
    (system.serializers name).enqueued.Nodup ∧
    (system.serializers name).enqueued.Pairwise ProgramOrder := by
  have holds : Invariant system := by
    refine reachable_invariant (step platform) regular Invariant System.start start_invariant ?_
      system reached
    intro before label after holds taken allowed
    obtain ⟨moved, short⟩ := step_stored platform before after label taken
    obtain ⟨notNull, notCleared⟩ := regular_label before after label allowed
    have move := step_move before after label moved
    refine ⟨move_arrivals before after label holds.arrivals move notNull,
      move_ordered before after label holds.ordered holds.arrivals move, fun other => ?_⟩
    have few : (before.serializers other).arriving.length < 2 ^ 30 :=
      Nat.lt_of_le_of_lt (List.Nodup.length_le_card (holds.arrivals.once other)) threads
    exact turn_sound _ _ few _ _ (holds.sound other)
      (move_turn batchLimit before after label holds.arrivals move notCleared short other)
  obtain ⟨rest, order, _⟩ := (holds.sound name).ordered
  have sorted := holds.ordered.sorted name
  exact ⟨started_in_front _ rest order, program_order_nodup _ sorted, sorted⟩

theorem jobs_start_in_order_handed_over : ∃ system : System Bool Bool Nat,
    Reachable (step .x64) regular System.start system ∧
    (system.serializers true).started = [⟨1, true, 0⟩, ⟨3, false, 0⟩] ∧
    (system.serializers true).started <+: (system.serializers true).enqueued := by
  obtain ⟨system, reached, seen⟩ := replay_reachable (step .x64) regular
    (fun _ label _ => disciplinedLabel label) (fun _ _ _ legal => legal)
    (fun system : System Bool Bool Nat => (system.serializers true).started)
    [⟨1, true, 0⟩, ⟨3, false, 0⟩] drainedLabels System.start (by decide)
  exact ⟨system, reached, seen, (jobs_start_in_order (by decide) .x64 system reached true).1⟩

end NetCore.JobStorage
