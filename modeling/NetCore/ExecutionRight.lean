import NetCore.JobSerializer
import NetCore.UniquePlacement

/-! Serialized execution of jobs. The right to execute a serializer is a token:
the `Push` that raises `_queuedCount` from zero obtains it, it passes between
threads through the global queue, and the `fetch_sub` that brings the count back to
zero gives it up. While a thread executes a batch, the jobs of the batch are still
counted, so the count is the number of jobs arriving, queued and in the batch. -/
namespace NetCore.ExecutionRight
open TransitionRuns UniquePlacement JobSerializer

universe u v w
variable {Thread : Type u} {Name : Type v} {Job : Type w}

def right : Frame Thread Name Job → Option Name
  | .pushQueue name _ prevCount => if prevCount = 0 then some name else none
  | .pushTest name prevCount => if prevCount = 0 then some name else none
  | .execEnter name => some name
  | .execDrain name _ => some name
  | .execLoop name _ _ _ => some name
  | .running name _ _ _ _ => some name
  | .execClock name _ => some name
  | .execHandOver name => some name
  | _ => none

/-- The part of the drained jobs that `_queuedCount` still counts: their number, the
one in execution and those to be started. -/
structure Batch (Thread : Type u) (Job : Type w) where
  count : Nat
  current : List (Entry Thread Job)
  rest : List (Entry Thread Job)

def Batch.empty : Batch Thread Job := ⟨0, [], []⟩

def inHand : Frame Thread Name Job → Batch Thread Job
  | .execLoop _ _ currentCount rest => ⟨currentCount, [], rest⟩
  | .running _ _ currentCount entry rest => ⟨currentCount, [entry], rest⟩
  | _ => .empty

def hand (frame : Frame Thread Name Job) : Option (Name × Batch Thread Job) :=
  (right frame).map fun name => (name, inHand frame)

inductive Place (Thread : Type u) where
  | global
  | thread (thread : Thread)

def contents (system : System Thread Name Job) : Place Thread → List Name
  | .global => system.jobQueue
  | .thread thread => (system.stack thread).filterMap right

def counted (serializer : Serializer Thread Job) (batch : Batch Thread Job) : Nat :=
  serializer.arriving.length + serializer.jobs.length + batch.count

/-- Jobs counted by a `Push` and not yet started. -/
def pending (serializer : Serializer Thread Job) : Nat :=
  serializer.arriving.length + (serializer.enqueued.length - serializer.started.length)

structure Account (serializer : Serializer Thread Job) (batch : Batch Thread Job) : Prop where
  count : serializer.queuedCount = BitVec.ofNat 32 (counted serializer batch)
  order : serializer.enqueued.map some =
    (serializer.started ++ batch.rest).map some ++ serializer.jobs
  done : serializer.started = serializer.finished ++ batch.current
  small : batch.count < 2 ^ 31
  covers : batch.current.length + batch.rest.length ≤ batch.count

structure Represents (system : System Thread Name Job) (batch : Name → Batch Thread Job) :
    Prop where
  placed : Placed (contents system) fun name =>
    0 < counted (system.serializers name) (batch name)
  held : ∀ thread, ∀ frame ∈ system.stack thread, ∀ name, right frame = some name →
    batch name = inHand frame
  queued : ∀ name ∈ system.jobQueue, batch name = .empty
  accounts : ∀ name, Account (system.serializers name) (batch name)

theorem pending_lengths (serializer : Serializer Thread Job) (batch : Batch Thread Job)
    (account : Account serializer batch) :
    pending serializer =
      serializer.arriving.length + batch.rest.length + serializer.jobs.length := by
  have lengths := congrArg List.length account.order
  simp only [List.length_map, List.length_append] at lengths
  unfold pending
  omega

/-- The count does not wrap: fewer than `2 ^ 31` jobs wait, and the batch was no larger. -/
theorem counted_small (serializer : Serializer Thread Job) (batch : Batch Thread Job)
    (account : Account serializer batch) (bounded : pending serializer < 2 ^ 31) :
    counted serializer batch < 2 ^ 32 := by
  have lengths := pending_lengths serializer batch account
  have small := account.small
  unfold counted
  omega

theorem batch_empty (serializer : Serializer Thread Job) (batch : Batch Thread Job)
    (account : Account serializer batch) (dead : counted serializer batch = 0) :
    batch = .empty := by
  obtain ⟨count, current, rest⟩ := batch
  have covers := account.covers
  simp only [counted] at dead covers
  have none : count = 0 := by omega
  have bare : current.length = 0 ∧ rest.length = 0 := by omega
  rw [Batch.empty, none, List.length_eq_zero_iff.mp bare.1, List.length_eq_zero_iff.mp bare.2]

theorem zero_count_iff (serializer : Serializer Thread Job) (batch : Batch Thread Job)
    (account : Account serializer batch) (bounded : pending serializer < 2 ^ 31) :
    serializer.queuedCount = 0 ↔ counted serializer batch = 0 := by
  have small := counted_small serializer batch account bounded
  rw [account.count, ← BitVec.toNat_inj, BitVec.toNat_ofNat, Nat.mod_eq_of_lt small]
  rfl

/-- The comparison of `int` with `size_t`: the batch is below `2 ^ 31`, so a negative
count never compares equal. -/
theorem count_matches_iff (total currentCount : Nat) (small : total < 2 ^ 32)
    (legal : currentCount < 2 ^ 31) :
    countMatches (BitVec.ofNat 32 total) currentCount = true ↔ total = currentCount := by
  rw [countMatches, beq_iff_eq, ← BitVec.toNat_inj, BitVec.toNat_signExtend, BitVec.msb_eq_decide]
  simp only [BitVec.toNat_setWidth, BitVec.toNat_ofNat]
  split
  · rename_i negative
    simp only [decide_eq_true_eq] at negative
    omega
  · omega

theorem right_exclusive (system : System Thread Name Job) (batch : Name → Batch Thread Job)
    (holds : Represents system batch) (thread : Thread) (top : Frame Thread Name Job)
    (below : List (Frame Thread Name Job)) (stands : system.stack thread = top :: below)
    (name : Name) (carried : right top = some name) :
    (∀ frame ∈ below, right frame ≠ some name) ∧
      (∀ other, other ≠ thread → ∀ frame ∈ system.stack other, right frame ≠ some name) ∧
      name ∉ system.jobQueue := by
  have mine : name ∈ contents system (.thread thread) := by
    simp [contents, stands, carried]
  refine ⟨?_, ?_, ?_⟩
  · intro frame member again
    have once := holds.placed.once (.thread thread)
    simp only [contents, stands, List.filterMap_cons, carried, List.nodup_cons] at once
    exact once.1 (List.mem_filterMap.mpr ⟨frame, member, again⟩)
  · intro other different frame member again
    have theirs : name ∈ contents system (.thread other) :=
      List.mem_filterMap.mpr ⟨frame, member, again⟩
    have same := holds.placed.apart name _ _ theirs mine
    exact different (Place.thread.inj same)
  · intro waiting
    have same := holds.placed.apart name .global _ waiting mine
    cases same

theorem fetch_add_account (serializer : Serializer Thread Job) (batch : Batch Thread Job)
    (account : Account serializer batch) (thread : Thread) :
    Account (serializer.fetchAdd thread) batch where
  count := by
    have one : (1 : BitVec 32).toNat = 1 := rfl
    rw [Serializer.fetchAdd, counted, account.count, counted, List.length_append,
      List.length_singleton, ← BitVec.toNat_inj]
    simp only [BitVec.toNat_add, BitVec.toNat_ofNat, one]
    omega
  order := account.order
  done := account.done
  small := account.small
  covers := account.covers

theorem enqueue_account [DecidableEq Thread] (serializer : Serializer Thread Job)
    (batch : Batch Thread Job) (account : Account serializer batch) (thread : Thread)
    (entry : Entry Thread Job) (arrives : thread ∈ serializer.arriving) :
    Account (serializer.enqueue thread (some entry)) batch ∧
      counted (serializer.enqueue thread (some entry)) batch = counted serializer batch := by
  have shorter := List.length_erase_of_mem arrives
  have positive := List.length_pos_of_mem arrives
  have same : counted (serializer.enqueue thread (some entry)) batch =
      counted serializer batch := by
    simp only [Serializer.enqueue, counted, LockQueue.push, List.length_append,
      List.length_singleton]
    omega
  refine ⟨⟨?_, ?_, account.done, account.small, account.covers⟩, same⟩
  · rw [same]
    exact account.count
  · simp [Serializer.enqueue, LockQueue.push, account.order]

theorem clear_account (serializer : Serializer Thread Job)
    (account : Account serializer .empty) (bounded : pending serializer < 2 ^ 31) :
    Account serializer.clear.2 ⟨serializer.clear.1.length, [], serializer.clear.1⟩ ∧
      counted serializer.clear.2 ⟨serializer.clear.1.length, [], serializer.clear.1⟩ =
        counted serializer .empty := by
  have order := account.order
  rw [Batch.empty, List.append_nil] at order
  obtain ⟨first, popped, whole, _, queued⟩ := List.map_eq_append_iff.mp order
  have waiting := pending_lengths serializer .empty account
  have drained : LockQueue.clear serializer.jobs = (popped, []) := by
    rw [← queued, LockQueue.clear_some]
  have size : serializer.jobs.length = popped.length := by rw [← queued, List.length_map]
  have same : counted serializer.clear.2 ⟨serializer.clear.1.length, [], serializer.clear.1⟩ =
      counted serializer .empty := by
    simp only [Serializer.clear, drained, counted, Batch.empty, List.length_nil, size]
    omega
  refine ⟨⟨?_, ?_, ?_, ?_, ?_⟩, same⟩
  · rw [same]
    exact account.count
  · simp only [Serializer.clear, drained, List.append_nil, List.map_append]
    rw [order, queued]
  · exact account.done
  · simp only [Serializer.clear, drained]
    omega
  · simp [Serializer.clear]

theorem begin_account (serializer : Serializer Thread Job) (currentCount : Nat)
    (entry : Entry Thread Job) (rest : List (Entry Thread Job))
    (account : Account serializer ⟨currentCount, [], entry :: rest⟩) :
    Account (serializer.begin entry) ⟨currentCount, [entry], rest⟩ where
  count := account.count
  order := by
    rw [Serializer.begin, List.append_assoc]
    exact account.order
  done := by simpa [Serializer.begin] using account.done
  small := account.small
  covers := by
    have covers := account.covers
    simp only [List.length_cons, List.length_nil] at *
    omega

theorem complete_account (serializer : Serializer Thread Job) (currentCount : Nat)
    (entry : Entry Thread Job) (rest : List (Entry Thread Job))
    (account : Account serializer ⟨currentCount, [entry], rest⟩) :
    Account (serializer.complete entry) ⟨currentCount, [], rest⟩ where
  count := account.count
  order := account.order
  done := by simpa [Serializer.complete] using account.done
  small := account.small
  covers := by
    have covers := account.covers
    simp only [List.length_cons, List.length_nil] at *
    omega

theorem fetch_sub_account (serializer : Serializer Thread Job) (currentCount : Nat)
    (account : Account serializer ⟨currentCount, [], []⟩) :
    Account (serializer.fetchSub currentCount) .empty where
  count := by
    -- Modulo `2 ^ 32` on both sides, so the narrowed argument makes no difference.
    rw [Serializer.fetchSub, counted, account.count, counted, ← BitVec.toNat_inj]
    simp only [BitVec.toNat_sub, BitVec.toNat_ofNat, Batch.empty]
    omega
  order := account.order
  done := account.done
  small := by simp [Batch.empty]
  covers := Nat.le_refl 0

variable [DecidableEq Thread] [DecidableEq Name]

omit [DecidableEq Name] in
theorem contents_elsewhere (before after : System Thread Name Job) (thread : Thread)
    (stack : List (Frame Thread Name Job))
    (stacked : after.stack = Function.update before.stack thread stack) (place : Place Thread)
    (notThread : place ≠ .thread thread)
    (jobQueue : place ≠ .global ∨ after.jobQueue = before.jobQueue) :
    contents after place = contents before place := by
  cases place with
  | global =>
      rcases jobQueue with notGlobal | same
      · exact absurd rfl notGlobal
      · rw [contents, contents, same]
  | thread actor =>
      have different : actor ≠ thread := fun same => notThread (same ▸ rfl)
      simp [contents, stacked, different]

omit [DecidableEq Name] in
theorem contents_same (before after : System Thread Name Job) (thread : Thread)
    (stack : List (Frame Thread Name Job))
    (stacked : after.stack = Function.update before.stack thread stack)
    (jobQueue : after.jobQueue = before.jobQueue)
    (rights : stack.filterMap right = (before.stack thread).filterMap right)
    (place : Place Thread) :
    contents after place = contents before place := by
  by_cases mine : place = .thread thread
  · subst place
    simp [contents, stacked, rights]
  · exact contents_elsewhere before after thread stack stacked place mine (Or.inr jobQueue)

omit [DecidableEq Thread] in
theorem accounts_update (serializers : Name → Serializer Thread Job)
    (batch : Name → Batch Thread Job) (accounts : ∀ name, Account (serializers name) (batch name))
    (name : Name) (serializer : Serializer Thread Job) (hand : Batch Thread Job)
    (account : Account serializer hand) (other : Name) :
    Account (Function.update serializers name serializer other)
        (Function.update batch name hand other) := by
  by_cases this : other = name
  · subst other
    rw [Function.update_self, Function.update_self]
    exact account
  · rw [Function.update_of_ne this, Function.update_of_ne this]
    exact accounts other

theorem batch_replaced (system : System Thread Name Job) (batch : Name → Batch Thread Job)
    (holds : Represents system batch) (thread : Thread) (name : Name) (hand : Batch Thread Job)
    (top next : Frame Thread Name Job) (below : List (Frame Thread Name Job))
    (stands : system.stack thread = top :: below) (carried : right top = some name)
    (shown : ∀ owner, right next = some owner → owner = name ∧ hand = inHand next) :
    (∀ other, ∀ frame ∈ Function.update system.stack thread (next :: below) other, ∀ owner,
      right frame = some owner → Function.update batch name hand owner = inHand frame) ∧
    ∀ other ∈ system.jobQueue, Function.update batch name hand other = .empty := by
  obtain ⟨notBelow, notElsewhere, absent⟩ :=
    right_exclusive system batch holds thread top below stands name carried
  constructor
  · intro other frame member owner carries
    by_cases mine : other = thread
    · subst other
      rw [Function.update_self] at member
      rcases List.mem_cons.mp member with rfl | old
      · obtain ⟨same, hands⟩ := shown owner carries
        rw [same, Function.update_self, hands]
      · have different : owner ≠ name := fun equal => notBelow frame old (equal ▸ carries)
        rw [Function.update_of_ne different]
        exact holds.held thread frame
          (by rw [stands]; exact List.mem_cons_of_mem _ old) owner carries
    · rw [Function.update_of_ne mine] at member
      have different : owner ≠ name :=
        fun equal => notElsewhere other mine frame member (equal ▸ carries)
      rw [Function.update_of_ne different]
      exact holds.held other frame member owner carries
  · intro other waiting
    have different : other ≠ name := fun equal => absent (equal ▸ waiting)
    rw [Function.update_of_ne different]
    exact holds.queued other waiting

omit [DecidableEq Name] in
theorem represents_quiet (before after : System Thread Name Job) (batch : Name → Batch Thread Job)
    (holds : Represents before batch) (thread : Thread) (stack : List (Frame Thread Name Job))
    (stacked : after.stack = Function.update before.stack thread stack)
    (serializers : after.serializers = before.serializers)
    (jobQueue : after.jobQueue = before.jobQueue)
    (rights : stack.filterMap right = (before.stack thread).filterMap right)
    (kept : ∀ frame ∈ stack, ∀ name, right frame = some name → ∃ old ∈ before.stack thread,
      right old = some name ∧ inHand old = inHand frame) :
    Represents after batch where
  placed := by
    rw [serializers]
    apply placed_reorder (contents before) _ _ holds.placed
    intro place
    rw [contents_same before after thread stack stacked jobQueue rights place]
  held other frame member name carried := by
    by_cases mine : other = thread
    · subst other
      rw [stacked, Function.update_self] at member
      obtain ⟨old, known, same, hand⟩ := kept frame member name carried
      rw [holds.held thread old known name same, hand]
    · rw [stacked, Function.update_of_ne mine] at member
      exact holds.held other frame member name carried
  queued := by
    rw [jobQueue]
    exact holds.queued
  accounts := by
    rw [serializers]
    exact holds.accounts

theorem represents_update (before after : System Thread Name Job) (batch : Name → Batch Thread Job)
    (holds : Represents before batch) (thread : Thread) (name : Name)
    (serializer : Serializer Thread Job) (hand : Batch Thread Job)
    (top next : Frame Thread Name Job) (below : List (Frame Thread Name Job))
    (stands : before.stack thread = top :: below)
    (stacked : after.stack = Function.update before.stack thread (next :: below))
    (serializers : after.serializers = Function.update before.serializers name serializer)
    (jobQueue : after.jobQueue = before.jobQueue) (account : Account serializer hand)
    (live : 0 < counted serializer hand ↔ 0 < counted (before.serializers name) (batch name))
    (same : right next = right top)
    (change : (hand = batch name ∧ inHand next = inHand top) ∨
      (right top = some name ∧ hand = inHand next)) :
    Represents after (Function.update batch name hand) := by
  have placed : Placed (contents after) fun name =>
      0 < counted (before.serializers name) (batch name) := by
    apply placed_reorder (contents before) _ _ holds.placed
    intro place
    rw [contents_same before after thread _ stacked jobQueue
      (by simp [stands, List.filterMap_cons, same])]
  have alive : ∀ other,
      0 < counted (after.serializers other) (Function.update batch name hand other) ↔
      0 < counted (before.serializers other) (batch other) := by
    intro other
    by_cases this : other = name
    · subst other
      simpa [serializers] using live
    · simp [serializers, this]
  have accounts :=
    accounts_update before.serializers batch holds.accounts name serializer hand account
  rw [← serializers] at accounts
  rcases change with ⟨unchanged, shown⟩ | ⟨carries, shown⟩
  · -- The frame changes and the batch does not: all frames speak of the same batches.
    refine ⟨placed_live_congr (contents after) _ _ placed alive, ?_, ?_, accounts⟩
    · intro other frame member owner carried
      rw [unchanged, Function.update_eq_self]
      by_cases mine : other = thread
      · subst other
        rw [stacked, Function.update_self] at member
        rcases List.mem_cons.mp member with rfl | old
        · rw [shown]
          exact holds.held thread top (by rw [stands]; exact List.mem_cons_self) owner
            (same ▸ carried)
        · exact holds.held thread frame
            (by rw [stands]; exact List.mem_cons_of_mem _ old) owner carried
      · rw [stacked, Function.update_of_ne mine] at member
        exact holds.held other frame member owner carried
    · rw [unchanged, Function.update_eq_self, jobQueue]
      exact holds.queued
  · obtain ⟨held, queued⟩ :=
      batch_replaced before batch holds thread name hand top next below stands
      carries fun owner obtained =>
        ⟨Option.some.inj (obtained.symm.trans (same.trans carries)), shown⟩
    rw [← stacked] at held
    rw [← jobQueue] at queued
    exact ⟨placed_live_congr (contents after) _ _ placed alive, held, queued, accounts⟩

/-- The `Push` that finds the count at zero obtains the right. -/
theorem represents_admit (before after : System Thread Name Job) (batch : Name → Batch Thread Job)
    (holds : Represents before batch) (thread : Thread) (name : Name)
    (serializer : Serializer Thread Job) (top next : Frame Thread Name Job)
    (below : List (Frame Thread Name Job)) (stands : before.stack thread = top :: below)
    (stacked : after.stack = Function.update before.stack thread (next :: below))
    (serializers : after.serializers = Function.update before.serializers name serializer)
    (jobQueue : after.jobQueue = before.jobQueue) (account : Account serializer (batch name))
    (dead : counted (before.serializers name) (batch name) = 0)
    (live : 0 < counted serializer (batch name)) (without : right top = none)
    (obtained : right next = some name) (nothing : inHand next = .empty) :
    Represents after batch := by
  have idle : batch name = .empty := batch_empty _ _ (holds.accounts name) dead
  constructor
  · refine placed_admit (contents before) _ _ _ holds.placed (.thread thread) [name] ?_
      (by simp) ?_ ?_ ?_
    · intro item member
      rw [List.mem_singleton] at member
      subst item
      rw [dead]
      exact Nat.lt_irrefl 0
    · simp only [contents, stacked, stands, Function.update_self, List.filterMap_cons,
        without, obtained]
      exact (List.perm_append_singleton name _).symm
    · intro place notThread
      rw [contents_elsewhere before after thread _ stacked place notThread (Or.inr jobQueue)]
    · intro item
      rw [List.mem_singleton]
      by_cases this : item = name
      · subst item
        simp [serializers, live]
      · simp [serializers, this]
  · intro actor frame member owner carried
    by_cases mine : actor = thread
    · subst actor
      rw [stacked, Function.update_self] at member
      rcases List.mem_cons.mp member with rfl | old
      · rw [obtained, Option.some.injEq] at carried
        rw [← carried, nothing, idle]
      · exact holds.held thread frame
          (by rw [stands]; exact List.mem_cons_of_mem _ old) owner carried
    · rw [stacked, Function.update_of_ne mine] at member
      exact holds.held actor frame member owner carried
  · rw [jobQueue]
    exact holds.queued
  · intro other
    have updated :=
      accounts_update before.serializers batch holds.accounts name serializer _ account other
    rwa [Function.update_eq_self, ← serializers] at updated

omit [DecidableEq Name] in
theorem represents_hand_over (before after : System Thread Name Job)
    (batch : Name → Batch Thread Job) (holds : Represents before batch) (thread : Thread)
    (name : Name) (top : Frame Thread Name Job) (below stack : List (Frame Thread Name Job))
    (stands : before.stack thread = top :: below)
    (stacked : after.stack = Function.update before.stack thread stack)
    (serializers : after.serializers = before.serializers)
    (jobQueue : after.jobQueue = before.jobQueue ++ [name]) (carried : right top = some name)
    (nothing : inHand top = .empty) (rights : stack.filterMap right = below.filterMap right)
    (kept : ∀ frame ∈ stack, right frame ≠ none → frame ∈ below) : Represents after batch where
  placed := by
    rw [serializers]
    refine placed_transfer (contents before) _ _ holds.placed (.thread thread) .global [name]
      (below.filterMap right) (by simp) ?_ ?_ ?_ ?_
    · simp [contents, stands, carried]
    · simp [contents, stacked, rights]
    · rw [contents, contents, jobQueue]
    · intro place notThread notGlobal
      rw [contents_elsewhere before after thread stack stacked place notThread (Or.inl notGlobal)]
  held actor frame member owner carries := by
    by_cases mine : actor = thread
    · subst actor
      rw [stacked, Function.update_self] at member
      have old := kept frame member (by rw [carries]; simp)
      exact holds.held thread frame (by rw [stands]; exact List.mem_cons_of_mem _ old) owner carries
    · rw [stacked, Function.update_of_ne mine] at member
      exact holds.held actor frame member owner carries
  queued other waiting := by
    rw [jobQueue, List.mem_append, List.mem_singleton] at waiting
    rcases waiting with old | rfl
    · exact holds.queued other old
    · rw [← nothing]
      exact holds.held thread top (by rw [stands]; exact List.mem_cons_self) other carried
  accounts := by
    rw [serializers]
    exact holds.accounts

omit [DecidableEq Name] in
theorem represents_take_over (before after : System Thread Name Job)
    (batch : Name → Batch Thread Job) (holds : Represents before batch) (thread : Thread)
    (name : Name) (rest : List Name) (top next resumed : Frame Thread Name Job)
    (below : List (Frame Thread Name Job)) (stands : before.stack thread = top :: below)
    (stacked : after.stack = Function.update before.stack thread (next :: resumed :: below))
    (serializers : after.serializers = before.serializers)
    (waiting : before.jobQueue = name :: rest) (jobQueue : after.jobQueue = rest)
    (without : right top = none) (plain : right resumed = none) (obtained : right next = some name)
    (nothing : inHand next = .empty) : Represents after batch where
  placed := by
    rw [serializers]
    refine placed_transfer (contents before) _ _ holds.placed .global (.thread thread) [name] rest
      (by simp) ?_ ?_ ?_ ?_
    · rw [contents, waiting]
      rfl
    · rw [contents, jobQueue]
    · simp only [contents, stacked, stands, Function.update_self, List.filterMap_cons,
        without, plain, obtained]
      exact (List.perm_append_singleton name _).symm
    · intro place notGlobal notThread
      rw [contents_elsewhere before after thread _ stacked place notThread (Or.inl notGlobal)]
  held actor frame member owner carries := by
    by_cases mine : actor = thread
    · subst actor
      rw [stacked, Function.update_self] at member
      rcases List.mem_cons.mp member with rfl | older
      · rw [obtained, Option.some.injEq] at carries
        rw [← carries, nothing]
        exact holds.queued name (by rw [waiting]; exact List.mem_cons_self)
      · rcases List.mem_cons.mp older with rfl | old
        · rw [plain] at carries
          cases carries
        · exact holds.held thread frame
            (by rw [stands]; exact List.mem_cons_of_mem _ old) owner carries
    · rw [stacked, Function.update_of_ne mine] at member
      exact holds.held actor frame member owner carries
  queued other member := by
    rw [jobQueue] at member
    exact holds.queued other (by rw [waiting]; exact List.mem_cons_of_mem _ member)
  accounts := by
    rw [serializers]
    exact holds.accounts

/-- The `fetch_sub` that brings the count back to zero gives up the right. -/
theorem represents_retire (before after : System Thread Name Job) (batch : Name → Batch Thread Job)
    (holds : Represents before batch) (thread : Thread) (name : Name)
    (serializer : Serializer Thread Job) (top next : Frame Thread Name Job)
    (below : List (Frame Thread Name Job)) (stands : before.stack thread = top :: below)
    (stacked : after.stack = Function.update before.stack thread (next :: below))
    (serializers : after.serializers = Function.update before.serializers name serializer)
    (jobQueue : after.jobQueue = before.jobQueue) (account : Account serializer .empty)
    (dead : counted serializer .empty = 0) (carried : right top = some name)
    (without : right next = none) :
    Represents after (Function.update batch name .empty) := by
  obtain ⟨held, queued⟩ :=
    batch_replaced before batch holds thread name .empty top next below stands
    carried fun owner obtained => by
      rw [without] at obtained
      cases obtained
  rw [← stacked] at held
  rw [← jobQueue] at queued
  refine ⟨?_, held, queued, ?_⟩
  · apply placed_retire (contents before) _ _ _ holds.placed (.thread thread) name
    · simp [contents, stacked, stands, carried, without]
    · intro place notThread
      rw [contents_elsewhere before after thread _ stacked place notThread (Or.inr jobQueue)]
    · intro other
      by_cases this : other = name
      · subst other
        simp [serializers, dead]
      · simp [serializers, this]
  · rw [serializers]
    exact accounts_update before.serializers batch holds.accounts name serializer .empty account

end NetCore.ExecutionRight
