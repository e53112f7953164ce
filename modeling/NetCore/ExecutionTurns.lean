import NetCore.SerializedExecution
import NetCore.PendingViews

/-! One serializer by itself: its members, and the rights to execute it with the
batches their holders have in hand. A step of the job system is a turn of each
serializer in it, whatever the other serializers and the stacks contain. How many
rights there are is left open here: a turn moves a right, and `fetch_add` makes a
new one whenever it finds the count at zero. `limit` bounds the batches drained. -/
namespace NetCore.ExecutionTurns
open TransitionRuns PendingViews JobSerializer ExecutionRight SerializedExecution

universe u v w
variable {Thread : Type u} {Name : Type v} {Job : Type w}

inductive Turn [DecidableEq Thread] (limit : Nat) (serializer : Serializer Thread Job)
    (hands : Multiset (Batch Thread Job)) :
    Serializer Thread Job → Multiset (Batch Thread Job) → Prop where
  | same : Turn limit serializer hands serializer hands
  | add (thread : Thread) :
      Turn limit serializer hands (serializer.fetchAdd thread)
        (if serializer.queuedCount = 0 then .empty ::ₘ hands else hands)
  | queue (thread : Thread) (entry : Entry Thread Job) (arrives : thread ∈ serializer.arriving) :
      Turn limit serializer hands (serializer.enqueue thread (some entry)) hands
  | drain (others : Multiset (Batch Thread Job)) (held : hands = .empty ::ₘ others)
      (short : serializer.clear.1.length < limit) :
      Turn limit serializer hands serializer.clear.2
        (⟨serializer.clear.1.length, [], serializer.clear.1⟩ ::ₘ others)
  | begin (currentCount : Nat) (entry : Entry Thread Job) (rest : List (Entry Thread Job))
      (others : Multiset (Batch Thread Job))
      (held : hands = ⟨currentCount, [], entry :: rest⟩ ::ₘ others) :
      Turn limit serializer hands (serializer.begin entry)
        (⟨currentCount, [entry], rest⟩ ::ₘ others)
  | complete (currentCount : Nat) (entry : Entry Thread Job) (rest : List (Entry Thread Job))
      (others : Multiset (Batch Thread Job))
      (held : hands = ⟨currentCount, [entry], rest⟩ ::ₘ others) :
      Turn limit serializer hands (serializer.complete entry) (⟨currentCount, [], rest⟩ ::ₘ others)
  | subtract (currentCount : Nat) (others : Multiset (Batch Thread Job))
      (held : hands = ⟨currentCount, [], []⟩ ::ₘ others) :
      Turn limit serializer hands (serializer.fetchSub currentCount)
        (if countMatches serializer.queuedCount currentCount then others else .empty ::ₘ others)

variable [DecidableEq Name]

def shown (name : Name) (frame : Frame Thread Name Job) : List (Batch Thread Job) :=
  if right frame = some name then [inHand frame] else []

theorem shown_own (name : Name) (frame : Frame Thread Name Job)
    (carried : right frame = some name) :
    shown name frame = [inHand frame] := if_pos carried

theorem shown_none (name : Name) (frame : Frame Thread Name Job)
    (without : right frame ≠ some name) :
    shown name frame = [] := if_neg without

theorem shown_hands (name : Name) (stack : List (Frame Thread Name Job)) :
    stack.flatMap (shown name) =
      (stack.filterMap hand).flatMap fun pair => if pair.1 = name then [pair.2] else [] := by
  induction stack with
  | nil => rfl
  | cons frame below ih =>
      rw [List.flatMap_cons, ih]
      cases carried : right frame with
      | none => simp [shown, hand, carried]
      | some owner => simp [shown, hand, carried]

variable [Fintype Thread]

/-- The rights to execute a serializer: one for each entry of the global queue, and
those that frames carry. -/
def hands (system : System Thread Name Job) (name : Name) : Multiset (Batch Thread Job) :=
  Multiset.replicate (system.jobQueue.count name) .empty + gather (shown name) system.stack

theorem start_hands (name : Name) : hands (System.start : System Thread Name Job) name = 0 := by
  rw [hands, System.start, List.count_nil, Multiset.replicate_zero, zero_add]
  exact gather_nil (shown name)

variable [DecidableEq Thread]

def elsewhere (system : System Thread Name Job) (thread : Thread)
    (below : List (Frame Thread Name Job)) (name : Name) : Multiset (Batch Thread Job) :=
  (below.flatMap (shown name) : Multiset (Batch Thread Job)) +
    ∑ other ∈ Finset.univ.erase thread,
    ((system.stack other).flatMap (shown name) : Multiset (Batch Thread Job))

theorem hands_split (system : System Thread Name Job) (thread : Thread)
    (tops below : List (Frame Thread Name Job)) (stands : system.stack thread = tops ++ below)
    (name : Name) :
    hands system name = Multiset.replicate (system.jobQueue.count name) .empty +
      ((tops.flatMap (shown name) : Multiset (Batch Thread Job)) +
        elsewhere system thread below name) := by
  rw [hands, gather_split (shown name) system.stack thread, stands, List.flatMap_append,
    ← Multiset.coe_add, elsewhere, add_assoc]

theorem hands_after (before after : System Thread Name Job) (thread : Thread)
    (news below : List (Frame Thread Name Job))
    (stacked : after.stack = Function.update before.stack thread (news ++ below)) (name : Name) :
    hands after name = Multiset.replicate (after.jobQueue.count name) .empty +
      ((news.flatMap (shown name) : Multiset (Batch Thread Job)) +
        elsewhere before thread below name) := by
  have others : elsewhere after thread below name = elsewhere before thread below name := by
    unfold elsewhere
    congr 1
    refine Finset.sum_congr rfl fun other member => ?_
    rw [stacked, Function.update_of_ne (Finset.ne_of_mem_erase member)]
  rw [hands_split after thread news below (by rw [stacked, Function.update_self]) name, others]

theorem hands_same (before after : System Thread Name Job) (thread : Thread)
    (stack : List (Frame Thread Name Job))
    (stacked : after.stack = Function.update before.stack thread stack)
    (jobQueue : after.jobQueue = before.jobQueue) (name : Name)
    (same : stack.flatMap (shown name) = (before.stack thread).flatMap (shown name)) :
    hands after name = hands before name := by
  rw [hands_after before after thread stack [] (by rw [stacked, List.append_nil]) name,
    hands_split before thread (before.stack thread) [] (List.append_nil _).symm name,
    jobQueue, same]

def TurnOf (limit : Nat) (before after : System Thread Name Job) (name : Name) : Prop :=
  Turn limit (before.serializers name) (hands before name) (after.serializers name)
    (hands after name)

section Tops
variable (limit : Nat) (before : System Thread Name Job) (thread : Thread) (name : Name)
  (top next : Frame Thread Name Job) (below : List (Frame Thread Name Job))
  (serializer : Serializer Thread Job) (stands : before.stack thread = top :: below)
include stands

/-- A step on top of one stack that concerns one serializer. -/
theorem own_turn (source : ∀ other, right top = some other → other = name)
    (target : ∀ other, right next = some other → other = name)
    (turn : ∀ others,
      Turn limit (before.serializers name) ((shown name top : Multiset (Batch Thread Job)) + others)
        serializer ((shown name next : Multiset (Batch Thread Job)) + others)) (other : Name) :
    TurnOf limit before (setStack (setSerializer before name serializer) thread
        (next :: below)) other := by
  unfold TurnOf
  by_cases this : other = name
  · subst other
    rw [hands_split before thread [top] below stands name,
      hands_after before _ thread [next] below rfl name, List.flatMap_singleton,
      List.flatMap_singleton, add_left_comm _ (shown name top : Multiset (Batch Thread Job)),
      add_left_comm _ (shown name next : Multiset (Batch Thread Job)), set_stack_serializers,
      set_serializer_self]
    exact turn _
  · have same :
        hands (setStack (setSerializer before name serializer) thread (next :: below)) other =
        hands before other := by
      refine hands_same before (setStack (setSerializer before name serializer) thread _) thread
        (next :: below) rfl rfl other ?_
      rw [stands, List.flatMap_cons, List.flatMap_cons,
        shown_none other next fun mine => this (target other mine),
        shown_none other top fun mine => this (source other mine)]
    rw [same, set_stack_serializers, set_serializer_other _ _ _ _ this]
    exact .same

theorem carried_turn (source : right top = some name) (target : right next = some name)
    (turn : ∀ others, Turn limit (before.serializers name) (inHand top ::ₘ others) serializer
      (inHand next ::ₘ others)) (other : Name) :
    TurnOf limit before (setStack (setSerializer before name serializer) thread
        (next :: below)) other := by
  refine own_turn limit before thread name top next below serializer stands ?_ ?_ ?_ other
  · intro found carried
    exact Option.some.inj (carried.symm.trans source)
  · intro found carried
    exact Option.some.inj (carried.symm.trans target)
  · intro others
    rw [shown_own name top source, shown_own name next target]
    exact turn others

end Tops

theorem hand_over_hands (before : System Thread Name Job) (thread : Thread) (name : Name)
    (top : Frame Thread Name Job) (below news : List (Frame Thread Name Job))
    (stands : before.stack thread = top :: below) (carried : hand top = some (name, .empty))
    (without : ∀ other, news.flatMap (shown other) = []) (other : Name) :
    hands (setStack (addJobSerializer before name) thread (news ++ below)) other =
        hands before other := by
  have given : [top].flatMap (shown other) = if other = name then [.empty] else [] := by
    obtain ⟨owner, held, pair⟩ := Option.map_eq_some_iff.mp carried
    rw [Prod.mk.injEq] at pair
    rw [List.flatMap_singleton, shown, held, pair.1, pair.2]
    simp [eq_comm]
  rw [hands_split before thread [top] below stands other,
    hands_after before _ thread news below rfl other, without, given]
  change Multiset.replicate ((before.jobQueue ++ [name]).count other) Batch.empty + _ = _
  by_cases this : other = name
  · simp only [this, List.count_append, List.count_singleton_self, Multiset.replicate_succ, if_true,
      Multiset.coe_nil, Multiset.coe_singleton, zero_add]
    rw [Multiset.cons_add, ← Multiset.singleton_add, add_left_comm]
  · have absent : [name].count other = 0 := List.count_eq_zero.mpr (by simpa using this)
    rw [List.count_append, absent, if_neg this, Nat.add_zero]

theorem take_over_hands (before : System Thread Name Job) (thread : Thread) (name : Name)
    (rest : List Name) (start : UInt64) (below : List (Frame Thread Name Job))
    (stands : before.stack thread = .doPop start :: below)
    (waiting : before.jobQueue = name :: rest) (other : Name) :
    hands (setStack { before with jobQueue := rest } thread
      (.execEnter name :: .doLoop start :: below))
      other = hands before other := by
  rw [hands_split before thread [.doPop start] below stands other,
    hands_after before _ thread [.execEnter name, .doLoop start] below rfl other]
  change Multiset.replicate (rest.count other) Batch.empty + _ = _
  rw [waiting]
  by_cases this : other = name
  · subst other
    simp [shown, right, inHand, Multiset.replicate_succ]
  · have different : name ≠ other := fun same => this same.symm
    simp [shown, right, different]

section Steps
variable (limit : Nat) (before : System Thread Name Job) (thread : Thread) (owner : Name)
  (below : List (Frame Thread Name Job)) (name : Name)

theorem add_turn (entry : Option (Entry Thread Job))
    (stands : before.stack thread = .pushAdd owner entry :: below) :
    TurnOf limit before
      (setStack (setSerializer before owner ((before.serializers owner).fetchAdd thread)) thread
        (.pushQueue owner entry (before.serializers owner).queuedCount :: below)) name := by
  refine own_turn limit before thread owner _ _ below _ stands ?_ ?_ ?_ name
  · intro other same
    cases same
  · intro other same
    simp only [right, Option.ite_none_right_eq_some, Option.some.injEq] at same
    exact same.2.symm
  · intro others
    have turn : Turn limit (before.serializers owner) others _ _ := .add thread
    rw [shown_none owner (.pushAdd owner entry) (by simp [right]), Multiset.coe_nil, zero_add]
    by_cases first : (before.serializers owner).queuedCount = 0
    · rw [if_pos first] at turn
      rw [shown_own owner (.pushQueue owner entry _) (if_pos first)]
      exact turn
    · rw [if_neg first] at turn
      have without : right (.pushQueue owner entry (before.serializers owner).queuedCount :
          Frame Thread Name Job) = none := if_neg first
      rw [shown_none owner _ (by simp [without]), Multiset.coe_nil, zero_add]
      exact turn

theorem queue_turn (arrivals : Arrivals before) (entry : Option (Entry Thread Job))
    (prevCount : BitVec 32)
    (stands : before.stack thread = .pushQueue owner entry prevCount :: below) :
    TurnOf limit before
      (setStack (setSerializer before owner ((before.serializers owner).enqueue thread entry))
        thread (.pushTest owner prevCount :: below)) name := by
  have arrives : thread ∈ (before.serializers owner).arriving := by
    rw [arrivals.standing, stands]
    exact List.mem_cons_self
  have present := arrivals.present thread (owner, entry) (by rw [stands]; exact List.mem_cons_self)
  obtain ⟨job, rfl⟩ := Option.ne_none_iff_exists'.mp present
  have passes : ∀ other, right (.pushTest owner prevCount : Frame Thread Name Job) = some other →
      other = owner := by
    intro other same
    simp only [right, Option.ite_none_right_eq_some, Option.some.injEq] at same
    exact same.2.symm
  exact own_turn limit before thread owner _ _ below _ stands passes passes
    (fun others => .queue thread job arrives) name

theorem subtract_turn (startTick : UInt64) (currentCount : Nat)
    (stands : before.stack thread = .execLoop owner startTick currentCount [] :: below) :
    TurnOf limit before
      (setStack (setSerializer before owner ((before.serializers owner).fetchSub currentCount))
        thread
        (if countMatches (before.serializers owner).queuedCount currentCount then
          .execLeave :: below
        else .execClock owner startTick :: below)) name := by
  have turn : ∀ others : Multiset (Batch Thread Job), Turn limit (before.serializers owner)
      (⟨currentCount, [], []⟩ ::ₘ others) ((before.serializers owner).fetchSub currentCount)
      (if countMatches (before.serializers owner).queuedCount currentCount then others
        else .empty ::ₘ others) := fun others => .subtract currentCount others rfl
  split
  case isTrue equal =>
    refine own_turn limit before thread owner _ _ below _ stands ?_ ?_ ?_ name
    · intro other same
      exact (Option.some.inj same).symm
    · intro other same
      cases same
    · intro others
      have ended := turn others
      rw [if_pos equal] at ended
      rw [shown_own owner _ rfl, shown_none owner .execLeave (by simp [right]),
        Multiset.coe_nil, zero_add]
      exact ended
  case isFalse differs =>
    refine carried_turn limit before thread owner _ _ below _ stands rfl rfl (fun others => ?_) name
    have again := turn others
    rw [if_neg differs] at again
    exact again

end Steps

/-- A step of the job system is a turn of every serializer. -/
theorem move_turn (limit : Nat) (before after : System Thread Name Job)
    (label : Label Thread Name Job) (arrivals : Arrivals before) (move : Move before label after)
    (notCleared : label ≠ .clearJobs)
    (short : ∀ thread tick name startTick below, label = .advance thread tick →
      before.stack thread = .execDrain name startTick :: below →
      (before.serializers name).clear.1.length < limit) (name : Name) :
    Turn limit (before.serializers name) (hands before name) (after.serializers name)
        (hands after name) := by
  cases move with
  | quiet _ thread stack _ inert stacked serializers jobQueue =>
      have same : hands after name = hands before name := by
        refine hands_same before after thread stack stacked jobQueue name ?_
        rw [shown_hands, shown_hands, inert.hands]
      rw [serializers, same]
      exact .same
  | call thread owner job free =>
      have same : hands (callPush before thread owner job) name = hands before name :=
        hands_same before (callPush before thread owner job) thread _ rfl rfl name rfl
      rw [same]
      exact .same
  | add thread _ owner entry below stands =>
      exact add_turn limit before thread owner below name entry stands
  | queue thread _ owner entry prevCount below stands =>
      exact queue_turn limit before thread owner below name arrivals entry prevCount stands
  | drain thread tick owner startTick below stands =>
      refine carried_turn limit before thread owner _ _ below _ stands rfl rfl
        (fun others => ?_) name
      exact .drain others rfl (short thread tick owner startTick below rfl stands)
  | begin thread _ owner startTick currentCount entry rest below stands =>
      exact carried_turn limit before thread owner _ _ below _ stands rfl rfl
        (fun others => .begin currentCount entry rest others rfl) name
  | complete thread owner startTick currentCount entry rest below stands =>
      exact carried_turn limit before thread owner _ _ below _ stands rfl rfl
        (fun others => .complete currentCount entry rest others rfl) name
  | subtract thread _ owner startTick currentCount below stands =>
      exact subtract_turn limit before thread owner below name startTick currentCount stands
  | handOver thread _ owner top below stack stands source =>
      have same : hands (setStack (addJobSerializer before owner) thread stack) name =
          hands before name := by
        rcases source with ⟨rfl, rfl⟩ | ⟨rfl, rfl⟩
        · exact hand_over_hands before thread owner _ stack [] stands rfl (fun _ => rfl) name
        · exact hand_over_hands before thread owner _ below [.execLeave] stands rfl
            (fun _ => rfl) name
      rw [same]
      exact .same
  | takeOver thread _ owner rest start below stands waiting =>
      rw [take_over_hands before thread owner rest start below stands waiting name]
      exact .same
  | cleared => exact absurd rfl notCleared

end NetCore.ExecutionTurns
