import NetCore.PoolDiscipline
import Mathlib.Data.Fintype.Card
import Mathlib.Algebra.Order.BigOperators.Group.Finset

/-! How many blocks a pool obtains from the system, which it never gives back while the program
runs. A block is obtained only when the free list was found empty, so there have never been more of
them than were in use, or asked for, at one time. -/
namespace NetCore.PoolGrowth
open TransitionRuns MemoryTable MemoryPools PoolDiscipline

variable {Thread : Type}

def made (system : System Thread) (pool : Nat) : Nat :=
  (List.range system.created).countP fun block => (system.blocks block).maker = some pool

def handed (blocks : Nat → Block) (pool : Nat) (phase : Phase) : List Nat :=
  phase.hand.toList.filter fun block => (blocks block).maker = some pool

def creates (pool : Nat) : Phase → Nat
  | .creating _ source => if source = pool then 1 else 0
  | _ => 0

def wants (blocks : Nat → Block) (pool : Nat) : Phase → Nat
  | .acquiring _ source => if source = pool then 1 else 0
  | .creating _ source => if source = pool then 1 else 0
  | phase => (handed blocks pool phase).length

variable [Fintype Thread]

def creating (system : System Thread) (pool : Nat) : Nat :=
  ∑ thread, creates pool (system.phase thread)

def demand (system : System Thread) (pool : Nat) : Nat :=
  liveOf system pool + ∑ thread, wants system.blocks pool (system.phase thread)

theorem wants_few (blocks : Nat → Block) (pool : Nat) (phase : Phase) :
    wants blocks pool phase ≤ 1 := by
  have few : (handed blocks pool phase).length ≤ 1 := by
    refine (List.length_filter_le _ _).trans ?_
    cases phase.hand <;> simp
  cases phase with
  | acquiring size source | creating size source =>
      simp only [wants]
      split <;> simp
  | _ => exact few

theorem wants_more (blocks : Nat → Block) (pool : Nat) (phase : Phase) :
    (handed blocks pool phase).length + creates pool phase ≤ wants blocks pool phase := by
  cases phase with
  | acquiring size source | creating size source => simp [handed, Phase.hand, creates, wants]
  | _ => exact Nat.le_refl _

theorem demand_bounded (system : System Thread) (pool : Nat) :
    demand system pool ≤ liveOf system pool + Fintype.card Thread := by
  have few := Finset.sum_le_sum fun (thread : Thread) (_ : thread ∈ Finset.univ) =>
    wants_few system.blocks pool (system.phase thread)
  simp only [Finset.sum_const, Finset.card_univ, nsmul_one, Nat.cast_id] at few
  exact Nat.add_le_add_left few _

def FreedBig (system : System Thread) : Prop :=
  ∀ block ∈ system.freed, (system.blocks block).maker = none

section Counting
variable (system : System Thread) (pool : Nat)

noncomputable def hands : List Nat :=
  Finset.univ.toList.flatMap fun thread => handed system.blocks pool (system.phase thread)

theorem hands_length : (hands system pool).length =
    ∑ thread, (handed system.blocks pool (system.phase thread)).length := by
  rw [hands, List.length_flatMap, Finset.sum_map_toList]

theorem hands_mem (block : Nat) : block ∈ hands system pool ↔
    (∃ thread, (system.phase thread).hand = some block) ∧
    (system.blocks block).maker = some pool := by
  simp [hands, handed]

/-- Every block of the pool is free, with the program or in a hand. -/
theorem made_split (build : Build) (headerSize : Nat) (holds : Invariant build headerSize system)
    (big : FreedBig system) :
    made system pool = (system.free pool).length + liveOf system pool +
        (hands system pool).length := by
  have owned := holds.owned
  have apart : ∀ block left right, block ∈ contents system left →
      block ∈ contents system right → left = right :=
    owned.apart
  have inHand : ∀ block ∈ hands system pool, ∃ thread, block ∈ contents system (.hand thread) := by
    intro block member
    obtain ⟨⟨thread, carried⟩, _⟩ := (hands_mem system pool block).mp member
    exact ⟨thread, by simp [contents, carried]⟩
  have distinct : (hands system pool).Nodup := by
    refine List.nodup_flatMap.mpr ⟨fun thread _ => (owned.once (.hand thread)).filter _, ?_⟩
    refine (Finset.nodup_toList _).imp fun different => ?_
    rintro block left right
    have same :=
      apart block (.hand _) (.hand _) (List.mem_of_mem_filter left) (List.mem_of_mem_filter right)
    exact different (Place.hand.inj same)
  have places :
      ((List.range system.created).filter fun block => (system.blocks block).maker = some pool).Perm
      (system.free pool ++
        (system.live.filter fun block => (system.blocks block).maker = some pool) ++
        hands system pool) := by
    refine (List.perm_ext_iff_of_nodup (List.nodup_range.filter _) ?_).mpr fun block => ?_
    · refine List.nodup_append.mpr ⟨List.nodup_append.mpr ⟨owned.once (.free pool),
        (owned.once .live).filter _, ?_⟩, distinct, ?_⟩
      · rintro block free other live rfl
        exact absurd (apart block (.free pool) .live free (List.mem_of_mem_filter live)) (by simp)
      · rintro block front other back rfl
        obtain ⟨thread, carried⟩ := inHand block back
        rcases List.mem_append.mp front with free | live
        · exact absurd (apart block (.free pool) (.hand thread) free carried) (by simp)
        · exact absurd (apart block .live (.hand thread) (List.mem_of_mem_filter live) carried)
            (by simp)
    · simp only [List.mem_filter, List.mem_range, List.mem_append, hands_mem, decide_eq_true_eq]
      constructor
      · rintro ⟨old, maker⟩
        obtain ⟨place, member⟩ := (owned.covers block).mp old
        cases place with
        | free source =>
            have same := (holds.ownFree source block member).symm.trans maker
            exact Or.inl (Or.inl (Option.some.inj same ▸ member))
        | live => exact Or.inl (Or.inr ⟨member, maker⟩)
        | hand thread => exact Or.inr ⟨⟨thread, by simpa [contents] using member⟩, maker⟩
        | freed => exact absurd ((big block member).symm.trans maker) (by simp)
      · rintro ((free | ⟨live, maker⟩) | ⟨⟨thread, carried⟩, maker⟩)
        · exact ⟨(owned.covers block).mpr ⟨.free pool, free⟩, holds.ownFree pool block free⟩
        · exact ⟨live_old system owned block live, maker⟩
        · exact ⟨held_old system owned thread block carried, maker⟩
  rw [made, List.countP_eq_length_filter, places.length_eq, List.length_append, List.length_append,
    liveOf, ← List.countP_eq_length_filter]

theorem made_in_use (build : Build) (headerSize : Nat) (holds : Invariant build headerSize system)
    (big : FreedBig system) (exhausted : system.free pool = []) :
    made system pool + creating system pool ≤ demand system pool := by
  have split := made_split system pool build headerSize holds big
  have more := Finset.sum_le_sum fun (thread : Thread) (_ : thread ∈ Finset.univ) =>
    wants_more system.blocks pool (system.phase thread)
  rw [Finset.sum_add_distrib, ← hands_length] at more
  rw [exhausted, List.length_nil] at split
  simp only [demand, creating]
  omega

end Counting

section Steps
variable [DecidableEq Thread] (build : Build) (headerSize : Nat) (thread : Thread)
  (before after : System Thread) (pool : Nat)

theorem freed_big_kept (moved : Transition build headerSize thread before after)
    (holds : Invariant build headerSize before) (big : FreedBig before) : FreedBig after := by
  intro block member
  have kept : block ∈ before.freed → (after.blocks block).maker = none := by
    intro old
    have known := (holds.owned.covers block).mpr ⟨.freed, old⟩
    rw [(made_kept build headerSize thread before after moved block known).1]
    exact big block old
  cases moved with
  | freeBig freed stands =>
      rcases List.mem_cons.mp member with new | old
      · have ok := holds.phases thread
        rw [stands] at ok
        rw [new]
        exact ok
      · exact kept old
  | _ => exact kept member

omit [Fintype Thread] in
theorem made_same (moved : Transition build headerSize thread before after)
    (same : after.created = before.created) : made after pool = made before pool := by
  rw [made, made, same]
  refine List.countP_congr fun block member => ?_
  rw [(made_kept build headerSize thread before after moved block (List.mem_range.mp member)).1]

theorem creating_moves (moved : Transition build headerSize thread before after) :
    creating after pool + creates pool (before.phase thread) =
      creating before pool + creates pool (after.phase thread) :=
  PendingViews.sum_exchange (fun other => creates pool (before.phase other))
    (fun other => creates pool (after.phase other)) thread fun other different => by
      rw [other_phases build headerSize thread before after moved other different]

omit [Fintype Thread] in
theorem made_obtained (moved : Transition build headerSize thread before after)
    (grown : after.created = before.created + 1) :
    made after pool = made before pool + if (after.blocks before.created).maker = some pool then 1
        else 0 := by
  rw [made, made, grown, List.range_succ, List.countP_append, List.countP_singleton]
  congr 1
  · refine List.countP_congr fun block member => ?_
    rw [(made_kept build headerSize thread before after moved block (List.mem_range.mp member)).1]
  · simp

/-- A pool grows, or is about to, only on account of a free list found empty. -/
theorem transition_grows (moved : Transition build headerSize thread before after) :
    made after pool + creating after pool ≤ made before pool + creating before pool ∨
      ∃ size, before.phase thread = .acquiring size pool ∧
        after.phase thread = .creating size pool := by
  have change := creating_moves build headerSize thread before after pool moved
  have kept := made_same build headerSize thread before after pool moved
  have grown := made_obtained build headerSize thread before after pool moved
  cases moved with
  | popNothing size source stands =>
      by_cases own : source = pool
      · subst own
        exact Or.inr ⟨size, stands, by simp [enter]⟩
      · have same := kept rfl
        simp only [enter, Function.update_self, stands, creates, own, if_false] at change same
        exact Or.inl (by simp only [enter]; omega)
  | create size source blockSize stands sized =>
      have more := grown rfl
      simp only [enter, obtain, Function.update_self, stands, creates,
        Option.some.injEq] at change more
      exact Or.inl (by simp only [enter, obtain]; omega)
  | createBig size stands =>
      have more := grown rfl
      simp only [enter, obtain, Function.update_self, stands, creates, reduceCtorEq,
        if_false] at change more
      exact Or.inl (by simp only [enter, obtain]; omega)
  | callBig size stands _ | callPool size source stands _ | callRelease block stands _
  | pop size source block rest stands _ | countPop size source block stands
  | countUse size source block stands | attach size block stands | routeBig block stands _
  | routePool source block stands _ | freeBig block stands | clear source block stands
  | push source block stands | countPush source stands | countDrop source stands =>
      have same := kept rfl
      simp only [enter, writeHeader, Function.update_self, stands, creates] at change same
      exact Or.inl (by simp only [enter, writeHeader]; omega)

omit [Fintype Thread] in
theorem step_exhausted (label : Label Thread)
    (taken : step build headerSize before label = some after) (size : BitVec 32)
    (asks : before.phase label.thread = .acquiring size pool)
    (creates : after.phase label.thread = .creating size pool) : after.free pool = [] := by
  cases label with
  | allocate thread other => simp [step, show before.phase thread = _ from asks] at taken
  | release thread block => simp [step, show before.phase thread = _ from asks] at taken
  | advance thread =>
      simp only [step, advance, show before.phase thread = _ from asks] at taken
      split at taken
      case h_1 exhausted =>
        cases taken
        exact exhausted
      case h_2 block rest top =>
        cases taken
        simp [Label.thread, enter] at creates

end Steps

variable [DecidableEq Thread]

/-- A pool never obtains more blocks than were in use or asked for together at some time of the run,
which is at most one for each thread more than the program held then. -/
theorem pool_grows_with_demand (build : Build) (headerSize : Nat) (system : System Thread)
    (reached : Reachable (step build headerSize) (fun _ _ _ => True) System.start system)
    (pool : Nat) :
    ∃ earlier, Reachable (step build headerSize) (fun _ _ _ => True) System.start earlier ∧
      Reachable (step build headerSize) (fun _ _ _ => True) earlier system ∧
      made system pool ≤ demand earlier pool ∧
      demand earlier pool ≤ liveOf earlier pool + Fintype.card Thread := by
  have big : ∀ state : System Thread,
      Reachable (step build headerSize) (fun _ _ _ => True) System.start state →
      Invariant build headerSize state ∧ FreedBig state := by
    intro state visited
    refine reachable_invariant (step build headerSize) (fun _ _ _ => True)
      (fun state => Invariant build headerSize state ∧ FreedBig state) System.start
      ⟨start_invariant build headerSize, by simp [FreedBig, System.start]⟩ ?_ state visited
    rintro before label after ⟨holds, big⟩ taken _
    have moved := step_transition build headerSize before after label taken
    exact ⟨transition_invariant build headerSize label.thread before after moved holds,
      freed_big_kept build headerSize label.thread before after moved holds big⟩
  suffices peak : ∃ earlier : System Thread,
      Reachable (step build headerSize) (fun _ _ _ => True) System.start earlier ∧
      Reachable (step build headerSize) (fun _ _ _ => True) earlier system ∧
      made system pool + creating system pool ≤ demand earlier pool by
    obtain ⟨earlier, visited, onward, most⟩ := peak
    exact ⟨earlier, visited, onward, Nat.le_of_add_right_le most, demand_bounded earlier pool⟩
  induction reached with
  | start => exact ⟨System.start, .start, .start, by simp [made, creating, System.start, creates]⟩
  | next label visited taken _ ih =>
      obtain ⟨earlier, first, onward, most⟩ := ih
      have moved := step_transition build headerSize _ _ label taken
      rcases transition_grows build headerSize label.thread _ _ pool
        moved with less | ⟨size, asks, creates⟩
      · exact ⟨earlier, first, .next label onward taken trivial, less.trans most⟩
      · -- Here the demand is what the pool has obtained.
        have here := visited.next label taken trivial
        have exhausted := step_exhausted build headerSize _ _ pool label taken size asks creates
        obtain ⟨holds, freed⟩ := big _ here
        exact ⟨_, here, .start, made_in_use _ pool build headerSize holds freed exhausted⟩

omit [Fintype Thread] [DecidableEq Thread] in
theorem pool_grows_with_demand_reused : ∃ system earlier : System Bool,
    system.live = [0, 1] ∧ (system.blocks 0).allocSize = 52 ∧
      made system 1 ≤ demand earlier 1 ∧ demand earlier 1 ≤ liveOf earlier 1 + 2 := by
  obtain ⟨system, reached, _, live, size, _⟩ := reuse_reached
  obtain ⟨earlier, _, _, most, bounded⟩ := pool_grows_with_demand .bigBlocks 32 system reached 1
  exact ⟨system, earlier, live, size, most, bounded⟩

end NetCore.PoolGrowth
