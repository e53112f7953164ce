import NetCore.MemoryPools
import NetCore.UniquePlacement
import NetCore.PendingViews
import Mathlib.Data.Fintype.Basic

/-! The discipline of the memory pools. Every block is on one free list, with the
program, in the hand of one thread or freed. The header of a block that is not
free leads back to its maker, because the size that chose the pool is the size
that `AttachHeader` writes. The counters are ahead of or behind the lists by what
the threads have under way. -/
namespace NetCore.PoolDiscipline
open TransitionRuns UniquePlacement MemoryTable MemoryPools

variable {Thread : Type} [DecidableEq Thread]

inductive Place (Thread : Type) where
  | free (pool : Nat)
  | live
  | hand (thread : Thread)
  | freed
  deriving DecidableEq

def contents (system : System Thread) : Place Thread → List Nat
  | .free pool => system.free pool
  | .live => system.live
  | .hand thread => (system.phase thread).hand.toList
  | .freed => system.freed

def Owned (system : System Thread) : Prop :=
  Placed (contents system) fun block => block < system.created

def PhaseOk (build : Build) (headerSize : Nat) (blocks : Nat → Block) : Phase → Prop
  | .acquiring size pool => route build (requested headerSize size) = .pool (some pool)
  | .creating size pool => route build (requested headerSize size) = .pool (some pool)
  | .popped size pool block =>
      route build (requested headerSize size) = .pool (some pool) ∧ (blocks block).maker = some pool
  | .counting size pool block =>
      route build (requested headerSize size) = .pool (some pool) ∧ (blocks block).maker = some pool
  | .allocatingBig size => route build (requested headerSize size) = .big
  | .attaching size block => route build (requested headerSize size) = (blocks block).home ∧
      requested headerSize size ≤ (blocks block).bytes
  | .detached block => route build (blocks block).allocSize = (blocks block).home
  | .freeingBig block => (blocks block).maker = none
  | .clearing pool block => (blocks block).maker = some pool
  | .pushing pool block => (blocks block).maker = some pool
  | _ => True

/-- How far `_poolCount` is ahead of the free list on account of a thread. -/
def poolOffset (pool : Nat) : Phase → Int
  | .popped _ source _ => if source = pool then 1 else 0
  | .pushed into => if into = pool then -1 else 0
  | _ => 0

/-- How far `_useCount` is ahead of the live blocks on account of a thread. -/
def useOffset (blocks : Nat → Block) (pool : Nat) : Phase → Int
  | .attaching _ block => if (blocks block).maker = some pool then 1 else 0
  | .detached block => if (blocks block).maker = some pool then 1 else 0
  | .clearing into _ => if into = pool then 1 else 0
  | .pushing into _ => if into = pool then 1 else 0
  | .pushed into => if into = pool then 1 else 0
  | .dropping into => if into = pool then 1 else 0
  | _ => 0

inductive Transition (build : Build) (headerSize : Nat) (thread : Thread) (system : System Thread) :
    System Thread → Prop where
  | callBig (size : BitVec 32) (stands : system.phase thread = .idle)
      (routed : route build (requested headerSize size) = .big) :
      Transition build headerSize thread system (enter system thread (.allocatingBig size))
  | callPool (size : BitVec 32) (pool : Nat) (stands : system.phase thread = .idle)
      (routed : route build (requested headerSize size) = .pool (some pool)) :
      Transition build headerSize thread system (enter system thread (.acquiring size pool))
  | callRelease (block : Nat) (stands : system.phase thread = .idle) (held : block ∈ system.live) :
      Transition build headerSize thread system
        (enter { system with live := system.live.erase block } thread (.detached block))
  | popNothing (size : BitVec 32) (pool : Nat)
      (stands : system.phase thread = .acquiring size pool) :
      Transition build headerSize thread system (enter system thread (.creating size pool))
  | pop (size : BitVec 32) (pool block : Nat) (rest : List Nat)
      (stands : system.phase thread = .acquiring size pool)
      (top : system.free pool = block :: rest) :
      Transition build headerSize thread system
        (enter { system with free := Function.update system.free pool rest } thread
          (.popped size pool block))
  | create (size : BitVec 32) (pool blockSize : Nat)
      (stands : system.phase thread = .creating size pool)
      (sized : (construct build).pools[pool]? = some blockSize) :
      Transition build headerSize thread system
        (enter (obtain system ⟨some pool, blockSize, blockSize⟩) thread
          (.counting size pool system.created))
  | countPop (size : BitVec 32) (pool block : Nat)
      (stands : system.phase thread = .popped size pool block) :
      Transition build headerSize thread system
        (enter { system with
            poolCount := Function.update system.poolCount pool (system.poolCount pool - 1) }
          thread (.counting size pool block))
  | countUse (size : BitVec 32) (pool block : Nat)
      (stands : system.phase thread = .counting size pool block) :
      Transition build headerSize thread system
        (enter { system with
            useCount := Function.update system.useCount pool (system.useCount pool + 1) }
          thread (.attaching size block))
  | createBig (size : BitVec 32) (stands : system.phase thread = .allocatingBig size) :
      Transition build headerSize thread system
        (enter (obtain system ⟨none, requested headerSize size, 0⟩) thread
          (.attaching size system.created))
  | attach (size : BitVec 32) (block : Nat) (stands : system.phase thread = .attaching size block) :
      Transition build headerSize thread system
        (enter { writeHeader system block (requested headerSize size) with
          live := block :: system.live } thread .idle)
  | routeBig (block : Nat) (stands : system.phase thread = .detached block)
      (routed : route build (system.blocks block).allocSize = .big) :
      Transition build headerSize thread system (enter system thread (.freeingBig block))
  | routePool (pool block : Nat) (stands : system.phase thread = .detached block)
      (routed : route build (system.blocks block).allocSize = .pool (some pool)) :
      Transition build headerSize thread system (enter system thread (.clearing pool block))
  | freeBig (block : Nat) (stands : system.phase thread = .freeingBig block) :
      Transition build headerSize thread system
        (enter { system with freed := block :: system.freed } thread .idle)
  | clear (pool block : Nat) (stands : system.phase thread = .clearing pool block) :
      Transition build headerSize thread system
        (enter (writeHeader system block 0) thread (.pushing pool block))
  | push (pool block : Nat) (stands : system.phase thread = .pushing pool block) :
      Transition build headerSize thread system
        (enter { system with free := Function.update system.free pool (block :: system.free pool) }
          thread (.pushed pool))
  | countPush (pool : Nat) (stands : system.phase thread = .pushed pool) :
      Transition build headerSize thread system
        (enter { system with
            poolCount := Function.update system.poolCount pool (system.poolCount pool + 1) }
          thread (.dropping pool))
  | countDrop (pool : Nat) (stands : system.phase thread = .dropping pool) :
      Transition build headerSize thread system
        (enter { system with
            useCount := Function.update system.useCount pool (system.useCount pool - 1) }
          thread .idle)

theorem advance_transition (build : Build) (headerSize : Nat) (thread : Thread)
    (before after : System Thread) (taken : advance build headerSize before thread = some after) :
    Transition build headerSize thread before after := by
  unfold advance at taken
  cases stands : before.phase thread with
  | idle => simp [stands] at taken
  | acquiring size pool =>
      simp only [stands] at taken
      split at taken
      case h_1 => exact Option.some.inj taken ▸ .popNothing size pool stands
      case h_2 block rest top => exact Option.some.inj taken ▸ .pop size pool block rest stands top
  | creating size pool =>
      simp only [stands] at taken
      split at taken
      case h_1 => simp at taken
      case h_2 blockSize sized =>
        exact Option.some.inj taken ▸ .create size pool blockSize stands sized
  | popped size pool block =>
      simp only [stands] at taken
      exact Option.some.inj taken ▸ .countPop size pool block stands
  | counting size pool block =>
      simp only [stands] at taken
      exact Option.some.inj taken ▸ .countUse size pool block stands
  | allocatingBig size =>
      simp only [stands] at taken
      exact Option.some.inj taken ▸ .createBig size stands
  | attaching size block =>
      simp only [stands] at taken
      exact Option.some.inj taken ▸ .attach size block stands
  | detached block =>
      simp only [stands] at taken
      split at taken
      case h_1 routed => exact Option.some.inj taken ▸ .routeBig block stands routed
      case h_2 pool routed => exact Option.some.inj taken ▸ .routePool pool block stands routed
      case h_3 => simp at taken
  | freeingBig block =>
      simp only [stands] at taken
      exact Option.some.inj taken ▸ .freeBig block stands
  | clearing pool block =>
      simp only [stands] at taken
      exact Option.some.inj taken ▸ .clear pool block stands
  | pushing pool block =>
      simp only [stands] at taken
      exact Option.some.inj taken ▸ .push pool block stands
  | pushed pool =>
      simp only [stands] at taken
      exact Option.some.inj taken ▸ .countPush pool stands
  | dropping pool =>
      simp only [stands] at taken
      exact Option.some.inj taken ▸ .countDrop pool stands

theorem step_transition (build : Build) (headerSize : Nat) (before after : System Thread)
    (label : Label Thread) (taken : step build headerSize before label = some after) :
    Transition build headerSize label.thread before after := by
  cases label with
  | allocate thread size =>
      simp only [step, callAllocate] at taken
      split at taken
      case isTrue stands =>
        split at taken
        case h_1 routed => exact Option.some.inj taken ▸ .callBig size stands routed
        case h_2 pool routed => exact Option.some.inj taken ▸ .callPool size pool stands routed
        case h_3 => simp at taken
      case isFalse => simp at taken
  | release thread block =>
      simp only [step] at taken
      split at taken
      case isTrue allowed =>
        exact Option.some.inj taken ▸ .callRelease block allowed.1 allowed.2
      case isFalse => simp at taken
  | advance thread => exact advance_transition build headerSize thread before after taken

/-! What a step leaves alone. -/
section Frame
variable (build : Build) (headerSize : Nat) (thread : Thread) (before after : System Thread)

theorem other_phases (moved : Transition build headerSize thread before after) (other : Thread)
    (different : other ≠ thread) : after.phase other = before.phase other := by
  cases moved <;> simp [enter, obtain, writeHeader, Function.update_of_ne different]

/-- A block keeps its maker and its size for ever. -/
theorem made_kept (moved : Transition build headerSize thread before after) (block : Nat)
    (old : block < before.created) :
    (after.blocks block).maker = (before.blocks block).maker ∧
      (after.blocks block).bytes = (before.blocks block).bytes := by
  have known : block ≠ before.created := Nat.ne_of_lt old
  cases moved <;>
    simp only [enter, obtain, writeHeader, Function.update_apply, known, if_false, and_self]
  case attach size held stands => split <;> simp_all
  case clear pool held stands => split <;> simp_all

/-- Only the thread that has a block in its hand writes the header. -/
theorem block_kept (moved : Transition build headerSize thread before after) (block : Nat)
    (old : block < before.created) (notHeld : (before.phase thread).hand ≠ some block) :
    after.blocks block = before.blocks block := by
  have known : block ≠ before.created := Nat.ne_of_lt old
  cases moved <;> simp only [enter, obtain, writeHeader, Function.update_of_ne known]
  case attach size held stands =>
    have other : block ≠ held := by
      rintro rfl
      exact notHeld (by rw [stands]; rfl)
    rw [Function.update_of_ne other]
  case clear pool held stands =>
    have other : block ≠ held := by
      rintro rfl
      exact notHeld (by rw [stands]; rfl)
    rw [Function.update_of_ne other]

end Frame

omit [DecidableEq Thread] in
theorem start_owned : Owned (System.start : System Thread) where
  once place := by cases place <;> simp [contents, System.start, Phase.hand]
  apart item left right member := by
    cases left <;> simp [contents, System.start, Phase.hand] at member
  covers item := by
    constructor
    · intro live
      exact absurd live (Nat.not_lt_zero _)
    · rintro ⟨place, member⟩
      cases place <;> simp [contents, System.start, Phase.hand] at member

theorem contents_enter (system : System Thread) (thread : Thread) (phase : Phase)
    (place : Place Thread) (elsewhere : place ≠ .hand thread) :
    contents (enter system thread phase) place = contents system place := by
  cases place with
  | hand other =>
      have different : other ≠ thread := fun same => elsewhere (by rw [same])
      simp [contents, enter, different]
  | _ => rfl

@[simp] theorem contents_enter_hand (system : System Thread) (thread : Thread) (phase : Phase) :
    contents (enter system thread phase) (.hand thread) = phase.hand.toList := by
  simp [contents, enter]

theorem go_on_owned (system : System Thread) (thread : Thread) (phase : Phase)
    (owned : Owned system) (same : phase.hand = (system.phase thread).hand) :
    Owned (enter system thread phase) := by
  apply placed_reorder (contents system) _ _ owned
  intro place
  by_cases own : place = .hand thread
  · subst place
    simp [contents, enter, same]
  · rw [contents_enter system thread phase place own]

theorem pass_owned (before middle : System Thread) (thread : Thread) (phase : Phase)
    (place : Place Thread) (block : Nat) (owned : Owned before) (notHand : place ≠ .hand thread)
    (created : middle.created = before.created)
    (elsewhere : ∀ other, other ≠ place → other ≠ .hand thread →
      contents middle other = contents before other)
    (passed : (before.phase thread).hand = some block ∧ phase.hand = none ∧
        contents middle place = block :: contents before place ∨
      (before.phase thread).hand = none ∧ phase.hand = some block ∧
        (contents before place).Perm (block :: contents middle place)) :
    Owned (enter middle thread phase) := by
  have live : ∀ item, (enter middle thread phase).created > item ↔ before.created > item := by
    intro item
    rw [show (enter middle thread phase).created = middle.created from rfl, created]
  apply placed_live_congr _ _ _ _ live
  have frame : ∀ other, other ≠ place → other ≠ .hand thread →
      (contents (enter middle thread phase) other).Perm (contents before other) := by
    intro other notPlace notOwn
    rw [contents_enter middle thread phase other notOwn, elsewhere other notPlace notOwn]
  rcases passed with ⟨carried, empty, arrived⟩ | ⟨empty, carried, left⟩
  · apply placed_transfer (contents before) _ _ owned (.hand thread) place [block] []
    case different => exact Ne.symm notHand
    case split => simp [contents, carried]
    case left => simp [empty]
    case arrived =>
      rw [contents_enter middle thread phase place notHand, arrived]
      exact (List.perm_append_singleton block (contents before place)).symm
    case frame => exact fun other notOwn notPlace => frame other notPlace notOwn
  · apply placed_transfer (contents before) _ _ owned place (.hand thread) [block]
      (contents middle place)
    case different => exact notHand
    case split => exact left
    case left => rw [contents_enter middle thread phase place notHand]
    case arrived => simp [contents, enter, empty, carried]
    case frame => exact frame

theorem obtain_owned (system : System Thread) (thread : Thread) (phase : Phase) (block : Block)
    (owned : Owned system) (empty : (system.phase thread).hand = none)
    (carried : phase.hand = some system.created) :
    Owned (enter (obtain system block) thread phase) := by
  apply placed_admit (contents system) _ _ _ owned (.hand thread) [system.created]
  case fresh => simp
  case distinct => simp
  case arrived => simp [contents, enter, empty, carried]
  case frame =>
    intro place elsewhere
    rw [contents_enter (obtain system block) thread phase place elsewhere]
    cases place <;> exact .rfl
  case grows =>
    intro item
    simp only [enter, obtain, List.mem_singleton]
    omega

theorem transition_owned (build : Build) (headerSize : Nat) (thread : Thread)
    (before after : System Thread) (moved : Transition build headerSize thread before after)
    (owned : Owned before) : Owned after := by
  cases moved with
  | callBig size stands _ => exact go_on_owned before thread _ owned (by rw [stands]; rfl)
  | callPool size pool stands _ => exact go_on_owned before thread _ owned (by rw [stands]; rfl)
  | callRelease block stands held =>
      apply pass_owned before _ thread _ .live block owned (by simp)
      case created => rfl
      case elsewhere => intro other notPlace _; cases other <;> simp_all [contents]
      case passed =>
        exact .inr ⟨by rw [stands]; rfl, rfl, List.perm_cons_erase held⟩
  | popNothing size pool stands => exact go_on_owned before thread _ owned (by rw [stands]; rfl)
  | pop size pool block rest stands top =>
      apply pass_owned before _ thread _ (.free pool) block owned (by simp)
      case created => rfl
      case elsewhere =>
        intro other notPlace _
        cases other <;> simp_all [contents]
      case passed => exact .inr ⟨by rw [stands]; rfl, rfl, by simp [contents, top]⟩
  | create size pool blockSize stands _ =>
      exact obtain_owned before thread _ _ owned (by rw [stands]; rfl) rfl
  | countPop size pool block stands =>
      exact go_on_owned { before with poolCount := _ } thread _ owned (by simp only [stands]; rfl)
  | countUse size pool block stands =>
      exact go_on_owned { before with useCount := _ } thread _ owned (by simp only [stands]; rfl)
  | createBig size stands => exact obtain_owned before thread _ _ owned (by rw [stands]; rfl) rfl
  | attach size block stands =>
      apply pass_owned before _ thread _ .live block owned (by simp)
      case created => rfl
      case elsewhere => intro other notPlace _; cases other <;> simp_all [contents, writeHeader]
      case passed => exact .inl ⟨by rw [stands]; rfl, rfl, rfl⟩
  | routeBig block stands _ => exact go_on_owned before thread _ owned (by rw [stands]; rfl)
  | routePool pool block stands _ => exact go_on_owned before thread _ owned (by rw [stands]; rfl)
  | freeBig block stands =>
      apply pass_owned before _ thread _ .freed block owned (by simp)
      case created => rfl
      case elsewhere => intro other notPlace _; cases other <;> simp_all [contents]
      case passed => exact .inl ⟨by rw [stands]; rfl, rfl, rfl⟩
  | clear pool block stands =>
      exact go_on_owned (writeHeader before block 0) thread _ owned
        (by simp only [writeHeader, stands]; rfl)
  | push pool block stands =>
      apply pass_owned before _ thread _ (.free pool) block owned (by simp)
      case created => rfl
      case elsewhere =>
        intro other notPlace _
        cases other <;> simp_all [contents]
      case passed => exact .inl ⟨by rw [stands]; rfl, rfl, by simp [contents]⟩
  | countPush pool stands =>
      exact go_on_owned { before with poolCount := _ } thread _ owned (by simp only [stands]; rfl)
  | countDrop pool stands =>
      exact go_on_owned { before with useCount := _ } thread _ owned (by simp only [stands]; rfl)

theorem route_pool_fits (build : Build) (allocSize : Int) (pool : Nat)
    (routed : route build allocSize = .pool (some pool)) :
    ∃ blockSize : Nat, (construct build).pools[pool]? = some blockSize ∧ allocSize ≤ blockSize := by
  unfold route at routed
  split at routed
  case isTrue => simp at routed
  case isFalse =>
    rw [Route.pool.injEq, tableEntry] at routed
    split at routed
    case isTrue => simp at routed
    case isFalse nonnegative =>
      obtain ⟨blockSize, sized, fits⟩ := construct_entry_fits build _ pool routed
      exact ⟨blockSize, sized, by omega⟩

structure Invariant [Fintype Thread] (build : Build) (headerSize : Nat) (system : System Thread) :
    Prop where
  owned : Owned system
  made : ∀ block pool, block < system.created → (system.blocks block).maker = some pool →
    ∃ blockSize : Nat, (construct build).pools[pool]? = some blockSize ∧
      (system.blocks block).bytes = blockSize
  ownFree : ∀ pool block, block ∈ system.free pool → (system.blocks block).maker = some pool
  headed : ∀ block ∈ system.live,
    route build (system.blocks block).allocSize = (system.blocks block).home
  phases : ∀ thread, PhaseOk build headerSize system.blocks (system.phase thread)
  pooled : ∀ pool, system.poolCount pool = BitVec.ofInt 32
    ((system.free pool).length + ∑ thread, poolOffset pool (system.phase thread))
  used : ∀ pool, system.useCount pool = BitVec.ofInt 32
    (liveOf system pool + ∑ thread, useOffset system.blocks pool (system.phase thread))

omit [DecidableEq Thread] in
theorem start_invariant [Fintype Thread] (build : Build) (headerSize : Nat) :
    Invariant build headerSize (System.start : System Thread) := by
  constructor
  case owned => exact start_owned
  all_goals simp [System.start, PhaseOk, poolOffset, useOffset, liveOf]

theorem phase_ok_congr (build : Build) (headerSize : Nat) (before after : Nat → Block)
    (phase : Phase) (ok : PhaseOk build headerSize before phase)
    (same : ∀ block, phase.hand = some block → after block = before block) :
    PhaseOk build headerSize after phase := by
  cases phase <;> simp_all [PhaseOk, Phase.hand]

/-! One step, for a state that satisfies the invariant. -/
section Preservation
variable [Fintype Thread] (build : Build) (headerSize : Nat) (thread : Thread)
variable (before after : System Thread)

omit [Fintype Thread] [DecidableEq Thread] in
theorem held_old (owned : Owned before) (other : Thread) (block : Nat)
    (held : (before.phase other).hand = some block) : block < before.created :=
  (owned.covers block).mpr ⟨.hand other, by simp [contents, held]⟩

omit [Fintype Thread] [DecidableEq Thread] in
theorem live_old (owned : Owned before) (block : Nat) (held : block ∈ before.live) :
    block < before.created :=
  (owned.covers block).mpr ⟨.live, held⟩

omit [Fintype Thread] [DecidableEq Thread] in
theorem live_not_held (owned : Owned before) (block : Nat) (held : block ∈ before.live) :
    (before.phase thread).hand ≠ some block := by
  intro carried
  have same := owned.apart block .live (.hand thread) held (by simp [contents, carried])
  simp at same

theorem moved_made (moved : Transition build headerSize thread before after)
    (holds : Invariant build headerSize before) (block pool : Nat) (exists_ : block < after.created)
    (maker : (after.blocks block).maker = some pool) :
    ∃ blockSize : Nat, (construct build).pools[pool]? = some blockSize ∧
      (after.blocks block).bytes = blockSize := by
  by_cases old : block < before.created
  · obtain ⟨sameMaker, sameBytes⟩ := made_kept build headerSize thread before after moved block old
    rw [sameMaker] at maker
    rw [sameBytes]
    exact holds.made block pool old maker
  · cases moved with
    | create size source blockSize stands sized =>
        have new : block = before.created := by
          simp only [enter, obtain] at exists_
          omega
        subst block
        simp only [enter, obtain, Function.update_self, Option.some.injEq] at maker
        subst pool
        exact ⟨blockSize, sized, by simp [enter, obtain]⟩
    | createBig size stands =>
        have new : block = before.created := by
          simp only [enter, obtain] at exists_
          omega
        subst block
        simp [enter, obtain] at maker
    | _ => exact absurd exists_ old

theorem moved_own_free (moved : Transition build headerSize thread before after)
    (holds : Invariant build headerSize before) (pool block : Nat)
    (listed : block ∈ after.free pool) :
    (after.blocks block).maker = some pool := by
  have kept : block ∈ before.free pool → (after.blocks block).maker = some pool := by
    intro old
    have alive : block < before.created := (holds.owned.covers block).mpr ⟨.free pool, old⟩
    rw [(made_kept build headerSize thread before after moved block alive).1]
    exact holds.ownFree pool block old
  cases moved with
  | pop size source first rest stands top =>
      apply kept
      simp only [enter, Function.update_apply] at listed
      split at listed
      case isTrue same => rw [same, top]; exact List.mem_cons_of_mem first listed
      case isFalse => exact listed
  | push target pushed stands =>
      have ok := holds.phases thread
      rw [stands] at ok
      simp only [enter, Function.update_apply] at listed
      split at listed
      case isTrue same =>
        subst pool
        rcases List.mem_cons.mp listed with new | old
        · rw [new]
          exact ok
        · exact kept old
      case isFalse => exact kept listed
  | _ => exact kept listed

theorem moved_headed (moved : Transition build headerSize thread before after)
    (holds : Invariant build headerSize before) (block : Nat) (held : block ∈ after.live) :
    route build (after.blocks block).allocSize = (after.blocks block).home := by
  have kept : block ∈ before.live →
      route build (after.blocks block).allocSize = (after.blocks block).home := by
    intro old
    rw [block_kept build headerSize thread before after moved block
      (live_old before holds.owned block old) (live_not_held thread before holds.owned block old)]
    exact holds.headed block old
  cases moved with
  | attach size returned stands =>
      have ok := holds.phases thread
      rw [stands] at ok
      rcases List.mem_cons.mp held with new | old
      · subst block
        simpa [enter, writeHeader, Block.home] using ok.1
      · exact kept old
  | callRelease released stands live => exact kept (List.mem_of_mem_erase held)
  | _ => exact kept held

theorem moved_own_phase (moved : Transition build headerSize thread before after)
    (holds : Invariant build headerSize before) :
    PhaseOk build headerSize after.blocks (after.phase thread) := by
  have ok := holds.phases thread
  cases moved with
  | callBig size stands routed => simpa [enter, PhaseOk] using routed
  | callPool size pool stands routed => simpa [enter, PhaseOk] using routed
  | callRelease block stands held => simpa [enter, PhaseOk] using holds.headed block held
  | popNothing size pool stands => simpa [enter, PhaseOk, stands] using ok
  | pop size pool block rest stands top =>
      have maker := holds.ownFree pool block (by rw [top]; exact List.mem_cons_self)
      rw [stands] at ok
      simpa [enter, PhaseOk] using And.intro ok maker
  | create size pool blockSize stands sized =>
      rw [stands] at ok
      simpa [enter, obtain, PhaseOk] using ok
  | countPop size pool block stands => simpa [enter, PhaseOk, stands] using ok
  | countUse size pool block stands =>
      rw [stands] at ok
      obtain ⟨routed, maker⟩ := ok
      obtain ⟨blockSize, sized, fits⟩ := route_pool_fits build _ pool routed
      have old := held_old before holds.owned thread block (by rw [stands]; rfl)
      obtain ⟨same, sizedSame, bytes⟩ := holds.made block pool old maker
      rw [sized, Option.some.injEq] at sizedSame
      simp only [enter, Function.update_self, PhaseOk, Block.home, maker]
      exact ⟨routed, by omega⟩
  | createBig size stands =>
      rw [stands] at ok
      simpa [enter, obtain, PhaseOk, Block.home] using ok
  | routeBig block stands routed =>
      rw [stands] at ok
      simp only [PhaseOk, routed, Block.home] at ok
      cases maker : (before.blocks block).maker with
      | none => simpa [enter, PhaseOk] using maker
      | some pool => simp [maker] at ok
  | routePool pool block stands routed =>
      rw [stands] at ok
      simp only [PhaseOk, routed, Block.home] at ok
      cases maker : (before.blocks block).maker with
      | none => simp [maker] at ok
      | some home =>
          simp only [maker, Route.pool.injEq, Option.some.injEq] at ok
          simpa [enter, PhaseOk, ok] using maker
  | clear pool block stands => simpa [enter, writeHeader, PhaseOk, stands] using ok
  | _ => simp [enter, PhaseOk]

theorem moved_phases (moved : Transition build headerSize thread before after)
    (holds : Invariant build headerSize before) (other : Thread) :
    PhaseOk build headerSize after.blocks (after.phase other) := by
  by_cases own : other = thread
  · subst other
    exact moved_own_phase build headerSize thread before after moved holds
  · rw [other_phases build headerSize thread before after moved other own]
    apply phase_ok_congr build headerSize before.blocks _ _ (holds.phases other)
    intro block held
    apply block_kept build headerSize thread before after moved block
      (held_old before holds.owned other block held)
    intro mine
    have same := holds.owned.apart block (.hand other) (.hand thread)
      (by simp [contents, held]) (by simp [contents, mine])
    exact own (Place.hand.inj same)

theorem sum_change (old new : Thread → Int)
    (same : ∀ other, other ≠ thread → new other = old other) :
    ∑ other, new other = ∑ other, old other + (new thread - old thread) := by
  have exchange := PendingViews.sum_exchange old new thread same
  omega

theorem counter_up (total : Int) : BitVec.ofInt 32 total + 1 = BitVec.ofInt 32 (total + 1) :=
  (BitVec.ofInt_add total 1).symm

theorem counter_down (total : Int) : BitVec.ofInt 32 total - 1 = BitVec.ofInt 32 (total - 1) := by
  rw [BitVec.sub_eq_iff_eq_add, counter_up, Int.sub_add_cancel]

theorem moved_pooled (moved : Transition build headerSize thread before after)
    (holds : Invariant build headerSize before) (pool : Nat) :
    after.poolCount pool = BitVec.ofInt 32
      ((after.free pool).length + ∑ other, poolOffset pool (after.phase other)) := by
  have counted := holds.pooled pool
  rw [sum_change thread (fun other => poolOffset pool (before.phase other))
    (fun other => poolOffset pool (after.phase other))
    (fun other different => by
      rw [other_phases build headerSize thread before after moved other different])]
  generalize ∑ other, poolOffset pool (before.phase other) = offset at counted ⊢
  cases moved with
  | pop size source block rest stands top =>
      by_cases same : source = pool
      · subst source
        simp only [enter, Function.update_self, poolOffset, stands, if_true]
        rw [counted, top, List.length_cons]
        congr 1
        push_cast
        omega
      · simp [enter, poolOffset, stands, same, Function.update_of_ne (Ne.symm same), counted]
  | countPop size source block stands =>
      by_cases same : source = pool
      · subst source
        simp only [enter, Function.update_self, poolOffset, stands, if_true]
        rw [counted, counter_down]
        congr 1
        omega
      · simp [enter, poolOffset, stands, same, Function.update_of_ne (Ne.symm same), counted]
  | push target block stands =>
      by_cases same : target = pool
      · subst target
        simp only [enter, Function.update_self, poolOffset, stands, if_true]
        rw [counted, List.length_cons]
        congr 1
        push_cast
        omega
      · simp [enter, poolOffset, stands, same, Function.update_of_ne (Ne.symm same), counted]
  | countPush target stands =>
      by_cases same : target = pool
      · subst target
        simp only [enter, Function.update_self, poolOffset, stands, if_true]
        rw [counted, counter_up]
        congr 1
        omega
      · simp [enter, poolOffset, stands, same, Function.update_of_ne (Ne.symm same), counted]
  | callBig size stands routed => simp [enter, poolOffset, stands, counted]
  | callPool size source stands routed => simp [enter, poolOffset, stands, counted]
  | callRelease block stands held => simp [enter, poolOffset, stands, counted]
  | popNothing size source stands => simp [enter, poolOffset, stands, counted]
  | create size source blockSize stands sized => simp [enter, obtain, poolOffset, stands, counted]
  | countUse size source block stands => simp [enter, poolOffset, stands, counted]
  | createBig size stands => simp [enter, obtain, poolOffset, stands, counted]
  | attach size block stands => simp [enter, writeHeader, poolOffset, stands, counted]
  | routeBig block stands routed => simp [enter, poolOffset, stands, counted]
  | routePool source block stands routed => simp [enter, poolOffset, stands, counted]
  | freeBig block stands => simp [enter, poolOffset, stands, counted]
  | clear source block stands => simp [enter, writeHeader, poolOffset, stands, counted]
  | countDrop source stands => simp [enter, poolOffset, stands, counted]

theorem use_offset_congr (old new : Nat → Block) (pool : Nat) (phase : Phase)
    (same : ∀ block, phase.hand = some block → (new block).maker = (old block).maker) :
    useOffset new pool phase = useOffset old pool phase := by
  cases phase <;> simp_all [useOffset, Phase.hand]

omit [Fintype Thread] in
theorem moved_live_old (moved : Transition build headerSize thread before after)
    (owned : Owned before) (block : Nat) (held : block ∈ after.live) : block < before.created := by
  cases moved with
  | callRelease released stands live =>
      exact live_old before owned block (List.mem_of_mem_erase held)
  | attach size returned stands =>
      rcases List.mem_cons.mp held with new | old
      · rw [new]
        exact held_old before owned thread returned (by rw [stands]; rfl)
      · exact live_old before owned block old
  | _ => exact live_old before owned block held

omit [Fintype Thread] in
theorem moved_live_of (moved : Transition build headerSize thread before after)
    (owned : Owned before) (pool : Nat) :
    liveOf after pool =
      after.live.countP fun block => (before.blocks block).maker = some pool := by
  apply List.countP_congr
  intro block held
  rw [(made_kept build headerSize thread before after moved block
    (moved_live_old build headerSize thread before after moved owned block held)).1]

theorem moved_used (moved : Transition build headerSize thread before after)
    (holds : Invariant build headerSize before) (pool : Nat) :
    after.useCount pool = BitVec.ofInt 32
      (liveOf after pool + ∑ other, useOffset after.blocks pool (after.phase other)) := by
  have counted := holds.used pool
  have ok := holds.phases thread
  have others : ∀ other, other ≠ thread → useOffset after.blocks pool (after.phase other) =
      useOffset before.blocks pool (before.phase other) := by
    intro other different
    rw [other_phases build headerSize thread before after moved other different]
    apply use_offset_congr
    intro block held
    exact (made_kept build headerSize thread before after moved block
      (held_old before holds.owned other block held)).1
  rw [moved_live_of build headerSize thread before after moved holds.owned pool,
    sum_change thread _ _ others]
  unfold liveOf at counted
  generalize ∑ other, useOffset before.blocks pool (before.phase other) = offset at counted ⊢
  cases moved with
  | callRelease block stands held =>
      have split := (List.perm_cons_erase held).countP_eq
        (fun block => decide ((before.blocks block).maker = some pool))
      rw [List.countP_cons] at split
      simp only [enter, Function.update_self, useOffset, stands]
      rw [counted, split]
      congr 1
      push_cast
      by_cases mine : (before.blocks block).maker = some pool
      · simp [mine]
        omega
      · simp [mine]
  | countUse size source block stands =>
      rw [stands] at ok
      have maker : (before.blocks block).maker = some source := ok.2
      by_cases same : source = pool
      · subst source
        simp only [enter, Function.update_self, useOffset, stands, maker, if_true]
        rw [counted, counter_up]
        congr 1
        omega
      · simp [enter, useOffset, stands, maker, same, Function.update_of_ne (Ne.symm same), counted]
  | attach size block stands =>
      simp only [enter, Function.update_self, useOffset, stands, writeHeader]
      rw [counted, List.countP_cons]
      congr 1
      push_cast
      by_cases mine : (before.blocks block).maker = some pool
      · simp [mine]
        omega
      · simp [mine]
  | routePool source block stands routed =>
      have maker : (before.blocks block).maker = some source := by
        have after := moved_own_phase build headerSize thread before _
          (.routePool source block stands routed) holds
        simpa [enter, PhaseOk] using after
      simp [enter, useOffset, stands, maker, counted]
  | routeBig block stands routed =>
      have maker : (before.blocks block).maker = none := by
        have after := moved_own_phase build headerSize thread before _
          (.routeBig block stands routed) holds
        simpa [enter, PhaseOk] using after
      simp [enter, useOffset, stands, maker, counted]
  | countDrop source stands =>
      by_cases same : source = pool
      · subst source
        simp only [enter, Function.update_self, useOffset, stands, if_true]
        rw [counted, counter_down]
        congr 1
        omega
      · simp [enter, useOffset, stands, same, Function.update_of_ne (Ne.symm same), counted]
  | callBig size stands routed => simp [enter, useOffset, stands, counted]
  | callPool size source stands routed => simp [enter, useOffset, stands, counted]
  | popNothing size source stands => simp [enter, useOffset, stands, counted]
  | pop size source block rest stands top => simp [enter, useOffset, stands, counted]
  | create size source blockSize stands sized => simp [enter, obtain, useOffset, stands, counted]
  | countPop size source block stands => simp [enter, useOffset, stands, counted]
  | createBig size stands => simp [enter, obtain, useOffset, stands, counted]
  | freeBig block stands => simp [enter, useOffset, stands, counted]
  | clear source block stands => simp [enter, writeHeader, useOffset, stands, counted]
  | push source block stands => simp [enter, useOffset, stands, counted]
  | countPush source stands => simp [enter, useOffset, stands, counted]

theorem transition_invariant (moved : Transition build headerSize thread before after)
    (holds : Invariant build headerSize before) : Invariant build headerSize after where
  owned := transition_owned build headerSize thread before after moved holds.owned
  made := moved_made build headerSize thread before after moved holds
  ownFree := moved_own_free build headerSize thread before after moved holds
  headed := moved_headed build headerSize thread before after moved holds
  phases := moved_phases build headerSize thread before after moved holds
  pooled := moved_pooled build headerSize thread before after moved holds
  used := moved_used build headerSize thread before after moved holds

end Preservation

theorem reachable_holds [Fintype Thread] (build : Build) (headerSize : Nat) (system : System Thread)
    (reached : Reachable (step build headerSize) (fun _ _ _ => True) System.start system) :
    Invariant build headerSize system := by
  apply reachable_invariant (step build headerSize) (fun _ _ _ => True)
    (Invariant build headerSize) System.start (start_invariant build headerSize)
  case reached => exact reached
  case keeps =>
    intro before label after holds taken _
    exact transition_invariant build headerSize label.thread before after
      (step_transition build headerSize before after label taken) holds

theorem requested_exact (build : Build) (headerSize : Nat) (small : headerSize < 2 ^ 31)
    (size : BitVec 32) (block : Block)
    (routed : route build (requested headerSize size) = block.home) :
    requested headerSize size = size.toInt + headerSize := by
  have low := BitVec.le_toInt size
  have high := BitVec.toInt_lt (x := size)
  by_cases fits : size.toInt + headerSize ≤ 2 ^ 31 - 1
  · unfold requested narrow
    rw [Int.bmod_eq_of_le] <;> omega
  · -- The sum has wrapped to a negative number, and no entry lies there.
    have negative : requested headerSize size < 0 := by
      unfold requested narrow
      rw [Int.bmod_def]
      have wrapped : (size.toInt + headerSize) % ((2 ^ 32 : Nat) : Int) =
          size.toInt + headerSize := by
        apply Int.emod_eq_of_lt <;> omega
      rw [wrapped]
      split <;> omega
    unfold route tableEntry Block.home at routed
    rw [if_neg (by omega), if_pos negative] at routed
    cases maker : block.maker <;> simp [maker] at routed

omit [DecidableEq Thread] in
theorem invariant_discipline [Fintype Thread] (build : Build) (headerSize : Nat)
    (small : headerSize < 2 ^ 31) (system : System Thread)
    (holds : Invariant build headerSize system) : Discipline build headerSize system := by
  have owned := holds.owned
  constructor
  case ownFree =>
    intro pool block listed
    have maker := holds.ownFree pool block listed
    have old : block < system.created := (owned.covers block).mpr ⟨.free pool, listed⟩
    exact ⟨maker, holds.made block pool old maker⟩
  case notTwice => exact ⟨owned.once .live, fun pool => owned.once (.free pool)⟩
  case notLiveAndFree =>
    intro pool block live listed
    have same := owned.apart block .live (.free pool) live listed
    simp at same
  case notOnTwoLists =>
    intro block left right atLeft atRight
    exact Place.free.inj (owned.apart block (.free left) (.free right) atLeft atRight)
  case returns =>
    intro thread size block stands
    have ok := holds.phases thread
    rw [stands] at ok
    have held : block ∈ contents system (.hand thread) := by simp [contents, stands, Phase.hand]
    refine ⟨?_, ?_, ?_⟩
    · intro live
      have same := owned.apart block .live (.hand thread) live held
      simp at same
    · intro pool listed
      have same := owned.apart block (.free pool) (.hand thread) listed held
      simp at same
    · rw [← requested_exact build headerSize small size _ ok.1]
      exact ok.2
  case releases =>
    intro thread block stands
    have ok := holds.phases thread
    rwa [stands] at ok
  case frees =>
    intro thread block stands
    have ok := holds.phases thread
    rwa [stands] at ok
  case pushes =>
    intro thread pool block stands
    have ok := holds.phases thread
    rwa [stands] at ok

omit [DecidableEq Thread] in
theorem quiet_counts [Fintype Thread] (build : Build) (headerSize : Nat) (system : System Thread)
    (holds : Invariant build headerSize system) (quiet : Quiet system) (pool : Nat) :
    (system.poolCount pool).toNat = (system.free pool).length % 2 ^ 32 ∧
      (system.useCount pool).toNat = liveOf system pool % 2 ^ 32 := by
  have pooled := holds.pooled pool
  have used := holds.used pool
  simp only [quiet _, poolOffset, useOffset, Finset.sum_const_zero, Int.add_zero,
    BitVec.ofInt_natCast] at pooled used
  rw [pooled, used]
  exact ⟨rfl, rfl⟩

/-- The discipline holds in every reachable state. When no operation is in
progress the counters, which are 32 bits wide, agree with the free list and with
the live blocks modulo 2^32. -/
theorem pools_keep_discipline [Fintype Thread] (build : Build) (headerSize : Nat)
    (small : headerSize < 2 ^ 31) (system : System Thread)
    (reached : Reachable (step build headerSize) (fun _ _ _ => True) System.start system) :
    Discipline build headerSize system ∧
      (Quiet system → ∀ pool,
        (system.poolCount pool).toNat = (system.free pool).length % 2 ^ 32 ∧
          (system.useCount pool).toNat = liveOf system pool % 2 ^ 32) := by
  have holds := reachable_holds build headerSize system reached
  constructor
  · exact invariant_discipline build headerSize small system holds
  · exact fun quiet pool => quiet_counts build headerSize system holds quiet pool

/-! Allocations one after the other, none of them released. -/
section Filling

theorem allocation_run (build : Build) (headerSize : Nat) (thread : Thread) (system : System Thread)
    (reached : Reachable (step build headerSize) (fun _ _ _ => True) System.start system)
    (quiet : Quiet system) (size : BitVec 32) (pool blockSize : Nat)
    (exhausted : system.free pool = [])
    (routed : route build (requested headerSize size) = .pool (some pool))
    (sized : (construct build).pools[pool]? = some blockSize) :
    ∃ final : System Thread,
      Reachable (step build headerSize) (fun _ _ _ => True) System.start final ∧ Quiet final ∧
      final.free = system.free ∧ final.live = system.created :: system.live ∧
      (final.blocks system.created).maker = some pool ∧
      ∀ block, block ≠ system.created → final.blocks block = system.blocks block := by
  have goOn : ∀ before after : System Thread,
      Reachable (step build headerSize) (fun _ _ _ => True) System.start before →
      advance build headerSize before thread = some after →
      Reachable (step build headerSize) (fun _ _ _ => True) System.start after :=
    fun _ _ early taken => .next (.advance thread) early taken trivial
  let called := enter system thread (.acquiring size pool)
  let creating := enter called thread (.creating size pool)
  let created := enter (obtain creating ⟨some pool, blockSize, blockSize⟩) thread
    (.counting size pool creating.created)
  let counted := enter { created with
      useCount := Function.update created.useCount pool (created.useCount pool + 1) }
    thread (.attaching size creating.created)
  have atCalled : Reachable (step build headerSize) (fun _ _ _ => True) System.start called :=
    .next (.allocate thread size) reached
      (by simp [called, step, callAllocate, quiet thread, routed]) trivial
  have atCreating :=
    goOn called creating atCalled (by simp [called, creating, advance, enter, exhausted])
  have atCreated :=
    goOn creating created atCreating (by simp [created, creating, advance, enter, sized])
  have atCounted := goOn created counted atCreated (by simp [counted, created, advance, enter])
  have returned := goOn counted _ atCounted (by
    simp only [counted, advance, enter, Function.update_self]
    rfl)
  refine ⟨_, returned, ?_, rfl, rfl, ?_, ?_⟩
  · intro other
    by_cases own : other = thread
    · subst other
      simp
    · simpa [counted, created, creating, called, enter, obtain, writeHeader, own] using quiet other
  · simp [created, creating, called, enter, obtain, writeHeader]
  · intro block different
    simp [created, creating, called, enter, obtain, writeHeader, different]

theorem filling_run (build : Build) (headerSize : Nat) (size : BitVec 32) (pool blockSize : Nat)
    (routed : route build (requested headerSize size) = .pool (some pool))
    (sized : (construct build).pools[pool]? = some blockSize) (count : Nat) :
    ∃ final : System Unit,
      Reachable (step build headerSize) (fun _ _ _ => True) System.start final ∧ Quiet final ∧
      final.free pool = [] ∧ liveOf final pool = count := by
  induction count with
  | zero => exact ⟨System.start, .start, fun _ => rfl, rfl, rfl⟩
  | succ count ih =>
      obtain ⟨system, reached, quiet, exhausted, counted⟩ := ih
      obtain ⟨final, after, idle, free, live, maker, kept⟩ :=
        allocation_run build headerSize
          () system reached quiet size pool blockSize exhausted routed sized
      have owned := (reachable_holds build headerSize system reached).owned
      refine ⟨final, after, idle, by rw [free, exhausted], ?_⟩
      unfold liveOf at counted ⊢
      rw [live, List.countP_cons, ← counted]
      simp only [maker, decide_true, if_true, Nat.add_right_cancel_iff]
      apply List.countP_congr
      intro block held
      rw [kept block (Nat.ne_of_lt (live_old system owned block held))]

theorem small_request_pool :
    ∃ pool blockSize : Nat, route .bigBlocks (requested 32 16#32) = .pool (some pool) ∧
      (construct .bigBlocks).pools[pool]? = some blockSize := by
  have written := (construct_entry_iff .bigBlocks 48).mpr (by decide)
  obtain ⟨pool, entry⟩ := Option.ne_none_iff_exists'.mp written
  obtain ⟨blockSize, sized, _⟩ := construct_entry_fits .bigBlocks 48 pool entry
  have size : requested 32 16#32 = (48 : Nat) := by decide
  refine ⟨pool, blockSize, ?_, sized⟩
  rw [size, route_key, if_neg (by decide), entry]

end Filling

/-- Two threads allocate a block of the same pool each; the first releases its block, and the second
takes it from the free list for a larger size while the first is still inside `Release`. -/
def reuseLabels : List (Label Bool) :=
  [.allocate true 16, .advance true, .allocate false 16, .advance false,
   .advance true, .advance false, .advance true, .advance false, .advance true, .advance false,
   .release true 0, .advance true, .advance true, .advance true,
   .allocate false 20, .advance false, .advance true, .advance true,
   .advance false, .advance false, .advance false]

theorem reuse_reached : ∃ system : System Bool,
    Reachable (step .bigBlocks 32) (fun _ _ _ => True) System.start system ∧ Quiet system ∧
      system.live = [0, 1] ∧ (system.blocks 0).allocSize = 52 ∧ system.created = 2 ∧
      liveOf system 1 = 2 := by
  obtain ⟨system, reached, seen⟩ := replay_reachable (step .bigBlocks 32) (fun _ _ _ => True)
    (fun _ _ _ => true) (fun _ _ _ _ => trivial)
    (fun system : System Bool => (system.phase true, system.phase false, system.live,
      (system.blocks 0).allocSize, system.created, liveOf system 1))
    (.idle, .idle, [0, 1], 52, 2, 2) reuseLabels System.start (by decide +kernel)
  simp only [Prod.mk.injEq] at seen
  obtain ⟨first, second, live, size, created, counted⟩ := seen
  refine ⟨system, reached, fun thread => ?_, live, size, created, counted⟩
  cases thread with
  | true => exact first
  | false => exact second

theorem reused_block_disciplined :
    ∃ system : System Bool, system.live = [0, 1] ∧ (system.blocks 0).allocSize = 52 ∧
      Discipline .bigBlocks 32 system ∧ (system.useCount 1).toNat = 2 := by
  obtain ⟨system, reached, quiet, live, size, _, counted⟩ := reuse_reached
  obtain ⟨discipline, counts⟩ := pools_keep_discipline .bigBlocks 32 (by decide) system reached
  have used := (counts quiet 1).2
  rw [counted] at used
  exact ⟨system, live, size, discipline, used⟩

/-- The counter wraps: a run that holds 2^32 blocks of a pool at once reads a use
count of zero. -/
theorem use_count_wraps :
    ∃ (system : System Unit) (pool : Nat),
      Reachable (step .bigBlocks 32) (fun _ _ _ => True) System.start system ∧ Quiet system ∧
      liveOf system pool = 2 ^ 32 ∧ (system.useCount pool).toNat = 0 := by
  obtain ⟨pool, blockSize, routed, sized⟩ := small_request_pool
  obtain ⟨system, reached, quiet, _, counted⟩ :=
    filling_run .bigBlocks 32 16#32 pool blockSize routed sized (2 ^ 32)
  have used := (quiet_counts .bigBlocks 32 system (reachable_holds .bigBlocks 32 system reached)
    quiet pool).2
  rw [counted, Nat.mod_self] at used
  exact ⟨system, pool, reached, quiet, counted, used⟩

end NetCore.PoolDiscipline
