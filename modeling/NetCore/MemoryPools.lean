import NetCore.TransitionRuns
import NetCore.MemoryTable

/-! Threads sharing one `Memory`. Blocks are numbered in the order in which
`_aligned_malloc` returned them. A block on the free list of a pool, a block that
the program holds and a block between two steps of a thread are kept apart, and
every atomic operation of `MemoryPool` (the pop, the push, the updates of the two
counters) is a step of its own. `headerSize` is `sizeof(MemoryHeader)`. -/
namespace NetCore.MemoryPools
open TransitionRuns MemoryTable

/-- The memory of a block. `maker` is the pool that obtained it, or `none` for a
block of `alloc_big`; `allocSize` is the field in its header. -/
structure Block where
  maker : Option Nat
  bytes : Int
  allocSize : Int
  deriving DecidableEq, Repr

inductive Phase where
  | idle
  | acquiring (size : BitVec 32) (pool : Nat)
  | creating (size : BitVec 32) (pool : Nat)
  | popped (size : BitVec 32) (pool block : Nat)
  | counting (size : BitVec 32) (pool block : Nat)
  | allocatingBig (size : BitVec 32)
  | attaching (size : BitVec 32) (block : Nat)
  | detached (block : Nat)
  | freeingBig (block : Nat)
  | clearing (pool block : Nat)
  | pushing (pool block : Nat)
  | pushed (pool : Nat)
  | dropping (pool : Nat)
  deriving DecidableEq, Repr

def Phase.hand : Phase → Option Nat
  | .popped _ _ block => some block
  | .counting _ _ block => some block
  | .attaching _ block => some block
  | .detached block => some block
  | .freeingBig block => some block
  | .clearing _ block => some block
  | .pushing _ block => some block
  | _ => none

/-- `live` lists the blocks that `Allocate` has returned and that have not been
passed to `Release`, `freed` those given back to the system. -/
structure System (Thread : Type) where
  created : Nat
  blocks : Nat → Block
  free : Nat → List Nat
  live : List Nat
  freed : List Nat
  useCount : Nat → BitVec 32
  poolCount : Nat → BitVec 32
  phase : Thread → Phase

def unmade : Block where
  maker := none
  bytes := 0
  allocSize := 0

def System.start {Thread : Type} : System Thread where
  created := 0
  blocks := fun _ => unmade
  free := fun _ => []
  live := []
  freed := []
  useCount := fun _ => 0
  poolCount := fun _ => 0
  phase := fun _ => .idle

inductive Label (Thread : Type) where
  | allocate (thread : Thread) (size : BitVec 32)
  | release (thread : Thread) (block : Nat)
  | advance (thread : Thread)

def Label.thread {Thread : Type} : Label Thread → Thread
  | .allocate thread _ => thread
  | .release thread _ => thread
  | .advance thread => thread

/-- `const int32 allocSize = size + sizeof(MemoryHeader)`. -/
def requested (headerSize : Nat) (size : BitVec 32) : Int :=
  narrow (size.toInt + headerSize)

section Steps
variable {Thread : Type} [DecidableEq Thread]

def enter (system : System Thread) (thread : Thread) (phase : Phase) : System Thread :=
  { system with phase := Function.update system.phase thread phase }

def obtain (system : System Thread) (block : Block) : System Thread :=
  { system with
    created := system.created + 1
    blocks := Function.update system.blocks system.created block }

def writeHeader (system : System Thread) (block : Nat) (allocSize : Int) : System Thread :=
  { system with
    blocks := Function.update system.blocks block
      { system.blocks block with allocSize := allocSize } }

/-- The first steps of `Allocate`. A size whose entry was never written has no
meaning, so the call is not made. -/
def callAllocate (build : Build) (headerSize : Nat) (system : System Thread) (thread : Thread)
    (size : BitVec 32) : Option (System Thread) :=
  match route build (requested headerSize size) with
  | .big => some (enter system thread (.allocatingBig size))
  | .pool (some pool) => some (enter system thread (.acquiring size pool))
  | .pool none => none

def advance (build : Build) (headerSize : Nat) (system : System Thread) (thread : Thread) :
    Option (System Thread) :=
  match system.phase thread with
  | .idle => none
  -- `InterlockedPopEntrySList`
  | .acquiring size pool => match system.free pool with
      | [] => some (enter system thread (.creating size pool))
      | block :: rest => some (enter { system with free := Function.update system.free pool rest }
          thread (.popped size pool block))
  -- The header of a new block is given the pool's own size first.
  | .creating size pool => match (construct build).pools[pool]? with
      | none => none
      | some blockSize => some (enter (obtain system ⟨some pool, blockSize, blockSize⟩) thread
          (.counting size pool system.created))
  | .popped size pool block => some
      (enter { system with
        poolCount := Function.update system.poolCount pool (system.poolCount pool - 1) }
        thread (.counting size pool block))
  | .counting size pool block => some
      (enter { system with
        useCount := Function.update system.useCount pool (system.useCount pool + 1) }
        thread (.attaching size block))
  -- The memory of a big block is not initialised before `AttachHeader`.
  | .allocatingBig size => some (enter (obtain system ⟨none, requested headerSize size, 0⟩) thread
      (.attaching size system.created))
  | .attaching size block => some
      (enter { writeHeader system block (requested headerSize size) with
        live := block :: system.live }
        thread .idle)
  | .detached block => match route build (system.blocks block).allocSize with
      | .big => some (enter system thread (.freeingBig block))
      | .pool (some pool) => some (enter system thread (.clearing pool block))
      | .pool none => none
  | .freeingBig block => some (enter { system with freed := block :: system.freed } thread .idle)
  | .clearing pool block => some (enter (writeHeader system block 0) thread (.pushing pool block))
  -- `InterlockedPushEntrySList`
  | .pushing pool block => some
      (enter { system with free := Function.update system.free pool (block :: system.free pool) }
        thread (.pushed pool))
  | .pushed pool => some
      (enter { system with
        poolCount := Function.update system.poolCount pool (system.poolCount pool + 1) }
        thread (.dropping pool))
  | .dropping pool => some
      (enter { system with
        useCount := Function.update system.useCount pool (system.useCount pool - 1) }
        thread .idle)

/-- A call starts in a thread that is in no other; `Release` is given a live block. -/
def step (build : Build) (headerSize : Nat) : Step (System Thread) (Label Thread) :=
  fun system label => match label with
  | .allocate thread size =>
      if system.phase thread = .idle then callAllocate build headerSize system thread size else none
  | .release thread block =>
      if system.phase thread = .idle ∧ block ∈ system.live then
        some (enter { system with live := system.live.erase block } thread (.detached block))
      else none
  | .advance thread => advance build headerSize system thread

end Steps

/-! What the pools promise. The two counters are 32 bits wide. -/
section Promises
variable {Thread : Type}

def Block.home (block : Block) : Route :=
  match block.maker with
  | none => .big
  | some pool => .pool (some pool)

def liveOf (system : System Thread) (pool : Nat) : Nat :=
  system.live.countP fun block => (system.blocks block).maker = some pool

structure Discipline (build : Build) (headerSize : Nat) (system : System Thread) : Prop where
  /-- Free blocks were made by the pool that lists them, with its block size. -/
  ownFree : ∀ pool block, block ∈ system.free pool →
    (system.blocks block).maker = some pool ∧
      ∃ blockSize : Nat, (construct build).pools[pool]? = some blockSize ∧
        (system.blocks block).bytes = blockSize
  notTwice : system.live.Nodup ∧ ∀ pool, (system.free pool).Nodup
  notLiveAndFree : ∀ pool, ∀ block ∈ system.live, block ∉ system.free pool
  notOnTwoLists : ∀ block left right, block ∈ system.free left → block ∈ system.free right →
    left = right
  /-- A block about to be returned is nobody's and is large enough. -/
  returns : ∀ thread size block, system.phase thread = .attaching size block →
    block ∉ system.live ∧ (∀ pool, block ∉ system.free pool) ∧
      size.toInt + headerSize ≤ (system.blocks block).bytes
  /-- The header of a released block leads to where the block came from. -/
  releases : ∀ thread block, system.phase thread = .detached block →
    route build (system.blocks block).allocSize = (system.blocks block).home
  /-- Only blocks of `alloc_big` are freed, and pools get their own blocks back. -/
  frees : ∀ thread block, system.phase thread = .freeingBig block →
    (system.blocks block).maker = none
  pushes : ∀ thread pool block, system.phase thread = .pushing pool block →
    (system.blocks block).maker = some pool

def Quiet (system : System Thread) : Prop :=
  ∀ thread, system.phase thread = .idle

end Promises

end NetCore.MemoryPools
