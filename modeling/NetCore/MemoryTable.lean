import Mathlib.Logic.Function.Basic
import Mathlib.Algebra.Ring.Nat
import Mathlib.Data.List.Basic
import Mathlib.Algebra.Ring.Int.Defs

/-! The size table of `Memory`. The constructor makes pools of growing block size,
section by section, and enters each pool under every key (a byte count) that it
is the first to cover. `Allocate` and `Release` go by the table for sizes up to
`MAX_ALLOC_SIZE` and around it above. Entries that the constructor has not
written are `none`. -/
namespace NetCore.MemoryTable

/-- Whether `USE_BIG_MEMORY_BLOCK` is defined. -/
inductive Build where
  | bigBlocks
  | smallBlocks
  deriving DecidableEq, Repr

def blockSection1024 : Nat := 0x400
def blockSection2048 : Nat := 0x800
def blockSection4096 : Nat := 0x1000
def blockSize32 : Nat := 0x20
def blockSize128 : Nat := 0x80
def blockSize256 : Nat := 0x100
def blockSize512 : Nat := 0x200

def maxAllocSize : Build → Nat
  | .bigBlocks => 0x2000
  | .smallBlocks => 0x1000

/-- `_pools` holds the block sizes in order of creation, `_poolTable` the position
of a pool in it. `tableKey` and `pos` are the constructor's locals. -/
structure Table where
  tableKey : Nat
  pos : Nat
  pools : List Nat
  poolTable : Nat → Option Nat

/-- The inner loop: `while (tableKey <= pos) _poolTable[tableKey++] = pool`. -/
def fillTable (pool pos tableKey : Nat) (poolTable : Nat → Option Nat) :
    Nat × (Nat → Option Nat) :=
  if tableKey ≤ pos then
    fillTable pool pos (tableKey + 1) (Function.update poolTable tableKey (some pool))
  else (tableKey, poolTable)
termination_by pos + 1 - tableKey

/-- The body of the outer loop: a new pool of `pos` bytes and its table entries. -/
def addPool (table : Table) : Table :=
  let filled := fillTable table.pools.length table.pos table.tableKey table.poolTable
  { table with
    pools := table.pools ++ [table.pos]
    tableKey := filled.1
    poolTable := filled.2 }

structure Section where
  last : Nat
  blockSize : Nat
  positive : 0 < blockSize

def initMemoryPool (part : Section) (table : Table) : Table :=
  if table.pos ≤ part.last then
    initMemoryPool part { addPool table with pos := table.pos + part.blockSize }
  else table
termination_by part.last + 1 - table.pos
decreasing_by
  have positive := part.positive
  omega

def initSections : List Section → Table → Table
  | [], table => table
  | part :: rest, table => initSections rest (initMemoryPool part table)

def sections : Build → List Section
  | .bigBlocks =>
      [⟨blockSection1024, blockSize32, by decide⟩, ⟨blockSection2048, blockSize128, by decide⟩,
        ⟨blockSection4096, blockSize256, by decide⟩,
        ⟨maxAllocSize .bigBlocks, blockSize512, by decide⟩]
  | .smallBlocks =>
      [⟨blockSection1024, blockSize32, by decide⟩, ⟨blockSection2048, blockSize128, by decide⟩,
        ⟨maxAllocSize .smallBlocks, blockSize256, by decide⟩]

def Table.empty (pos : Nat) : Table where
  tableKey := 0
  pos := pos
  pools := []
  poolTable := fun _ => none

def construct (build : Build) : Table :=
  initSections (sections build) (Table.empty blockSize32)

/-! Allocation and release, up to the pool or the system call they end in. -/
section Routing

/-- The value of a C++ expression after narrowing to `int32`. -/
def narrow (value : Int) : Int :=
  Int.bmod value (2 ^ 32)

inductive Route where
  | big
  | pool (entry : Option Nat)
  deriving DecidableEq, Repr

/-- `_poolTable[allocSize]`; no entry lies below the array. -/
def tableEntry (table : Table) (allocSize : Int) : Option Nat :=
  if allocSize < 0 then none else table.poolTable allocSize.toNat

/-- The test both operations make, and the entry they index if it fails. -/
def route (build : Build) (allocSize : Int) : Route :=
  if (maxAllocSize build : Int) < allocSize then .big
  else .pool (tableEntry (construct build) allocSize)

structure MemoryHeader where
  allocSize : Int
  deriving DecidableEq, Repr

/-- Where the block comes from, and the header `AttachHeader` puts in front of it. -/
def allocate (build : Build) (headerSize : Nat) (size : Int) : Route × MemoryHeader :=
  let allocSize := narrow (size + headerSize)
  (route build allocSize, ⟨allocSize⟩)

def release (build : Build) (header : MemoryHeader) : Route :=
  route build header.allocSize

/-- The operation goes around the table, or finds an entry that has been written. -/
def Route.Initialised : Route → Prop
  | .big => True
  | .pool entry => entry ≠ none

def Route.Provides (build : Build) (bytes : Int) : Route → Prop
  | .big => True
  | .pool entry => ∃ index block, entry = some index ∧
      (construct build).pools[index]? = some block ∧ bytes ≤ block

def Served (build : Build) (headerSize : Nat) (size : Int) : Prop :=
  (allocate build headerSize size).1.Provides build (size + headerSize) ∧
    (release build (allocate build headerSize size).2).Initialised

end Routing

theorem fill_table_spec (pool pos tableKey : Nat) (poolTable : Nat → Option Nat) :
    (fillTable pool pos tableKey poolTable).1 = max tableKey (pos + 1) ∧
      ∀ key, (fillTable pool pos tableKey poolTable).2 key =
        if tableKey ≤ key ∧ key ≤ pos then some pool else poolTable key := by
  fun_induction fillTable pool pos tableKey poolTable with
  | case1 tableKey poolTable inside ih =>
      obtain ⟨final, entries⟩ := ih
      constructor
      · rw [final]
        omega
      · intro key
        rw [entries key]
        by_cases here : key = tableKey
        · subst key
          simp [inside]
        · rw [Function.update_of_ne here]
          have same : (tableKey + 1 ≤ key ∧ key ≤ pos) ↔ (tableKey ≤ key ∧ key ≤ pos) := by omega
          simp only [same]
  | case2 tableKey poolTable outside =>
      constructor
      · omega
      · intro key
        rw [if_neg (by omega)]

/-- The table maps each key to the first pool that covers it, and the pools grow.
A key that no pool covers has no entry. -/
structure BestFit (table : Table) : Prop where
  grows : table.pools.Pairwise (· < ·)
  ahead : ∀ block ∈ table.pools, block < table.pos
  next : table.tableKey = table.pools.getLast?.elim 0 (· + 1)
  entry : ∀ key, table.poolTable key = table.pools.findIdx? (fun block => key ≤ block)

theorem empty_best_fit (pos : Nat) : BestFit (Table.empty pos) := by
  constructor <;> simp [Table.empty]

theorem best_fit_covered (table : Table) (fit : BestFit table) (block : Nat)
    (made : block ∈ table.pools) : block < table.tableKey := by
  obtain ⟨front, last, shape⟩ := List.eq_nil_or_concat table.pools |>.resolve_left
    (List.ne_nil_of_mem made)
  rw [List.concat_eq_append] at shape
  have next := fit.next
  rw [shape] at made next
  simp only [List.getLast?_append, List.getLast?_singleton, Option.some_or,
    Option.elim_some] at next
  rcases List.mem_append.mp made with early | atEnd
  · have grows := fit.grows
    rw [shape, List.pairwise_append] at grows
    have below := grows.2.2 block early last List.mem_cons_self
    omega
  · rw [List.mem_singleton] at atEnd
    omega

theorem best_fit_reached (table : Table) (fit : BestFit table) (key : Nat)
    (below : key < table.tableKey) : ∃ block ∈ table.pools, key ≤ block := by
  rw [fit.next] at below
  cases found : table.pools.getLast? with
  | none => simp [found] at below
  | some last =>
      rw [found, Option.elim_some] at below
      exact ⟨last, List.mem_of_getLast? found, by omega⟩

theorem best_fit_behind (table : Table) (fit : BestFit table) : table.tableKey ≤ table.pos := by
  rw [fit.next]
  cases found : table.pools.getLast? with
  | none => simp
  | some last =>
      rw [Option.elim_some]
      exact fit.ahead last (List.mem_of_getLast? found)

theorem add_pool_best_fit (table : Table) (fit : BestFit table) (blockSize : Nat)
    (positive : 0 < blockSize) : BestFit { addPool table with pos := table.pos + blockSize } := by
  have behind := best_fit_behind table fit
  obtain ⟨final, entries⟩ :=
    fill_table_spec table.pools.length table.pos table.tableKey table.poolTable
  constructor
  case grows =>
    simp only [addPool, List.pairwise_append, List.pairwise_cons, List.Pairwise.nil,
      List.mem_singleton, List.not_mem_nil]
    refine ⟨fit.grows, by simp, ?_⟩
    intro block made last same
    rw [same]
    exact fit.ahead block made
  case ahead =>
    intro block made
    rcases List.mem_append.mp made with early | atEnd
    · exact Nat.lt_add_right blockSize (fit.ahead block early)
    · rw [List.mem_singleton.mp atEnd]
      exact Nat.lt_add_of_pos_right positive
  case next =>
    simp only [addPool, final, List.getLast?_append, List.getLast?_singleton, Option.some_or,
      Option.elim_some]
    omega
  case entry =>
    intro key
    simp only [addPool, entries key, List.findIdx?_append, List.findIdx?_singleton, fit.entry key]
    by_cases old : key < table.tableKey
    · -- An earlier pool covers the key, so its entry stays.
      obtain ⟨block, made, covers⟩ := best_fit_reached table fit key old
      rw [if_neg (by omega)]
      cases found : table.pools.findIdx? (fun block => decide (key ≤ block)) with
      | none =>
          rw [List.findIdx?_eq_none_iff] at found
          exact absurd covers (of_decide_eq_false (found block made))
      | some index => simp
    · have uncovered : table.pools.findIdx? (fun block => decide (key ≤ block)) = none := by
        rw [List.findIdx?_eq_none_iff]
        intro block made
        have low := best_fit_covered table fit block made
        exact decide_eq_false (by omega)
      rw [uncovered]
      by_cases covers : key ≤ table.pos
      · simp [covers, old]
      · simp [covers]

theorem init_memory_pool_best_fit (part : Section) (table : Table) (fit : BestFit table) :
    BestFit (initMemoryPool part table) := by
  fun_induction initMemoryPool part table with
  | case1 table inside ih =>
      exact ih (add_pool_best_fit table fit part.blockSize part.positive)
  | case2 table outside => exact fit

theorem init_sections_best_fit (parts : List Section) (table : Table) (fit : BestFit table) :
    BestFit (initSections parts table) := by
  induction parts generalizing table with
  | nil => exact fit
  | cons part rest ih => exact ih _ (init_memory_pool_best_fit part table fit)

theorem construct_best_fit (build : Build) : BestFit (construct build) :=
  init_sections_best_fit (sections build) _ (empty_best_fit blockSize32)

/-- A section that has room for `turns + 1` pools ends one block beyond the last of
them. Whether that block reaches the section's end is a matter of divisibility. -/
theorem init_memory_pool_turns (part : Section) (turns : Nat) (table : Table)
    (room : table.pos + turns * part.blockSize ≤ part.last)
    (full : part.last < table.pos + (turns + 1) * part.blockSize) :
    (initMemoryPool part table).pos = table.pos + (turns + 1) * part.blockSize ∧
      (initMemoryPool part table).pools.getLast? = some (table.pos + turns * part.blockSize) := by
  induction turns generalizing table with
  | zero =>
      rw [Nat.zero_add, Nat.one_mul] at full
      rw [initMemoryPool, if_pos (by omega), initMemoryPool, if_neg (by simp only; omega)]
      simp [addPool]
  | succ turns ih =>
      have step : (turns + 1) * part.blockSize = turns * part.blockSize + part.blockSize :=
        Nat.succ_mul turns part.blockSize
      have more :
          (turns + 1 + 1) * part.blockSize = (turns + 1) * part.blockSize + part.blockSize :=
        Nat.succ_mul (turns + 1) part.blockSize
      rw [initMemoryPool, if_pos (by omega)]
      obtain ⟨pos, last⟩ := ih { addPool table with pos := table.pos + part.blockSize }
        (by simp only; omega) (by simp only; omega)
      rw [pos, last]
      constructor
      · simp only
        omega
      · simp only [Option.some.injEq]
        omega

def coveredSize : Build → Nat
  | .bigBlocks => 7712
  | .smallBlocks => 3872

theorem construct_last_pool (build : Build) :
    (construct build).pools.getLast? = some (coveredSize build) := by
  have first := init_memory_pool_turns ⟨blockSection1024, blockSize32, by decide⟩ 31
    (Table.empty blockSize32) (by decide) (by decide)
  have second := init_memory_pool_turns ⟨blockSection2048, blockSize128, by decide⟩ 7
    (initMemoryPool ⟨blockSection1024, blockSize32, by decide⟩ (Table.empty blockSize32))
    (by rw [first.1]; decide) (by rw [first.1]; decide)
  cases build with
  | smallBlocks =>
      have third := init_memory_pool_turns ⟨maxAllocSize .smallBlocks, blockSize256, by decide⟩ 7
        (initMemoryPool ⟨blockSection2048, blockSize128, by decide⟩
          (initMemoryPool ⟨blockSection1024, blockSize32, by decide⟩ (Table.empty blockSize32)))
        (by rw [second.1, first.1]; decide) (by rw [second.1, first.1]; decide)
      have last := third.2
      rw [second.1, first.1] at last
      exact last
  | bigBlocks =>
      have third := init_memory_pool_turns ⟨blockSection4096, blockSize256, by decide⟩ 7
        (initMemoryPool ⟨blockSection2048, blockSize128, by decide⟩
          (initMemoryPool ⟨blockSection1024, blockSize32, by decide⟩ (Table.empty blockSize32)))
        (by rw [second.1, first.1]; decide) (by rw [second.1, first.1]; decide)
      have fourth := init_memory_pool_turns ⟨maxAllocSize .bigBlocks, blockSize512, by decide⟩ 7
        (initMemoryPool ⟨blockSection4096, blockSize256, by decide⟩
          (initMemoryPool ⟨blockSection2048, blockSize128, by decide⟩
            (initMemoryPool ⟨blockSection1024, blockSize32, by decide⟩ (Table.empty blockSize32))))
        (by rw [third.1, second.1, first.1]; decide) (by rw [third.1, second.1, first.1]; decide)
      have last := fourth.2
      rw [third.1, second.1, first.1] at last
      exact last

theorem construct_entry_iff (build : Build) (key : Nat) :
    (construct build).poolTable key ≠ none ↔ key ≤ coveredSize build := by
  have fit := construct_best_fit build
  have last := construct_last_pool build
  have next : (construct build).tableKey = coveredSize build + 1 := by
    rw [fit.next, last, Option.elim_some]
  rw [fit.entry key, ne_eq, List.findIdx?_eq_none_iff]
  constructor
  · intro written
    by_contra beyond
    apply written
    intro block made
    have low := best_fit_covered (construct build) fit block made
    exact decide_eq_false (by omega)
  · intro covered absent
    have uncovered := absent (coveredSize build) (List.mem_of_getLast? last)
    exact absurd covered (of_decide_eq_false uncovered)

theorem construct_entry_fits (build : Build) (key index : Nat)
    (written : (construct build).poolTable key = some index) :
    ∃ block, (construct build).pools[index]? = some block ∧ key ≤ block := by
  rw [(construct_best_fit build).entry key, List.findIdx?_eq_some_iff_getElem] at written
  obtain ⟨inside, covers, _⟩ := written
  exact ⟨_, List.getElem?_eq_getElem inside, of_decide_eq_true covers⟩

theorem narrow_small (value : Int) (nonnegative : 0 ≤ value) (bounded : value ≤ 2 ^ 31 - 1) :
    narrow value = value := by
  unfold narrow
  rw [Int.bmod_eq_emod_of_lt] <;> omega

theorem route_key (build : Build) (key : Nat) :
    route build key =
      if maxAllocSize build < key then .big else .pool ((construct build).poolTable key) := by
  unfold route tableEntry
  rw [if_neg (show ¬ (key : Int) < 0 by omega), Int.toNat_natCast]
  simp only [Int.ofNat_lt]

theorem served_key (build : Build) (headerSize : Nat) (size : Int) (key : Nat)
    (keyed : size + headerSize = key) (bounded : size + headerSize ≤ 2 ^ 31 - 1) :
    Served build headerSize size ↔
      (route build key).Provides build key ∧ (route build key).Initialised := by
  have same : narrow key = key := narrow_small _ (by omega) (by omega)
  unfold Served allocate release
  simp only [keyed, same]

/-- An allocation is served exactly when its size is covered by the table or is
beyond `MAX_ALLOC_SIZE`. The sizes in between index entries that were never written. -/
theorem served_iff_covered_or_big (build : Build) (headerSize : Nat) (size : Int)
    (nonnegative : 0 ≤ size) (bounded : size + headerSize ≤ 2 ^ 31 - 1) :
    Served build headerSize size ↔
      size + headerSize ≤ coveredSize build ∨ maxAllocSize build < size + headerSize := by
  obtain ⟨key, keyed⟩ := Int.eq_ofNat_of_zero_le (show 0 ≤ size + headerSize by omega)
  rw [served_key build headerSize size key keyed bounded, keyed, Int.ofNat_le, Int.ofNat_lt,
    route_key build key]
  by_cases big : maxAllocSize build < key
  · simp [big, Route.Provides, Route.Initialised]
  · rw [if_neg big, ← construct_entry_iff build key]
    simp only [big, or_false, Route.Provides, Route.Initialised]
    constructor
    · rintro ⟨_, written⟩
      exact written
    · intro written
      obtain ⟨index, found⟩ := Option.ne_none_iff_exists'.mp written
      obtain ⟨block, pooled, fits⟩ := construct_entry_fits build key index found
      exact ⟨⟨index, block, found, pooled, Int.ofNat_le.mpr fits⟩, written⟩

/-- A request of a hundred bytes. -/
theorem hundred_bytes_served :
    Served .bigBlocks 32 100 ∧ (100 : Int) + (32 : Nat) ≤ coveredSize .bigBlocks := by
  have covered : (100 : Int) + (32 : Nat) ≤ coveredSize .bigBlocks := by decide
  exact ⟨(served_iff_covered_or_big .bigBlocks 32 100 (by decide) (by decide)).mpr (.inl covered),
    covered⟩

/-- With a header of 32 bytes, a request one byte above the last pool is sent to an
entry that no loop has written, in either configuration. -/
theorem request_beyond_last_pool_unserved :
    ¬ Served .bigBlocks 32 7681 ∧ ¬ Served .smallBlocks 32 3841 := by
  have unserved : ∀ build : Build, ¬ Served build 32 (coveredSize build - 31) := by
    intro build served
    have bounds : coveredSize build < maxAllocSize build ∧ coveredSize build < 10000 := by
      cases build <;> decide
    rw [served_key build 32 _ (coveredSize build + 1) (by omega) (by omega), route_key,
      if_neg (by omega)] at served
    have low := (construct_entry_iff build _).mp served.2
    omega
  exact ⟨unserved .bigBlocks, unserved .smallBlocks⟩

end NetCore.MemoryTable
