import NetCore.MemoryTable

/-! `Memory::init_memory_pool` in the arithmetic of the source: `end`, `block_size`, `pos` and
`tableKey` are `int32`, whose overflow is undefined, and `_poolTable` is an array, outside of
which nothing may be written. Both are faults here. As long as there is no fault the
construction is that of MemoryTable, in unbounded naturals, and there is none exactly when the
last `pos` is an `int32` and the last `tableKey` within the array. -/
namespace NetCore.TableConstruction

inductive Fault where
  | overflow
  | outside
  deriving DecidableEq, Repr

def int32Max : Int := 2 ^ 31 - 1

/-- The locals of the constructor, `_pools` by their block sizes and `_poolTable` by positions
in `_pools`; an entry that has not been written is `none`. -/
structure Construction where
  tableKey : Int
  pos : Int
  pools : List Int
  poolTable : Nat → Option Nat

def Construction.start (pos : Int) : Construction where
  tableKey := 0
  pos := pos
  pools := []
  poolTable := fun _ => none

structure Part where
  last : Int
  blockSize : Int
  positive : 0 < blockSize

/-- `while (tableKey <= pos) { _poolTable[tableKey] = pool; tableKey++; }`, for a table of
`entries` elements. -/
def fillTable (entries pool : Nat) (pos tableKey : Int) (poolTable : Nat → Option Nat) :
    Except Fault (Int × (Nat → Option Nat)) :=
  if tableKey ≤ pos then
    if 0 ≤ tableKey ∧ tableKey < entries then
      if tableKey + 1 ≤ int32Max then
        fillTable entries pool pos (tableKey + 1)
          (Function.update poolTable tableKey.toNat (some pool))
      else .error .overflow
    else .error .outside
  else .ok (tableKey, poolTable)
termination_by (pos + 1 - tableKey).toNat
decreasing_by omega

/-- The body of the outer loop, without the `pos += block_size` of its head. -/
def addPool (entries : Nat) (state : Construction) : Except Fault Construction :=
  match fillTable entries state.pools.length state.pos state.tableKey state.poolTable with
  | .error fault => .error fault
  | .ok filled => .ok
      { state with
        pools := state.pools ++ [state.pos], tableKey := filled.1, poolTable := filled.2 }

def initMemoryPool (entries : Nat) (part : Part) (state : Construction) :
    Except Fault Construction :=
  if state.pos ≤ part.last then
    match addPool entries state with
    | .error fault => .error fault
    | .ok added =>
        if state.pos + part.blockSize ≤ int32Max then
          initMemoryPool entries part { added with pos := state.pos + part.blockSize }
        else .error .overflow
  else .ok state
termination_by (part.last + 1 - state.pos).toNat
decreasing_by
  have positive := part.positive
  omega

def initSections (entries : Nat) : List Part → Construction → Except Fault Construction
  | [], state => .ok state
  | part :: rest, state =>
      match initMemoryPool entries part state with
      | .error fault => .error fault
      | .ok next => initSections entries rest next

/-! The unbounded construction, seen in the types of the source. -/
section Refinement

def ofTable (table : MemoryTable.Table) : Construction where
  tableKey := table.tableKey
  pos := table.pos
  pools := table.pools.map (↑)
  poolTable := table.poolTable

/-- A section that ends below zero makes no pool, like one that ends at zero. -/
def Part.toSection (part : Part) : MemoryTable.Section where
  last := part.last.toNat
  blockSize := part.blockSize.toNat
  positive := Int.lt_toNat.mpr part.positive

theorem add_pool_key (table : MemoryTable.Table) :
    (MemoryTable.addPool table).tableKey = max table.tableKey (table.pos + 1) :=
  (MemoryTable.fill_table_spec table.pools.length table.pos table.tableKey table.poolTable).1

theorem init_memory_pool_grows (part : MemoryTable.Section) (table : MemoryTable.Table) :
    table.pos ≤ (MemoryTable.initMemoryPool part table).pos ∧
      table.tableKey ≤ (MemoryTable.initMemoryPool part table).tableKey := by
  fun_induction MemoryTable.initMemoryPool part table with
  | case1 table inside ih =>
      simp only [add_pool_key] at ih ⊢
      omega
  | case2 table outside => exact ⟨Nat.le_refl _, Nat.le_refl _⟩

theorem init_sections_grows (parts : List MemoryTable.Section) (table : MemoryTable.Table) :
    table.pos ≤ (MemoryTable.initSections parts table).pos ∧
      table.tableKey ≤ (MemoryTable.initSections parts table).tableKey := by
  induction parts generalizing table with
  | nil => exact ⟨Nat.le_refl _, Nat.le_refl _⟩
  | cons part rest ih =>
      have first := init_memory_pool_grows part table
      have later := ih (MemoryTable.initMemoryPool part table)
      exact ⟨Nat.le_trans first.1 later.1, Nat.le_trans first.2 later.2⟩

/-- The inner loop of a new pool runs to its end when the last key it writes is within the
table and can be stepped over. -/
theorem fill_table_refines (entries pool pos tableKey : Nat) (poolTable : Nat → Option Nat)
    (inside : pos < entries) (fits : (pos : Int) < int32Max) :
    fillTable entries pool pos tableKey poolTable =
      .ok (((MemoryTable.fillTable pool pos tableKey poolTable).1 : Int),
        (MemoryTable.fillTable pool pos tableKey poolTable).2) := by
  fun_induction MemoryTable.fillTable pool pos tableKey poolTable with
  | case1 tableKey poolTable behind ih =>
      rw [fillTable, if_pos (by omega), if_pos (by omega), if_pos (by omega), Int.toNat_natCast]
      exact ih
  | case2 tableKey poolTable past => rw [fillTable, if_neg (by omega)]

theorem fill_table_faults (entries pool pos tableKey : Nat) (poolTable : Nat → Option Nat)
    (behind : tableKey ≤ pos) (beyond : ¬ (pos < entries ∧ (pos : Int) < int32Max)) :
    ∃ fault, fillTable entries pool pos tableKey poolTable = .error fault := by
  fun_induction MemoryTable.fillTable pool pos tableKey poolTable with
  | case1 tableKey poolTable _ ih =>
      rw [fillTable, if_pos (by omega)]
      by_cases inside : 0 ≤ (tableKey : Int) ∧ (tableKey : Int) < entries
      · rw [if_pos inside]
        by_cases fits : (tableKey : Int) + 1 ≤ int32Max
        · rw [if_pos fits, Int.toNat_natCast]
          exact ih (by omega)
        · exact ⟨.overflow, if_neg fits⟩
      · exact ⟨.outside, if_neg inside⟩
  | case2 tableKey poolTable past => exact absurd behind past

/-- No overflow of `pos` and no write outside the table, up to a state of the construction. -/
structure Bounded (entries : Nat) (table : MemoryTable.Table) : Prop where
  pos : (table.pos : Int) ≤ int32Max
  tableKey : table.tableKey ≤ entries

theorem add_pool_refines (entries : Nat) (table : MemoryTable.Table)
    (inside : table.pos < entries) (fits : (table.pos : Int) < int32Max) :
    addPool entries (ofTable table) = .ok (ofTable (MemoryTable.addPool table)) := by
  have filled :=
    fill_table_refines entries table.pools.length table.pos table.tableKey
      table.poolTable inside fits
  simp only [addPool, ofTable, List.length_map, filled, MemoryTable.addPool, List.map_append,
    List.map_cons, List.map_nil]

theorem add_pool_faults (entries : Nat) (table : MemoryTable.Table)
    (behind : table.tableKey ≤ table.pos)
    (beyond : ¬ (table.pos < entries ∧ (table.pos : Int) < int32Max)) :
    ∃ fault, addPool entries (ofTable table) = .error fault := by
  obtain ⟨fault, failed⟩ := fill_table_faults entries table.pools.length table.pos table.tableKey
    table.poolTable behind beyond
  refine ⟨fault, ?_⟩
  simp only [addPool, ofTable, List.length_map, failed]

theorem enters_iff (part : Part) (table : MemoryTable.Table) (positive : 0 < table.pos) :
    (ofTable table).pos ≤ part.last ↔ table.pos ≤ part.toSection.last := by
  simp only [Part.toSection, ofTable]
  omega

theorem init_memory_pool_turn (entries : Nat) (part : Part) (table : MemoryTable.Table)
    (positive : 0 < table.pos) (enters : table.pos ≤ part.toSection.last)
    (inside : table.pos < entries)
    (fits : ((table.pos + part.toSection.blockSize : Nat) : Int) ≤ int32Max) :
    initMemoryPool entries part (ofTable table) = initMemoryPool entries part
      (ofTable { MemoryTable.addPool table with pos := table.pos + part.toSection.blockSize }) := by
  have block : ((table.pos + part.toSection.blockSize : Nat) : Int) =
      (ofTable table).pos + part.blockSize := by
    have wide := part.positive
    simp only [Part.toSection, ofTable]
    omega
  have room : (table.pos : Int) < int32Max := by
    have wide := part.toSection.positive
    omega
  rw [block] at fits
  rw [initMemoryPool, if_pos ((enters_iff part table positive).mpr enters),
    add_pool_refines entries table inside room]
  simp only
  rw [if_pos fits, ← block]
  rfl

theorem init_memory_pool_refines (entries : Nat) (part : Part) (table : MemoryTable.Table)
    (positive : 0 < table.pos)
    (bounded : Bounded entries (MemoryTable.initMemoryPool part.toSection table)) :
    initMemoryPool entries part (ofTable table) =
      .ok (ofTable (MemoryTable.initMemoryPool part.toSection table)) := by
  fun_induction MemoryTable.initMemoryPool part.toSection table with
  | case1 table enters ih =>
      -- The section's final bounds are bounds of this turn.
      have final := init_memory_pool_grows part.toSection
        { MemoryTable.addPool table with pos := table.pos + part.toSection.blockSize }
      have key : table.pos + 1 ≤ (MemoryTable.addPool table).tableKey := by
        rw [add_pool_key]
        exact Nat.le_max_right _ _
      have inside : table.pos < entries := Nat.le_trans key (Nat.le_trans final.2 bounded.tableKey)
      have fits : ((table.pos + part.toSection.blockSize : Nat) : Int) ≤ int32Max :=
        Int.le_trans (Int.ofNat_le.mpr final.1) bounded.pos
      rw [init_memory_pool_turn entries part table positive enters inside fits]
      exact ih (Nat.lt_add_right _ positive) bounded
  | case2 table past =>
      rw [initMemoryPool, if_neg]
      exact fun enters => past ((enters_iff part table positive).mp enters)

theorem init_memory_pool_stuck (entries : Nat) (part : Part) (table : MemoryTable.Table)
    (positive : 0 < table.pos) (enters : table.pos ≤ part.toSection.last)
    (behind : table.tableKey ≤ table.pos)
    (beyond : ¬ (table.pos < entries ∧ (table.pos : Int) < int32Max)) :
    ∃ fault, initMemoryPool entries part (ofTable table) = .error fault := by
  obtain ⟨fault, failed⟩ := add_pool_faults entries table behind beyond
  refine ⟨fault, ?_⟩
  rw [initMemoryPool, if_pos ((enters_iff part table positive).mpr enters), failed]

theorem init_memory_pool_faults (entries : Nat) (part : Part) (table : MemoryTable.Table)
    (positive : 0 < table.pos) (behind : table.tableKey ≤ table.pos)
    (starts : Bounded entries table)
    (broken : ¬ Bounded entries (MemoryTable.initMemoryPool part.toSection table)) :
    ∃ fault, initMemoryPool entries part (ofTable table) = .error fault := by
  fun_induction MemoryTable.initMemoryPool part.toSection table with
  | case1 table enters ih =>
      have wide := part.toSection.positive
      have key : (MemoryTable.addPool table).tableKey = table.pos + 1 := by
        rw [add_pool_key]
        omega
      by_cases inside : table.pos < entries
      · by_cases fits : ((table.pos + part.toSection.blockSize : Nat) : Int) ≤ int32Max
        · rw [init_memory_pool_turn entries part table positive enters inside fits]
          refine ih (Nat.lt_add_right _ positive) ?_ ⟨fits, ?_⟩ broken
          · simp only [key]
            omega
          · simp only [key]
            omega
        · by_cases room : (table.pos : Int) < int32Max
          · refine ⟨.overflow, ?_⟩
            rw [initMemoryPool, if_pos ((enters_iff part table positive).mpr enters),
              add_pool_refines entries table inside room]
            simp only
            rw [if_neg]
            simp only [Part.toSection, ofTable] at fits ⊢
            omega
          · exact init_memory_pool_stuck entries part table positive enters behind
              fun both => room both.2
      · exact init_memory_pool_stuck entries part table positive enters behind
          fun both => inside both.1
  | case2 table past => exact absurd starts broken

theorem init_memory_pool_positive (part : MemoryTable.Section) (table : MemoryTable.Table)
    (positive : 0 < table.pos) : 0 < (MemoryTable.initMemoryPool part table).pos :=
  Nat.lt_of_lt_of_le positive (init_memory_pool_grows part table).1

theorem init_sections_refines (entries : Nat) (parts : List Part) (table : MemoryTable.Table)
    (positive : 0 < table.pos)
    (bounded : Bounded entries (MemoryTable.initSections (parts.map Part.toSection) table)) :
    initSections entries parts (ofTable table) =
      .ok (ofTable (MemoryTable.initSections (parts.map Part.toSection) table)) := by
  induction parts generalizing table with
  | nil => rfl
  | cons part rest ih =>
      have later := init_sections_grows (rest.map Part.toSection)
        (MemoryTable.initMemoryPool part.toSection table)
      have first : Bounded entries (MemoryTable.initMemoryPool part.toSection table) :=
        ⟨Int.le_trans (Int.ofNat_le.mpr later.1) bounded.pos, Nat.le_trans later.2 bounded.tableKey⟩
      simp only [initSections, init_memory_pool_refines entries part table positive first]
      exact ih _ (init_memory_pool_positive _ table positive) bounded

theorem init_sections_faults (entries : Nat) (parts : List Part) (table : MemoryTable.Table)
    (positive : 0 < table.pos) (fit : MemoryTable.BestFit table) (starts : Bounded entries table)
    (broken : ¬ Bounded entries (MemoryTable.initSections (parts.map Part.toSection) table)) :
    ∃ fault, initSections entries parts (ofTable table) = .error fault := by
  induction parts generalizing table with
  | nil => exact absurd starts broken
  | cons part rest ih =>
      by_cases first : Bounded entries (MemoryTable.initMemoryPool part.toSection table)
      · simp only [initSections, init_memory_pool_refines entries part table positive first]
        exact ih _ (init_memory_pool_positive _ table positive)
          (MemoryTable.init_memory_pool_best_fit part.toSection table fit) first broken
      · have behind := MemoryTable.best_fit_behind table fit
        obtain ⟨fault, failed⟩ :=
          init_memory_pool_faults entries part table positive behind starts first
        exact ⟨fault, by simp only [initSections, failed]⟩

end Refinement

/-- The table is complete up to `tableKey` and leads every key to the smallest pool that
holds it. -/
structure Built (state : Construction) : Prop where
  grows : state.pools.Pairwise (· < ·)
  mapped : ∀ key : Nat, (key : Int) < state.tableKey → ∃ index size,
    state.poolTable key = some index ∧ state.pools[index]? = some size ∧ (key : Int) ≤ size ∧
      ∀ other ∈ state.pools, (key : Int) ≤ other → size ≤ other
  unwritten : ∀ key : Nat, state.tableKey ≤ key → state.poolTable key = none
  next : state.tableKey = state.pools.getLast?.elim 0 (· + 1)

theorem first_smallest (sizes : List Nat) (grows : sizes.Pairwise (· < ·)) (key index : Nat)
    (found : sizes.findIdx? (fun size => key ≤ size) = some index) :
    ∃ size, sizes[index]? = some size ∧ key ≤ size ∧ ∀ other ∈ sizes, key ≤ other →
      size ≤ other := by
  rw [List.findIdx?_eq_some_iff_getElem] at found
  obtain ⟨inside, covers, first⟩ := found
  refine ⟨sizes[index], List.getElem?_eq_getElem inside, of_decide_eq_true covers, ?_⟩
  intro other member holds
  obtain ⟨place, within, rfl⟩ := List.getElem_of_mem member
  rcases Nat.lt_trichotomy place index with earlier | rfl | later
  · have short := first place earlier
    rw [decide_eq_true holds] at short
    exact absurd rfl short
  · exact Nat.le_refl _
  · exact Nat.le_of_lt (List.pairwise_iff_getElem.mp grows index place inside within later)

theorem best_fit_built (table : MemoryTable.Table) (fit : MemoryTable.BestFit table) :
    Built (ofTable table) := by
  constructor
  case grows =>
    exact List.pairwise_map.mpr (fit.grows.imp fun less => Int.ofNat_lt.mpr less)
  case mapped =>
    intro key below
    obtain ⟨block, made, covers⟩ :=
      MemoryTable.best_fit_reached table fit key (Int.ofNat_lt.mp below)
    cases found : table.pools.findIdx? (fun block => decide (key ≤ block)) with
    | none =>
        rw [List.findIdx?_eq_none_iff] at found
        exact absurd covers (of_decide_eq_false (found block made))
    | some index =>
        obtain ⟨size, pooled, holds, least⟩ := first_smallest table.pools fit.grows key index found
        refine ⟨index, size, (fit.entry key).trans found, ?_, Int.ofNat_le.mpr holds, ?_⟩
        · simp only [ofTable, List.getElem?_map, pooled, Option.map_some]
        · intro other member above
          obtain ⟨natural, listed, rfl⟩ := List.mem_map.mp member
          exact Int.ofNat_le.mpr (least natural listed (Int.ofNat_le.mp above))
  case unwritten =>
    intro key beyond
    have past : table.tableKey ≤ key := Int.ofNat_le.mp beyond
    refine (fit.entry key).trans (List.findIdx?_eq_none_iff.mpr ?_)
    intro block made
    have low := MemoryTable.best_fit_covered table fit block made
    exact decide_eq_false (by omega)
  case next =>
    simp only [ofTable, fit.next, List.getLast?_map]
    cases table.pools.getLast? <;> simp

/-- The calls of `init_memory_pool` from an empty table: they build a best-fit table when
`pos` stays in `int32` and the table is large enough, whatever the sections are, and fault
otherwise. -/
theorem init_memory_pool_builds (entries : Nat) (parts : List Part) (pos : Int) (positive : 0 < pos)
    (fits : pos ≤ int32Max) :
    (Bounded entries (MemoryTable.initSections (parts.map Part.toSection) (.empty pos.toNat)) →
      ∃ final, initSections entries parts (.start pos) = .ok final ∧ Built final) ∧
    (¬ Bounded entries (MemoryTable.initSections (parts.map Part.toSection) (.empty pos.toNat)) →
      ∃ fault, initSections entries parts (.start pos) = .error fault) := by
  have same : Construction.start pos = ofTable (.empty pos.toNat) := by
    simp [Construction.start, ofTable, MemoryTable.Table.empty,
      Int.toNat_of_nonneg (Int.le_of_lt positive)]
  have natural : 0 < (MemoryTable.Table.empty pos.toNat).pos := Int.lt_toNat.mpr positive
  have empty := MemoryTable.empty_best_fit pos.toNat
  rw [same]
  constructor
  · intro bounded
    exact ⟨_, init_sections_refines entries parts _ natural bounded,
      best_fit_built _ (MemoryTable.init_sections_best_fit _ _ empty)⟩
  · refine init_sections_faults entries parts _ natural empty ⟨?_, Nat.zero_le _⟩
    simp only [MemoryTable.Table.empty]
    omega

/-- The second of three sections makes no pool. -/
theorem three_sections_built : ∃ final,
    initSections 32 [⟨8, 4, by decide⟩, ⟨6, 2, by decide⟩, ⟨20, 8, by decide⟩] (.start 4) =
      .ok final ∧ Built final := by
  refine (init_memory_pool_builds 32 _ 4 (by decide) (by decide)).1 ⟨?_, ?_⟩
  · simp [Part.toSection, MemoryTable.initSections, MemoryTable.initMemoryPool, MemoryTable.addPool,
      MemoryTable.Table.empty, int32Max]
  · simp [Part.toSection, MemoryTable.initSections, MemoryTable.initMemoryPool, MemoryTable.addPool,
      MemoryTable.Table.empty, MemoryTable.fill_table_spec]

/-! The constructor: `_poolTable` has `MAX_ALLOC_SIZE + 1` elements. -/
section Constructor

def Part.ofSection (part : MemoryTable.Section) : Part where
  last := part.last
  blockSize := part.blockSize
  positive := Int.ofNat_lt.mpr part.positive

theorem init_memory_pool_below (limit : Nat) (part : MemoryTable.Section)
    (table : MemoryTable.Table) (starts : table.pos ≤ limit)
    (ends : part.last + part.blockSize ≤ limit) :
    (MemoryTable.initMemoryPool part table).pos ≤ limit := by
  fun_induction MemoryTable.initMemoryPool part table with
  | case1 table enters ih =>
      apply ih
      simp only
      omega
  | case2 table past => exact starts

theorem init_sections_below (limit : Nat) (parts : List MemoryTable.Section)
    (table : MemoryTable.Table) (starts : table.pos ≤ limit)
    (ends : ∀ part ∈ parts, part.last + part.blockSize ≤ limit) :
    (MemoryTable.initSections parts table).pos ≤ limit := by
  induction parts generalizing table with
  | nil => exact starts
  | cons part rest ih =>
      exact ih _ (init_memory_pool_below limit part table starts (ends part List.mem_cons_self))
        (fun other member => ends other (List.mem_cons_of_mem _ member))

theorem construct_bounded (build : MemoryTable.Build) :
    Bounded (MemoryTable.maxAllocSize build + 1) (MemoryTable.construct build) where
  pos := by
    have below : (MemoryTable.construct build).pos ≤ 0x2200 := by
      apply init_sections_below
      · decide
      · cases build <;> decide
    unfold int32Max
    omega
  tableKey := by
    rw [(MemoryTable.construct_best_fit build).next, MemoryTable.construct_last_pool build]
    cases build <;> decide

/-- `Memory::Memory` runs without a fault and makes the table that allocation goes by. -/
theorem constructor_refines (build : MemoryTable.Build) :
    initSections (MemoryTable.maxAllocSize build + 1)
      ((MemoryTable.sections build).map Part.ofSection)
      (.start MemoryTable.blockSize32) = .ok (ofTable (MemoryTable.construct build)) := by
  have same : ((MemoryTable.sections build).map Part.ofSection).map Part.toSection =
      MemoryTable.sections build := by
    cases build <;> rfl
  have refines := init_sections_refines (MemoryTable.maxAllocSize build + 1)
    ((MemoryTable.sections build).map Part.ofSection) (.empty MemoryTable.blockSize32) (by decide)
  rw [same] at refines
  exact refines (construct_bounded build)

end Constructor

end NetCore.TableConstruction
