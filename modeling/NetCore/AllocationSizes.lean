import NetCore.MemoryTable

/-! From the `size_t` of a caller to the `int32` that `Memory::Allocate` goes by.
`STLAllocator::allocate` multiplies in `size_t` and narrows the product, `FBAllocator::allocate`
narrows its argument, and `Allocate` adds the size of the header in `size_t`, to which its
argument is extended by its sign, and narrows once more. Each of these wraps on its own, but
together they are one reduction of the exact sum. None of them is checked. -/
namespace NetCore.AllocationSizes
open MemoryTable

/-- The platforms of the project file, by the width of `size_t`. -/
inductive Platform where
  | win32
  | x64
  deriving DecidableEq, Repr

def Platform.bits : Platform → Nat
  | .win32 => 32
  | .x64 => 64

theorem int32_fits (platform : Platform) : 32 ≤ platform.bits := by
  cases platform <;> decide

variable {platform : Platform}

/-- `const int32 size = static_cast<int32>(count * sizeof(_Ty))`. -/
def stlSize (elementSize count : BitVec platform.bits) : BitVec 32 :=
  (count * elementSize).setWidth 32

/-- `static_cast<int32>(size)`. -/
def fbSize (size : BitVec platform.bits) : BitVec 32 := size.setWidth 32

/-- `const int32 allocSize = size + sizeof(MemoryHeader)`. -/
def allocSize (headerSize : BitVec platform.bits) (size : BitVec 32) : BitVec 32 :=
  (size.signExtend platform.bits + headerSize).setWidth 32

/-- A call of one of the two allocators; `elementSize` is `sizeof(_Ty)`. -/
inductive Request (platform : Platform) where
  | stl (elementSize count : BitVec platform.bits)
  | fb (size : BitVec platform.bits)

def Request.bytes : Request platform → Nat
  | .stl elementSize count => count.toNat * elementSize.toNat
  | .fb size => size.toNat

/-- The argument of `PoolAllocator::Alloc`. -/
def Request.size : Request platform → BitVec 32
  | .stl elementSize count => stlSize elementSize count
  | .fb size => fbSize size

theorem narrow_width (value : BitVec platform.bits) :
    (value.setWidth 32).toInt = narrow value.toNat := by
  rw [BitVec.toInt_setWidth]
  rfl

theorem narrow_narrow (left right : Int) : narrow (narrow left + right) = narrow (left + right) :=
  Int.bmod_add_bmod

theorem stl_size_narrow (elementSize count : BitVec platform.bits) :
    (stlSize elementSize count).toInt = narrow (count.toNat * elementSize.toNat : Nat) := by
  have width := int32_fits platform
  have wrapped : (count.toNat * elementSize.toNat % 2 ^ platform.bits) % 2 ^ 32 =
      count.toNat * elementSize.toNat % 2 ^ 32 :=
    Nat.mod_mod_of_dvd _ (Nat.pow_dvd_pow 2 width)
  unfold stlSize narrow
  rw [BitVec.toInt_eq_toNat_bmod, BitVec.toNat_setWidth, BitVec.toNat_mul, wrapped, Int.natCast_mod]
  exact Int.emod_bmod _ _

theorem request_size_narrow (request : Request platform) :
    request.size.toInt = narrow request.bytes := by
  cases request with
  | stl elementSize count => exact stl_size_narrow elementSize count
  | fb size => exact narrow_width size

theorem sign_extend_back (size : BitVec 32) :
    (size.signExtend platform.bits).setWidth 32 = size := by
  have width := int32_fits platform
  apply BitVec.eq_of_getLsbD_eq
  intro bit below
  have within : bit < platform.bits := by omega
  simp [below, within, BitVec.getElem_signExtend]

theorem alloc_size_narrow (headerSize : BitVec platform.bits) (size : BitVec 32) :
    (allocSize headerSize size).toInt = narrow (size.toInt + headerSize.toNat) := by
  unfold allocSize
  rw [BitVec.setWidth_add _ _ (int32_fits platform), sign_extend_back,
    BitVec.toInt_add, narrow_width]
  exact Int.add_bmod_bmod

/-- The three narrowings are one. -/
theorem alloc_size_bytes (headerSize : BitVec platform.bits) (request : Request platform) :
    (allocSize headerSize request.size).toInt =
      narrow (request.bytes + headerSize.toNat : Nat) := by
  rw [alloc_size_narrow, request_size_narrow, narrow_narrow, Int.natCast_add]

/-- The size of the block that `Allocate` takes for a value of `allocSize`: what
`_aligned_malloc` is asked for, or that of the pool found. An entry that has not been written
leads to no block. -/
def obtained (build : Build) (allocSize : Int) : Option Int :=
  match route build allocSize with
  | .big => some allocSize
  | .pool (some index) => (construct build).pools[index]?.map (↑)
  | .pool none => none

structure Exact (build : Build) (headerSize : BitVec platform.bits) (request : Request platform) :
    Prop where
  sum : (allocSize headerSize request.size).toInt = (request.bytes + headerSize.toNat : Nat)
  index : 0 ≤ (allocSize headerSize request.size).toInt
  block : ∀ block, obtained build (allocSize headerSize request.size).toInt = some block →
    (request.bytes + headerSize.toNat : Nat) ≤ block

/-- `Allocate` refuses no size itself. It fails when the system has no memory for the block;
`grants` says for which sizes it has. -/
def Fails (grants : Int → Bool) (build : Build) (allocSize : Int) : Prop :=
  ∃ block, obtained build allocSize = some block ∧ grants block = false

def NeverLoses (build : Build) (headerSize : BitVec platform.bits) (request : Request platform) :
    Prop :=
  ∀ grants : Int → Bool, Exact build headerSize request ∨
    Fails grants build (allocSize headerSize request.size).toInt

theorem obtained_covers (build : Build) (key : Nat) (block : Int)
    (taken : obtained build key = some block) : (key : Int) ≤ block := by
  unfold obtained at taken
  rw [route_key] at taken
  split at taken
  case h_1 =>
    rw [Option.some.injEq] at taken
    exact Int.le_of_eq taken
  case h_2 index pooled =>
    by_cases big : maxAllocSize build < key
    · rw [if_pos big] at pooled
      cases pooled
    · rw [if_neg big, Route.pool.injEq] at pooled
      obtain ⟨size, found, fits⟩ := construct_entry_fits build key index pooled
      rw [found, Option.map_some, Option.some.injEq] at taken
      exact taken ▸ Int.ofNat_le.mpr fits
  case h_3 => cases taken

theorem never_loses_exact (build : Build) (headerSize : BitVec platform.bits)
    (request : Request platform) :
    NeverLoses build headerSize request ↔ Exact build headerSize request := by
  constructor
  · intro promised
    rcases promised (fun _ => true) with kept | ⟨block, _, refused⟩
    · exact kept
    · cases refused
  · exact fun kept _ => .inl kept

/-- The sizes are exact up to the largest `int32`, and wrap from there on. -/
theorem allocation_exact_iff (build : Build) (headerSize : BitVec platform.bits)
    (request : Request platform) :
    NeverLoses build headerSize request ↔ request.bytes + headerSize.toNat ≤ 2 ^ 31 - 1 := by
  rw [never_loses_exact]
  constructor
  · intro kept
    have bound : (allocSize headerSize request.size).toInt < 2 ^ 31 := BitVec.toInt_lt
    rw [kept.sum] at bound
    omega
  · intro small
    have sum : (allocSize headerSize request.size).toInt =
        (request.bytes + headerSize.toNat : Nat) := by
      rw [alloc_size_bytes, narrow_small _ (by omega) (by omega)]
    refine ⟨sum, by omega, ?_⟩
    intro block taken
    rw [sum] at taken
    exact obtained_covers build _ block taken

/-- `sizeof(MemoryHeader)`: an `SLIST_ENTRY` and an `int32`, aligned to 16 bytes. -/
def headerSize64 : BitVec Platform.x64.bits := 32

/-- A vector of `2 ^ 32 + 1` bytes is given the block of one byte, and a buffer of `2 ^ 31` bytes
is looked up below the table. -/
theorem sizes_wrap :
    ¬ NeverLoses .bigBlocks headerSize64 (.stl 1 4294967297) ∧
      (allocSize headerSize64 (.stl 1 4294967297 : Request .x64).size).toInt = 33 ∧
      (allocSize headerSize64 (.fb 2147483648 : Request .x64).size).toInt = -2147483616 := by
  have wrapped : (allocSize headerSize64 (.stl 1 4294967297 : Request .x64).size).toInt = 33 := by
    decide
  refine ⟨?_, wrapped, by decide⟩
  intro promised
  have sum := ((never_loses_exact _ _ _).mp promised).sum
  rw [wrapped] at sum
  revert sum
  decide

end NetCore.AllocationSizes
