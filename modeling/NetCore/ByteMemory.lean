import Mathlib.Logic.Function.Basic
import Mathlib.Algebra.Ring.Nat
import Mathlib.Data.List.Basic

/-! Flat memory with total reads and writes. Addresses are offsets from the start
of an allocation; whether an access is inside the allocation is a separate
statement about the address and the length of the access. -/
namespace NetCore.ByteMemory

universe u
variable {Cell : Type u}

abbrev Memory (Cell : Type u) := Nat → Cell

def load (memory : Memory Cell) (address count : Nat) : List Cell :=
  (List.range count).map fun index => memory (address + index)

def store (memory : Memory Cell) (address : Nat) (cells : List Cell) : Memory Cell :=
  fun key => if address ≤ key then (cells[key - address]?).getD (memory key) else memory key

@[simp] theorem load_length (memory : Memory Cell) (address count : Nat) :
    (load memory address count).length = count := by
  simp [load]

theorem load_getElem? (memory : Memory Cell) (address count index : Nat) (inside : index < count) :
    (load memory address count)[index]? = some (memory (address + index)) := by
  simp [load, inside]

theorem load_append (memory : Memory Cell) (address first second : Nat) :
    load memory address (first + second) =
      load memory address first ++ load memory (address + first) second := by
  simp [load, List.range_add, Nat.add_assoc]

theorem load_congr (left right : Memory Cell) (source target count : Nat)
    (same : ∀ index, index < count → left (source + index) = right (target + index)) :
    load left source count = load right target count := by
  apply List.map_congr_left
  intro index member
  exact same index (List.mem_range.mp member)

theorem store_outside (memory : Memory Cell) (address : Nat) (cells : List Cell) (key : Nat)
    (outside : key < address ∨ address + cells.length ≤ key) :
    store memory address cells key = memory key := by
  rcases outside with below | above
  · simp [store, Nat.not_le.mpr below]
  · have past : cells.length ≤ key - address := by omega
    simp [store, List.getElem?_eq_none past]

theorem load_store_disjoint (memory : Memory Cell) (address : Nat) (cells : List Cell)
    (source count : Nat) (disjoint : source + count ≤ address ∨ address + cells.length ≤ source) :
    load (store memory address cells) source count = load memory source count := by
  apply load_congr
  intro index inside
  exact store_outside memory address cells _ (by omega)

theorem store_append (memory : Memory Cell) (address : Nat) (first second : List Cell) :
    store memory address (first ++ second) =
        store (store memory address first) (address + first.length) second := by
  funext key
  unfold store
  by_cases below : address ≤ key
  · by_cases inside : address + first.length ≤ key
    · have past : first.length ≤ key - address := by omega
      have index : key - (address + first.length) = key - address - first.length := by omega
      simp only [below, inside, if_true, List.getElem?_append_right past,
        List.getElem?_eq_none past, index, Option.getD_none]
    · have short : key - address < first.length := by omega
      simp only [below, inside, if_true, if_false, List.getElem?_append_left short]
  · have outside : ¬ address + first.length ≤ key := by omega
    simp only [below, outside, if_false]

theorem load_store_same (memory : Memory Cell) (address : Nat) (cells : List Cell) :
    load (store memory address cells) address cells.length = cells := by
  apply List.ext_getElem?
  intro index
  by_cases inside : index < cells.length
  · rw [load_getElem? _ _ _ _ inside]
    simp [store, List.getElem?_eq_getElem inside]
  · have past : cells.length ≤ index := Nat.le_of_not_lt inside
    rw [List.getElem?_eq_none past, List.getElem?_eq_none (by simpa using past)]

theorem load_cell (memory : Memory Cell) (address : Nat) (cells : List Cell)
    (read : load memory address cells.length = cells) (index : Nat)
    (inside : index < cells.length) :
    memory (address + index) = cells[index] := by
  have cell := load_getElem? memory address cells.length index inside
  rw [read, List.getElem?_eq_getElem inside, Option.some.injEq] at cell
  exact cell.symm

theorem load_parts (memory : Memory Cell) (address : Nat) (first second : List Cell)
    (read : load memory address (first.length + second.length) = first ++ second) :
    load memory address first.length = first ∧
      load memory (address + first.length) second.length = second := by
  rw [load_append] at read
  exact List.append_inj read (load_length _ _ _)

end NetCore.ByteMemory
