import Mathlib.Data.List.Basic

/-! `LockQueue` of LockQueue.h. Every operation holds the write lock for its whole
body (the lock is re-entrant, so `Clear` may call `Pop`), hence each is one step
on the list of queued items, front first. `Pop` and `Clear(popped)` are given for
items that can be null, as `shared_ptr` and raw pointers are: `T()` is null then. -/
namespace NetCore.LockQueue

universe u
variable {Item : Type u}

def push (queue : List Item) (item : Item) : List Item := queue ++ [item]

def pop : List (Option Item) → Option Item × List (Option Item)
  | [] => (none, [])
  | front :: rest => (front, rest)

def tryPop : List Item → Option (Item × List Item)
  | [] => none
  | front :: rest => some (front, rest)

/-- `while (T element = Pop()) popped.push_back(element)`: a null element ends the
loop like the end of the queue does, after it was removed. -/
def clear (queue : List (Option Item)) : List Item × List (Option Item) :=
  match queue with
  | [] => ([], [])
  | front :: rest =>
      match pop (front :: rest) with
      | (none, left) => ([], left)
      | (some element, _) => (element :: (clear rest).1, (clear rest).2)

theorem clear_some (items : List Item) : clear (items.map some) = (items, []) := by
  induction items with
  | nil => rfl
  | cons item rest ih => simp [clear, pop, ih]

end NetCore.LockQueue
