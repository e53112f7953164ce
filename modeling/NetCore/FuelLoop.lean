import Mathlib.Logic.Function.Basic

/-! Loops that need not end. `whileLoop condition body fuel` makes at most `fuel`
iterations and answers `none` when the condition still holds after them, so a
loop that never ends is `none` for every fuel. The result of a loop that ends
does not depend on the fuel that was enough for it. -/
namespace NetCore.FuelLoop

universe u
variable {State : Type u}

def whileLoop (condition : State → Bool) (body : State → State) : Nat → State → Option State
  | 0, state => if condition state then none else some state
  | fuel + 1, state =>
      if condition state then whileLoop condition body fuel (body state) else some state

@[simp] theorem while_done (condition : State → Bool) (body : State → State) (fuel : Nat)
    (state : State) (done : condition state = false) :
    whileLoop condition body fuel state = some state := by
  cases fuel <;> simp [whileLoop, done]

@[simp] theorem while_turn (condition : State → Bool) (body : State → State) (fuel : Nat)
    (state : State) (goesOn : condition state = true) :
    whileLoop condition body (fuel + 1) state = whileLoop condition body fuel (body state) := by
  simp [whileLoop, goesOn]

/-- Partial correctness: an invariant of the body holds of the final state, where
the condition fails. -/
theorem while_invariant (condition : State → Bool) (body : State → State)
    (invariant : State → Prop)
    (keeps : ∀ state, condition state = true → invariant state → invariant (body state))
    (fuel : Nat) (state final : State) (holds : invariant state)
    (ended : whileLoop condition body fuel state = some final) :
    invariant final ∧ condition final = false := by
  induction fuel generalizing state with
  | zero =>
      cases turn : condition state with
      | true => simp [whileLoop, turn] at ended
      | false =>
          rw [while_done condition body 0 state turn, Option.some.injEq] at ended
          exact ended ▸ ⟨holds, turn⟩
  | succ fuel ih =>
      cases turn : condition state with
      | true =>
          rw [while_turn condition body fuel state turn] at ended
          exact ih (body state) (keeps state turn holds) ended
      | false =>
          rw [while_done condition body _ state turn, Option.some.injEq] at ended
          exact ended ▸ ⟨holds, turn⟩

/-- Total correctness: a measure that every turn decreases is enough fuel. -/
theorem while_ends (condition : State → Bool) (body : State → State) (invariant : State → Prop)
    (measure : State → Nat)
    (keeps : ∀ state, condition state = true → invariant state → invariant (body state))
    (decreases : ∀ state, condition state = true → invariant state →
      measure (body state) < measure state)
    (fuel : Nat) (state : State) (holds : invariant state)
    (enough : measure state ≤ fuel) :
    ∃ final, whileLoop condition body fuel state = some final := by
  induction fuel generalizing state with
  | zero =>
      cases turn : condition state with
      | true =>
          have less := decreases state turn holds
          omega
      | false => exact ⟨state, while_done condition body 0 state turn⟩
  | succ fuel ih =>
      cases turn : condition state with
      | true =>
          have less := decreases state turn holds
          rw [while_turn condition body fuel state turn]
          exact ih (body state) (keeps state turn holds) (by omega)
      | false => exact ⟨state, while_done condition body _ state turn⟩

theorem while_more_fuel (condition : State → Bool) (body : State → State)
    (fuel extra : Nat) (state final : State)
    (ended : whileLoop condition body fuel state = some final) :
    whileLoop condition body (fuel + extra) state = some final := by
  induction fuel generalizing state with
  | zero =>
      cases turn : condition state with
      | true => simp [whileLoop, turn] at ended
      | false => simpa [turn] using ended
  | succ fuel ih =>
      cases turn : condition state with
      | true =>
          rw [while_turn condition body fuel state turn] at ended
          rw [Nat.add_right_comm, while_turn condition body _ state turn]
          exact ih (body state) ended
      | false => simpa [turn] using ended

end NetCore.FuelLoop
