import NetCore.TransitionRuns

/-! Runs that come to an end. When every step takes something off a measure, no run is longer than
the measure it starts with. When from every state that is not yet a goal some run leads to a state
of smaller measure, some run leads to a goal. -/
namespace NetCore.EndingRuns
open TransitionRuns

universe u v
variable {State : Type u} {Label : Type v} (step : Step State Label)
  (admitted : Condition State Label)

inductive Path (source : State) : Nat → State → Prop where
  | start : Path source 0 source
  | next {count : Nat} {before after : State} (label : Label) :
      Path source count before → step before label = some after → admitted before label after →
      Path source (count + 1) after

variable (invariant : State → Prop) (measure : State → Nat)

theorem path_bounded (source : State) (holds : invariant source)
    (keeps : ∀ before label after, invariant before → step before label = some after →
      admitted before label after → invariant after ∧ measure after < measure before)
    (count : Nat) (final : State) (path : Path step admitted source count final) :
    invariant final ∧ count + measure final ≤ measure source := by
  induction path with
  | start => exact ⟨holds, Nat.le_of_eq (Nat.zero_add _)⟩
  | next label _ taken allowed ih =>
      obtain ⟨kept, falls⟩ := keeps _ label _ ih.1 taken allowed
      exact ⟨kept, by omega⟩

theorem goal_reached (goal : State → Prop)
    (goes : ∀ state, invariant state → ¬ goal state → ∃ later, Reachable step admitted state later ∧
      invariant later ∧ measure later < measure state)
    (state : State) (holds : invariant state) :
    ∃ final, Reachable step admitted state final ∧ invariant final ∧ goal final := by
  induction bound : measure state using Nat.strong_induction_on generalizing state with
  | _ size ih =>
      by_cases here : goal state
      · exact ⟨state, .start, holds, here⟩
      · obtain ⟨later, moved, kept, falls⟩ := goes state holds here
        obtain ⟨final, reached, rest⟩ := ih (measure later) (by omega) later kept rfl
        exact ⟨final, reachable_trans step admitted state later final moved reached, rest⟩

end NetCore.EndingRuns
