import Mathlib.Logic.Function.Basic
import Mathlib.Algebra.Ring.Nat

/-! Labelled partial step functions and their runs. A label names one atomic
step of one participant together with the values the environment chooses for it
(clock readings, results of system calls), so a run is any interleaving. Steps
may be restricted by a condition on the state before, the label and the state
after; every property of runs below is relative to that condition. -/
namespace NetCore.TransitionRuns

universe u v w
variable {State : Type u} {Label : Type v}

abbrev Step (State : Type u) (Label : Type v) := State → Label → Option State

abbrev Condition (State : Type u) (Label : Type v) := State → Label → State → Prop

def replay (step : Step State Label) (check : State → Label → State → Bool) :
    State → List Label → Option State
  | state, [] => some state
  | state, label :: rest => (step state label).bind fun next =>
      if check state label next then replay step check next rest else none

inductive Reachable (step : Step State Label) (admitted : Condition State Label)
    (source : State) : State → Prop where
  | start : Reachable step admitted source source
  | next {before after : State} (label : Label) :
      Reachable step admitted source before → step before label = some after →
      admitted before label after → Reachable step admitted source after

/-- The invariant rule. The invariant is proved of one step whose source already
satisfies it, under the condition that step meets. -/
theorem reachable_invariant (step : Step State Label) (admitted : Condition State Label)
    (invariant : State → Prop) (source : State) (holds : invariant source)
    (keeps : ∀ before label after, invariant before → step before label = some after →
      admitted before label after → invariant after)
    (state : State) (reached : Reachable step admitted source state) : invariant state := by
  induction reached with
  | start => exact holds
  | next label _ taken allowed ih => exact keeps _ label _ ih taken allowed

theorem reachable_trans (step : Step State Label) (admitted : Condition State Label)
    (first middle last : State) (before : Reachable step admitted first middle)
    (after : Reachable step admitted middle last) : Reachable step admitted first last := by
  induction after with
  | start => exact before
  | next label _ taken allowed ih => exact .next label ih taken allowed

/-- A replayed list of labels is a run, so what is observed at its end is observed
of a reachable state. -/
theorem replay_reachable {View : Type w} (step : Step State Label)
    (admitted : Condition State Label) (check : State → Label → State → Bool)
    (sound : ∀ before label after, check before label after = true → admitted before label after)
    (view : State → View) (value : View) (labels : List Label) (source : State)
    (computed : (replay step check source labels).map view = some value) :
    ∃ final, Reachable step admitted source final ∧ view final = value := by
  induction labels generalizing source with
  | nil =>
      simp only [replay, Option.map_some, Option.some.injEq] at computed
      exact ⟨source, .start, computed⟩
  | cons label rest ih =>
      obtain ⟨final, replayed, viewed⟩ := Option.map_eq_some_iff.mp computed
      obtain ⟨next, taken, tail⟩ := Option.bind_eq_some_iff.mp replayed
      split at tail
      case isTrue checked =>
        obtain ⟨last, reached, seen⟩ := ih next (by rw [tail, Option.map_some, viewed])
        have first : Reachable step admitted source next :=
          .next label .start taken (sound _ _ _ checked)
        exact ⟨last, reachable_trans step admitted source next last first reached, seen⟩
      case isFalse => simp at tail

end NetCore.TransitionRuns
