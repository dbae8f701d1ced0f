import IrohShare.Transition.Run
import Mathlib.Logic.Function.Basic

/-! Systems side by side: a family of states of which one takes a step at a time. -/
namespace Transition
variable {ι S A B : Type} [DecidableEq ι]

def stepAt (step : ι → S → A → Option S) (states : ι → S) (i : ι) (a : A) : Option (ι → S) :=
  (step i (states i) a).map (Function.update states i)

theorem update_eq_some {values : ι → Option B} {i j : ι} {next found : B} :
    Function.update values i (some next) j = some found ↔
      j = i ∧ found = next ∨ j ≠ i ∧ values j = some found := by
  by_cases here : j = i
  · subst here
    simp [eq_comm]
  · simp [here]

theorem update_eq_none {values : ι → Option B} {i j : ι} {next : B}
    (absent : Function.update values i (some next) j = none) : values j = none := by
  by_cases here : j = i
  · subst here
    simp at absent
  · simpa [here] using absent

variable {step : ι → S → A → Option S} {states after : ι → S} {i : ι} {a : A}

theorem stepAt_self (stepped : stepAt step states i a = some after) :
    step i (states i) a = some (after i) := by
  obtain ⟨s, moved, rfl⟩ := Option.map_eq_some_iff.mp stepped
  rw [Function.update_self]
  exact moved

theorem stepAt_other (stepped : stepAt step states i a = some after) (other : j ≠ i) :
    after j = states j := by
  obtain ⟨s, _, rfl⟩ := Option.map_eq_some_iff.mp stepped
  exact Function.update_of_ne other _ _

/-- Each member stays where it is, or is the one that takes the step. -/
theorem stepAt_cases (stepped : stepAt step states i a = some after) (j : ι) :
    after j = states j ∨ j = i ∧ step j (states j) a = some (after j) := by
  by_cases same : j = i
  · subst same
    exact .inr ⟨rfl, stepAt_self stepped⟩
  · exact .inl (stepAt_other stepped same)

theorem stepAt_label (stepped : stepAt step states i a = some after) (j : ι) :
    (if i = j then some a else none).elim (after j = states j)
      fun b => Steps (step j) (states j) b (after j) := by
  by_cases same : i = j
  · subst same
    rw [if_pos rfl]
    exact stepAt_self stepped
  · rw [if_neg same]
    exact stepAt_other stepped (Ne.symm same)

end Transition
