import IrohShare.Transition.Run

/-! Runs on a budget: each step costs what its label says, and is paid from what the state
has left, or the run has reached its goal. -/
namespace Transition
variable {S A : Type}

/-- What a run costs. -/
def spent (cost : A → Nat) : List A → Nat
  | [] => 0
  | a :: past => cost a + spent cost past

theorem spent_cons (cost : A → Nat) (a : A) (past : List A) :
    spent cost (a :: past) = cost a + spent cost past := rfl

theorem spent_countP (price : Nat) (charged : A → Bool) (past : List A) :
    spent (fun a => if charged a then price else 0) past = price * past.countP charged := by
  induction past with
  | nil => rfl
  | cons a past ih =>
    rw [spent_cons, ih, List.countP_cons]
    split
    · rw [Nat.mul_add, Nat.mul_one, Nat.add_comm]
    · rw [Nat.zero_add, Nat.add_zero]

namespace Run
variable {step : S → A → S → Prop} {cost : A → Nat}

/-- Steps that are paid from a rank, and from what their labels bring in. -/
theorem affords {gain : A → Nat} (run : Run step s past t) (rank : S → Nat)
    (pays : ∀ {t a u}, step t a u → rank u + cost a ≤ rank t + gain a) :
    rank t + spent cost past ≤ rank s + spent gain past := by
  induction run with
  | start => exact Nat.le_refl _
  | next rest last ih =>
    have paid := pays last
    rw [spent_cons, spent_cons]
    omega

/-- Steps that are paid from a budget, unless they reach the goal, which then stays. -/
theorem within {Left : S → Nat → Prop} {Goal : S → Prop} (run : Run step s past t)
    (pays : ∀ {t a u left}, Left t left → step t a u →
      Goal u ∨ ∃ rest, Left u rest ∧ rest + cost a ≤ left)
    (stays : ∀ {t a u}, Goal t → step t a u → Goal u) (budget : Left s left) :
    Goal t ∨ ∃ rest, Left t rest ∧ rest + spent cost past ≤ left := by
  induction run with
  | start => exact .inr ⟨left, budget, Nat.le_refl _⟩
  | next rest last ih =>
    rcases ih with reached | ⟨more, budget, paid⟩
    · exact .inl (stays reached last)
    · refine (pays budget last).imp id ?_
      rintro ⟨rest, budget, spends⟩
      refine ⟨rest, budget, ?_⟩
      rw [spent_cons]
      omega

/-- A budget that is never used up is not outlived. -/
theorem reaches {Left : S → Nat → Prop} {Goal : S → Prop} (run : Run step s past t)
    (pays : ∀ {t a u left}, Left t left → step t a u →
      Goal u ∨ ∃ rest, Left u rest ∧ rest + cost a ≤ left)
    (stays : ∀ {t a u}, Goal t → step t a u → Goal u)
    (positive : ∀ {t left}, Left t left → 0 < left) (budget : Left s left)
    (outlived : left ≤ spent cost past) : Goal t := by
  rcases run.within pays stays budget with reached | ⟨rest, budget, paid⟩
  · exact reached
  · have := positive budget
    omega

end Run
end Transition
