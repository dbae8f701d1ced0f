import IrohShare.Transition.Run

/-! What has happened in a run while a mark stood: the steps that met a condition in a
state of this mark. -/
namespace Transition
variable {S A M : Type}

def Happened (step : S → A → Option S) (s : S) (mark : S → M) (trigger : S → A → Prop)
    (past : List A) (now : M) : Prop :=
  ∃ a earlier t, a :: earlier <:+ past ∧ Run (Steps step) s earlier t ∧ mark t = now ∧ trigger t a

variable {step : S → A → Option S} {mark : S → M} {trigger : S → A → Prop} {now : M}

/-- The newest step is the one, or it was one before. -/
theorem happened_cons (run : Run (Steps step) s past t) :
    Happened step s mark trigger (a :: past) now ↔
      mark t = now ∧ trigger t a ∨ Happened step s mark trigger past now := by
  constructor
  · rintro ⟨b, earlier, u, inside, upTo, marked, triggers⟩
    rcases List.suffix_cons_iff.mp inside with same | inside
    · cases same
      obtain rfl := upTo.unique run
      exact .inl ⟨marked, triggers⟩
    · exact .inr ⟨b, earlier, u, inside, upTo, marked, triggers⟩
  · rintro (⟨marked, triggers⟩ | ⟨b, earlier, u, inside, rest⟩)
    · exact ⟨a, past, t, List.suffix_rfl, run, marked, triggers⟩
    · exact ⟨b, earlier, u, inside.trans (List.suffix_cons a past), rest⟩

/-- Each state of the history leads on to the present one. -/
theorem Happened.earlier (happened : Happened step s mark trigger past now)
    (run : Run (Steps step) s past t) :
    ∃ a u before later, Run (Steps step) s before u ∧ Run (Steps step) u later t ∧
      mark u = now ∧ trigger u a := by
  obtain ⟨a, earlier, u, ⟨later, rfl⟩, upTo, marked, triggers⟩ := happened
  have whole : Run (Steps step) s ((later ++ [a]) ++ earlier) t := by
    simpa only [List.append_assoc, List.singleton_append] using run
  obtain ⟨v, before, rest⟩ := whole.split
  obtain rfl := before.unique upTo
  exact ⟨a, v, earlier, _, upTo, rest, marked, triggers⟩

end Transition
