import IrohShare.Approval
import IrohShare.Waiting
import IrohShare.Transition.Since

/-! How long a receive is shown, while no other offer is accepted: until a refresh finds it
complete, for two more seconds, and until the next refresh of it. -/
namespace IrohShare
open Wire Unix Channel Transition

variable {env : Env} {node after : Node} {action : Action} {status current : ReceiveStatus}
  {since now : Nat}

namespace ReceiveStatus
variable {reached more : Nat → Prop}

/-- When the status was completed, or is completed later, at a time when it is reached. -/
def CompletesAt (status : ReceiveStatus) (since : Nat) (reached : Nat → Prop) (t : Nat) : Prop :=
  status.completedAt = some t ∨ status.completedAt = none ∧ since ≤ t ∧ reached t

/-- The status with another progress, and complete from when it completes on. -/
structure Continues (status : ReceiveStatus) (since : Nat) (reached : Nat → Prop)
    (current : ReceiveStatus) : Prop where
  filename : current.filename = status.filename
  total : current.total = status.total
  complete : ∀ t, status.completedAt = some t → current.completedAt = some t
  completes : ∀ t, current.completedAt = some t → status.CompletesAt since reached t

/-- What has become of a status by now: it is shown, or was complete for two seconds. -/
inductive Lasts (status : ReceiveStatus) (since : Nat) (reached : Nat → Prop) (now : Nat) :
    Option ReceiveStatus → Prop where
  | shown (current : ReceiveStatus) (continues : status.Continues since reached current) :
      Lasts status since reached now (some current)
  | expired (t : Nat) (completes : status.CompletesAt since reached t) (late : t + 2000 ≤ now) :
      Lasts status since reached now none

theorem Continues.refl (status : ReceiveStatus) (since : Nat) (reached : Nat → Prop) :
    status.Continues since reached status where
  filename := rfl
  total := rfl
  complete := fun _ => id
  completes := fun _ => .inl

theorem CompletesAt.mono (completes : status.CompletesAt since reached t)
    (grown : ∀ t, reached t → more t) : status.CompletesAt since more t :=
  completes.imp_right fun later => ⟨later.1, later.2.1, grown t later.2.2⟩

theorem Continues.mono (continues : status.Continues since reached current)
    (grown : ∀ t, reached t → more t) : status.Continues since more current :=
  { continues with completes := fun t completed => (continues.completes t completed).mono grown }

theorem Continues.update (continues : status.Continues since reached current)
    (elapsed : since ≤ now) (downloaded : UInt64)
    (reaches : 0 < status.total → status.total ≤ downloaded → reached now) :
    status.Continues since reached (current.update downloaded now) where
  filename := continues.filename
  total := continues.total
  complete := by
    intro t completed
    simp [ReceiveStatus.update, continues.complete t completed]
  completes := by
    intro t completed
    unfold ReceiveStatus.update at completed
    dsimp only at completed
    split at completed
    · rename_i positive
      rw [continues.total] at positive
      cases before : current.completedAt with
      | some earlier =>
        rw [before, Option.getD_some, Option.some.injEq] at completed
        exact completed ▸ continues.completes earlier before
      | none =>
        rw [before, Option.getD_none, Option.some.injEq] at completed
        refine .inr ⟨?_, completed ▸ elapsed, completed ▸ reaches positive.1 positive.2⟩
        rw [Option.eq_none_iff_forall_ne_some]
        intro earlier complete
        cases before.symm.trans (continues.complete earlier complete)
    · exact continues.completes t completed

theorem Continues.expire (continues : status.Continues since reached current) :
    status.Lasts since reached now (current.expire now) := by
  unfold ReceiveStatus.expire
  split
  · rename_i expired
    obtain ⟨t, completed, late⟩ := (Option.any_eq_true _ _).mp expired
    exact .expired t (continues.completes t completed) (by have := of_decide_eq_true late; omega)
  · exact .shown current continues

theorem Lasts.mono {display : Option ReceiveStatus} (lasts : status.Lasts since reached now display)
    (later : now ≤ passed) (grown : ∀ t, reached t → more t) :
    status.Lasts since more passed display := by
  cases lasts with
  | shown current continues => exact .shown current (continues.mono grown)
  | expired t completes late => exact .expired t (completes.mono grown) (late.trans later)

end ReceiveStatus

namespace Node

end Node

end IrohShare
