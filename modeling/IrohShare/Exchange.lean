import Mathlib.Logic.Relation

/-! What an offered transfer is for, whatever carries it: the receiver is asked once and
decides once, one file at most is saved, it fits the offer and the folder it was approved
for, and the sender is told of no result that the receiver has not come to. -/
namespace Exchanges
variable {ω δ φ : Type}

/-- What the receiving side has answered. -/
inductive Answer (ω δ : Type) where
  | unseen
  | asked (offer : ω)
  | approved (offer : ω) (folder : δ)
  | refused
  deriving DecidableEq, Repr

/-- How far the receiving side has come: its answer, and whatever it has saved. -/
structure Receipt (ω δ φ : Type) where
  answer : Answer ω δ
  files : List φ
  deriving DecidableEq, Repr

/-- What the sending side has been told. -/
inductive Outcome where
  | waiting
  | completed
  | declined
  | failed
  deriving DecidableEq, Repr

structure Exchange (ω δ φ : Type) where
  receipt : Receipt ω δ φ
  outcome : Outcome
  deriving DecidableEq, Repr

/-- What the sender may be told: to fail is possible at any time. -/
inductive Told : Receipt ω δ φ → Outcome → Prop where
  | completed (offer : ω) (folder : δ) (file : φ) : Told ⟨.approved offer folder, [file]⟩ .completed
  | declined : Told ⟨.refused, []⟩ .declined
  | failed (receipt : Receipt ω δ φ) : Told receipt .failed

section
variable (fits : ω → δ → φ → Prop)

/-- Who is never asked, refuses. -/
inductive Receipt.Step : Receipt ω δ φ → Receipt ω δ φ → Prop where
  | asks (offer : ω) : Step ⟨.unseen, []⟩ ⟨.asked offer, []⟩
  | approves (offer : ω) (folder : δ) : Step ⟨.asked offer, []⟩ ⟨.approved offer folder, []⟩
  | saves (offer : ω) (folder : δ) (file : φ) (fit : fits offer folder file) :
      Step ⟨.approved offer folder, []⟩ ⟨.approved offer folder, [file]⟩
  | refuses (offer : ω) : Step ⟨.asked offer, []⟩ ⟨.refused, []⟩
  | closes : Step ⟨.unseen, []⟩ ⟨.refused, []⟩

inductive Exchange.Step : Option (Exchange ω δ φ) → Option (Exchange ω δ φ) → Prop where
  | begins : Step none (some ⟨⟨.unseen, []⟩, .waiting⟩)
  | receives {before after : Receipt ω δ φ} (told : Outcome) (step : Receipt.Step fits before after) :
      Step (some ⟨before, told⟩) (some ⟨after, told⟩)
  | ends {come : Receipt ω δ φ} {result : Outcome} (told : Told come result) :
      Step (some ⟨come, .waiting⟩) (some ⟨come, result⟩)

/-- Nothing is saved that was not approved. -/
structure Receipt.Valid (receipt : Receipt ω δ φ) : Prop where
  single : receipt.files.length ≤ 1
  fitting : ∀ file ∈ receipt.files, ∃ offer folder, receipt.answer = .approved offer folder ∧
    fits offer folder file

/-- The sender is waiting, or has been told something the receiver has come to. -/
structure Exchange.Sound (exchange : Exchange ω δ φ) : Prop where
  valid : exchange.receipt.Valid fits
  told : exchange.outcome = .waiting ∨ Told exchange.receipt exchange.outcome

end

variable {fits : ω → δ → φ → Prop} {before after : Receipt ω δ φ} {outcome : Outcome}

theorem Receipt.valid_nil (answer : Answer ω δ) : (⟨answer, []⟩ : Receipt ω δ φ).Valid fits where
  single := Nat.zero_le 1
  fitting := by intro file inside; cases inside

theorem Receipt.Step.valid (step : Receipt.Step fits before after) : after.Valid fits := by
  cases step with
  | saves offer folder file fit =>
    refine ⟨Nat.le_refl 1, fun other inside => ?_⟩
    obtain rfl := List.mem_singleton.mp inside
    exact ⟨offer, folder, rfl, fit⟩
  | _ => exact valid_nil _

theorem Told.receives (told : Told before outcome) (step : Receipt.Step fits before after) :
    Told after outcome := by
  cases told with
  | completed => cases step
  | declined => cases step
  | failed => exact .failed after

theorem Exchange.Step.sound {before after : Option (Exchange ω δ φ)}
    (step : Exchange.Step fits before after)
    (sound : ∀ exchange, before = some exchange → exchange.Sound fits) :
    ∀ exchange, after = some exchange → exchange.Sound fits := by
  rintro exchange rfl
  cases step with
  | begins => exact ⟨Receipt.valid_nil _, .inl rfl⟩
  | receives outcome step => exact ⟨step.valid, (sound _ rfl).told.imp id (Told.receives · step)⟩
  | ends told => exact ⟨(sound _ rfl).valid, .inr told⟩

/-- Every exchange is sound, from its beginning on. -/
theorem sound_of_steps {after : Option (Exchange ω δ φ)}
    (steps : Relation.ReflTransGen (Exchange.Step fits) none after) :
    ∀ exchange, after = some exchange → exchange.Sound fits := by
  induction steps with
  | refl =>
    intro exchange same
    cases same
  | tail _ last ih => exact last.sound ih

/-- Nothing follows a result other than a failure. -/
theorem steps_of_told {receipt : Receipt ω δ φ} {after : Option (Exchange ω δ φ)}
    (told : Told receipt outcome) (succeeds : outcome ≠ .failed)
    (steps : Relation.ReflTransGen (Exchange.Step fits) (some ⟨receipt, outcome⟩) after) :
    after = some ⟨receipt, outcome⟩ := by
  induction steps with
  | refl => rfl
  | tail _ last ih =>
    subst ih
    cases told with
    | completed =>
      cases last with
      | receives _ step => cases step
    | declined =>
      cases last with
      | receives _ step => cases step
    | failed => exact absurd rfl succeeds

/-- An approval stays, and so does what has been saved. -/
theorem steps_of_approved {offer : ω} {folder : δ} {files : List φ}
    {after : Option (Exchange ω δ φ)}
    (steps : Relation.ReflTransGen (Exchange.Step fits)
      (some ⟨⟨.approved offer folder, files⟩, outcome⟩) after) :
    ∃ more told, after = some ⟨⟨.approved offer folder, more⟩, told⟩ ∧ files <+: more := by
  induction steps with
  | refl => exact ⟨files, outcome, rfl, List.prefix_rfl⟩
  | tail _ last ih =>
    obtain ⟨more, told, rfl, grown⟩ := ih
    cases last with
    | receives _ step =>
      cases step with
      | saves _ _ file => exact ⟨[file], told, rfl, grown.trans List.nil_prefix⟩
    | @ends _ result => exact ⟨more, result, rfl, grown⟩

end Exchanges
