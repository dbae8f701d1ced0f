import Mathlib.Data.List.Basic

/-! Decimal numbers as they are parsed into an unsigned integer type: one plus sign may
stand in front, zeros may lead, and what does not fit into the type is refused. -/
namespace Wire

/-- The digits behind a value, which has to stay below the bound. -/
def parseDigits (bound : Nat) : Nat → List Char → Option Nat
  | value, [] => some value
  | value, digit :: digits =>
    if digit.isDigit = true ∧ 10 * value + (digit.toNat - 48) < bound then
      parseDigits bound (10 * value + (digit.toNat - 48)) digits
    else none

def dropPlus : List Char → List Char
  | '+' :: digits => digits
  | digits => digits

def parseUnsigned (bound : Nat) (text : String) : Option Nat :=
  if dropPlus text.toList = [] then none else parseDigits bound 0 (dropPlus text.toList)

/-- The text is the number in decimal digits, with or without a plus sign. -/
def Spells (text : String) (value : Nat) : Prop :=
  ∃ digits, digits ≠ [] ∧ (∀ digit ∈ digits, digit.isDigit = true) ∧
    Nat.ofDigitChars 10 digits 0 = value ∧
    (text.toList = digits ∨ text.toList = '+' :: digits)

theorem le_ofDigitChars (value : Nat) (digits : List Char) :
    value ≤ Nat.ofDigitChars 10 digits value := by
  induction digits generalizing value with
  | nil => simp
  | cons digit digits ih =>
    rw [Nat.ofDigitChars_cons]
    have more := ih (10 * value + (digit.toNat - '0'.toNat))
    omega

/-- No step overflows if the result does not. -/
theorem parseDigits_eq_some (fits : value < bound) : parseDigits bound value digits = some n ↔
    (∀ digit ∈ digits, digit.isDigit = true) ∧ Nat.ofDigitChars 10 digits value = n ∧ n < bound := by
  induction digits generalizing value with
  | nil =>
    simp only [parseDigits, Option.some.injEq, List.not_mem_nil, false_implies, implies_true,
      Nat.ofDigitChars_nil, true_and]
    constructor
    · rintro rfl
      exact ⟨rfl, fits⟩
    · exact And.left
  | cons digit digits ih =>
    rw [parseDigits, Nat.ofDigitChars_cons, List.forall_mem_cons]
    change _ ↔ _ ∧ Nat.ofDigitChars 10 digits (10 * value + (digit.toNat - 48)) = n ∧ _
    split
    · rename_i step
      rw [ih step.2]
      simp [step.1]
    · rename_i stuck
      constructor
      · rintro ⟨⟩
      · rintro ⟨⟨valid, _⟩, same, small⟩
        have more := le_ofDigitChars (10 * value + (digit.toNat - 48)) digits
        exact absurd ⟨valid, by omega⟩ stuck

theorem dropPlus_of_digits (valid : ∀ digit ∈ digits, Char.isDigit digit = true) :
    dropPlus digits = digits := by
  unfold dropPlus
  split
  · exact absurd (valid '+' (.head _)) (by decide)
  · rfl

theorem parseUnsigned_eq_some (positive : 0 < bound) :
    parseUnsigned bound text = some n ↔ Spells text n ∧ n < bound := by
  unfold parseUnsigned Spells
  constructor
  · intro parsed
    split at parsed
    · cases parsed
    · rename_i some
      obtain ⟨valid, same, small⟩ := (parseDigits_eq_some positive).mp parsed
      refine ⟨⟨_, some, valid, same, ?_⟩, small⟩
      unfold dropPlus
      split
      · exact .inr ‹_›
      · exact .inl rfl
  · rintro ⟨⟨digits, some, valid, same, spelled⟩, small⟩
    have digits_eq : dropPlus text.toList = digits := by
      rcases spelled with plain | signed
      · rw [plain, dropPlus_of_digits valid]
      · rw [signed]
        rfl
    rw [digits_eq, if_neg some, parseDigits_eq_some positive]
    exact ⟨valid, same, small⟩

theorem spells_toString (n : Nat) : Spells (toString n) n := by
  refine ⟨Nat.toDigits 10 n, Nat.toDigits_ne_nil, fun digit inside => ?_,
    Nat.ofDigitChars_ten_toDigits, .inl ?_⟩
  · exact Nat.isDigit_of_mem_toDigits (by decide) (by decide) inside
  · exact Nat.toList_repr

theorem Spells.unique (first : Spells text m) (second : Spells text n) : m = n := by
  have parsed := (parseUnsigned_eq_some (Nat.zero_lt_succ (m + n))).mpr ⟨first, by omega⟩
  have again := (parseUnsigned_eq_some (Nat.zero_lt_succ (m + n))).mpr ⟨second, by omega⟩
  exact Option.some.inj (parsed.symm.trans again)

end Wire
