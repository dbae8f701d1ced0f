import IrohShare.Wire.Bytes

/-! Lossy decoding leaves valid UTF-8 alone, and treats the parts between ASCII bytes
each by itself: no ASCII character comes from, or goes into, a longer sequence. -/
namespace Wire

/-- A character that no ASCII byte but zero stands for. -/
def Wide (char : Char) : Prop := char = Char.ofNat 0 ∨ 128 ≤ char.toNat

theorem toNat_ofNat (valid : code.isValidChar) : (Char.ofNat code).toNat = code := by
  rw [Char.ofNat, dif_pos valid]
  rfl

theorem wide_ofNat (large : 128 ≤ code) : Wide (Char.ofNat code) := by
  by_cases valid : code.isValidChar
  · exact .inr (by rwa [toNat_ofNat valid])
  · refine .inl ?_
    rw [Char.ofNat, dif_neg valid]
    rfl

theorem wide_replacement : Wide replacement := wide_ofNat (by decide)

theorem toNat_ascii (ascii : code < 128) : (Char.ofNat code).toNat = code :=
  toNat_ofNat (.inl (by omega))

/-- The decoder is inside a sequence, and what it has read of it makes the character wide. -/
structure Inside (need code low high : Nat) : Prop where
  more : 0 < need
  lowest : 128 ≤ low
  highest : high < 192
  large : 128 ≤ code * 64 ^ need + (low - 128) * 64 ^ (need - 1)

theorem inside_leadByte (lead : leadByte byte = some (need, code, low, high)) :
    Inside need code low high := by
  unfold leadByte at lead
  repeat' split at lead
  all_goals simp only [Option.some.injEq, Prod.mk.injEq, reduceCtorEq] at lead
  all_goals
    obtain ⟨rfl, rfl, rfl, rfl⟩ := lead
    refine ⟨by decide, by decide, by decide, ?_⟩
    simp only [Nat.reduceSub, Nat.reducePow, Nat.reduceMul]
    omega

/-- A continuation byte completes a wide character, or the decoder stays inside. -/
theorem Inside.next (inside : Inside need code low high) (above : low ≤ byte)
    (below : byte ≤ high) :
    need = 1 ∧ 128 ≤ code * 64 + byte % 64 ∨
      1 < need ∧ Inside (need - 1) (code * 64 + byte % 64) 0x80 0xBF := by
  obtain ⟨more, lowest, highest, large⟩ := inside
  have payload : byte % 64 = byte - 128 := by omega
  rw [payload]
  by_cases single : need = 1
  · subst single
    refine .inl ⟨rfl, ?_⟩
    simp only [pow_one, Nat.sub_self, pow_zero, mul_one] at large
    omega
  · refine .inr ⟨by omega, by omega, by decide, by decide, ?_⟩
    obtain ⟨left, rfl⟩ : ∃ left, need = left + 2 := ⟨need - 2, by omega⟩
    have bits : low - 128 ≤ byte - 128 := by omega
    calc
      128 ≤ code * 64 ^ (left + 2) + (low - 128) * 64 ^ (left + 1) := large
      _ ≤ code * 64 ^ (left + 2) + (byte - 128) * 64 ^ (left + 1) :=
        Nat.add_le_add_left (Nat.mul_le_mul_right _ bits) _
      _ = (code * 64 + (byte - 128)) * 64 ^ (left + 1) := by ring
      _ = (code * 64 + (byte - 128)) * 64 ^ (left + 2 - 1) +
          (0x80 - 128) * 64 ^ (left + 2 - 1 - 1) := by simp

/-- Between characters, or inside one. -/
def Sound (need code low high : Nat) : Prop := need = 0 ∨ Inside need code low high

/-- Every character is wide or that of an ASCII byte. -/
theorem mem_lossyFrom (sound : Sound need code low high)
    (inside : char ∈ lossyFrom bytes need code low high) :
    Wide char ∨ ∃ byte ∈ bytes, byte.toNat < 128 ∧ char = Char.ofNat byte.toNat := by
  induction bytes generalizing need code low high with
  | nil =>
    unfold lossyFrom at inside
    split at inside
    · cases inside
    · exact .inl (List.mem_singleton.mp inside ▸ wide_replacement)
  | cons byte rest ih =>
    have later {need code low high} (sound : Sound need code low high)
        (inside : char ∈ lossyFrom rest need code low high) :
        Wide char ∨ ∃ byte' ∈ byte :: rest, byte'.toNat < 128 ∧ char = Char.ofNat byte'.toNat :=
      (ih sound inside).imp_right fun ⟨byte, member, ascii⟩ => ⟨byte, .tail _ member, ascii⟩
    unfold lossyFrom at inside
    split at inside
    · rename_i fits
      rcases (sound.resolve_left (by omega)).next fits.2.1 fits.2.2 with
        ⟨rfl, large⟩ | ⟨several, goesOn⟩
      · rcases List.mem_cons.mp inside with rfl | inside
        · exact .inl (wide_ofNat large)
        · exact later (.inl rfl) inside
      · rw [if_neg (by omega)] at inside
        exact later (.inr goesOn) inside
    · have broken (inside : char ∈ if need = 0 then [] else [replacement]) : Wide char := by
        split at inside
        · cases inside
        · exact List.mem_singleton.mp inside ▸ wide_replacement
      dsimp only at inside
      split at inside
      · rename_i ascii
        rcases List.mem_append.mp inside with inside | inside
        · exact .inl (broken inside)
        · rcases List.mem_cons.mp inside with rfl | inside
          · exact .inr ⟨byte, List.mem_cons_self, ascii, rfl⟩
          · exact later (.inl rfl) inside
      · split at inside
        · rcases List.mem_append.mp inside with inside | inside
          · exact .inl (broken inside)
          · rcases List.mem_cons.mp inside with rfl | inside
            · exact .inl wide_replacement
            · exact later (.inl rfl) inside
        · rename_i lead
          rcases List.mem_append.mp inside with inside | inside
          · exact .inl (broken inside)
          · exact later (.inr (inside_leadByte lead)) inside

/-- Decoding starts afresh behind an ASCII byte. -/
theorem lossyFrom_ascii (sound : Sound need code low high) (ascii : byte.toNat < 128) :
    lossyFrom (front ++ byte :: rest) need code low high =
      lossyFrom front need code low high ++ Char.ofNat byte.toNat :: lossyFrom rest 0 0 0 0 := by
  induction front generalizing need code low high with
  | nil =>
    have outside : ¬ (0 < need ∧ low ≤ byte.toNat ∧ byte.toNat ≤ high) := by
      rintro ⟨more, above, _⟩
      have := (sound.resolve_left (by omega)).lowest
      omega
    rw [List.nil_append, lossyFrom, lossyFrom, if_neg outside, if_pos ascii]
  | cons first front ih =>
    rw [List.cons_append, lossyFrom, lossyFrom]
    split
    · rename_i fits
      rcases (sound.resolve_left (by omega)).next fits.2.1 fits.2.2 with
        ⟨rfl, _⟩ | ⟨several, goesOn⟩
      · simp only [if_pos, ih (.inl rfl), List.cons_append]
      · rw [if_neg (by omega), if_neg (by omega), ih (.inr goesOn)]
    · dsimp only
      split
      · rw [ih (.inl rfl), List.append_assoc, List.cons_append]
      · split
        · rw [ih (.inl rfl), List.append_assoc, List.cons_append]
        · rename_i lead
          rw [ih (.inr (inside_leadByte lead)), List.append_assoc]

theorem lossyFrom_eq_nil (empty : lossyFrom bytes need code low high = []) :
    bytes = [] ∧ need = 0 := by
  induction bytes generalizing need code low high with
  | nil =>
    unfold lossyFrom at empty
    split at empty
    · rename_i zero
      exact ⟨rfl, zero⟩
    · cases empty
  | cons byte rest ih =>
    exfalso
    unfold lossyFrom at empty
    split at empty
    · dsimp only at empty
      split at empty
      · cases empty
      · have := (ih empty).2
        omega
    · dsimp only at empty
      split at empty
      · simp at empty
      · split at empty
        · simp at empty
        · rename_i lead
          have := (ih (List.append_eq_nil_iff.mp empty).2).2
          have := (inside_leadByte lead).more
          omega

theorem utf8_ofList (chars : List Char) :
    utf8 (String.ofList chars) = chars.flatMap String.utf8EncodeChar := by
  induction chars with
  | nil => rfl
  | cons char chars ih => rw [utf8_cons, ih, List.flatMap_cons]

def lossy (bytes : Bytes) : Bytes := utf8 (fromUtf8Lossy bytes)

theorem lossy_nil : lossy [] = [] := rfl

theorem encode_ascii {byte : UInt8} (ascii : byte.toNat < 128) :
    String.utf8EncodeChar (Char.ofNat byte.toNat) = [byte] := by
  have small : (Char.ofNat byte.toNat).val.toNat = byte.toNat := toNat_ascii ascii
  unfold String.utf8EncodeChar
  dsimp only
  rw [if_pos (by omega), small, UInt8.ofNat_toNat]

theorem lossy_ascii {byte : UInt8} (ascii : byte.toNat < 128) (front rest : Bytes) :
    lossy (front ++ byte :: rest) = lossy front ++ byte :: lossy rest := by
  simp only [lossy, fromUtf8Lossy, utf8_ofList]
  rw [lossyFrom_ascii (.inl rfl) ascii, List.flatMap_append, List.flatMap_cons,
    encode_ascii ascii, List.singleton_append]

theorem lossy_eq_nil (empty : lossy bytes = []) : bytes = [] := by
  rw [lossy, fromUtf8Lossy, utf8_ofList, List.flatMap_eq_nil_iff] at empty
  have nothing : lossyFrom bytes 0 0 0 0 = [] :=
    List.eq_nil_iff_forall_not_mem.mpr fun char inside =>
      String.utf8EncodeChar_ne_nil (empty char inside)
  exact (lossyFrom_eq_nil nothing).1

theorem toNat_of_mem_encode {byte : UInt8} (ascii : byte.toNat < 128)
    (inside : byte ∈ String.utf8EncodeChar char) : char.toNat = byte.toNat := by
  have same : utf8 (String.ofList [char]) = utf8 (String.ofList [Char.ofNat byte.toNat]) := by
    simp only [utf8_ofList, List.flatMap_cons, List.flatMap_nil, utf8EncodeChar_ascii ascii inside,
      encode_ascii ascii]
  have same := utf8_injective same
  rw [String.ofList_inj, List.cons.injEq] at same
  rw [same.1, toNat_ascii ascii]

/-- An ASCII byte other than zero comes from that byte only. -/
theorem mem_of_mem_lossy {byte : UInt8} (ascii : byte.toNat < 128) (nonzero : byte ≠ 0)
    (inside : byte ∈ lossy bytes) : byte ∈ bytes := by
  rw [lossy, fromUtf8Lossy, utf8_ofList, List.mem_flatMap] at inside
  obtain ⟨char, member, encoded⟩ := inside
  have code := toNat_of_mem_encode ascii encoded
  rcases mem_lossyFrom (.inl rfl) member with (zero | large) | ⟨source, read, small, rfl⟩
  · rw [zero, toNat_ascii (by decide)] at code
    exact absurd (UInt8.toNat_inj.mp code.symm) nonzero
  · omega
  · rw [toNat_ascii small] at code
    exact UInt8.toNat_inj.mp code ▸ read

/-- Decoding commutes with splitting at an ASCII byte. -/
theorem splitOn_lossy {separator : UInt8} (ascii : separator.toNat < 128)
    (nonzero : separator ≠ 0) (bytes : Bytes) :
    (lossy bytes).splitOn separator = (bytes.splitOn separator).map lossy := by
  induction size : bytes.length using Nat.strong_induction_on generalizing bytes with
  | _ size ih =>
    by_cases inside : separator ∈ bytes
    · obtain ⟨front, rest, rfl⟩ := List.append_of_mem inside
      rw [List.length_append, List.length_cons] at size
      rw [lossy_ascii ascii, List.splitOn_append_cons_self, List.splitOn_append_cons_self,
        ih _ (by omega) front rfl, ih _ (by omega) rest rfl, List.map_append]
    · have outside : separator ∉ lossy bytes := mt (mem_of_mem_lossy ascii nonzero) inside
      rw [List.splitOn_eq_singleton inside, List.splitOn_eq_singleton outside]
      rfl

/-- A plain ASCII text comes from itself only. -/
theorem lossy_eq_ascii {text : Bytes} (plain : ∀ byte ∈ text, byte.toNat < 128 ∧ byte ≠ 0) :
    lossy bytes = text ↔ bytes = text := by
  induction text generalizing bytes with
  | nil => exact ⟨lossy_eq_nil, by rintro rfl; rfl⟩
  | cons byte text ih =>
    obtain ⟨ascii, nonzero⟩ := plain byte List.mem_cons_self
    have ih {bytes : Bytes} : lossy bytes = text ↔ bytes = text :=
      ih fun byte inside => plain byte (.tail _ inside)
    constructor
    · intro same
      have inside : byte ∈ lossy bytes := same ▸ List.mem_cons_self
      obtain ⟨front, rest, rfl, first⟩ :=
        List.eq_append_cons_of_mem (mem_of_mem_lossy ascii nonzero inside)
      rw [lossy_ascii ascii] at same
      have before : byte ∉ lossy front := mt (mem_of_mem_lossy ascii nonzero) first
      cases decoded : lossy front with
      | nil =>
        rw [decoded, List.nil_append, List.cons.injEq] at same
        rw [lossy_eq_nil decoded, ih.mp same.2, List.nil_append]
      | cons head tail =>
        rw [decoded, List.cons_append, List.cons.injEq] at same
        exact absurd (by rw [decoded, same.1]; exact List.mem_cons_self) before
    · rintro rfl
      have whole := lossy_ascii ascii [] text
      rwa [List.nil_append, lossy_nil, List.nil_append, ih.mpr rfl] at whole

theorem lossyFrom_lead {byte : UInt8} (large : 128 ≤ byte.toNat)
    (lead : leadByte byte.toNat = some (need, code, low, high)) :
    lossyFrom (byte :: rest) 0 0 0 0 = lossyFrom rest need code low high := by
  rw [lossyFrom, if_neg (by omega)]
  simp only [if_neg (show ¬ byte.toNat < 0x80 by omega), lead, if_true, List.nil_append]

theorem lossyFrom_more {byte : UInt8} (above : low ≤ byte.toNat) (below : byte.toNat ≤ high) :
    lossyFrom (byte :: rest) (need + 2) code low high =
      lossyFrom rest (need + 1) (code * 64 + byte.toNat % 64) 0x80 0xBF := by
  rw [lossyFrom, if_pos ⟨by omega, above, below⟩]
  simp

theorem lossyFrom_last {byte : UInt8} (above : low ≤ byte.toNat) (below : byte.toNat ≤ high) :
    lossyFrom (byte :: rest) 1 code low high =
      Char.ofNat (code * 64 + byte.toNat % 64) :: lossyFrom rest 0 0 0 0 := by
  rw [lossyFrom, if_pos ⟨by omega, above, below⟩]
  simp

theorem toNat_ofNat_byte (value : Nat) (fits : value < 256) : (UInt8.ofNat value).toNat = value := by
  rw [UInt8.toNat_ofNat', Nat.mod_eq_of_lt fits]

theorem leadByte_three (large : 0x7FF < v) (small : v ≤ 0xFFFF)
    (valid : v < 0xD800 ∨ 0xDFFF < v) : ∃ low high,
      leadByte (v / 4096 % 16 + 224) = some (2, v / 4096, low, high) ∧
      low ≤ v / 64 % 64 + 128 ∧ v / 64 % 64 + 128 ≤ high := by
  unfold leadByte
  rw [if_neg (by omega)]
  by_cases zero : v / 4096 = 0
  · rw [if_pos (by omega), zero]
    exact ⟨_, _, rfl, by omega, by omega⟩
  rw [if_neg (by omega)]
  by_cases surrogates : v / 4096 = 13
  · rw [if_pos (by omega), surrogates]
    exact ⟨_, _, rfl, by omega, by omega⟩
  rw [if_neg (by omega), if_pos (by omega)]
  refine ⟨0x80, 0xBF, ?_, by omega, by omega⟩
  simp only [Option.some.injEq, Prod.mk.injEq, and_true, true_and]
  omega

theorem leadByte_four (large : 0xFFFF < v) (small : v < 0x110000) : ∃ low high,
      leadByte (v / 262144 % 8 + 240) = some (3, v / 262144, low, high) ∧
      low ≤ v / 4096 % 64 + 128 ∧ v / 4096 % 64 + 128 ≤ high := by
  unfold leadByte
  rw [if_neg (by omega), if_neg (by omega), if_neg (by omega), if_neg (by omega)]
  by_cases zero : v / 262144 = 0
  · rw [if_pos (by omega), zero]
    exact ⟨_, _, rfl, by omega, by omega⟩
  rw [if_neg (by omega)]
  by_cases last : v / 262144 = 4
  · rw [if_neg (by omega), if_pos (by omega), last]
    exact ⟨_, _, rfl, by omega, by omega⟩
  rw [if_pos (by omega)]
  refine ⟨0x80, 0xBF, ?_, by omega, by omega⟩
  simp only [Option.some.injEq, Prod.mk.injEq, and_true, true_and]
  omega

theorem lossyFrom_encode (char : Char) (rest : Bytes) :
    lossyFrom (String.utf8EncodeChar char ++ rest) 0 0 0 0 = char :: lossyFrom rest 0 0 0 0 := by
  have valid : char.val.toNat < 0xD800 ∨ 0xDFFF < char.val.toNat ∧ char.val.toNat < 0x110000 :=
    char.valid
  have whole (code : Nat) (same : code = char.val.toNat) : Char.ofNat code = char := by
    rw [same]
    exact Char.ofNat_toNat char
  unfold String.utf8EncodeChar
  dsimp only
  generalize char.val.toNat = v at valid whole ⊢
  split
  · have byte := toNat_ofNat_byte v (by omega)
    rw [List.singleton_append, lossyFrom, if_neg (by omega), byte]
    simp only [if_true, List.nil_append, if_pos (show v < 0x80 by omega), whole v rfl]
  have last := toNat_ofNat_byte (v % 64 + 128) (by omega)
  split
  · have first := toNat_ofNat_byte (v / 64 % 32 + 192) (by omega)
    have lead : leadByte (v / 64 % 32 + 192) = some (1, v / 64, 0x80, 0xBF) := by
      rw [leadByte, if_pos (by omega)]
      simp only [Option.some.injEq, Prod.mk.injEq, and_true, true_and]
      omega
    rw [List.cons_append, List.singleton_append, lossyFrom_lead (by omega) (first ▸ lead),
      lossyFrom_last (by omega) (by omega), whole _ (by omega)]
  have third := toNat_ofNat_byte (v / 64 % 64 + 128) (by omega)
  split
  · have first := toNat_ofNat_byte (v / 4096 % 16 + 224) (by omega)
    obtain ⟨low, high, lead, above, below⟩ :=
      leadByte_three (v := v) (by omega) (by omega) (by omega)
    rw [List.cons_append, List.cons_append, List.singleton_append,
      lossyFrom_lead (by omega) (first ▸ lead), lossyFrom_more (by omega) (by omega),
      lossyFrom_last (by omega) (by omega), whole _ (by omega)]
  · have first := toNat_ofNat_byte (v / 262144 % 8 + 240) (by omega)
    have second := toNat_ofNat_byte (v / 4096 % 64 + 128) (by omega)
    obtain ⟨low, high, lead, above, below⟩ := leadByte_four (v := v) (by omega) (by omega)
    rw [List.cons_append, List.cons_append, List.cons_append, List.singleton_append,
      lossyFrom_lead (by omega) (first ▸ lead), lossyFrom_more (by omega) (by omega),
      lossyFrom_more (by omega) (by omega), lossyFrom_last (by omega) (by omega),
      whole _ (by omega)]

theorem fromUtf8Lossy_utf8 (text : String) : fromUtf8Lossy (utf8 text) = text := by
  obtain ⟨chars, rfl⟩ : ∃ chars, text = String.ofList chars := ⟨text.toList, by simp⟩
  rw [fromUtf8Lossy, utf8_ofList]
  congr 1
  induction chars with
  | nil => rfl
  | cons char chars ih => rw [List.flatMap_cons, lossyFrom_encode, ih]

end Wire
