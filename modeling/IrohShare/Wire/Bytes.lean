import Mathlib.Data.List.Basic
import Mathlib.Tactic.Ring

/-! Byte streams: big-endian numbers of a fixed width, readers that consume a
finite stream from the front, and the UTF-8 bytes of a string. -/
namespace Wire

abbrev Bytes := List UInt8

/-- The `width` low-order bytes of `value`, most significant first. -/
def bigEndian : Nat → Nat → Bytes
  | 0, _ => []
  | width + 1, value => (value / 256 ^ width).toUInt8 :: bigEndian width value

def fromBigEndian : Bytes → Nat
  | [] => 0
  | byte :: rest => byte.toNat * 256 ^ rest.length + fromBigEndian rest

@[simp] theorem bigEndian_length (width value : Nat) : (bigEndian width value).length = width := by
  induction width with
  | zero => rfl
  | succ width ih => simp [bigEndian, ih]

theorem toUInt8_toNat (value : Nat) : value.toUInt8.toNat = value % 256 := UInt8.toNat_ofNat'

theorem fromBigEndian_lt (bytes : Bytes) : fromBigEndian bytes < 256 ^ bytes.length := by
  induction bytes with
  | nil => decide
  | cons byte rest ih =>
    have scaled : byte.toNat * 256 ^ rest.length ≤ 255 * 256 ^ rest.length :=
      Nat.mul_le_mul_right _ (Nat.le_of_lt_succ byte.toNat_lt)
    rw [fromBigEndian, List.length_cons, Nat.pow_succ]
    omega

theorem bigEndian_add_mul (width value high : Nat) :
    bigEndian width (high * 256 ^ width + value) = bigEndian width value := by
  have low : ∀ narrow, narrow ≤ width →
      bigEndian narrow (high * 256 ^ width + value) = bigEndian narrow value := by
    intro narrow
    induction narrow with
    | zero => intro _; rfl
    | succ narrow ih =>
      intro fits
      have split : 256 ^ width = 256 ^ narrow * (256 ^ (width - (narrow + 1)) * 256) := by
        rw [← Nat.pow_succ, ← Nat.pow_add]
        congr 1
        omega
      have byte : ((high * 256 ^ width + value) / 256 ^ narrow).toUInt8 =
          (value / 256 ^ narrow).toUInt8 := by
        apply UInt8.toNat_inj.mp
        rw [toUInt8_toNat, toUInt8_toNat, split, Nat.mul_left_comm,
          Nat.mul_add_div (Nat.pow_pos (by decide)), ← Nat.mul_assoc, Nat.mul_add_mod_self_right]
      rw [bigEndian, bigEndian, byte, ih (by omega)]
  exact low width le_rfl

theorem fromBigEndian_bigEndian (width value : Nat) :
    fromBigEndian (bigEndian width value) = value % 256 ^ width := by
  induction width with
  | zero => simp [bigEndian, fromBigEndian, Nat.mod_one]
  | succ width ih =>
    rw [bigEndian, fromBigEndian, ih, bigEndian_length, toUInt8_toNat, Nat.mod_pow_succ,
      Nat.mul_comm, Nat.add_comm]

theorem bigEndian_fromBigEndian (bytes : Bytes) :
    bigEndian bytes.length (fromBigEndian bytes) = bytes := by
  induction bytes with
  | nil => rfl
  | cons byte rest ih =>
    have head : (fromBigEndian (byte :: rest) / 256 ^ rest.length).toUInt8 = byte := by
      rw [fromBigEndian, Nat.mul_comm, Nat.mul_add_div (Nat.pow_pos (by decide)),
        Nat.div_eq_of_lt (fromBigEndian_lt rest), Nat.add_zero]
      simp
    rw [List.length_cons, bigEndian, head, fromBigEndian, bigEndian_add_mul, ih]

/-- A reader fails, or yields a value and what is left of the stream. -/
abbrev Reader (E : Type) := StateT Bytes (Except E)

section Readers
variable {E : Type} (eof : E)

/-- Exactly `count` bytes, or `eof` when the stream ends before. -/
def readExact (count : Nat) : Reader E Bytes := fun stream =>
  if count ≤ stream.length then .ok (stream.take count, stream.drop count) else .error eof

def readU8 : Reader E UInt8 := do
  return (fromBigEndian (← readExact eof 1)).toUInt8

def readU16 : Reader E UInt16 := do
  return (fromBigEndian (← readExact eof 2)).toUInt16

def readU64 : Reader E UInt64 := do
  return (fromBigEndian (← readExact eof 8)).toUInt64

/-- Everything up to the end of the stream, refused when longer than `limit`. -/
def readToEnd (tooLong : E) (limit : Nat) : Reader E Bytes := fun stream =>
  if stream.length ≤ limit then .ok (stream, []) else .error tooLong

end Readers

def u16Bytes (value : UInt16) : Bytes := bigEndian 2 value.toNat

def u64Bytes (value : UInt64) : Bytes := bigEndian 8 value.toNat

@[simp] theorem u16Bytes_length (value : UInt16) : (u16Bytes value).length = 2 := by
  simp [u16Bytes]

@[simp] theorem u64Bytes_length (value : UInt64) : (u64Bytes value).length = 8 := by
  simp [u64Bytes]

theorem u16_of_u16Bytes (value : UInt16) : (fromBigEndian (u16Bytes value)).toUInt16 = value := by
  apply UInt16.toNat_inj.mp
  rw [u16Bytes, fromBigEndian_bigEndian, Nat.toUInt16_eq, UInt16.toNat_ofNat']
  have := value.toNat_lt
  omega

theorem u64_of_u64Bytes (value : UInt64) : (fromBigEndian (u64Bytes value)).toUInt64 = value := by
  apply UInt64.toNat_inj.mp
  rw [u64Bytes, fromBigEndian_bigEndian, Nat.toUInt64_eq, UInt64.toNat_ofNat']
  have := value.toNat_lt
  omega

theorem u16Bytes_injective (same : u16Bytes first = u16Bytes second) : first = second := by
  rw [← u16_of_u16Bytes first, same, u16_of_u16Bytes]

theorem u64Bytes_injective (same : u64Bytes first = u64Bytes second) : first = second := by
  rw [← u64_of_u64Bytes first, same, u64_of_u64Bytes]

theorem u16Bytes_of_u16 {bytes : Bytes} (size : bytes.length = 2) :
    u16Bytes (fromBigEndian bytes).toUInt16 = bytes := by
  have bound := fromBigEndian_lt bytes
  rw [size] at bound
  have exact : (fromBigEndian bytes).toUInt16.toNat = fromBigEndian bytes :=
    UInt16.toNat_ofNat'.trans (Nat.mod_eq_of_lt bound)
  rw [u16Bytes, exact, ← size, bigEndian_fromBigEndian]

theorem u64Bytes_of_u64 {bytes : Bytes} (size : bytes.length = 8) :
    u64Bytes (fromBigEndian bytes).toUInt64 = bytes := by
  have bound := fromBigEndian_lt bytes
  rw [size] at bound
  have exact : (fromBigEndian bytes).toUInt64.toNat = fromBigEndian bytes :=
    UInt64.toNat_ofNat'.trans (Nat.mod_eq_of_lt bound)
  rw [u64Bytes, exact, ← size, bigEndian_fromBigEndian]

namespace Reader
variable {E : Type} {eof tooLong : E} {stream rest : Bytes}

theorem bind_run {reader : Reader E α} {next : α → Reader E β} : (reader >>= next) stream =
    match reader stream with
    | .ok (value, rest) => next value rest
    | .error error => .error error := by
  simp only [bind, StateT.bind, Except.bind]
  rcases reader stream with _ | ⟨_, _⟩ <;> rfl

theorem bind_eq_ok {reader : Reader E α} {next : α → Reader E β} :
    (reader >>= next) stream = .ok result ↔
      ∃ value rest, reader stream = .ok (value, rest) ∧ next value rest = .ok result := by
  rw [bind_run]
  cases reader stream with
  | error error => simp
  | ok read => exact ⟨fun done => ⟨read.1, read.2, rfl, done⟩, by rintro ⟨_, _, ⟨⟩, done⟩; exact done⟩

theorem pure_eq_ok {value : α} : (pure value : Reader E α) stream = .ok (result, rest) ↔
    value = result ∧ stream = rest := by
  change Except.ok (value, stream) = Except.ok (result, rest) ↔ _
  simp

theorem lift_eq_ok {action : Except E α} :
    (liftM action : Reader E α) stream = .ok (value, rest) ↔ action = .ok value ∧ stream = rest := by
  cases action <;>
    simp [liftM, monadLift, MonadLift.monadLift, StateT.lift, bind, Except.bind, pure, Except.pure]

theorem readExact_eq_ok {front : Bytes} : readExact eof count stream = .ok (front, rest) ↔
    front.length = count ∧ stream = front ++ rest := by
  unfold readExact
  split
  · rename_i enough
    simp only [Except.ok.injEq, Prod.mk.injEq]
    constructor
    · rintro ⟨rfl, rfl⟩
      exact ⟨List.length_take_of_le enough, (List.take_append_drop count stream).symm⟩
    · rintro ⟨rfl, rfl⟩
      simp
  · rename_i short
    simp only [reduceCtorEq, false_iff]
    rintro ⟨rfl, rfl⟩
    simp at short

theorem readU8_eq_ok : readU8 eof stream = .ok (value, rest) ↔ stream = value :: rest := by
  simp only [readU8, bind_eq_ok, pure_eq_ok, readExact_eq_ok]
  constructor
  · rintro ⟨front, _, ⟨size, rfl⟩, rfl, rfl⟩
    obtain ⟨byte, rfl⟩ := List.length_eq_one_iff.mp size
    simp [fromBigEndian]
  · rintro rfl
    exact ⟨[value], rest, ⟨rfl, rfl⟩, by simp [fromBigEndian], rfl⟩

theorem readU16_eq_ok : readU16 eof stream = .ok (value, rest) ↔ stream = u16Bytes value ++ rest := by
  simp only [readU16, bind_eq_ok, pure_eq_ok, readExact_eq_ok]
  constructor
  · rintro ⟨front, _, ⟨size, rfl⟩, rfl, rfl⟩
    rw [u16Bytes_of_u16 size]
  · rintro rfl
    exact ⟨u16Bytes value, rest, ⟨u16Bytes_length value, rfl⟩, u16_of_u16Bytes value, rfl⟩

theorem readU64_eq_ok : readU64 eof stream = .ok (value, rest) ↔ stream = u64Bytes value ++ rest := by
  simp only [readU64, bind_eq_ok, pure_eq_ok, readExact_eq_ok]
  constructor
  · rintro ⟨front, _, ⟨size, rfl⟩, rfl, rfl⟩
    rw [u64Bytes_of_u64 size]
  · rintro rfl
    exact ⟨u64Bytes value, rest, ⟨u64Bytes_length value, rfl⟩, u64_of_u64Bytes value, rfl⟩

theorem readU64_run : readU64 eof stream = if 8 ≤ stream.length then
    .ok ((fromBigEndian (stream.take 8)).toUInt64, stream.drop 8) else .error eof := by
  by_cases enough : 8 ≤ stream.length
  · simp only [readU64, bind_run, readExact, if_pos enough]
    rfl
  · simp only [readU64, bind_run, readExact, if_neg enough]

theorem readToEnd_eq_ok {front : Bytes} : readToEnd tooLong limit stream = .ok (front, rest) ↔
    front.length ≤ limit ∧ stream = front ∧ rest = [] := by
  unfold readToEnd
  split
  · rename_i fits
    simp only [Except.ok.injEq, Prod.mk.injEq]
    constructor
    · rintro ⟨rfl, rfl⟩
      exact ⟨fits, rfl, rfl⟩
    · rintro ⟨_, rfl, rfl⟩
      exact ⟨rfl, rfl⟩
  · rename_i long
    simp only [reduceCtorEq, false_iff]
    rintro ⟨fits, rfl, _⟩
    exact long fits

end Reader

def utf8 (text : String) : Bytes := text.toUTF8.data.toList

def fromUtf8 (bytes : Bytes) : Option String := String.fromUTF8? ⟨bytes.toArray⟩

@[simp] theorem fromUtf8_utf8 (text : String) : fromUtf8 (utf8 text) = some text := by
  have same : (⟨(utf8 text).toArray⟩ : ByteArray) = text.toByteArray := by
    simp only [utf8, Array.toArray_toList]
    rfl
  rw [fromUtf8, same, String.fromUTF8?, dif_pos text.isValidUTF8]
  rfl

theorem utf8_of_fromUtf8 (decoded : fromUtf8 bytes = some text) : utf8 text = bytes := by
  unfold fromUtf8 String.fromUTF8? at decoded
  split at decoded
  · rw [← Option.some.inj decoded]
    simp [utf8, String.fromUTF8]
  · contradiction

theorem utf8_cons (char : Char) (chars : List Char) :
    utf8 (String.ofList (char :: chars)) =
      String.utf8EncodeChar char ++ utf8 (String.ofList chars) := by
  change (String.ofList (char :: chars)).toByteArray.data.toList =
    String.utf8EncodeChar char ++ (String.ofList chars).toByteArray.data.toList
  rw [String.toByteArray_ofList, String.toByteArray_ofList, List.utf8Encode_cons,
    List.utf8Encode_singleton]
  simp

/-- A byte below 128 is the whole encoding of its character. -/
theorem utf8EncodeChar_ascii {byte : UInt8} (ascii : byte.toNat < 128)
    (inside : byte ∈ String.utf8EncodeChar char) : String.utf8EncodeChar char = [byte] := by
  have high (value : Nat) (large : 128 ≤ value) (fits : value < 256) :
      byte ≠ UInt8.ofNat value := by
    rintro rfl
    rw [UInt8.toNat_ofNat', Nat.mod_eq_of_lt fits] at ascii
    omega
  unfold String.utf8EncodeChar at inside ⊢
  dsimp only at inside ⊢
  split at inside
  · rename_i small
    rw [if_pos small, List.mem_singleton.mp inside]
  · -- every byte of a longer encoding carries a high bit
    exfalso
    split at inside
    · simp only [List.mem_cons, List.not_mem_nil, or_false] at inside
      rcases inside with same | same <;> exact high _ (by omega) (by omega) same
    · split at inside
      · simp only [List.mem_cons, List.not_mem_nil, or_false] at inside
        rcases inside with same | same | same <;> exact high _ (by omega) (by omega) same
      · simp only [List.mem_cons, List.not_mem_nil, or_false] at inside
        rcases inside with same | same | same | same <;>
          exact high _ (by omega) (by omega) same

/-- A lead byte of a multi-byte sequence: how many continuation bytes it needs,
its payload bits, and the range of the first continuation byte. -/
def leadByte (byte : Nat) : Option (Nat × Nat × Nat × Nat) :=
  if 0xC2 ≤ byte ∧ byte ≤ 0xDF then some (1, byte - 0xC0, 0x80, 0xBF)
  else if byte = 0xE0 then some (2, 0, 0xA0, 0xBF)
  else if byte = 0xED then some (2, 0x0D, 0x80, 0x9F)
  else if 0xE1 ≤ byte ∧ byte ≤ 0xEF then some (2, byte - 0xE0, 0x80, 0xBF)
  else if byte = 0xF0 then some (3, 0, 0x90, 0xBF)
  else if 0xF1 ≤ byte ∧ byte ≤ 0xF3 then some (3, byte - 0xF0, 0x80, 0xBF)
  else if byte = 0xF4 then some (3, 4, 0x80, 0x8F)
  else none

def replacement : Char := Char.ofNat 0xFFFD

/-- Lossy decoding with `need` continuation bytes outstanding: a maximal prefix of
a sequence that cannot go on becomes one replacement character. -/
def lossyFrom : Bytes → (need code low high : Nat) → List Char
  | [], need, _, _, _ => if need = 0 then [] else [replacement]
  | byte :: rest, need, code, low, high =>
    if 0 < need ∧ low ≤ byte.toNat ∧ byte.toNat ≤ high then
      let code := code * 64 + byte.toNat % 64
      if need = 1 then Char.ofNat code :: lossyFrom rest 0 0 0 0
      else lossyFrom rest (need - 1) code 0x80 0xBF
    else
      let broken := if need = 0 then [] else [replacement]
      if byte.toNat < 0x80 then broken ++ Char.ofNat byte.toNat :: lossyFrom rest 0 0 0 0
      else match leadByte byte.toNat with
        | none => broken ++ replacement :: lossyFrom rest 0 0 0 0
        | some (need, code, low, high) => broken ++ lossyFrom rest need code low high

def fromUtf8Lossy (bytes : Bytes) : String := String.ofList (lossyFrom bytes 0 0 0 0)

theorem utf8_injective (same : utf8 first = utf8 second) : first = second := by
  have decoded := congrArg fromUtf8 same
  simpa only [fromUtf8_utf8, Option.some.injEq] using decoded

end Wire
