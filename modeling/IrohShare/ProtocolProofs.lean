import IrohShare.Protocol

/-! The offer codec. Both sides are measured against one byte grammar; the
limits they check on the name separately do not coincide. -/
namespace IrohShare
open Wire Reader

variable {parse : String → Option BlobTicket} {toString : BlobTicket → String} {offer : Offer}

/-- The offer with this ticket text: a length-prefixed name, the size, and the
text up to the end of the stream. -/
def Offer.encode (offer : Offer) (text : String) : Bytes :=
  u16Bytes (utf8 offer.filename).length.toUInt16 ++
    (utf8 offer.filename ++ (u64Bytes offer.filesize ++ utf8 text))

/-- The streams `read_from` accepts, and the offer each stands for. -/
def Offer.Encodes (parse : String → Option BlobTicket) (offer : Offer) (bytes : Bytes) : Prop :=
  ∃ text, parse text = some offer.ticket ∧ (utf8 text).length ≤ 4096 ∧
    (utf8 offer.filename).length ≤ 255 ∧ bytes = offer.encode text

theorem ensure_eq_ok : ensure condition text = .ok value ↔ condition = true := by
  cases condition <;> simp [ensure]

theorem context_eq_ok {found : Option α} : context found text = .ok value ↔ found = some value := by
  cases found <;> simp [context]

theorem readFrom_eq_ok : Offer.readFrom parse bytes = .ok (offer, rest) ↔
    rest = [] ∧ offer.Encodes parse bytes := by
  simp only [Offer.readFrom, bind_eq_ok, pure_eq_ok, lift_eq_ok, readU16_eq_ok, readU64_eq_ok,
    readExact_eq_ok, readToEnd_eq_ok, ensure_eq_ok, context_eq_ok, decide_eq_true_eq]
  constructor
  · rintro ⟨len, _, rfl, _, _, ⟨bound, rfl⟩, name, _, ⟨size, rfl⟩, filename, _, ⟨decoded, rfl⟩,
      filesize, _, rfl, raw, _, ⟨fits, rfl, rfl⟩, text, _, ⟨decodedText, rfl⟩, ticket, _,
      ⟨parsed, rfl⟩, rfl, rfl⟩
    obtain rfl := utf8_of_fromUtf8 decoded
    obtain rfl := utf8_of_fromUtf8 decodedText
    refine ⟨rfl, text, parsed, fits, size ▸ bound, ?_⟩
    simp [Offer.encode, size]
  · rintro ⟨rfl, text, parsed, fits, bound, rfl⟩
    have exact : (utf8 offer.filename).length.toUInt16.toNat = (utf8 offer.filename).length :=
      UInt16.toNat_ofNat'.trans (Nat.mod_eq_of_lt (by omega))
    refine ⟨_, _, rfl, (), _, ⟨exact.le.trans bound, rfl⟩, utf8 offer.filename, _, ⟨exact.symm, rfl⟩,
      offer.filename, _, ⟨fromUtf8_utf8 _, rfl⟩, offer.filesize, _, rfl, utf8 text, [],
      ⟨fits, rfl, rfl⟩, text, [], ⟨fromUtf8_utf8 _, rfl⟩, offer.ticket, [], ⟨parsed, rfl⟩, rfl, rfl⟩

/-- Exactly the grammar is accepted, and every byte of the stream is used. -/
theorem decode_eq_ok : Offer.decode parse bytes = .ok offer ↔ offer.Encodes parse bytes := by
  have consumed : Offer.decode parse bytes = .ok offer ↔
      ∃ rest, Offer.readFrom parse bytes = .ok (offer, rest) := by
    simp only [Offer.decode, StateT.run', Functor.map, Except.map]
    cases Offer.readFrom parse bytes with
    | error error => simp
    | ok read =>
      obtain ⟨read, rest⟩ := read
      simp
  rw [consumed]
  simp [readFrom_eq_ok]

theorem decode_encode (undoes : parse (toString offer.ticket) = some offer.ticket)
    (fits : (utf8 (toString offer.ticket)).length ≤ 4096)
    (bound : (utf8 offer.filename).length ≤ 255) :
    Offer.decode parse (offer.encode (toString offer.ticket)) = .ok offer :=
  decode_eq_ok.mpr ⟨_, undoes, fits, bound, rfl⟩

/-- The encoding determines the fields, as long as the name length fits its prefix. -/
theorem encode_injective {first second : Offer} {text text' : String}
    (short : (utf8 first.filename).length < 65536)
    (short' : (utf8 second.filename).length < 65536)
    (same : first.encode text = second.encode text') :
    first.filename = second.filename ∧ first.filesize = second.filesize ∧ text = text' := by
  obtain ⟨len, rest⟩ := List.append_inj same (by simp)
  have lengths : (utf8 first.filename).length = (utf8 second.filename).length := by
    have := congrArg UInt16.toNat (u16Bytes_injective len)
    simpa only [Nat.toUInt16_eq, UInt16.toNat_ofNat', Nat.mod_eq_of_lt short,
      Nat.mod_eq_of_lt short'] using this
  obtain ⟨name, rest⟩ := List.append_inj rest lengths
  obtain ⟨size, ticket⟩ := List.append_inj rest (by simp)
  exact ⟨utf8_injective name, u64Bytes_injective size, utf8_injective ticket⟩

namespace Writer

theorem bind_run {first : Writer α} {next : α → Writer β} : (first >>= next) stream =
    match first stream with
    | (.ok value, after) => next value after
    | (.error error, after) => (.error error, after) := by
  simp only [bind, ExceptT.bind, ExceptT.bindCont, ExceptT.mk, StateT.bind]
  rcases first stream with ⟨_ | _, _⟩ <;> rfl

theorem lift_run {action : Except Error α} {stream : SendStream} :
    (liftM action : Writer α) stream = (action, stream) := by
  cases action <;> rfl

theorem lift_eq_ok {action : Except Error α} :
    (liftM action : Writer α) stream = (.ok value, after) ↔ action = .ok value ∧ stream = after := by
  rw [lift_run]
  constructor
  · intro done
    exact ⟨congrArg Prod.fst done, congrArg Prod.snd done⟩
  · rintro ⟨rfl, rfl⟩
    rfl

theorem writeAll_eq_ok (done : writeAll bytes stream = (.ok (), after)) :
    after.written = stream.written ++ bytes ∧ after.finished = stream.finished := by
  unfold writeAll at done
  split at done
  · cases done; simp
  · split at done
    · cases done; simp
    · cases done

theorem bind_eq_ok {first : Writer α} {next : α → Writer β} :
    (first >>= next) stream = (.ok value, after) ↔
      ∃ mid between, first stream = (.ok mid, between) ∧ next mid between = (.ok value, after) := by
  rw [bind_run]
  constructor
  · intro done
    split at done
    · rename_i mid between ran
      exact ⟨mid, between, ran, done⟩
    · cases done
  · rintro ⟨mid, between, ran, done⟩
    simp only [ran, done]

end Writer

theorem writeTo_rejects (long : 65536 ≤ (utf8 offer.filename).length) :
    offer.writeTo toString stream = (.error .tryFromInt, stream) := by
  have refused : u16TryFrom (utf8 offer.filename).length = .error .tryFromInt := by
    rw [u16TryFrom, if_neg (by omega)]
  simp only [Offer.writeTo, Writer.bind_run, Writer.lift_run, refused]

theorem u16TryFrom_eq_ok : u16TryFrom count = .ok value ↔ count < 65536 ∧ count.toUInt16 = value := by
  unfold u16TryFrom
  split <;> simp_all

theorem writeTo_eq_ok (done : offer.writeTo toString stream = (.ok (), after)) :
    (utf8 offer.filename).length < 65536 ∧
      after.written = stream.written ++ offer.encode (toString offer.ticket) := by
  simp only [Offer.writeTo, Writer.bind_eq_ok, Writer.lift_eq_ok, u16TryFrom_eq_ok] at done
  obtain ⟨_, _, ⟨⟨short, rfl⟩, rfl⟩, _, _, len, _, _, name, _, _, size, _, closing, ticket, last⟩ := done
  refine ⟨short, ?_⟩
  have closed : after.written = closing.written := by
    unfold finish at last
    split at last <;> cases last
    rfl
  rw [closed, (Writer.writeAll_eq_ok ticket).1, (Writer.writeAll_eq_ok size).1,
    (Writer.writeAll_eq_ok name).1, (Writer.writeAll_eq_ok len).1]
  simp only [Offer.encode, List.append_assoc]

/-- A stream that never fails takes every offer whose name length fits the prefix. -/
theorem writeTo_accepts (short : (utf8 offer.filename).length < 65536) (written : Bytes) :
    offer.writeTo toString ⟨written, false, none⟩ =
      (.ok (), ⟨written ++ offer.encode (toString offer.ticket), true, none⟩) := by
  have fits : u16TryFrom (utf8 offer.filename).length =
      .ok (utf8 offer.filename).length.toUInt16 := u16TryFrom_eq_ok.mpr ⟨short, rfl⟩
  simp only [Offer.writeTo, Writer.bind_run, Writer.lift_run, fits, writeU16, writeU64, writeAll,
    finish, Offer.encode, List.append_assoc, Bool.false_eq_true, if_false]

/-- The receiver may account for a status byte by byte. -/
theorem DownloadStatus.writeTo_bytes (status : DownloadStatus) (stream : SendStream)
    (unlimited : stream.budget = none) :
    status.writeTo stream = (.ok (), { stream with written := stream.written ++ status.bytes }) := by
  cases status <;>
    simp [DownloadStatus.writeTo, DownloadStatus.bytes, Writer.bind_run, writeU8, writeU64,
      writeAll, unlimited]

theorem DownloadStatus.readFrom_cons (byte : UInt8) (rest : Bytes) :
    DownloadStatus.readFrom (byte :: rest) =
      if byte = 2 then (if 8 ≤ rest.length then
          .ok (.progress (fromBigEndian (rest.take 8)).toUInt64, rest.drop 8)
        else .error .unexpectedEof)
      else if byte = 3 then .ok (.completed, rest)
      else if byte = 4 then .ok (.failed, rest)
      else .error (.message s!"invalid download status: {byte}") := by
  have first : readU8 Error.unexpectedEof (byte :: rest) = .ok (byte, rest) := readU8_eq_ok.mpr rfl
  simp only [DownloadStatus.readFrom, Reader.bind_run, first]
  split
  · simp only [Reader.bind_run, readU64_run]
    by_cases enough : 8 ≤ rest.length
    · simp only [if_pos enough]
      rfl
    · simp only [if_neg enough]
  · split
    · rfl
    · split <;> rfl

/-- A status is read back from its own bytes, and from no others. -/
theorem DownloadStatus.readFrom_eq_ok :
    DownloadStatus.readFrom stream = .ok (status, rest) ↔ stream = status.bytes ++ rest := by
  constructor
  · intro read
    cases stream with
    | nil => cases read
    | cons byte more =>
      rw [readFrom_cons] at read
      split at read
      · rename_i two
        split at read <;> cases read
        rename_i enough
        have size : (more.take 8).length = 8 := List.length_take_of_le enough
        rw [two, bytes, u64Bytes_of_u64 size, List.cons_append, List.take_append_drop]
      · split at read
        · rename_i three
          cases read
          rw [three]
          rfl
        · split at read <;> cases read
          rename_i four
          rw [four]
          rfl
  · rintro rfl
    cases status with
    | progress downloaded =>
      have size := u64Bytes_length downloaded
      rw [bytes, List.cons_append, readFrom_cons, if_pos rfl, if_pos (by simp [size]),
        List.take_left' size, List.drop_left' size, u64_of_u64Bytes]
    | completed | failed => rfl

/-- Reading what `write_to` wrote yields that offer or nothing. -/
theorem decode_written (undoes : parse (toString offer.ticket) = some offer.ticket)
    (sent : offer.writeTo toString ⟨[], false, budget⟩ = (.ok (), after))
    (read : Offer.decode parse after.written = .ok other) : other = offer := by
  obtain ⟨short, written⟩ := writeTo_eq_ok sent
  obtain ⟨text, parsed, _, bound, same⟩ := decode_eq_ok.mp read
  rw [written, List.nil_append] at same
  obtain ⟨filename, filesize, rfl⟩ := encode_injective short (by omega) same
  obtain ⟨_, _, ticket⟩ := other
  obtain rfl : offer.ticket = ticket := Option.some.inj (undoes.symm.trans parsed)
  cases offer
  simp_all

/-- What the sender's `write_to` puts on a fresh stream, `read_from` gets back;
and a rejected offer leaves nothing on a stream whose writes do not fail. -/
def Offer.Agrees (parse : String → Option BlobTicket) (toString : BlobTicket → String)
    (offer : Offer) : Prop :=
  (∀ budget after, offer.writeTo toString ⟨[], false, budget⟩ = (.ok (), after) →
    Offer.decode parse after.written = .ok offer) ∧
  ∀ error after, offer.writeTo toString ⟨[], false, none⟩ = (.error error, after) →
    after.written = []

/-- The encoder takes names up to the range of the length prefix, the decoder only
up to 255 bytes: they agree on every offer but those between the two limits. -/
theorem offer_agrees_iff (undoes : parse (toString offer.ticket) = some offer.ticket)
    (fits : (utf8 (toString offer.ticket)).length ≤ 4096) :
    offer.Agrees parse toString ↔
      (utf8 offer.filename).length ≤ 255 ∨ 65536 ≤ (utf8 offer.filename).length := by
  constructor
  · rintro ⟨reads, _⟩
    by_cases short : (utf8 offer.filename).length < 65536
    · have read := reads none _ (writeTo_accepts short [])
      obtain ⟨text, parsed, textFits, bound, same⟩ := decode_eq_ok.mp read
      exact .inl bound
    · exact .inr (by omega)
  · intro limits
    constructor
    · intro budget after done
      obtain ⟨short, written⟩ := writeTo_eq_ok done
      rw [written, List.nil_append]
      exact decode_encode undoes fits (by omega)
    · intro error after failed
      by_cases short : (utf8 offer.filename).length < 65536
      · rw [writeTo_accepts short] at failed
        cases failed
      · rw [writeTo_rejects (by omega)] at failed
        cases failed
        rfl

/-- The offer grammar, field by field: a length of at most 255, a name of that many bytes
of UTF-8, the size, and up to the end of the stream the text of the ticket. -/
def Offer.Spells (parse : String → Option BlobTicket) (offer : Offer) (text : String)
    (bytes : Bytes) : Prop :=
  ∃ (length : UInt16) (name rest : Bytes),
    bytes = u16Bytes length ++ name ++ u64Bytes offer.filesize ++ rest ∧
    length.toNat ≤ 255 ∧ name.length = length.toNat ∧ fromUtf8 name = some offer.filename ∧
    rest.length ≤ 4096 ∧ fromUtf8 rest = some text ∧ parse text = some offer.ticket

theorem spells_iff : offer.Spells parse text bytes ↔
    parse text = some offer.ticket ∧ (utf8 text).length ≤ 4096 ∧
      (utf8 offer.filename).length ≤ 255 ∧ bytes = offer.encode text := by
  constructor
  · rintro ⟨length, name, rest, rfl, bound, size, named, fits, spelled, parsed⟩
    obtain rfl := utf8_of_fromUtf8 named
    obtain rfl := utf8_of_fromUtf8 spelled
    exact ⟨parsed, fits, size ▸ bound, by simp [Offer.encode, size]⟩
  · rintro ⟨parsed, fits, bound, rfl⟩
    have exact : (utf8 offer.filename).length.toUInt16.toNat = (utf8 offer.filename).length :=
      UInt16.toNat_ofNat'.trans (Nat.mod_eq_of_lt (by omega))
    exact ⟨_, utf8 offer.filename, utf8 text, by simp [Offer.encode], exact.le.trans bound,
      exact.symm, fromUtf8_utf8 _, fits, fromUtf8_utf8 _, parsed⟩

/-- `read_from` accepts the grammar and nothing else, to the last byte of the stream;
streams of one offer differ in the ticket's text only, and with the text `to_string`
gives it, the stream is the one `write_to` produces. -/
theorem read_from_accepts_grammar (parse : String → Option BlobTicket) :
    (∀ bytes (offer : Offer) rest, Offer.readFrom parse bytes = .ok (offer, rest) ↔
      rest = [] ∧ ∃ text, offer.Spells parse text bytes) ∧
    (∀ (offer : Offer) first second, Offer.decode parse first = .ok offer →
      Offer.decode parse second = .ok offer → ∃ front text text',
        first = front ++ utf8 text ∧ second = front ++ utf8 text' ∧
        parse text = some offer.ticket ∧ parse text' = some offer.ticket) ∧
    ∀ (toString : BlobTicket → String) (offer : Offer) bytes,
      offer.Spells parse (toString offer.ticket) bytes →
        offer.writeTo toString ⟨[], false, none⟩ = (.ok (), ⟨bytes, true, none⟩) := by
  refine ⟨?_, ?_, ?_⟩
  · intro bytes offer rest
    rw [readFrom_eq_ok]
    simp only [spells_iff, Offer.Encodes]
  · intro offer first second read read'
    obtain ⟨text, parsed, _, _, rfl⟩ := decode_eq_ok.mp read
    obtain ⟨text', parsed', _, _, rfl⟩ := decode_eq_ok.mp read'
    refine ⟨u16Bytes (utf8 offer.filename).length.toUInt16 ++ utf8 offer.filename ++
      u64Bytes offer.filesize, text, text', ?_, ?_, parsed, parsed'⟩ <;>
      simp only [Offer.encode, List.append_assoc]
  · intro toString offer bytes spelled
    obtain ⟨_, _, bound, rfl⟩ := spells_iff.mp spelled
    exact writeTo_accepts (by omega) []

/-- A ticket without direct addresses, and its text. -/
def sampleTicket : BlobTicket where
  addr := ⟨⟨0xae58ff8833241ac82d6ff7611046ed67b5072d142c588d0063e942d9a75502b6⟩, []⟩
  hash := ⟨0x0b84d358e4c8be6c38626b2182ff575818ba6bd3f4b90464994be14cb354a072⟩
  format := .raw

def sampleText : String :=
  "blobacxfr74igmsbvsbnn73wcecg5vt3kbzncqwfrdiampuufwnhkublmaaaaafyju2y4tel43bymjvsdax7k5mbrotl2p2lsbdetff6ctftksqhe"

def sampleToString (_ : BlobTicket) : String := sampleText

def sampleParse (text : String) : Option BlobTicket :=
  if text = sampleText then some sampleTicket else none

theorem offer_agrees_iff_sample :
    Offer.Agrees sampleParse sampleToString ⟨"notes.txt", 12, sampleTicket⟩ ↔
      (utf8 "notes.txt").length ≤ 255 ∨ 65536 ≤ (utf8 "notes.txt").length :=
  offer_agrees_iff (by decide +kernel) (by decide +kernel)

/-- A name of 128 two-byte characters is written but not read back. -/
theorem long_name_drifts :
    sampleParse (sampleToString sampleTicket) = some sampleTicket ∧
    (utf8 (sampleToString sampleTicket)).length ≤ 4096 ∧
    (∀ byte ∈ utf8 (sampleToString sampleTicket), byte < 128) ∧
    ¬ Offer.Agrees sampleParse sampleToString
      ⟨String.ofList (List.replicate 128 'é'), 12, sampleTicket⟩ := by
  have undoes : sampleParse (sampleToString sampleTicket) = some sampleTicket := by decide +kernel
  have fits : (utf8 (sampleToString sampleTicket)).length ≤ 4096 := by decide +kernel
  have size : (utf8 (String.ofList (List.replicate 128 'é'))).length = 256 := by decide +kernel
  refine ⟨undoes, fits, by decide +kernel, ?_⟩
  intro agrees
  rcases (offer_agrees_iff undoes fits).mp agrees with bound | bound <;>
    simp only [size] at bound <;> omega

end IrohShare
