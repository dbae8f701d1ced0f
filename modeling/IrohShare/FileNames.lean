import IrohShare.ReceiverProofs
import IrohShare.Sender

/-! A file's name from end to end: the last component of the sender's path is offered,
and the last component of what is offered is the name the receiver saves under. -/
namespace IrohShare
open Wire Unix Transition

structure Metadata where
  isFile : Bool
  len : UInt64
  deriving DecidableEq, Repr

structure Tag where
  hash : Hash
  format : BlobFormat
  deriving DecidableEq, Repr

/-- What the file system and the blob store answer while an offer is prepared. -/
structure Answers where
  absolute : Except Error PathBuf
  metadata : Except Error Metadata
  addPath : Except Error Tag

def Offer.new (filename : String) (filesize : UInt64) (ticket : BlobTicket) : Offer :=
  { filename, filesize, ticket }

/-- `file_name` of the path, when it is text. -/
def safeName (filename : String) : Except Error String :=
  context ((PathBuf.fileName ⟨utf8 filename⟩).bind fromUtf8) "invalid filename"

/-- `run_sender` up to its connection: the offer it is going to write. -/
def prepareOffer (endpointId : EndpointId) (filename : String) (answers : Answers) :
    Except Error Offer := do
  let safeName ← safeName filename
  let absPath ← answers.absolute
  let metadata ← answers.metadata
  ensure metadata.isFile s!"{absPath.toStringLossy} is not a regular file"
  let tag ← answers.addPath
  let ticket : BlobTicket := ⟨⟨endpointId, []⟩, tag.hash, tag.format⟩
  return Offer.new safeName metadata.len ticket

theorem safeName_eq_ok : safeName filename = .ok name ↔
    PathBuf.fileName ⟨utf8 filename⟩ = some (utf8 name) := by
  rw [safeName, context_eq_ok, Option.bind_eq_some_iff]
  constructor
  · rintro ⟨bytes, found, decoded⟩
    rw [found, utf8_of_fromUtf8 decoded]
  · intro found
    exact ⟨utf8 name, found, fromUtf8_utf8 name⟩

theorem except_bind_eq_ok {first : Except Error α} {next : α → Except Error β} :
    (first >>= next) = .ok result ↔ ∃ value, first = .ok value ∧ next value = .ok result := by
  cases first with
  | error error => exact ⟨fun failed => (by cases failed), fun ⟨_, same, _⟩ => by cases same⟩
  | ok value => exact ⟨fun done => ⟨value, rfl, done⟩, fun ⟨_, same, done⟩ => by cases same; exact done⟩

theorem prepared_name (prepared : prepareOffer endpointId filename answers = .ok offer) :
    PathBuf.fileName ⟨utf8 filename⟩ = some (utf8 offer.filename) := by
  simp only [prepareOffer, except_bind_eq_ok] at prepared
  obtain ⟨name, named, _, _, _, _, _, _, _, _, done⟩ := prepared
  cases done
  exact safeName_eq_ok.mp named

/-- The receiver saves under this name, byte for byte, in the folder the user chooses. -/
structure KeepsName (name : Bytes) (downloadDir : PathBuf) (received : Offer) : Prop where
  shown : utf8 received.filename = name
  stable : PathBuf.fileName ⟨utf8 received.filename⟩ = some name
  target : targetOf downloadDir received = some (downloadDir.join ⟨name⟩)
  extends_dir : (downloadDir.join ⟨name⟩).components = downloadDir.components ++ [.normal name]
  starts : download downloadDir received =
    .downloading received (downloadDir.join ⟨name⟩) .checking

theorem keepsName_of_fileName (named : PathBuf.fileName path = some (utf8 received.filename)) :
    KeepsName (utf8 received.filename) downloadDir received := by
  have isName := PathBuf.isFileName_of_fileName named
  have stable := PathBuf.fileName_fileName isName
  have target : targetOf downloadDir received =
      some (downloadDir.join ⟨utf8 received.filename⟩) := by
    rw [targetOf, stable, Option.map_some]
  exact ⟨rfl, stable, target, PathBuf.components_join _ isName, by rw [download, target]⟩

/-- Whatever path an honest sender is given, its offer is read back with the last
component of that path as its name, and the download saves under that name. -/
theorem honest_name_is_kept {toString : BlobTicket → String}
    (prepared : prepareOffer endpointId filename answers = .ok offer)
    (short : (utf8 offer.filename).length ≤ 255)
    (undoes : parse (toString offer.ticket) = some offer.ticket)
    (sent : offer.writeTo toString ⟨[], false, budget⟩ = (.ok (), stream)) :
    ∃ name, PathBuf.fileName ⟨utf8 filename⟩ = some name ∧
      ((utf8 (toString offer.ticket)).length ≤ 4096 →
        Offer.decode parse stream.written = .ok offer) ∧
      ∀ received downloadDir, Offer.decode parse stream.written = .ok received →
        KeepsName name downloadDir received := by
  have named := prepared_name prepared
  refine ⟨utf8 offer.filename, named, fun fits => ?_, fun received downloadDir read => ?_⟩
  · obtain ⟨_, written⟩ := writeTo_eq_ok sent
    rw [written, List.nil_append]
    exact decode_encode undoes fits short
  · obtain rfl := decode_written undoes sent read
    exact keepsName_of_fileName named

/-- A path with dots and repeated slashes, and a store that hashes any file alike. -/
def samplePath : String := "/home/ada//drafts/../notes.txt/."

def sampleAnswers : Answers :=
  ⟨.ok ⟨utf8 samplePath⟩, .ok ⟨true, 12⟩, .ok ⟨sampleTicket.hash, .raw⟩⟩

theorem honest_name_is_kept_sample : ∃ name,
    PathBuf.fileName ⟨utf8 samplePath⟩ = some name ∧
      ((utf8 sampleText).length ≤ 4096 →
        Offer.decode sampleParse ((⟨"notes.txt", 12, sampleTicket⟩ : Offer).encode sampleText) =
          .ok ⟨"notes.txt", 12, sampleTicket⟩) ∧
      ∀ received downloadDir,
        Offer.decode sampleParse ((⟨"notes.txt", 12, sampleTicket⟩ : Offer).encode sampleText) =
          .ok received → KeepsName name downloadDir received := by
  have prepared : prepareOffer sampleTicket.addr.id samplePath sampleAnswers =
      .ok ⟨"notes.txt", 12, sampleTicket⟩ := by decide +kernel
  have sent : (⟨"notes.txt", 12, sampleTicket⟩ : Offer).writeTo sampleToString ⟨[], false, none⟩ =
      (.ok (), ⟨(⟨"notes.txt", 12, sampleTicket⟩ : Offer).encode sampleText, true, none⟩) :=
    writeTo_accepts (by decide +kernel) []
  exact honest_name_is_kept prepared (by decide +kernel) (by decide +kernel) sent

end IrohShare
