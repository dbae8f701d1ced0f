import IrohShare.Sender
import IrohShare.ProtocolProofs

/-! The sender reads its reply stream one byte at a time; where the stream ends it
has found what the readers of `run_sender` find in the whole of it. -/
namespace IrohShare
open Wire

/-- `downloaded` on a reply stream that ends, with a window for its progress values:
those it publishes, and its result. -/
def downloaded (recv : Bytes) : List UInt64 × Except Error SendOutcome :=
  match _ : DownloadStatus.readFrom recv with
  | .ok (.progress bytes, rest) =>
    let later := downloaded rest
    (bytes :: later.1, later.2)
  | .ok (.completed, _) => ([], .ok .completed)
  | .ok (.failed, _) => ([], .error (.message "download failed"))
  | .error error => ([], .error error)
termination_by recv.length
decreasing_by
  rename_i read
  rw [DownloadStatus.readFrom_eq_ok.mp read]
  simp only [DownloadStatus.bytes, List.length_append, List.length_cons]
  omega

/-- `run_sender` on such a stream, once its offer is written. -/
def runSender (recv : Bytes) : List UInt64 × Except Error SendOutcome :=
  match transferDecision recv with
  | .ok (.accepted, rest) => downloaded rest
  | .ok (.declined, _) => ([], .ok .declined)
  | .error error => ([], .error error)

theorem transferDecision_cons (byte : UInt8) (rest : Bytes) :
    transferDecision (byte :: rest) = (DecisionStatus.tryFrom byte).map (·, rest) := by
  rw [transferDecision, Reader.readU8_eq_ok.mpr rfl]

namespace Sender

def settle : Sender → Sender
  | .publishing _ => .reading
  | state => state

def follow (state : Sender) (byte : UInt8) : Sender := (state.feed byte).settle

/-- Where a sender stands that has read these bytes and met no local failure. -/
def scan (bytes : Bytes) : Sender := bytes.foldl follow .deciding

theorem scan_append (first second : Bytes) :
    scan (first ++ second) = second.foldl follow (scan first) := List.foldl_append

theorem returned_absorbs (bytes : Bytes) (result : Except Error SendOutcome) :
    bytes.foldl follow (.returned result) = .returned result := by
  induction bytes with
  | nil => rfl
  | cons byte rest ih => exact ih

/-- Once everything read so far decides the result, later bytes do not change it. -/
theorem scan_prefix (done : scan first = .returned result) (longer : first <+: bytes) :
    scan bytes = .returned result := by
  obtain ⟨rest, rfl⟩ := longer
  rw [scan_append, done, returned_absorbs]

theorem counting_reads {rest : Bytes} (short : got.length + rest.length = 8) (more : rest ≠ []) :
    rest.foldl follow (.counting got) = .reading := by
  induction rest generalizing got with
  | nil => exact absurd rfl more
  | cons byte rest ih =>
    simp only [List.length_cons] at short
    rw [List.foldl_cons, follow, feed]
    split
    · have : rest = [] := List.eq_nil_of_length_eq_zero (by omega)
      subst this
      rfl
    · have : rest ≠ [] := by rintro rfl; simp at short; omega
      exact ih (by simp; omega) this

theorem progress_reads (bytes : UInt64) :
    (DownloadStatus.progress bytes).bytes.foldl follow .reading = .reading := by
  have size := u64Bytes_length bytes
  rw [DownloadStatus.bytes, List.foldl_cons]
  exact counting_reads (by simp [size]) (by rintro empty; simp [empty] at size)

/-- The result when the stream ends here. -/
def atEnd : Sender → Except Error SendOutcome
  | .deciding => .error (.message "accept byte was not received")
  | .returned result => result
  | _ => .error .unexpectedEof

theorem counting_stays {rest : Bytes} (short : got.length + rest.length < 8) :
    ∃ more, rest.foldl follow (.counting got) = .counting more := by
  induction rest generalizing got with
  | nil => exact ⟨got, rfl⟩
  | cons byte rest ih =>
    simp only [List.length_cons] at short
    rw [List.foldl_cons, follow, feed, if_neg (by omega)]
    exact ih (by simp; omega)

/-- What is no status ends the loop with the error of its reader. -/
theorem reading_fails (read : DownloadStatus.readFrom recv = .error error) :
    (recv.foldl follow .reading).atEnd = .error error := by
  cases recv with
  | nil => cases read; rfl
  | cons byte rest =>
    rw [DownloadStatus.readFrom_cons] at read
    rw [List.foldl_cons, follow, feed]
    split at read
    · rename_i two
      split at read <;> cases read
      have short : ([] : Bytes).length + rest.length < 8 := by simp; omega
      obtain ⟨more, stays⟩ := counting_stays short
      rw [if_pos two]
      exact congrArg atEnd stays
    · rename_i two
      split at read
      · cases read
      · rename_i three
        split at read <;> cases read
        rename_i four
        rw [if_neg two, if_neg three, if_neg four]
        exact congrArg atEnd (returned_absorbs rest _)

theorem reading_ends (recv : Bytes) : (recv.foldl follow .reading).atEnd = (downloaded recv).2 := by
  fun_induction downloaded recv with
  | case1 recv bytes rest read later ih =>
    rw [DownloadStatus.readFrom_eq_ok.mp read, List.foldl_append, progress_reads]
    exact ih
  | case2 recv rest read | case3 recv rest read =>
    rw [DownloadStatus.readFrom_eq_ok.mp read, List.foldl_append]
    exact congrArg atEnd (returned_absorbs rest _)
  | case4 recv error read => exact reading_fails read

/-- Byte by byte or record by record, the same result is read. -/
theorem scan_ends (recv : Bytes) : (scan recv).atEnd = (runSender recv).2 := by
  cases recv with
  | nil => rfl
  | cons byte rest =>
    rw [runSender, transferDecision_cons, scan, List.foldl_cons, follow, feed]
    cases decided : DecisionStatus.tryFrom byte with
    | error error => exact congrArg atEnd (returned_absorbs rest _)
    | ok status =>
      cases status with
      | accepted => exact reading_ends rest
      | declined => exact congrArg atEnd (returned_absorbs rest _)

end Sender
def progressRecords (values : List UInt64) : Bytes :=
  values.flatMap fun value => (DownloadStatus.progress value).bytes

/-- No complete progress record starts here. -/
def NoRecord (recv : Bytes) : Prop :=
  ∀ value rest, recv ≠ (DownloadStatus.progress value).bytes ++ rest

theorem progressRecords_cons : progressRecords (value :: values) ++ rest =
    (DownloadStatus.progress value).bytes ++ (progressRecords values ++ rest) := by
  simp only [progressRecords, List.flatMap_cons, List.append_assoc]

theorem downloaded_eq : downloaded recv =
    match DownloadStatus.readFrom recv with
    | .ok (.progress bytes, rest) => (bytes :: (downloaded rest).1, (downloaded rest).2)
    | .ok (.completed, _) => ([], .ok .completed)
    | .ok (.failed, _) => ([], .error (.message "download failed"))
    | .error error => ([], .error error) := by
  rw [downloaded]
  split <;> rename_i read <;> rw [read]

theorem downloaded_records (values : List UInt64) (rest : Bytes) :
    downloaded (progressRecords values ++ rest) =
      (values ++ (downloaded rest).1, (downloaded rest).2) := by
  induction values with
  | nil => rfl
  | cons value values ih =>
    rw [progressRecords_cons, downloaded_eq, DownloadStatus.readFrom_eq_ok.mpr rfl]
    dsimp only
    rw [ih, List.cons_append]

/-- Every complete record is published, and what follows them decides the result. -/
theorem downloaded_spec (recv : Bytes) : ∃ rest,
    recv = progressRecords (downloaded recv).1 ++ rest ∧ NoRecord rest ∧
      ((downloaded recv).2 = .ok .completed ↔ ∃ more, rest = 3 :: more) ∧
      (downloaded recv).2 ≠ .ok .declined := by
  fun_induction downloaded recv with
  | case1 recv bytes rest read later ih =>
    obtain ⟨more, same, none, completed, undeclined⟩ := ih
    refine ⟨more, ?_, none, completed, undeclined⟩
    rw [progressRecords_cons, ← same]
    exact DownloadStatus.readFrom_eq_ok.mp read
  | case2 recv rest read =>
    obtain rfl := DownloadStatus.readFrom_eq_ok.mp read
    refine ⟨_, rfl, ?_, ?_, by simp⟩
    · intro value more same
      cases same
    · simp
  | case3 recv rest read =>
    obtain rfl := DownloadStatus.readFrom_eq_ok.mp read
    refine ⟨_, rfl, ?_, ?_, by simp⟩
    · intro value more same
      cases same
    · simp
  | case4 recv error read =>
    refine ⟨recv, rfl, ?_, ?_, by simp⟩
    · intro value more same
      cases read.symm.trans (DownloadStatus.readFrom_eq_ok.mpr same)
    · simp only [reduceCtorEq, false_iff]
      rintro ⟨more, rfl⟩
      cases read

/-- The run of records is maximal, so there is only one. -/
theorem downloaded_values (none : NoRecord rest) :
    (downloaded (progressRecords values ++ rest)).1 = values := by
  obtain ⟨more, same, _⟩ := downloaded_spec rest
  rw [downloaded_records]
  cases found : (downloaded rest).1 with
  | nil => exact List.append_nil values
  | cons value later =>
    rw [found, progressRecords_cons] at same
    exact absurd same (none value _)

theorem runSender_cons (byte : UInt8) (recv : Bytes) : runSender (byte :: recv) =
    if byte = 0 then ([], .ok .declined)
    else if byte = 1 then downloaded recv
    else ([], .error (.message "invalid transfer status")) := by
  rw [runSender, transferDecision_cons, DecisionStatus.tryFrom]
  by_cases zero : byte = 0
  · rw [if_pos zero, if_pos zero]
    rfl
  · rw [if_neg zero, if_neg zero]
    by_cases one : byte = 1
    · rw [if_pos one, if_pos one]
      rfl
    · rw [if_neg one, if_neg one]
      rfl

/-- What an accepting handler writes when its download yields these values. -/
def reply (values : List UInt64) (status : DownloadStatus) : Writer Unit := do
  writeU8 DecisionStatus.accepted.toU8
  values.forM fun value => (DownloadStatus.progress value).writeTo
  status.writeTo

theorem records_written (values : List UInt64) (written : Bytes) :
    (values.forM fun value => (DownloadStatus.progress value).writeTo : Writer Unit)
      ⟨written, false, none⟩ = (.ok (), ⟨written ++ progressRecords values, false, none⟩) := by
  induction values generalizing written with
  | nil => simp [progressRecords]; rfl
  | cons value values ih =>
    have first : ((value :: values).forM fun value => (DownloadStatus.progress value).writeTo :
        Writer Unit) = (DownloadStatus.progress value).writeTo >>= fun _ =>
          values.forM fun value => (DownloadStatus.progress value).writeTo := rfl
    rw [first, Writer.bind_run, DownloadStatus.writeTo_bytes _ _ rfl]
    dsimp only
    rw [ih]
    simp only [progressRecords, List.flatMap_cons, List.append_assoc]

theorem reply_written (values : List UInt64) (status : DownloadStatus) :
    reply values status ⟨[], false, none⟩ =
      (.ok (), ⟨1 :: (progressRecords values ++ status.bytes), false, none⟩) := by
  have accepted : writeU8 DecisionStatus.accepted.toU8 ⟨[], false, none⟩ =
      (.ok (), ⟨[1], false, none⟩) := rfl
  rw [reply, Writer.bind_run, accepted]
  dsimp only
  rw [Writer.bind_run, records_written]
  dsimp only
  rw [DownloadStatus.writeTo_bytes _ _ rfl, List.singleton_append, List.cons_append]

/-- The values are those of the longest run of complete records after the byte 1. -/
def Reports (recv : Bytes) (values : List UInt64) : Prop :=
  values = [] ∧ recv.head? ≠ some 1 ∨
    ∃ rest, recv = 1 :: (progressRecords values ++ rest) ∧ NoRecord rest

theorem returns_declined_iff : (runSender recv).2 = .ok .declined ↔ recv.head? = some 0 := by
  cases recv with
  | nil => exact ⟨fun declined => (by cases declined), fun zero => (by cases zero)⟩
  | cons byte recv =>
    rw [runSender_cons, List.head?_cons, Option.some.injEq]
    split
    · rename_i zero
      exact ⟨fun _ => zero, fun _ => rfl⟩
    · rename_i nonzero
      refine ⟨fun declined => ?_, fun zero => absurd zero nonzero⟩
      split at declined
      · obtain ⟨_, _, _, _, undeclined⟩ := downloaded_spec recv
        exact absurd declined undeclined
      · cases declined

theorem returns_completed_iff : (runSender recv).2 = .ok .completed ↔
    ∃ values rest, recv = 1 :: (progressRecords values ++ 3 :: rest) := by
  constructor
  · intro completed
    cases recv with
    | nil => cases completed
    | cons byte recv =>
      rw [runSender_cons] at completed
      split at completed
      · cases completed
      · split at completed
        · rename_i one
          obtain ⟨rest, same, _, ended, _⟩ := downloaded_spec recv
          obtain ⟨more, rfl⟩ := ended.mp completed
          exact ⟨_, more, by rw [one, ← same]⟩
        · cases completed
  · rintro ⟨values, rest, rfl⟩
    have ended : DownloadStatus.readFrom (3 :: rest) = .ok (.completed, rest) :=
      DownloadStatus.readFrom_eq_ok.mpr rfl
    rw [runSender_cons, if_neg (by decide), if_pos rfl, downloaded_records, downloaded_eq, ended]

theorem publishes_iff : (runSender recv).1 = values ↔ Reports recv values := by
  constructor
  · rintro rfl
    cases recv with
    | nil => exact .inl ⟨rfl, by simp⟩
    | cons byte recv =>
      rw [runSender_cons]
      split
      · exact .inl ⟨rfl, by simp [*]⟩
      · split
        · rename_i one
          obtain ⟨rest, same, none, _⟩ := downloaded_spec recv
          exact .inr ⟨rest, by rw [one, ← same], none⟩
        · exact .inl ⟨rfl, by simp [*]⟩
  · rintro (⟨rfl, other⟩ | ⟨rest, rfl, none⟩)
    · cases recv with
      | nil => rfl
      | cons byte recv =>
        have other : byte ≠ 1 := by simpa using other
        rw [runSender_cons, if_neg other]
        split <;> rfl
    · rw [runSender_cons, if_neg (by decide), if_pos rfl]
      exact downloaded_values none

theorem reply_read (values : List UInt64) (status : DownloadStatus)
    (ended : downloaded status.bytes = ([], result)) :
    ∃ stream, reply values status ⟨[], false, none⟩ = (.ok (), stream) ∧
      runSender stream.written = (values, result) := by
  refine ⟨_, reply_written values status, ?_⟩
  rw [runSender_cons, if_neg (by decide), if_pos rfl, downloaded_records, ended, List.append_nil]

/-- On every reply stream that ends `run_sender` returns, with the result and the progress
values that the grammar of replies gives it; and it reads back what a receiver writes. -/
theorem run_sender_reads_replies :
    (∀ recv, (runSender recv).2 = .ok .declined ↔ recv.head? = some 0) ∧
    (∀ recv, (runSender recv).2 = .ok .completed ↔
      ∃ values rest, recv = 1 :: (progressRecords values ++ 3 :: rest)) ∧
    (∀ recv, recv.head? ≠ some 0 →
      (∀ values rest, recv ≠ 1 :: (progressRecords values ++ 3 :: rest)) →
        ∃ error, (runSender recv).2 = .error error) ∧
    (∀ recv values, (runSender recv).1 = values ↔ Reports recv values) ∧
    ∀ values, (∃ stream, reply values .completed ⟨[], false, none⟩ = (.ok (), stream) ∧
        runSender stream.written = (values, .ok .completed)) ∧
      ∃ stream, reply values .failed ⟨[], false, none⟩ = (.ok (), stream) ∧
        runSender stream.written = (values, .error (.message "download failed")) := by
  refine ⟨fun _ => returns_declined_iff, fun _ => returns_completed_iff, ?_,
    fun _ _ => publishes_iff, fun values => ⟨reply_read values .completed ?_,
      reply_read values .failed ?_⟩⟩
  · intro recv undeclined uncompleted
    cases result : (runSender recv).2 with
    | error error => exact ⟨error, rfl⟩
    | ok outcome =>
      cases outcome with
      | declined => exact absurd (returns_declined_iff.mp result) undeclined
      | completed =>
        obtain ⟨values, rest, same⟩ := returns_completed_iff.mp result
        exact absurd same (uncompleted values rest)
  · rw [downloaded_eq]
    rfl
  · rw [downloaded_eq]
    rfl

end IrohShare
