import IrohShare.Cli
import IrohShare.ReceiverProofs

/-! Which line decides which offer: exactly when the decisions do not depend on how the
input arrives. -/
namespace IrohShare
open Wire Unix Buffered

variable {downloadDir : PathBuf} {requests : List OfferRequest} {chunks : List Bytes}

/-- The decision that a line stands for: a trimmed and lower-cased 'y' accepts. -/
def decides (downloadDir : PathBuf) (line : Bytes) : OfferDecision :=
  if answer line = .ok true then .accept downloadDir else .decline

/-- The k-th request is decided by the k-th line, and nothing goes wrong. -/
def ByLine (downloadDir : PathBuf) (requests : List OfferRequest) (input : Bytes)
    (outcome : List (Nat × OfferDecision) × Except Error Unit) : Prop :=
  outcome = (requests.mapIdx fun k request =>
    (request.2, decides downloadDir (nthLine newline k input)), .ok ())

/-- Every reading that starts somewhere in this input gives a valid line other than 'y'. -/
def Quiet (input : Bytes) : Prop :=
  ∀ rest, rest <:+ input → answer (firstLine newline rest) = .ok false

theorem utf8_line (text : String) : ∃ first rest : String,
    firstLine newline (utf8 text) = utf8 first ∧ afterLine newline (utf8 text) = utf8 rest := by
  obtain ⟨chars, rfl⟩ : ∃ chars, text = String.ofList chars := ⟨text.toList, by simp⟩
  induction chars with
  | nil => exact ⟨"", "", rfl, rfl⟩
  | cons char chars ih =>
    rw [utf8_cons]
    by_cases ends : newline ∈ String.utf8EncodeChar char
    · have whole := utf8EncodeChar_ascii (by decide) ends
      refine ⟨String.ofList [char], String.ofList chars, ?_, ?_⟩
      · rw [(line_of_mem ends).1, utf8_cons, whole]
        rfl
      · rw [(line_of_mem ends).2, whole]
        rfl
    · obtain ⟨first, rest, line, after⟩ := ih
      refine ⟨String.ofList (char :: first.toList), rest, ?_, ?_⟩
      · rw [(line_of_not_mem ends).1, utf8_cons, line]
        simp
      · rw [(line_of_not_mem ends).2, after]

theorem answer_utf8 (text : String) :
    answer (utf8 text) = .ok (decide (toAsciiLowercase (trim text) = "y")) := by
  rw [answer, fromUtf8_utf8]

theorem answer_nil : answer [] = .ok false := by
  decide +kernel

theorem ofAnswer_decides (answered : answer line = .ok accepted) :
    OfferDecision.ofAnswer downloadDir accepted = decides downloadDir line := by
  rw [decides, answered]
  cases accepted <;> simp [OfferDecision.ofAnswer]

theorem receive_cons (answered : answer (firstLine newline chunks.flatten) = .ok accepted) :
    receive downloadDir (request :: requests) chunks =
      ((request.2, .ofAnswer downloadDir accepted) ::
          (receive downloadDir requests (readUntil newline chunks).2).1,
        (receive downloadDir requests (readUntil newline chunks).2).2) := by
  obtain ⟨offer, reply⟩ := request
  rw [← readUntil_fst] at answered
  simp only [receive, confirm, answered]

theorem byLine_cons (rest : ByLine downloadDir requests (afterLine newline input)
    (receive downloadDir requests (readUntil newline chunks).2))
    (answered : answer (firstLine newline chunks.flatten) = .ok accepted)
    (whole : chunks.flatten = input) :
    ByLine downloadDir (request :: requests) input
      (receive downloadDir (request :: requests) chunks) := by
  rw [ByLine, receive_cons answered, rest, List.mapIdx_cons, ← whole]
  rw [ofAnswer_decides answered]
  rfl

/-- When no chunk goes on behind a line, each request gets its own line. -/
theorem receive_apart (text : String) (whole : chunks.flatten = utf8 text)
    (apart : ∀ chunk ∈ chunks, newline ∉ chunk.dropLast) :
    ByLine downloadDir requests (utf8 text) (receive downloadDir requests chunks) := by
  induction requests generalizing chunks text with
  | nil => rfl
  | cons request requests ih =>
    obtain ⟨first, rest, line, after⟩ := utf8_line text
    refine byLine_cons ?_ (by rw [whole, line, answer_utf8]) whole
    rw [after]
    refine ih rest ?_ fun chunk inside => apart chunk ((readUntil_chunks chunks).subset inside)
    rw [readUntil_exact apart, whole, after]

theorem receive_quiet (quiet : Quiet chunks.flatten) :
    receive downloadDir requests chunks = (requests.map fun request => (request.2, .decline), .ok ()) := by
  induction requests generalizing chunks with
  | nil => rfl
  | cons request requests ih =>
    have later : Quiet (readUntil newline chunks).2.flatten := fun rest inside =>
      quiet rest (inside.trans ((readUntil_snd chunks).trans (afterLine_suffix _)))
    rw [receive_cons (quiet _ List.suffix_rfl), ih later]
    rfl

theorem byLine_quiet (quiet : Quiet input) :
    ByLine downloadDir requests input (requests.map fun request => (request.2, .decline), .ok ()) := by
  have declines (k : Nat) : decides downloadDir (nthLine newline k input) = .decline := by
    obtain ⟨rest, inside, line⟩ := @nthLine_suffix _ _ newline k input
    rw [line, decides, quiet rest inside]
    rfl
  rw [ByLine]
  simp only [declines, Prod.mk.injEq, and_true]
  exact List.ext_getElem (by simp) (by simp)

theorem ByLine.second {first second : OfferRequest}
    (byLine : ByLine downloadDir (first :: second :: requests) input
      (receive downloadDir (first :: second :: requests) chunks)) :
    ∃ accepted, answer (firstLine newline (readUntil newline chunks).2.flatten) = .ok accepted ∧
      OfferDecision.ofAnswer downloadDir accepted =
        decides downloadDir (nthLine newline 1 input) := by
  rw [ByLine, List.mapIdx_cons, List.mapIdx_cons] at byLine
  cases answered : answer (firstLine newline chunks.flatten) with
  | error error =>
      obtain ⟨offer, reply⟩ := first
      rw [← readUntil_fst] at answered
      simp only [receive, confirm, answered] at byLine
      cases byLine
  | ok accepted =>
      rw [receive_cons answered] at byLine
      cases next : answer (firstLine newline (readUntil newline chunks).2.flatten) with
      | error error =>
          obtain ⟨offer, reply⟩ := second
          rw [← readUntil_fst] at next
          simp only [receive, confirm, next] at byLine
          cases congrArg Prod.snd byLine
      | ok accepted =>
          rw [receive_cons next] at byLine
          simp only [Prod.mk.injEq, List.cons.injEq, true_and] at byLine
          exact ⟨accepted, rfl, byLine.1.2.1⟩

/-- Two offers under every splitting of the input: what is behind the first line may be
taken away with it, up to any point. -/
theorem quiet_of_byLine {first second : OfferRequest} (text : String)
    (byLine : ∀ chunks, chunks.flatten = utf8 text → (∀ chunk ∈ chunks, chunk ≠ []) →
      ByLine downloadDir (first :: second :: requests) (utf8 text)
        (receive downloadDir (first :: second :: requests) chunks)) :
    Quiet (afterLine newline (utf8 text)) := by
  intro rest inside
  by_cases ends : newline ∈ utf8 text
  · -- the first reader takes everything in one chunk, so the second one is to decline
    have nonempty : utf8 text ≠ [] := List.ne_nil_of_mem ends
    obtain ⟨accepted, nothing, declines⟩ :=
      (byLine [utf8 text] (by simp) (by simpa using nonempty)).second
    rw [readUntil, if_pos ends] at nothing
    obtain rfl : accepted = false := (Except.ok.inj (answer_nil.symm.trans nothing)).symm
    by_cases empty : rest = []
    · subst empty
      exact answer_nil
    -- a cut right before `rest` gives the second reader its first line
    obtain ⟨front, split⟩ := inside
    have line := mem_firstLine.mpr ends
    have whole : firstLine newline (utf8 text) ++ front ++ rest = utf8 text := by
      rw [List.append_assoc, split, firstLine_afterLine]
    obtain ⟨accepted, answered, decision⟩ :=
      (byLine [firstLine newline (utf8 text) ++ front, rest] (by simpa using whole)
        (by simp [empty, List.ne_nil_of_mem line])).second
    rw [readUntil, if_pos (List.mem_append_left _ line)] at answered
    rw [← declines] at decision
    cases accepted with
    | true => cases decision
    | false => simpa using answered
  · rw [afterLine_last ends, List.suffix_nil] at inside
    subst inside
    exact answer_nil

/-- For every input, folder and requests: the k-th offer is decided by the k-th line under
every splitting exactly when there is at most one offer, or nothing behind the first line
can be read as anything but a decline. It also is when no chunk goes on behind a line. -/
theorem lines_decide_iff (downloadDir : PathBuf) (requests : List OfferRequest) (text : String) :
    ((∀ chunks, chunks.flatten = utf8 text → (∀ chunk ∈ chunks, chunk ≠ []) →
        ByLine downloadDir requests (utf8 text) (receive downloadDir requests chunks)) ↔
      requests.length ≤ 1 ∨ Quiet (afterLine newline (utf8 text))) ∧
    ∀ chunks, chunks.flatten = utf8 text → (∀ chunk ∈ chunks, newline ∉ chunk.dropLast) →
      ByLine downloadDir requests (utf8 text) (receive downloadDir requests chunks) := by
  refine ⟨⟨?_, ?_⟩, fun chunks whole apart => receive_apart text whole apart⟩
  · intro byLine
    cases requests with
    | nil => exact .inl (Nat.zero_le _)
    | cons first requests =>
      cases requests with
      | nil => exact .inl (Nat.le_refl _)
      | cons second requests => exact .inr (quiet_of_byLine text byLine)
  · intro few chunks whole _
    obtain ⟨first, rest, line, after⟩ := utf8_line text
    cases requests with
    | nil => rfl
    | cons request requests =>
      refine byLine_cons ?_ (by rw [whole, line, answer_utf8]) whole
      rcases few with few | quiet
      · obtain rfl : requests = [] := List.eq_nil_of_length_eq_zero (by simpa using few)
        rfl
      · rw [receive_quiet fun rest inside => quiet rest (inside.trans (whole ▸ readUntil_snd chunks))]
        exact byLine_quiet quiet

/-- Two lines 'y' that arrive in one chunk: the second offer is declined. -/
theorem second_answer_lost : ∃ requests chunks,
    chunks.flatten = utf8 "y\ny\n" ∧ (∀ chunk ∈ chunks, chunk ≠ []) ∧
    nthLine newline 1 (utf8 "y\ny\n") = utf8 "y\n" ∧
    receive sampleDir requests chunks =
      ([(0, .accept sampleDir), (1, .decline)], .ok ()) ∧
    ¬ ByLine sampleDir requests (utf8 "y\ny\n") (receive sampleDir requests chunks) := by
  refine ⟨[(sampleOffer, 0), (sampleOffer, 1)], [utf8 "y\ny\n"], by simp, by decide +kernel,
    by decide +kernel, by decide +kernel, ?_⟩
  rw [ByLine]
  decide +kernel

end IrohShare
