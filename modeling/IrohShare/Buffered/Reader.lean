import Mathlib.Data.List.Basic

/-! Reading lines from a source that delivers chunks. A buffered reader pulls whole
chunks; one that is made for a single line takes what is behind the line with it. -/
namespace Buffered
variable {α : Type} [DecidableEq α] (delim : α)

/-- Up to and with the first delimiter, or everything. -/
def firstLine : List α → List α
  | [] => []
  | a :: rest => if a = delim then [a] else a :: firstLine rest

def afterLine : List α → List α
  | [] => []
  | a :: rest => if a = delim then rest else afterLine rest

def nthLine : Nat → List α → List α
  | 0, input => firstLine delim input
  | k + 1, input => nthLine k (afterLine delim input)

/-- A fresh reader reads one line: the line, and the chunks that it has not pulled. -/
def readUntil : List (List α) → List α × List (List α)
  | [] => ([], [])
  | chunk :: chunks =>
    if delim ∈ chunk then (firstLine delim chunk, chunks)
    else (chunk ++ (readUntil chunks).1, (readUntil chunks).2)

variable {delim}

theorem firstLine_afterLine (input : List α) :
    firstLine delim input ++ afterLine delim input = input := by
  induction input with
  | nil => rfl
  | cons a rest ih =>
    by_cases same : a = delim
    · simp [firstLine, afterLine, same]
    · simpa [firstLine, afterLine, same] using ih

theorem afterLine_suffix (input : List α) : afterLine delim input <:+ input :=
  ⟨firstLine delim input, firstLine_afterLine input⟩

theorem line_of_mem {front back : List α} (ends : delim ∈ front) :
    firstLine delim (front ++ back) = firstLine delim front ∧
      afterLine delim (front ++ back) = afterLine delim front ++ back := by
  induction front with
  | nil => cases ends
  | cons a front ih =>
    by_cases same : a = delim
    · simp [firstLine, afterLine, same]
    · have ends := (List.mem_cons.mp ends).resolve_left (Ne.symm same)
      simpa [firstLine, afterLine, same] using ih ends

theorem line_of_not_mem {front back : List α} (goesOn : delim ∉ front) :
    firstLine delim (front ++ back) = front ++ firstLine delim back ∧
      afterLine delim (front ++ back) = afterLine delim back := by
  induction front with
  | nil => exact ⟨rfl, rfl⟩
  | cons a front ih =>
    obtain ⟨different, goesOn⟩ : delim ≠ a ∧ delim ∉ front := by simpa using goesOn
    simpa [firstLine, afterLine, Ne.symm different] using ih goesOn

theorem mem_firstLine {input : List α} : delim ∈ firstLine delim input ↔ delim ∈ input := by
  induction input with
  | nil => exact Iff.rfl
  | cons a rest ih =>
    by_cases same : a = delim
    · simp [firstLine, same]
    · simp [firstLine, same, ih]

theorem afterLine_last {input : List α} (unended : delim ∉ input) : afterLine delim input = [] := by
  simpa [afterLine] using (@line_of_not_mem α _ delim input [] unended).2

/-- Each line of the input is the first line of what is left at some point. -/
theorem nthLine_suffix (k : Nat) (input : List α) :
    ∃ rest, rest <:+ input ∧ nthLine delim k input = firstLine delim rest := by
  induction k generalizing input with
  | zero => exact ⟨input, List.suffix_rfl, rfl⟩
  | succ k ih =>
    obtain ⟨rest, inside, line⟩ := ih (afterLine delim input)
    exact ⟨rest, inside.trans (afterLine_suffix input), line⟩

/-- However the input is cut, a reader gets its first line. -/
theorem readUntil_fst (chunks : List (List α)) :
    (readUntil delim chunks).1 = firstLine delim chunks.flatten := by
  induction chunks with
  | nil => rfl
  | cons chunk chunks ih =>
    rw [readUntil, List.flatten_cons]
    split
    · rename_i ends
      exact (line_of_mem ends).1.symm
    · rename_i goesOn
      rw [(line_of_not_mem goesOn).1, ih]

theorem readUntil_snd (chunks : List (List α)) :
    (readUntil delim chunks).2.flatten <:+ afterLine delim chunks.flatten := by
  induction chunks with
  | nil => exact List.suffix_rfl
  | cons chunk chunks ih =>
    rw [readUntil, List.flatten_cons]
    split
    · rename_i ends
      rw [(line_of_mem ends).2]
      exact List.suffix_append _ _
    · rename_i goesOn
      rw [(line_of_not_mem goesOn).2]
      exact ih

theorem readUntil_chunks (chunks : List (List α)) : (readUntil delim chunks).2 <:+ chunks := by
  induction chunks with
  | nil => exact List.suffix_rfl
  | cons chunk chunks ih =>
    rw [readUntil]
    split
    · exact List.suffix_cons _ _
    · exact ih.trans (List.suffix_cons _ _)

/-- A chunk that holds nothing behind a line leaves nothing to take away. -/
theorem afterLine_chunk {chunk : List α} (ends : delim ∈ chunk) (last : delim ∉ chunk.dropLast) :
    afterLine delim chunk = [] := by
  rcases List.eq_nil_or_concat chunk with rfl | ⟨front, a, rfl⟩
  · rfl
  · rw [List.concat_eq_append] at ends last ⊢
    rw [List.dropLast_concat] at last
    obtain rfl : delim = a := by simpa [last] using ends
    rw [(line_of_not_mem last).2]
    simp [afterLine]

/-- When no chunk goes on behind a line, no reader takes away more than its line. -/
theorem readUntil_exact {chunks : List (List α)} (apart : ∀ chunk ∈ chunks, delim ∉ chunk.dropLast) :
    (readUntil delim chunks).2.flatten = afterLine delim chunks.flatten := by
  induction chunks with
  | nil => rfl
  | cons chunk chunks ih =>
    rw [readUntil, List.flatten_cons]
    split
    · rename_i ends
      rw [(line_of_mem ends).2, afterLine_chunk ends (apart chunk (.head _)), List.nil_append]
    · rename_i goesOn
      rw [(line_of_not_mem goesOn).2]
      exact ih fun later inside => apart later (.tail _ inside)

end Buffered
