import IrohShare.Wire.Bytes

/-! Unix paths as byte strings, with the component parsing of the Rust standard
library: repeated and trailing separators and interior `.` vanish, `..` stays. -/
namespace Unix
open Wire

structure PathBuf where
  bytes : Bytes
  deriving DecidableEq, Repr

def slash : UInt8 := 0x2F

def dot : UInt8 := 0x2E

inductive Component where
  | rootDir
  | curDir
  | parentDir
  | normal (name : Bytes)
  deriving DecidableEq, Repr

/-- The component a part between separators stands for, if any. -/
def component (part : Bytes) : Option Component :=
  if part = [] ∨ part = [dot] then none
  else if part = [dot, dot] then some .parentDir
  else some (.normal part)

/-- Only the first part can be the root (nothing before the first separator)
or a `.` that is kept. -/
def leading (first : Bytes) (rest : List Bytes) : List Component :=
  if first = [] then (if rest = [] then [] else [.rootDir])
  else if first = [dot] then [.curDir]
  else (component first).toList

namespace PathBuf

def components (path : PathBuf) : List Component :=
  match path.bytes.splitOn slash with
  | [] => []
  | first :: rest => leading first rest ++ rest.filterMap component

def isAbsolute (path : PathBuf) : Bool := path.bytes.head? == some slash

def join (path other : PathBuf) : PathBuf :=
  if other.isAbsolute then other
  else if path.bytes = [] ∨ path.bytes.getLast? = some slash then ⟨path.bytes ++ other.bytes⟩
  else ⟨path.bytes ++ slash :: other.bytes⟩

def fileName (path : PathBuf) : Option Bytes :=
  match path.components.getLast? with
  | some (.normal name) => some name
  | _ => none

def parent (path : PathBuf) : Option (List Component) :=
  match path.components.getLast? with
  | none | some .rootDir => none
  | some _ => some path.components.dropLast

/-- `to_string_lossy`, which `display` prints as well. -/
def toStringLossy (path : PathBuf) : String := fromUtf8Lossy path.bytes

end PathBuf

/-- A part that names an entry of the directory it is joined to. -/
structure IsFileName (name : Bytes) : Prop where
  nonempty : name ≠ []
  noSlash : slash ∉ name
  notDot : name ≠ [dot]
  notDotDot : name ≠ [dot, dot]

@[simp] theorem component_nil : component [] = none := rfl

theorem component_normal (named : IsFileName name) : component name = some (.normal name) := by
  simp [component, named.nonempty, named.notDot, named.notDotDot]

theorem isFileName_of_component (noSlash : slash ∉ part)
    (parsed : component part = some (.normal name)) : IsFileName name := by
  unfold component at parsed
  split at parsed
  · contradiction
  · rename_i visible
    split at parsed
    · cases Option.some.inj parsed
    · rename_i notDotDot
      cases Option.some.inj parsed
      exact ⟨fun h => visible (.inl h), noSlash, fun h => visible (.inr h), notDotDot⟩

theorem noSlash_of_mem_splitOn {bytes part : Bytes} (inside : part ∈ bytes.splitOn slash) :
    slash ∉ part := by
  induction bytes generalizing part with
  | nil =>
    obtain rfl : part = [] := by simpa using inside
    simp
  | cons byte rest ih =>
    rw [List.splitOn_cons_eq_if_modifyHead] at inside
    split at inside
    · rcases List.mem_cons.mp inside with rfl | later
      · simp
      · exact ih later
    · rename_i different
      obtain ⟨first, more, split⟩ := List.exists_cons_of_ne_nil (List.splitOn_ne_nil slash rest)
      rw [split, List.modifyHead_cons, List.mem_cons] at inside
      rcases inside with rfl | later
      · have clean := ih (split ▸ List.mem_cons_self)
        intro member
        rcases List.mem_cons.mp member with same | inner
        · exact different (by simp [same])
        · exact clean inner
      · exact ih (split ▸ List.mem_cons_of_mem _ later)

namespace PathBuf

theorem components_of_split {path : PathBuf} (split : path.bytes.splitOn slash = first :: rest) :
    path.components = leading first rest ++ rest.filterMap component := by
  simp only [components, split]

theorem isFileName_of_mem {path : PathBuf} (inside : .normal name ∈ path.components) :
    IsFileName name := by
  unfold components at inside
  split at inside
  · contradiction
  · rename_i first rest split
    rcases List.mem_append.mp inside with front | later
    · have noSlash : slash ∉ first := noSlash_of_mem_splitOn (split ▸ List.mem_cons_self)
      unfold leading at front
      split at front
      · split at front <;> simp at front
      · split at front
        · simp at front
        · exact isFileName_of_component noSlash (Option.mem_toList.mp front)
    · obtain ⟨part, member, parsed⟩ := List.mem_filterMap.mp later
      exact isFileName_of_component
        (noSlash_of_mem_splitOn (split ▸ List.mem_cons_of_mem _ member)) parsed

theorem isFileName_of_fileName {path : PathBuf} (found : path.fileName = some name) :
    IsFileName name := by
  unfold fileName at found
  split at found
  · rename_i last
    cases Option.some.inj found
    exact isFileName_of_mem (List.mem_of_getLast? last)
  · contradiction

theorem components_fileName (named : IsFileName name) :
    components ⟨name⟩ = [.normal name] := by
  rw [components_of_split (List.splitOn_eq_singleton named.noSlash)]
  simp [leading, named.nonempty, named.notDot, component_normal named]

/-- Taking the file name of a file name changes nothing. -/
theorem fileName_fileName (named : IsFileName name) : fileName ⟨name⟩ = some name := by
  simp [fileName, components_fileName named]

theorem not_absolute (named : IsFileName name) : isAbsolute ⟨name⟩ = false := by
  cases name with
  | nil => exact absurd rfl named.nonempty
  | cons byte rest =>
    have : byte ≠ slash := fun h => named.noSlash (h ▸ List.mem_cons_self)
    simp [isAbsolute, this]

theorem leading_append {bytes : Bytes} (nonempty : bytes ≠ [])
    (split : bytes.splitOn slash = first :: rest) :
    leading first (rest ++ [name]) = leading first rest := by
  unfold leading
  split
  · rename_i empty
    cases rest with
    | nil =>
      have joined : [slash].intercalate (bytes.splitOn slash) = bytes :=
        List.intercalate_splitOn slash
      rw [split, empty] at joined
      exact absurd joined.symm nonempty
    | cons _ _ => rfl
  · rfl

/-- Joining a file name never replaces the directory: it extends it by exactly
that one component. -/
theorem components_join (path : PathBuf) (named : IsFileName name) :
    (path.join ⟨name⟩).components = path.components ++ [.normal name] := by
  have single := List.splitOn_eq_singleton named.noSlash
  obtain ⟨bytes⟩ := path
  simp only [join, not_absolute named, Bool.false_eq_true, if_false]
  split
  · rename_i ending
    rcases List.eq_nil_or_concat bytes with rfl | ⟨front, last, rfl⟩
    · simpa [components, leading] using components_fileName named
    · rw [List.concat_eq_append] at ending ⊢
      obtain rfl : last = slash := by simpa using ending
      obtain ⟨first, rest, split⟩ :=
        List.exists_cons_of_ne_nil (List.splitOn_ne_nil slash front)
      have joined : (front ++ [slash] ++ name).splitOn slash = first :: (rest ++ [name]) := by
        rw [List.append_assoc, List.singleton_append, List.splitOn_append_cons_self, split, single,
          List.cons_append]
      have alone : (front ++ [slash]).splitOn slash = first :: (rest ++ [[]]) := by
        rw [List.splitOn_append_cons_self, split, List.splitOn_nil, List.cons_append]
      rw [components_of_split joined, components_of_split alone]
      simp [leading, List.filterMap_cons, component_normal named]
  · rename_i ending
    have nonempty : bytes ≠ [] := fun h => ending (.inl h)
    obtain ⟨first, rest, split⟩ := List.exists_cons_of_ne_nil (List.splitOn_ne_nil slash bytes)
    have joined : (bytes ++ slash :: name).splitOn slash = first :: (rest ++ [name]) := by
      rw [List.splitOn_append_cons_self, split, single, List.cons_append]
    rw [components_of_split joined, components_of_split split, leading_append nonempty split]
    simp [component_normal named]

theorem prefix_join (path : PathBuf) (named : IsFileName name) :
    path.bytes <+: (path.join ⟨name⟩).bytes := by
  simp only [join, not_absolute named, Bool.false_eq_true, if_false]
  split <;> simp

theorem parent_join (path : PathBuf) (named : IsFileName name) :
    (path.join ⟨name⟩).parent = some path.components := by
  simp [parent, components_join path named]

theorem fileName_join (path : PathBuf) (named : IsFileName name) :
    (path.join ⟨name⟩).fileName = some name := by
  simp [fileName, components_join path named]

end PathBuf
end Unix
