import IrohShare.Unix.Path
import IrohShare.Wire.Lossy

/-! The components of a path that is decoded lossily are those of the path, each decoded
by itself. -/
namespace Unix
open Wire

def Component.map (decode : Bytes → Bytes) : Component → Component
  | .normal name => .normal (decode name)
  | other => other

theorem lossy_eq_dot : lossy part = [dot] ↔ part = [dot] :=
  lossy_eq_ascii (by simp [dot])

theorem lossy_eq_dotDot : lossy part = [dot, dot] ↔ part = [dot, dot] :=
  lossy_eq_ascii (by simp [dot])

theorem lossy_eq_empty : lossy part = [] ↔ part = [] :=
  lossy_eq_ascii (by simp)

theorem component_lossy (part : Bytes) :
    component (lossy part) = (component part).map (Component.map lossy) := by
  unfold component
  simp only [lossy_eq_empty, lossy_eq_dot, lossy_eq_dotDot]
  split
  · rfl
  · split <;> rfl

theorem leading_lossy (first : Bytes) (rest : List Bytes) :
    leading (lossy first) (rest.map lossy) = (leading first rest).map (Component.map lossy) := by
  unfold leading
  simp only [lossy_eq_empty, lossy_eq_dot, List.map_eq_nil_iff, component_lossy]
  split
  · split <;> rfl
  · split
    · rfl
    · cases component first <;> rfl

namespace PathBuf

theorem components_lossy (bytes : Bytes) :
    components ⟨lossy bytes⟩ = (components ⟨bytes⟩).map (Component.map lossy) := by
  obtain ⟨first, rest, split⟩ := List.exists_cons_of_ne_nil (List.splitOn_ne_nil slash bytes)
  have decoded : (lossy bytes).splitOn slash = lossy first :: rest.map lossy := by
    rw [splitOn_lossy (by decide) (by decide), split, List.map_cons]
  rw [components_of_split decoded, components_of_split split, leading_lossy, List.map_append,
    List.filterMap_map, List.map_filterMap]
  congr 2
  funext part
  exact component_lossy part

/-- The last component of a path that is decoded lossily. -/
theorem fileName_lossy (bytes : Bytes) :
    fileName ⟨lossy bytes⟩ = (fileName ⟨bytes⟩).map lossy := by
  unfold fileName
  rw [components_lossy, List.getLast?_map]
  cases (components ⟨bytes⟩).getLast? with
  | none => rfl
  | some last => cases last <;> rfl

end PathBuf
end Unix
