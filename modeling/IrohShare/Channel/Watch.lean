import Mathlib.Data.List.Basic

/-! A watch channel keeps only its latest value. Each receiver remembers the
version it has seen, so values published between two polls are conflated. -/
namespace Channel
variable {α : Type}

structure Watch (α : Type) where
  value : α
  version : Nat
  closed : Bool
  deriving DecidableEq, Repr

namespace Watch

def channel (initial : α) : Watch α := ⟨initial, 0, false⟩

/-- `send` and `send_replace` while a receiver exists. -/
def send (watch : Watch α) (value : α) : Watch α :=
  { watch with value, version := watch.version + 1 }

/-- `has_changed().unwrap_or(false)` of a receiver: an error (every sender is
gone) counts as unchanged. -/
def hasChanged (watch : Watch α) (seen : Nat) : Bool := !watch.closed && watch.version != seen

@[simp] theorem send_value (watch : Watch α) (value : α) : (watch.send value).value = value := rfl

@[simp] theorem send_version (watch : Watch α) (value : α) :
    (watch.send value).version = watch.version + 1 := rfl

@[simp] theorem send_closed (watch : Watch α) (value : α) :
    (watch.send value).closed = watch.closed := rfl

/-- A receiver that finds nothing new on an open channel has seen the latest value. -/
theorem version_of_unchanged {watch : Watch α} (isOpen : watch.closed = false)
    (unchanged : watch.hasChanged seen = false) : watch.version = seen := by
  simpa [hasChanged, isOpen] using unchanged

theorem closed_of_changed {watch : Watch α} (changed : watch.hasChanged seen = true) :
    watch.closed = false := by
  simp only [hasChanged, Bool.and_eq_true, Bool.not_eq_true'] at changed
  exact changed.1

end Watch
end Channel
