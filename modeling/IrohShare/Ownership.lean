import IrohShare.Approval

/-! Whose transfer the receive status shows: it is created for the request accepted
last, its owner, and filled with what any handler posted last. -/
namespace IrohShare
open Wire Unix Channel Transition

variable {env : Env} {files : List PathBuf} {past : List Action} {node : Node}
  {id : Nat} {log : List Entry}

/-- The request accepted last. -/
def owner (log : List Entry) : Option OfferRequest := log.findSome? Entry.accepted

/-- The progress value posted last, and the handler that posted it. -/
def lastPost (log : List Entry) : Option (Nat × UInt64) := log.findSome? Entry.posted

theorem owner_cons (entry : Entry) : owner (entry :: log) = entry.accepted.or (owner log) := by
  unfold owner
  rw [List.findSome?_cons]
  cases entry.accepted <;> rfl

theorem lastPost_cons (entry : Entry) :
    lastPost (entry :: log) = entry.posted.or (lastPost log) := by
  unfold lastPost
  rw [List.findSome?_cons]
  cases entry.posted <;> rfl

theorem Entry.quiet_accepted {entry : Entry} (quiet : entry.quiet = true) :
    entry.accepted = none ∧ entry.posted = none := by
  cases entry with
  | handler | modal => cases quiet
  | _ => exact ⟨rfl, rfl⟩

/-- What was posted last was posted by the handler that it is said to be from. -/
theorem lastPost_origin (posted : lastPost log = some (id, value)) :
    ∃ event ∈ ownEvents id log, event.posts = some value := by
  induction log with
  | nil => cases posted
  | cons entry log ih =>
    rw [lastPost_cons] at posted
    cases entry with
    | handler actor event =>
        cases posts : event.posts with
        | none =>
            simp only [Entry.posted, posts, Option.map_none, Option.none_or] at posted
            obtain ⟨event, inside, posts⟩ := ih posted
            exact ⟨event, ownEvents_subset inside, posts⟩
        | some bytes =>
            simp only [Entry.posted, posts, Option.map_some, Option.some_or, Option.some.injEq,
              Prod.mk.injEq] at posted
            obtain ⟨rfl, rfl⟩ := posted
            exact ⟨event, by simp, posts⟩
    | _ =>
        obtain ⟨event, inside, posts⟩ := ih posted
        exact ⟨event, ownEvents_subset inside, posts⟩

namespace ReceiveStatus

variable {status shown : ReceiveStatus}

theorem of_expire (expired : status.expire now = some shown) : shown = status := by
  unfold expire at expired
  split at expired <;> cases expired
  rfl

theorem expire_unfinished (unfinished : status.completedAt = none) :
    status.expire now = some status := by
  simp [expire, unfinished]

/-- A status that was unfinished is not cleared by the refresh that completes it. -/
theorem expire_update (unfinished : status.completedAt = none) :
    (status.update bytes now).expire now = some (status.update bytes now) := by
  simp only [expire, update, unfinished, Option.getD_none]
  split <;> simp

theorem isSome_update : (status.update bytes now).completedAt.isSome = true ↔
    status.completedAt.isSome = true ∨ 0 < status.total ∧ status.total ≤ bytes := by
  unfold update
  dsimp only
  split
  · simp [*]
  · simp [*]

end ReceiveStatus

namespace Receiving

structure StatusInv (side : Receiving) : Prop where
  owned : ∀ status, side.status = some status → ∃ offer id, owner side.log = some (offer, id) ∧
    status.filename = offer.filename ∧ status.total = offer.filesize
  latest : side.progress.value = (lastPost side.log).elim 0 Prod.snd

variable {side after : Receiving}

/-- A status is replaced by its refresh, by that of a new owner, or not at all. -/
theorem StatusInv.next (inv : side.StatusInv) (move : Move parse due side action after) :
    after.StatusInv := by
  cases move with
  | noted action entry quiet =>
      obtain ⟨unaccepted, unposted⟩ := Entry.quiet_accepted quiet
      constructor
      · simpa [owner_cons, unaccepted] using inv.owned
      · simpa [lastPost_cons, unposted] using inv.latest
  | handled id event connection next known moved answers silent =>
      constructor
      · simpa [Receiving.handle, owner_cons, Entry.accepted] using inv.owned
      · simpa [Receiving.handle, lastPost_cons, Entry.posted, silent] using inv.latest
  | offered =>
      constructor
      · simpa [Receiving.handle, owner_cons, Entry.accepted] using inv.owned
      · simpa [Receiving.handle, lastPost_cons, Entry.posted, Event.posts] using inv.latest
  | posted id event bytes connection next known moved posts =>
      constructor
      · simpa [Receiving.handle, owner_cons, Entry.accepted] using inv.owned
      · simp [Receiving.handle, lastPost_cons, Entry.posted, posts]
  | polled input status due shown =>
      refine ⟨fun other kept => ?_, inv.latest⟩
      rw [ReceiveStatus.of_expire kept]
      exact inv.owned status shown
  | aged input status due shown =>
      refine ⟨fun other kept => ?_, inv.latest⟩
      rw [ReceiveStatus.of_expire kept]
      exact inv.owned status shown
  | asked =>
      constructor
      · simpa [owner_cons, Entry.accepted] using inv.owned
      · simpa [lastPost_cons, Entry.posted] using inv.latest
  | declined =>
      constructor
      · simpa [owner_cons, Entry.accepted] using inv.owned
      · simpa [lastPost_cons, Entry.posted] using inv.latest
  | accepted input offer id =>
      constructor
      · intro status shown
        cases shown
        exact ⟨offer, id, rfl, rfl, rfl⟩
      · simpa [lastPost_cons, Entry.posted] using inv.latest
  | idle | waited | connected | pulled | closed => exact ⟨inv.owned, inv.latest⟩

end Receiving

theorem Node.status_inv (run : Run (Steps (Node.step env)) (.new files) past node) :
    node.receiving.StatusInv := by
  apply run.invariant (P := fun node => node.receiving.StatusInv)
  · refine ⟨fun status shown => ?_, rfl⟩
    cases shown
  · intro before action after inv stepped
    exact inv.next (Node.step_receiving stepped)

end IrohShare
