import IrohShare.Ownership

/-! When the window says that a file was received: exactly which refreshes say so
too early, and which successful receives are reported. -/
namespace IrohShare
open Wire Unix Channel Transition

variable {env : Env} {files : List PathBuf} {past : List Action} {node : Node} {id : Nat}

theorem Saved.mono (saved : Saved log) (grown : ∀ event ∈ log, event ∈ longer) : Saved longer := by
  obtain ⟨hash, target, inside⟩ := saved
  exact ⟨hash, target, grown _ inside⟩

namespace Receiving

/-- A completed status is that of a handler that has exported its file. -/
def ShowsSaved (side : Receiving) : Prop :=
  ∀ status, side.status = some status → status.completedAt.isSome = true →
    ∃ offer id, owner side.log = some (offer, id) ∧ Saved (ownEvents id side.log)

/-- An unseen progress value reaches the size its offer claims before the export. -/
def Premature (side : Receiving) : Prop :=
  ∃ status offer id, side.status = some status ∧ status.completedAt = none ∧
    owner side.log = some (offer, id) ∧ side.progress.hasChanged side.seen = true ∧
    0 < offer.filesize ∧ offer.filesize ≤ side.progress.value ∧ ¬ Saved (ownEvents id side.log)

variable {side after : Receiving}

theorem ShowsSaved.frame (shows : side.ShowsSaved)
    (status : ∀ shown, after.status = some shown → side.status = some shown)
    (owned : owner after.log = owner side.log)
    (own : ∀ id, ∀ event ∈ ownEvents id side.log, event ∈ ownEvents id after.log) :
    after.ShowsSaved := by
  intro shown found complete
  obtain ⟨offer, id, accepted, saved⟩ := shows shown (status shown found) complete
  exact ⟨offer, id, owned.trans accepted, saved.mono (own id)⟩

theorem ShowsSaved.next (shows : side.ShowsSaved) (inv : side.StatusInv)
    (move : Move parse due side action after)
    (timely : ∀ input, action = .ui input → due = .refreshReceiveStatus → ¬ side.Premature) :
    after.ShowsSaved := by
  have own {entry : Entry} (id : Nat) : ∀ event ∈ ownEvents id side.log,
      event ∈ ownEvents id (entry :: side.log) := fun _ => ownEvents_subset
  cases move with
  | noted action entry quiet =>
      refine shows.frame (fun _ => id) ?_ own
      rw [owner_cons, (Entry.quiet_accepted quiet).1, Option.none_or]
  | handled | offered | posted => exact shows.frame (fun _ => id) (owner_cons _) own
  | asked | declined => exact shows.frame (fun _ => id) (owner_cons _) own
  | polled input status due shown changed =>
      intro later kept complete
      rw [ReceiveStatus.of_expire kept, ReceiveStatus.isSome_update] at complete
      obtain ⟨offer, id, owned, _, total⟩ := inv.owned status shown
      by_cases unfinished : status.completedAt = none
      · by_contra unsaved
        have reached : 0 < offer.filesize ∧ offer.filesize ≤ side.progress.value := by
          rw [← total]
          simpa [unfinished] using complete
        exact timely input rfl due ⟨status, offer, id, shown, unfinished, owned, changed,
          reached.1, reached.2, fun saved => unsaved ⟨offer, id, owned, saved⟩⟩
      · exact shows status shown (Option.isSome_iff_ne_none.mpr unfinished)
  | aged input status due shown =>
      refine shows.frame (fun later kept => ?_) rfl (fun _ _ => id)
      rw [ReceiveStatus.of_expire kept]
      exact shown
  | accepted =>
      intro status shown complete
      cases shown
      cases complete
  | idle | waited | connected | pulled | closed => exact shows

end Receiving

namespace Node

/-- The step is a refresh that completes the status before its file is exported. -/
def Premature (node : Node) (action : Action) : Prop :=
  (∃ input, action = .ui input) ∧ node.stage = .refreshReceiveStatus ∧ node.receiving.Premature

theorem step_refresh (due : node.stage = .refreshReceiveStatus)
    (stepped : node.step env (.ui input) = some after) :
    after.receiving = node.refreshReceiveStatus.receiving := by
  simp only [step] at stepped
  split at stepped <;> cases stepped
  simp only [ui, due]
  rfl

theorem refreshReceiveStatus_polled (shown : node.app.receiveStatus = some status)
    (changed : node.progress.hasChanged node.app.progressSeen = true) :
    node.refreshReceiveStatus.receiving = { node.receiving with
      seen := node.progress.version
      status := (status.update node.progress.value node.now).expire node.now } := by
  simp only [refreshReceiveStatus, shown, changed]
  rfl

theorem showsSaved_iff (inv : node.receiving.StatusInv) (shows : node.receiving.ShowsSaved)
    (stepped : node.step env action = some after) :
    after.receiving.ShowsSaved ↔ ¬ node.Premature action := by
  constructor
  · rintro showsAfter ⟨⟨input, rfl⟩, due, status, offer, id, shown, unfinished, owned, changed,
      positive, reached, unsaved⟩
    obtain ⟨other, otherId, owned', _, total⟩ := inv.owned status shown
    obtain ⟨rfl, rfl⟩ := Prod.mk.inj (Option.some.inj (owned.symm.trans owned'))
    rw [step_refresh due stepped, refreshReceiveStatus_polled shown changed] at showsAfter
    obtain ⟨same, sameId, owned', saved⟩ := showsAfter _ (ReceiveStatus.expire_update unfinished)
      (ReceiveStatus.isSome_update.mpr (.inr (by rw [total]; exact ⟨positive, reached⟩)))
    obtain ⟨rfl, rfl⟩ := Prod.mk.inj (Option.some.inj (owned.symm.trans owned'))
    exact unsaved saved
  · intro timely
    exact shows.next inv (step_receiving stepped) fun input same due premature =>
      timely ⟨⟨input, same⟩, due, premature⟩

end Node

/-- 'File received' is only shown for saved files, in every state of a run, exactly
when no refresh of the run is premature. -/
theorem received_shows_saved_iff (run : Run (Steps (Node.step env)) (.new files) past node) :
    (∀ earlier state, earlier <:+ past → Run (Steps (Node.step env)) (.new files) earlier state →
      state.receiving.ShowsSaved) ↔
    ∀ action earlier state, action :: earlier <:+ past →
      Run (Steps (Node.step env)) (.new files) earlier state → ¬ state.Premature action := by
  apply always_iff_guarded run (P := fun state => state.receiving.ShowsSaved)
  · intro status shown
    cases shown
  · intro past state action after run shows stepped
    exact Node.showsSaved_iff (Node.status_inv run) shows stepped

def sampleFetch (bytes : UInt64) : List Event :=
  [.decided (some (.accept sampleDir)), .wrote 1, .existed sampleTarget (some false),
    .opened sampleTicket.hash sampleTicket.addr.id true, .item (some (.progress bytes)),
    .published bytes true]

/-- The last byte has arrived, but nothing is exported yet when the window refreshes. -/
def sampleEarly : List Action :=
  sampleConnect 0 sampleOffer ++ sampleFrame sampleAccept ++
  (sampleFetch 12).map (.handler 0) ++ List.replicate 4 (.ui {})

theorem sampleEarly_run : ∃ node : Node,
    Run (Steps (Node.step sampleEnv)) (.new []) sampleEarly.reverse node ∧
    node.app.receiveStatus = some ⟨sampleOffer.filename, 12, 12, some 0⟩ ∧
    owner node.log = some (sampleOffer, 0) ∧
    ownEvents 0 node.log = (sampleReceive.take 3 ++ sampleFetch 12).reverse := by
  apply execute_reaches
  decide +kernel

theorem received_shows_saved_sample : ∃ node : Node,
    Run (Steps (Node.step sampleEnv)) (.new []) sampleEarly.reverse node ∧
    ((∀ earlier state, earlier <:+ sampleEarly.reverse →
      Run (Steps (Node.step sampleEnv)) (.new []) earlier state → state.receiving.ShowsSaved) ↔
    ∀ action earlier state, action :: earlier <:+ sampleEarly.reverse →
      Run (Steps (Node.step sampleEnv)) (.new []) earlier state → ¬ state.Premature action) := by
  obtain ⟨node, run, _⟩ := sampleEarly_run
  exact ⟨node, run, received_shows_saved_iff run⟩

theorem received_before_saved : ∃ node : Node,
    Run (Steps (Node.step sampleEnv)) (.new []) sampleEarly.reverse node ∧
    ¬ node.receiving.ShowsSaved := by
  obtain ⟨node, run, shown, owned, own⟩ := sampleEarly_run
  refine ⟨node, run, fun shows => ?_⟩
  obtain ⟨offer, id, owned', hash, target, inside⟩ := shows _ shown rfl
  obtain ⟨rfl, rfl⟩ := Prod.mk.inj (Option.some.inj (owned.symm.trans owned'))
  have inside : .exported hash target .saved ∈ ownEvents 0 node.log := inside
  rw [own] at inside
  simp [sampleReceive, sampleFetch] at inside

end IrohShare
