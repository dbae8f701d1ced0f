import IrohShare.Completion

/-! Whose progress the receive status shows. All handlers post to one watch channel,
so the status is its owner's as long as no refresh finds another handler's value. -/
namespace IrohShare
open Wire Unix Channel Transition

variable {env : Env} {files : List PathBuf} {past : List Action} {node : Node} {id : Nat}

namespace Receiving

/-- The status shows nothing, or a value that its owner's handler has posted. -/
def Attributed (side : Receiving) : Prop :=
  ∀ status, side.status = some status → status.downloaded = 0 ∨ ∃ offer id,
    owner side.log = some (offer, id) ∧
      ∃ event ∈ ownEvents id side.log, event.posts = some status.downloaded

/-- The unseen progress value was posted last by a handler that is not the owner. -/
def foreign (side : Receiving) : Bool :=
  match side.status, owner side.log, lastPost side.log with
  | some _, some (_, id), some (poster, _) =>
    side.progress.hasChanged side.seen && poster != id
  | _, _, _ => false

variable {side after : Receiving}

theorem Attributed.frame (attributed : side.Attributed) (status : after.status = side.status)
    (owned : owner after.log = owner side.log)
    (own : ∀ id, ∀ event ∈ ownEvents id side.log, event ∈ ownEvents id after.log) :
    after.Attributed := by
  intro shown found
  rcases attributed shown (status.symm.trans found) with zero | ⟨offer, id, accepted, event, inside, posts⟩
  · exact .inl zero
  · exact .inr ⟨offer, id, owned.trans accepted, event, own id event inside, posts⟩

theorem Attributed.next (attributed : side.Attributed) (inv : side.StatusInv)
    (move : Move parse due side action after)
    (own : ∀ input, action = .ui input → due = .refreshReceiveStatus → side.foreign = false) :
    after.Attributed := by
  have older {entry : Entry} (id : Nat) : ∀ event ∈ ownEvents id side.log,
      event ∈ ownEvents id (entry :: side.log) := fun _ => ownEvents_subset
  cases move with
  | noted action entry quiet =>
      refine attributed.frame rfl ?_ older
      rw [owner_cons, (Entry.quiet_accepted quiet).1, Option.none_or]
  | handled | offered | posted => exact attributed.frame rfl (owner_cons _) older
  | asked | declined => exact attributed.frame rfl (owner_cons _) older
  | polled input status due shown changed =>
      intro later kept
      rw [ReceiveStatus.of_expire kept]
      obtain ⟨offer, id, owned, _, _⟩ := inv.owned status shown
      have latest : side.progress.value = (lastPost side.log).elim 0 Prod.snd := inv.latest
      cases posted : lastPost side.log with
      | none =>
          rw [posted] at latest
          exact .inl latest
      | some post =>
          obtain ⟨poster, value⟩ := post
          rw [posted] at latest
          have here : poster = id := by
            simpa [foreign, shown, owned, posted, changed] using own input rfl due
          subst here
          obtain ⟨event, inside, posts⟩ := lastPost_origin posted
          exact .inr ⟨offer, poster, owned, event, inside, posts.trans (congrArg some latest.symm)⟩
  | aged input status due shown =>
      intro later kept
      rw [ReceiveStatus.of_expire kept]
      exact attributed status shown
  | accepted =>
      intro status shown
      cases shown
      exact .inl rfl
  | idle | waited | connected | pulled | closed => exact attributed

end Receiving

/-- The step is a refresh that finds another transfer's progress. -/
def Node.pollsForeign (node : Node) : Action → Bool
  | .ui _ => node.stage = .refreshReceiveStatus && node.receiving.foreign
  | _ => false

/-- In every run whose refreshes only find progress of the owner, every status shows
its owner's progress. -/
theorem progress_is_attributed
    (run : Run (Guarded (fun node action => !Node.pollsForeign node action)
      (Steps (Node.step env))) (.new files) past node) : node.receiving.Attributed := by
  apply run.history (P := fun _ node => node.receiving.Attributed)
  · intro status shown
    cases shown
  · rintro past before action after run attributed ⟨own, stepped⟩
    refine attributed.next (Node.status_inv run.unguard) (Node.step_receiving stepped) ?_
    rintro input rfl due
    simpa [Node.pollsForeign, due] using own

theorem progress_is_attributed_sample : ∃ node : Node,
    node.app.receiveStatus = some ⟨sampleOffer.filename, 12, 12, some 0⟩ ∧
      node.receiving.Attributed := by
  obtain ⟨node, run, shown⟩ : ∃ node : Node,
      Run (Steps (checked (fun node action => !Node.pollsForeign node action)
        (Node.step sampleEnv))) (.new []) sampleEarly.reverse node ∧
      node.app.receiveStatus = some ⟨sampleOffer.filename, 12, 12, some 0⟩ := by
    apply execute_reaches
    decide +kernel
  exact ⟨node, shown, progress_is_attributed run.of_checked⟩

def sampleOverlap : List Action :=
  sampleConnect 0 sampleOffer ++ sampleFrame sampleAccept ++
  [.handler 0 (.decided (some (.accept sampleDir))), .handler 0 (.wrote 1),
    .handler 0 (.existed sampleTarget (some false)),
    .handler 0 (.opened sampleTicket.hash sampleTicket.addr.id true)] ++
  sampleConnect 1 sampleSecond ++ sampleFrame sampleAccept ++
  [.handler 0 (.item (some (.progress 4))), .handler 0 (.published 4 true)] ++
  List.replicate 4 (.ui {})

/-- The second offer's status shows the first one's progress. -/
theorem progress_leaks : ∃ node : Node,
    Run (Steps (Node.step sampleEnv)) (.new []) sampleOverlap.reverse node ∧
      ¬ node.receiving.Attributed := by
  obtain ⟨node, run, shown, owned, silent⟩ : ∃ node : Node,
      Run (Steps (Node.step sampleEnv)) (.new []) sampleOverlap.reverse node ∧
      node.app.receiveStatus = some ⟨sampleSecond.filename, 4, 5, none⟩ ∧
      owner node.log = some (sampleSecond, 1) ∧
      (ownEvents 1 node.log).filterMap Event.posts = [] := by
    apply execute_reaches
    decide +kernel
  refine ⟨node, run, fun attributed => ?_⟩
  rcases attributed _ shown with zero | ⟨offer, id, owned', event, inside, posts⟩
  · cases zero
  · obtain ⟨rfl, rfl⟩ := Prod.mk.inj (Option.some.inj (owned.symm.trans owned'))
    have posted := List.mem_filterMap.mpr ⟨event, inside, posts⟩
    have silent : (ownEvents 1 node.receiving.log).filterMap Event.posts = [] := silent
    rw [silent] at posted
    cases posted

end IrohShare
