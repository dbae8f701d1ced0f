import IrohShare.Listing
import IrohShare.SendingProofs

/-! Whether the window names the device that the file goes to: exactly which steps break
the link between the selected device and the send that is shown. -/
namespace IrohShare
open Wire Unix Channel Transition

variable {env : Env} {files : List PathBuf} {past : List Action} {node after : Node}

/-- The address that the most recent `send_file` has passed to `run_sender`. -/
def Node.sentTo (node : Node) : Option EndpointAddr := node.tasks.getLast?.map Task.endpointAddr

/-- While a send is shown, its device is the selected one. -/
def Node.NamesReceiver (node : Node) : Prop :=
  node.app.sendStatus.isSome = true →
    ∃ device, node.app.selectedPeer = some device ∧ node.sentTo = some device.2

/-- While a send is shown, a refresh finds a list without the selected device, or a
ticket for another device is used. -/
def Node.Misnames (env : Env) (node : Node) (action : Action) : Prop :=
  node.app.sendStatus.isSome = true ∧
    (node.picksUp action = true ∧ (∀ device, node.app.selectedPeer = some device →
        Lists node.peers.value device.2.id = false) ∨
      ∃ device, node.usesTicket env action = some device ∧ node.sentTo ≠ some device.2)

theorem getLast?_set {tasks : List Task} {id : Nat} (found : tasks[id]? = some task) (state : TaskState) :
    (tasks.set id { task with state }).getLast?.map Task.endpointAddr =
      tasks.getLast?.map Task.endpointAddr := by
  have same : (tasks.set id { task with state }).map Task.endpointAddr =
      tasks.map Task.endpointAddr := by
    apply List.ext_getElem?
    intro other
    by_cases here : id = other
    · subst here
      obtain ⟨inRange, rfl⟩ := List.getElem?_eq_some_iff.mp found
      simp [inRange]
    · simp [List.getElem?_set_ne here]
  rw [← List.getLast?_map, same, List.getLast?_map]

namespace Node

/-- A step starts a send to the selected device, or leaves the address of the last send
alone; then a status that is shown was shown before, or is a result that waited. -/
theorem step_sent (stepped : node.step env action = some after) :
    (∃ device, node.app.selectedPeer = some device ∧ after.app.selectedPeer = some device ∧
      after.sentTo = some device.2) ∨
    after.sentTo = node.sentTo ∧ (after.app.sendStatus.isSome = true →
      node.app.sendStatus.isSome = true ∨ node.sendResults ≠ []) := by
  cases step_move stepped with
  | framed input after isOpen frame =>
      cases frame with
      | started path name endpointAddr sendTotal pickedPath droppedFiles selected =>
          exact .inl ⟨(name, endpointAddr), selected, selected, by simp [sentTo]⟩
      | consumed id result results queued => exact .inr ⟨rfl, fun _ => .inr (by simp [queued])⟩
      | wentBack | reset => exact .inr ⟨rfl, fun shown => by cases shown⟩
      | _ => exact .inr ⟨rfl, .inl⟩
  | worked id task event state found => exact .inr ⟨getLast?_set found state, .inl⟩
  | published id task bytes state found => exact .inr ⟨getLast?_set found state, .inl⟩
  | reported id task result state found => exact .inr ⟨getLast?_set found state, .inl⟩
  | _ => exact .inr ⟨rfl, .inl⟩

theorem step_unsent (due : node.stage = .refreshPeers ∨ node.stage = .showTicketModal)
    (stepped : node.step env (.ui input) = some after) :
    after.app.sendStatus = node.app.sendStatus ∧ after.tasks = node.tasks := by
  simp only [step] at stepped
  split at stepped <;> cases stepped
  rcases due with due | due
  · simp only [ui, due, refreshPeers]
    split <;> exact ⟨rfl, rfl⟩
  · simp only [ui, due, showTicketModal]
    split
    · exact ⟨rfl, rfl⟩
    · split
      · split <;> exact ⟨rfl, rfl⟩
      · exact ⟨rfl, rfl⟩
      · exact ⟨rfl, rfl⟩

theorem step_back (back : node.goesBack action = true) (selected : node.app.selectedPeer ≠ none)
    (stepped : node.step env action = some after) : after.app.sendStatus = none := by
  cases action with
  | ui input =>
      obtain ⟨due, clicked⟩ : node.stage = .showHeader ∧ input.back = true ∧
        node.app.sendStatus ≠ some .sending := of_decide_eq_true back
      simp only [step] at stepped
      split at stepped <;> cases stepped
      obtain ⟨device, selected⟩ := Option.ne_none_iff_exists'.mp selected
      simp only [ui, due, showHeader, selected, if_pos clicked]
  | _ => cases back

theorem shown_of_queued (run : Run (Steps (Node.step env)) (.new files) past node)
    (queued : node.sendResults ≠ []) : node.app.sendStatus.isSome = true := by
  rcases (sending_inv run).queue with empty | ⟨_, _, _, _, busy, _⟩
  · exact absurd empty queued
  · have busy : node.app.sendStatus = some .sending := busy
    rw [busy]
    rfl

theorem namesReceiver_iff (run : Run (Steps (Node.step env)) (.new files) past node)
    (names : node.NamesReceiver) (stepped : node.step env action = some after) :
    after.NamesReceiver ↔ ¬ node.Misnames env action := by
  constructor
  · rintro namesAfter ⟨shown, misnames⟩
    obtain ⟨device, selected, sent⟩ := names shown
    have next := step_selected stepped
    rcases misnames with ⟨found, unlisted⟩ | ⟨other, ticket, differs⟩
    · obtain ⟨input, rfl, due⟩ := picksUp_due found
      obtain ⟨status, _⟩ := step_unsent (.inl due) stepped
      obtain ⟨later, selected', _⟩ := namesAfter (by rw [status]; exact shown)
      have dropped : node.nextSelected env (.ui input) = none := by
        simp [nextSelected, found, selected, unlisted device selected]
      cases (next.trans dropped).symm.trans selected'
    · obtain ⟨input, rfl, due⟩ := usesTicket_due ticket
      obtain ⟨status, tasks⟩ := step_unsent (.inr due) stepped
      obtain ⟨later, selected', sent'⟩ := namesAfter (by rw [status]; exact shown)
      rw [next, nextSelected_ticket ticket] at selected'
      obtain rfl := Option.some.inj selected'
      rw [sentTo, tasks] at sent'
      exact differs sent'
  · intro fits shownAfter
    rcases step_sent stepped with ⟨device, _, selected, sent⟩ | ⟨sent, shown⟩
    · exact ⟨device, selected, sent⟩
    have shown : node.app.sendStatus.isSome = true :=
      (shown shownAfter).elim id (shown_of_queued run)
    obtain ⟨device, selected, last⟩ := names shown
    rw [step_selected stepped, sent, last]
    cases ticket : node.usesTicket env action with
    | some other =>
        refine ⟨other, nextSelected_ticket ticket, ?_⟩
        by_contra differs
        exact fits ⟨shown, .inr ⟨other, ticket, by rwa [last]⟩⟩
    | none =>
        refine ⟨device, ?_, rfl⟩
        have unclicked : node.selects env action = none := by
          rw [selects, ticket, clicksPeer_selected selected]
          rfl
        have stays : node.goesBack action = false := by
          apply Bool.eq_false_of_not_eq_true
          intro back
          rw [step_back back (by simp [selected]) stepped] at shownAfter
          cases shownAfter
        rw [nextSelected, unclicked, stays, selected]
        by_cases found : node.picksUp action = true
        · have listed : Lists node.peers.value device.2.id = true := by
            by_contra unlisted
            refine fits ⟨shown, .inl ⟨found, fun other same => ?_⟩⟩
            obtain rfl := Option.some.inj (selected.symm.trans same)
            exact Bool.eq_false_of_not_eq_true unlisted
          simp [found, listed]
        · simp [found]

end Node

/-- In every state of a run the shown send names its device, exactly when no step of the
run misnames it. -/
theorem names_receiver_iff (run : Run (Steps (Node.step env)) (.new files) past node) :
    (∀ earlier state, earlier <:+ past → Run (Steps (Node.step env)) (.new files) earlier state →
      state.NamesReceiver) ↔
    ∀ action earlier state, action :: earlier <:+ past →
      Run (Steps (Node.step env)) (.new files) earlier state → ¬ state.Misnames env action := by
  apply always_iff_guarded run (P := Node.NamesReceiver)
  · intro shown
    cases shown
  · intro past state action after run names stepped
    exact Node.namesReceiver_iff run names stepped

/-- While a file is being sent to the laptop it expires and a phone appears, which is
selected in the next frame. -/
def sampleSwitch : List Action :=
  [.discovery (.discovered ⟨sampleTicket.addr.id, [], some "laptop"⟩)
    [("laptop", ⟨sampleTicket.addr.id, []⟩)]] ++ List.replicate 7 (.ui {}) ++
  [.ui { clicked := [true] }, .ui { dropped := [sampleTarget], length := some 12 },
    .discovery (.expired sampleTicket.addr.id) [],
    .discovery (.discovered samplePhone) [("phone", samplePhone.intoEndpointAddr)]] ++
  List.replicate 7 (.ui {}) ++ [.ui { clicked := [true] }]

theorem sampleSwitch_run : ∃ node : Node,
    Run (Steps (Node.step sampleEnv)) (.new []) sampleSwitch.reverse node ∧
    node.app.sendStatus = some .sending ∧
    node.app.selectedPeer = some ("phone", samplePhone.intoEndpointAddr) ∧
    node.sentTo = some ⟨sampleTicket.addr.id, []⟩ := by
  apply execute_reaches
  decide +kernel

theorem names_receiver_sample : ∃ node : Node,
    Run (Steps (Node.step sampleEnv)) (.new []) sampleSwitch.reverse node ∧
    ((∀ earlier state, earlier <:+ sampleSwitch.reverse →
      Run (Steps (Node.step sampleEnv)) (.new []) earlier state → state.NamesReceiver) ↔
    ∀ action earlier state, action :: earlier <:+ sampleSwitch.reverse →
      Run (Steps (Node.step sampleEnv)) (.new []) earlier state →
      ¬ state.Misnames sampleEnv action) := by
  obtain ⟨node, run, _⟩ := sampleSwitch_run
  exact ⟨node, run, names_receiver_iff run⟩

/-- The window says 'To phone' while the file goes to the laptop. -/
theorem wrong_receiver_named : ∃ node : Node,
    Run (Steps (Node.step sampleEnv)) (.new []) sampleSwitch.reverse node ∧
    ¬ node.NamesReceiver := by
  obtain ⟨node, run, busy, selected, sent⟩ := sampleSwitch_run
  refine ⟨node, run, fun names => ?_⟩
  obtain ⟨device, selected', sent'⟩ := names (by rw [busy]; rfl)
  obtain rfl := Option.some.inj (selected.symm.trans selected')
  rw [sent] at sent'
  exact absurd sent' (by decide)

end IrohShare
