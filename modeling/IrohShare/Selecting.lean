import IrohShare.Discovering

/-! The selected device: it comes from a ticket or from a click on a listed peer, and
goes with the back button or with a refresh that no longer lists it. -/
namespace IrohShare
open Wire Unix Channel Transition

/-- A device's name, as it is shown, and its address. -/
abbrev Device := String × EndpointAddr

def Lists (peers : List Peer) (id : EndpointId) : Bool := peers.any (·.2.id = id)

theorem lists_iff {id : EndpointId} :
    Lists peers id = true ↔ ∃ peer ∈ peers, peer.2.id = id := by
  simp [Lists]

namespace Node

def picksUp (node : Node) : Action → Bool
  | .ui _ => node.stage = .refreshPeers ∧ node.peers.hasChanged node.app.peersSeen = true
  | _ => false

def goesBack (node : Node) : Action → Bool
  | .ui input => node.stage = .showHeader ∧ input.back = true ∧
      node.app.sendStatus ≠ some .sending
  | _ => false

/-- The ticket modal is confirmed with a valid ticket. -/
def usesTicket (env : Env) (node : Node) : Action → Option Device
  | .ui input =>
    if node.stage = .showTicketModal ∧ input.ticketAction = some true then
      node.app.ticketInput.bind fun old =>
        (env.decodeString (trim (input.typed.getD old))).map ("Ticket device", ·)
    else none
  | _ => none

def clicksPeer (node : Node) : Action → Option Device
  | .ui input =>
    if node.stage = .showContent ∧ node.app.receiveStatus = none ∧ node.app.selectedPeer = none then
      (node.app.peers.zip input.clicked).foldl
        (fun selected (peer, clicked) => if clicked then some peer else selected) none
    else none
  | _ => none

def selects (env : Env) (node : Node) (action : Action) : Option Device :=
  (node.usesTicket env action).or (node.clicksPeer action)

def nextSelected (env : Env) (node : Node) (action : Action) : Option Device :=
  if node.picksUp action then
    node.app.selectedPeer.filter fun (_, selected) => Lists node.peers.value selected.id
  else if node.goesBack action then none
  else (node.selects env action).or node.app.selectedPeer

variable {env : Env} {files : List PathBuf} {past : List Action} {node after : Node}
  {input : Input}

@[simp] theorem sendFile_selected (path : PathBuf) (length : Option UInt64) :
    (node.sendFile path length).app.selectedPeer = node.app.selectedPeer := by
  unfold sendFile
  split
  · rfl
  · split <;> rfl

@[simp] theorem showFilePicker_selected :
    (node.showFilePicker input).app.selectedPeer = node.app.selectedPeer := by
  unfold showFilePicker
  split
  · split
    · rfl
    · exact sendFile_selected _ _
  · rfl

@[simp] theorem showTransfer_selected :
    (node.showTransfer input).app.selectedPeer = node.app.selectedPeer := by
  unfold showTransfer
  split
  case h_4 => rfl
  all_goals split <;> rfl

@[simp] theorem collectDroppedFiles_selected :
    (node.collectDroppedFiles input).app.selectedPeer = node.app.selectedPeer := by
  unfold collectDroppedFiles
  split
  · rfl
  · split
    · rfl
    · split
      · rfl
      · exact sendFile_selected _ _

@[simp] theorem refreshSendStatus_selected :
    node.refreshSendStatus.app.selectedPeer = node.app.selectedPeer := by
  unfold refreshSendStatus
  split <;> rfl

@[simp] theorem refreshOffers_selected : node.refreshOffers.app.selectedPeer = node.app.selectedPeer := by
  unfold refreshOffers
  split <;> rfl

@[simp] theorem refreshReceiveStatus_selected :
    node.refreshReceiveStatus.app.selectedPeer = node.app.selectedPeer := by
  unfold refreshReceiveStatus
  split
  · rfl
  · split <;> rfl

@[simp] theorem showPendingOffers_selected :
    (node.showPendingOffers input).app.selectedPeer = node.app.selectedPeer := by
  unfold showPendingOffers
  split
  · rfl
  · dsimp only
    split <;> rfl

theorem refreshPeers_selected : node.refreshPeers.app.selectedPeer =
    if node.peers.hasChanged node.app.peersSeen then
      node.app.selectedPeer.filter fun (_, selected) => Lists node.peers.value selected.id
    else node.app.selectedPeer := by
  unfold refreshPeers
  split <;> rfl

theorem showHeader_selected : (node.showHeader input).app.selectedPeer =
    if input.back = true ∧ node.app.sendStatus ≠ some .sending then none
    else node.app.selectedPeer := by
  unfold showHeader
  split
  · split <;> rfl
  · rename_i unselected
    rw [unselected, ite_self]
    split
    · exact unselected
    · exact unselected

theorem showTicketModal_selected :
    (node.showTicketModal decodeString input).app.selectedPeer =
      ((if input.ticketAction = some true then
        node.app.ticketInput.bind fun old =>
          (decodeString (trim (input.typed.getD old))).map ("Ticket device", ·)
      else none).or node.app.selectedPeer) := by
  unfold showTicketModal
  split
  · rename_i hidden
    simp [hidden]
  · rename_i old shown
    dsimp only
    split
    · rename_i confirmed
      rw [if_pos confirmed, shown, Option.bind_some]
      split
      · rename_i endpointAddr decoded
        simp [decoded]
      · rename_i invalid
        simp [invalid]
    · rename_i cancelled
      simp [cancelled]
    · rename_i edited
      simp [edited]

theorem showContent_selected : (node.showContent input).app.selectedPeer =
    ((if node.app.receiveStatus = none ∧ node.app.selectedPeer = none then
      (node.app.peers.zip input.clicked).foldl
        (fun selected (peer, clicked) => if clicked then some peer else selected) none
    else none).or node.app.selectedPeer) := by
  unfold showContent
  split
  · rename_i receiving
    have : node.app.receiveStatus ≠ none := Option.isSome_iff_ne_none.mp receiving
    simp [this]
  · rename_i hidden
    have hidden : node.app.receiveStatus = none := by simpa using hidden
    split
    · rename_i selected
      have : node.app.selectedPeer ≠ none := Option.isSome_iff_ne_none.mp selected
      split <;> simp [this]
    · rename_i unselected
      have unselected : node.app.selectedPeer = none := by simpa using unselected
      rw [if_pos ⟨hidden, unselected⟩]
      rfl

/-- What a step does to the selection. -/
theorem step_selected (stepped : node.step env action = some after) :
    after.app.selectedPeer = node.nextSelected env action := by
  cases action with
  | ui input =>
      simp only [step] at stepped
      split at stepped <;> cases stepped
      cases due : node.stage <;>
        simp [ui, due, nextSelected, picksUp, goesBack, selects, usesTicket, clicksPeer,
          refreshPeers_selected, showHeader_selected, showTicketModal_selected,
          showContent_selected]
      split <;> simp
  | _ => cases step_move stepped <;> rfl

theorem picksUp_due (found : node.picksUp action = true) :
    ∃ input, action = .ui input ∧ node.stage = .refreshPeers := by
  cases action with
  | ui input => exact ⟨input, rfl, (of_decide_eq_true found).1⟩
  | _ => cases found

theorem usesTicket_due (ticket : node.usesTicket env action = some device) :
    ∃ input, action = .ui input ∧ node.stage = .showTicketModal := by
  cases action with
  | ui input =>
      simp only [usesTicket] at ticket
      split at ticket
      · rename_i confirmed
        exact ⟨input, rfl, confirmed.1⟩
      · cases ticket
  | _ => cases ticket

theorem clicksPeer_selected (selected : node.app.selectedPeer = some device) :
    node.clicksPeer action = none := by
  cases action with
  | ui input => simp [clicksPeer, selected]
  | _ => rfl

theorem nextSelected_ticket (ticket : node.usesTicket env action = some device) :
    node.nextSelected env action = some device := by
  obtain ⟨input, rfl, due⟩ := usesTicket_due ticket
  have unrefreshed : node.picksUp (.ui input) = false := by simp [picksUp, due]
  have stays : node.goesBack (.ui input) = false := by simp [goesBack, due]
  rw [nextSelected, unrefreshed, stays, selects, ticket]
  rfl

end Node
end IrohShare
