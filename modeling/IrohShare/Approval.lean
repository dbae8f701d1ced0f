import IrohShare.ReceivingProofs
import IrohShare.Discovering

/-! No transfer without approval of that very offer: what a handler downloads and
where it exports to is what the user chose while its offer was on display. -/
namespace IrohShare
open Wire Unix Channel Transition

variable {env : Env} {files : List PathBuf} {past : List Action} {node : Node} {id : Nat}

/-- The user clicked Accept and chose this folder while the request was on display. -/
def ApprovedIn (env : Env) (files : List PathBuf) (past : List Action) (request : OfferRequest)
    (downloadDir : PathBuf) : Prop :=
  ∃ input earlier before, .ui input :: earlier <:+ past ∧
    Run (Steps (Node.step env)) (.new files) earlier before ∧
    before.stage = .showPendingOffers ∧ before.app.pendingOffers = some request ∧
    input.accept = true ∧ input.folder = some downloadDir

theorem Input.decision_accept {input : Input} (decision : input.decision = some (.accept path)) :
    input.accept = true ∧ input.folder = some path := by
  unfold Input.decision at decision
  split at decision
  · cases decision
    exact ⟨‹_›, ‹_›⟩
  · split at decision <;> cases decision

/-- A decision in the log was there before, or was made on the request on display. -/
theorem Receiving.Move.modal_origin (move : Move parse due side action after)
    (inside : .modal request (some decision) ∈ after.log) :
    .modal request (some decision) ∈ side.log ∨ ∃ input, action = .ui input ∧
      due = .showPendingOffers ∧ side.pending = some request ∧ input.decision = some decision := by
  cases move with
  | noted action entry quiet =>
      rcases List.mem_cons.mp inside with rfl | old
      · cases quiet
      · exact .inl old
  | handled | offered | posted => exact .inl (by simpa [Receiving.handle] using inside)
  | asked => exact .inl (by simpa using inside)
  | declined input offer id due isOpen pending decided =>
      rcases List.mem_cons.mp inside with same | old
      · cases same
        exact .inr ⟨input, rfl, due, pending, decided⟩
      · exact .inl old
  | accepted input offer id downloadDir due isOpen pending decided =>
      rcases List.mem_cons.mp inside with same | old
      · cases same
        exact .inr ⟨input, rfl, due, pending, decided⟩
      · exact .inl old
  | _ => exact .inl inside

theorem Node.modal_origin (run : Run (Steps (Node.step env)) (.new files) past node)
    (inside : .modal request (some (.accept downloadDir)) ∈ node.log) :
    ApprovedIn env files past request downloadDir := by
  revert inside
  apply run.history (P := fun past node => .modal request (some (.accept downloadDir)) ∈ node.log →
    ApprovedIn env files past request downloadDir)
  · intro inside
    cases inside
  · intro past before action after run origin stepped inside
    rcases (Node.step_receiving stepped).modal_origin inside with old | ⟨input, rfl, due, pending, decided⟩
    · obtain ⟨input, earlier, shown, suffix, rest⟩ := origin old
      exact ⟨input, earlier, shown, suffix.trans (List.suffix_cons _ _), rest⟩
    · obtain ⟨accept, folder⟩ := Input.decision_accept decided
      exact ⟨input, past, before, List.suffix_rfl, run, due, pending, accept, folder⟩

theorem Receiving.Inv.handler_of_event {side : Receiving} (inv : side.Inv)
    (inside : event ∈ ownEvents id side.log) :
    ∃ connection, side.handlers id = some connection := by
  apply Option.ne_none_iff_exists'.mp
  intro unknown
  rw [inv.absent id unknown] at inside
  cases inside

/-- What a handler was told is what the user chose while that very offer was on display. -/
theorem Node.approved_in (run : Run (Steps (Node.step env)) (.new files) past node)
    (known : node.router.handlers id = some connection)
    (approved : Approved connection.remote (ownEvents id node.log) offer downloadDir) :
    ApprovedIn env files past (offer, id) downloadDir := by
  have inv := Node.receiving_inv run
  have facts := inv.facts id connection known
  obtain ⟨_, shown, modal⟩ := inv.replied id _ (inv.decided id _ approved.chosen)
  obtain rfl := facts.oneOffer _ _ approved.read (inv.answered shown id _ modal).2
  exact Node.modal_origin run modal

/-- Everything a handler does about a download serves one offer of its own remote end
and the folder the user chose while that offer was on display. -/
structure Node.Consents (env : Env) (files : List PathBuf) (past : List Action) (node : Node) :
    Prop where
  transfers : ∀ id event, event ∈ ownEvents id node.log → event.isTransfer = true →
    ∃ connection offer downloadDir target, node.router.handlers id = some connection ∧
      .read (.ok offer) ∈ ownEvents id node.log ∧ offer.ticket.addr.id = connection.remote ∧
      ApprovedIn env files past (offer, id) downloadDir ∧
      targetOf downloadDir offer = some target ∧ event.Serves offer target
  names : ∀ offer id name, node.app.pendingOffers = some (offer, id) → node.sender = some name →
    ∃ connection info, node.router.handlers id = some connection ∧
      .discovery (.discovered info) ∈ node.log ∧ info.userData = some name ∧
      info.endpointId = connection.remote

/-- For any number of connections, whatever they send, and every order of steps. -/
theorem transfers_are_approved (run : Run (Steps (Node.step env)) (.new files) past node) :
    node.Consents env files past := by
  have inv := Node.receiving_inv run
  constructor
  · intro id event inside transfer
    obtain ⟨connection, known⟩ := inv.handler_of_event inside
    obtain ⟨offer, downloadDir, target, approved, found, serves⟩ :=
      (inv.facts id connection known).transfers event inside transfer
    exact ⟨connection, offer, downloadDir, target, known, approved.read, approved.authentic,
      Node.approved_in run known approved, found, serves⟩
  · intro offer id name pending named
    have waiting : (offer, id) ∈ node.receiving.requests := by
      simp [Receiving.requests, Node.receiving, pending]
    obtain ⟨_, connection, known, state⟩ := inv.waiting offer id waiting
    have stage := (inv.facts id connection known).stage
    rw [state] at stage
    obtain ⟨_, _, authentic, _⟩ := stage
    simp only [Node.sender, pending, Option.bind_some] at named
    obtain ⟨peer, found, rfl⟩ := Option.map_eq_some_iff.mp named
    obtain ⟨info, announced, userData, address⟩ :=
      (Node.discovering_inv run).listed peer (List.mem_of_find?_eq_some found)
    have same : peer.2.id = offer.ticket.addr.id := by
      simpa using List.find?_some found
    refine ⟨connection, info, known, announced, userData, ?_⟩
    rw [← authentic, ← same, address]
    rfl

def sampleEnv : Env := ⟨fun path => path, sampleParse, fun _ => none⟩

/-- A connection whose handler reads this offer and hands its request over. -/
def sampleConnect (id : Nat) (offer : Offer) : List Action :=
  [.connect id sampleTicket.addr.id (offer.encode sampleText), .handler id (.acceptBi true),
    .handler id (.read (.ok offer)), .handler id (.offered true)]

def sampleFrame (input : Input) : List Action :=
  List.replicate 6 (.ui {}) ++ [.ui input] ++ List.replicate 2 (.ui {})

def sampleAccept : Input := { accept := true, folder := some sampleDir }

/-- A named device offers a file, which the user accepts and the handler receives. -/
def sampleApproval : List Action :=
  [.discovery (.discovered ⟨sampleTicket.addr.id, [], some "laptop"⟩)
    [("laptop", ⟨sampleTicket.addr.id, []⟩)]] ++ sampleConnect 0 sampleOffer ++
  sampleFrame sampleAccept ++ (sampleReceive.drop 3).map (.handler 0)

theorem sampleApproval_run : ∃ node : Node,
    Run (Steps (Node.step sampleEnv)) (.new []) sampleApproval.reverse node ∧
    ownEvents 0 node.log = sampleReceive.reverse ∧
    .modal (sampleOffer, 0) (some (.accept sampleDir)) ∈ node.log := by
  apply execute_reaches
  decide +kernel

theorem transfers_are_approved_sample : ∃ node : Node,
    Run (Steps (Node.step sampleEnv)) (.new []) sampleApproval.reverse node ∧
    sampleExport ∈ ownEvents 0 node.log ∧ node.Consents sampleEnv [] sampleApproval.reverse := by
  obtain ⟨node, run, own, _⟩ := sampleApproval_run
  exact ⟨node, run, by rw [own]; decide, transfers_are_approved run⟩

end IrohShare
