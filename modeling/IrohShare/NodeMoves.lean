import IrohShare.Node
import IrohShare.RouterProofs

/-! What a step of the program can do, said once: a function of a frame leaves the
node alone or makes one of the changes listed here, under the conditions it checks,
and so does an event of a task. The sides of the program are views of these moves. -/
namespace IrohShare
open Wire Unix Channel Transition

def Event.posts : Event → Option UInt64
  | .published bytes true => some bytes
  | .replaced bytes => some bytes
  | _ => none

/-- The window names this file as the one being sent. -/
def Names (pickedPath : Option String) (droppedFiles : List PathBuf) (filename : String) : Prop :=
  pickedPath = some filename ∧ droppedFiles = [] ∨
    pickedPath = none ∧ ∃ file, droppedFiles = [file] ∧ file.toStringLossy = filename

/-- A handler that gets its offer into the channel was waiting to do so. -/
theorem Handler.Move.of_offered (move : Handler.Move remote state (.offered true) next) :
    ∃ offer, state = .offering offer ∧ next = .deciding offer := by
  cases move with
  | offered offer => exact ⟨offer, rfl, rfl⟩
  | downloading move => cases move

def Action.routed : Action → Option RouterAction
  | .connect id remote incoming => some (.connect id remote incoming)
  | .handler id event => some (.handler id event)
  | _ => none

namespace Node

/-- What one function of a frame does. -/
inductive Frame (decodeString : String → Option EndpointAddr) (input : Input) :
    Node → Node → Prop where
  | idle (node : Node) : Frame decodeString input node node
  | refreshed (node : Node) (due : node.stage = .refreshPeers)
      (changed : node.peers.hasChanged node.app.peersSeen = true) : Frame decodeString input node
        { node with app := { node.app with
            peersSeen := node.peers.version
            peers := node.peers.value
            peerPulseStarted := node.app.peerPulseStarted.filter
              fun (name, _) => node.peers.value.any (·.1 = name)
            selectedPeer := node.app.selectedPeer.filter
              fun (_, selected) => node.peers.value.any (·.2.id = selected.id) } }
  | pulled (node : Node) (request : OfferRequest) (offers : List OfferRequest)
      (empty : node.app.pendingOffers = none) (queued : node.offers = request :: offers) :
      Frame decodeString input node
        { node with app := { node.app with pendingOffers := some request }, offers }
  | consumed (node : Node) (id : Nat) (result : Except Error SendOutcome)
      (sendResults : List (Nat × Except Error SendOutcome))
      (queued : node.sendResults = (id, result) :: sendResults) : Frame decodeString input node
        { node with
          app := { node.app with sendStatus := some (.ofResult result) }
          sendResults
          log := .consumed id result :: node.log }
  | polled (node : Node) (status : ReceiveStatus) (due : node.stage = .refreshReceiveStatus)
      (shown : node.app.receiveStatus = some status)
      (changed : node.progress.hasChanged node.app.progressSeen = true) :
      Frame decodeString input node
        { node with app := { node.app with
            progressSeen := node.progress.version
            receiveStatus := (status.update node.progress.value node.now).expire node.now } }
  | aged (node : Node) (status : ReceiveStatus) (due : node.stage = .refreshReceiveStatus)
      (shown : node.app.receiveStatus = some status)
      (unchanged : node.progress.hasChanged node.app.progressSeen = false) :
      Frame decodeString input node
        { node with app := { node.app with receiveStatus := status.expire node.now } }
  | wentBack (node : Node) (selected : node.app.selectedPeer.isSome = true)
      (free : node.app.sendStatus ≠ some .sending) : Frame decodeString input node
        { node with app := { node.app with
            selectedPeer := none, pickedPath := none, droppedFiles := [], sendStatus := none } }
  | ticketEdited (node : Node) (ticketInput : Option String) (ticketError : Bool) :
      Frame decodeString input node { node with app := { node.app with ticketInput, ticketError } }
  | ticketUsed (node : Node) (text : String) (endpointAddr : EndpointAddr)
      (shown : node.app.ticketInput.isSome = true)
      (decoded : decodeString (trim text) = some endpointAddr) : Frame decodeString input node
        { node with app := { node.app with
            selectedPeer := some ("Ticket device", endpointAddr)
            ticketInput := none
            ticketError := false } }
  | asked (node : Node) (request : OfferRequest) (due : node.stage = .showPendingOffers)
      (pending : node.app.pendingOffers = some request) (undecided : input.decision = none) :
      Frame decodeString input node { node with log := .modal request none :: node.log }
  | declined (node : Node) (offer : Offer) (id : Nat) (due : node.stage = .showPendingOffers)
      (pending : node.app.pendingOffers = some (offer, id))
      (decision : input.decision = some .decline) : Frame decodeString input node
        { node with
          app := { node.app with pendingOffers := none }
          replies := Function.update node.replies id (some .decline)
          log := .modal (offer, id) (some .decline) :: node.log }
  | accepted (node : Node) (offer : Offer) (id : Nat) (downloadDir : PathBuf)
      (due : node.stage = .showPendingOffers)
      (pending : node.app.pendingOffers = some (offer, id))
      (decision : input.decision = some (.accept downloadDir)) : Frame decodeString input node
        { node with
          app := { node.app with
            pendingOffers := none
            progressSeen := node.progress.version
            receiveStatus := some ⟨offer.filename, 0, offer.filesize, none⟩ }
          replies := Function.update node.replies id (some (.accept downloadDir))
          log := .modal (offer, id) (some (.accept downloadDir)) :: node.log }
  | reset (node : Node) (selected : node.app.selectedPeer.isSome = true)
      (free : node.app.sendStatus ≠ some .sending) : Frame decodeString input node
        { node with
          app := { node.app with
            pickedPath := none, droppedFiles := [], sendTotal := 0, sendStatus := none }
          sendProgress := node.sendProgress.send 0 }
  | started (node : Node) (path : PathBuf) (name : String) (endpointAddr : EndpointAddr)
      (sendTotal : UInt64) (pickedPath : Option String) (droppedFiles : List PathBuf)
      (selected : node.app.selectedPeer = some (name, endpointAddr))
      (free : node.app.sendStatus ≠ some .sending)
      (names : Names pickedPath droppedFiles path.toStringLossy) : Frame decodeString input node
        { node with
          app := { node.app with
            pickedPath, droppedFiles, sendTotal, sendStatus := some .sending }
          sendProgress := node.sendProgress.send 0
          tasks := node.tasks ++ [⟨path.toStringLossy, endpointAddr, .preparing⟩] }
  | listed (node : Node) (hidden : node.app.receiveStatus = none)
      (unselected : node.app.selectedPeer = none) :
      Frame decodeString input node (node.showPeers input)

variable {decodeString : String → Option EndpointAddr} {input : Input} {node after : Node}
  {id : Nat}

theorem refreshPeers_frame (due : node.stage = .refreshPeers) :
    Frame decodeString input node node.refreshPeers := by
  unfold refreshPeers
  split
  · rename_i changed
    exact .refreshed node due changed
  · exact .idle node

theorem refreshOffers_frame : Frame decodeString input node node.refreshOffers := by
  unfold refreshOffers
  split
  · rename_i request offers empty queued
    exact .pulled node request offers empty queued
  · exact .idle node

theorem refreshSendStatus_frame : Frame decodeString input node node.refreshSendStatus := by
  unfold refreshSendStatus
  split
  · rename_i id result sendResults queued
    exact .consumed node id result sendResults queued
  · exact .idle node

theorem refreshReceiveStatus_frame (due : node.stage = .refreshReceiveStatus) :
    Frame decodeString input node node.refreshReceiveStatus := by
  unfold refreshReceiveStatus
  split
  · exact .idle node
  · rename_i status shown
    split
    · rename_i changed
      exact .polled node status due shown changed
    · rename_i unchanged
      exact .aged node status due shown (Bool.eq_false_of_not_eq_true unchanged)

theorem showHeader_frame : Frame decodeString input node (node.showHeader input) := by
  unfold showHeader
  split
  · rename_i selected
    split
    · rename_i clicked
      exact .wentBack node (Option.isSome_of_mem selected) clicked.2
    · exact .idle node
  · split
    · exact .ticketEdited node (some "") false
    · exact .idle node

theorem showTicketModal_frame :
    Frame decodeString input node (node.showTicketModal decodeString input) := by
  unfold showTicketModal
  split
  · exact .idle node
  · rename_i old shown
    dsimp only
    split
    · split
      · rename_i endpointAddr decoded
        exact .ticketUsed node _ endpointAddr (Option.isSome_of_mem shown) decoded
      · exact .ticketEdited node _ true
    · exact .ticketEdited node none false
    · exact .ticketEdited node _ _

theorem showPendingOffers_frame (due : node.stage = .showPendingOffers) :
    Frame decodeString input node (node.showPendingOffers input) := by
  unfold showPendingOffers
  split
  · exact .idle node
  · rename_i offer id pending
    dsimp only
    split
    · rename_i undecided
      rw [undecided]
      exact .asked node (offer, id) due pending undecided
    · rename_i decision
      rw [decision]
      exact .declined node offer id due pending decision
    · rename_i downloadDir decision
      rw [decision]
      exact .accepted node offer id downloadDir due pending decision

/-- With a device selected and no send outstanding, `send_file` starts a send of the
file that the window names. -/
theorem sendFile_frame {path : PathBuf} (selected : node.app.selectedPeer.isSome = true)
    (free : node.app.sendStatus ≠ some .sending)
    (names : Names pickedPath droppedFiles path.toStringLossy) :
    Frame decodeString input node
      (({ node with app := { node.app with pickedPath, droppedFiles } } : Node).sendFile path
        length) := by
  unfold sendFile
  split
  · rename_i absent
    have absent : node.app.selectedPeer = none := absent
    simp [absent] at selected
  · rename_i name endpointAddr chosen
    split
    · rename_i busy
      exact absurd busy free
    · exact .started node path name endpointAddr _ pickedPath droppedFiles chosen free names

theorem showFilePicker_frame (selected : node.app.selectedPeer.isSome = true) :
    Frame decodeString input node (node.showFilePicker input) := by
  unfold showFilePicker
  split
  · split
    · exact .idle node
    · rename_i free
      exact sendFile_frame selected free (.inl ⟨rfl, rfl⟩)
  · exact .idle node

theorem showTransfer_frame (selected : node.app.selectedPeer.isSome = true) :
    Frame decodeString input node (node.showTransfer input) := by
  unfold showTransfer
  split
  case h_4 => exact .idle node
  all_goals
    rename_i ended
    split
    · exact .reset node selected (by simp [ended])
    · exact .idle node

theorem showContent_frame : Frame decodeString input node (node.showContent input) := by
  unfold showContent
  split
  · exact .idle node
  · rename_i hidden
    split
    · rename_i selected
      split
      · exact showTransfer_frame selected
      · exact showFilePicker_frame selected
    · rename_i unselected
      exact .listed node (by simpa using hidden) (by simpa using unselected)

theorem collectDroppedFiles_frame (selected : node.app.selectedPeer.isSome = true) :
    Frame decodeString input node (node.collectDroppedFiles input) := by
  unfold collectDroppedFiles
  split
  · exact .idle node
  · rename_i free
    split
    · exact .idle node
    · split
      · exact .idle node
      · exact sendFile_frame selected free (.inr ⟨rfl, _, rfl, rfl⟩)

theorem ui_frame : Frame decodeString input node (node.ui decodeString input) := by
  unfold ui
  split
  · rename_i due
    exact refreshPeers_frame due
  · exact refreshOffers_frame
  · exact refreshSendStatus_frame
  · rename_i due
    exact refreshReceiveStatus_frame due
  · exact showHeader_frame
  · exact showTicketModal_frame
  · rename_i due
    exact showPendingOffers_frame due
  · exact showContent_frame
  · split
    · rename_i selected
      exact collectDroppedFiles_frame selected
    · exact .idle node

def advance (resolve : PathBuf → PathBuf) (node : Node) (id : Nat) (event : Event)
    (next : Connection) : Node :=
  { node with
    router :=
      { handlers := Function.update node.router.handlers id (some next)
        files := event.creates.toList.map resolve ++ node.router.files }
    log := .handler id event :: node.log }

def work (node : Node) (id : Nat) (task : Task) (event : TaskEvent) (state : TaskState) : Node :=
  { node with
    tasks := node.tasks.set id { task with state }
    log := .task id event :: node.log }

/-- The moves of the program. -/
inductive Move (env : Env) : Node → Action → Node → Prop where
  | connected (node : Node) (id : Nat) (remote : EndpointId) (incoming : Bytes)
      (free : node.router.handlers id = none) : Move env node (.connect id remote incoming)
        { node with router := { node.router with
            handlers := Function.update node.router.handlers id (some (.new remote incoming)) } }
  | handled (node : Node) (id : Nat) (event : Event) (connection next : Connection)
      (known : node.router.handlers id = some connection)
      (moved : connection.step env.parse event = some next)
      (granted : node.grants id event = true) (silent : event.posts = none)
      (unoffered : event ≠ .offered true) :
      Move env node (.handler id event) (node.advance env.resolve id event next)
  | offered (node : Node) (id : Nat) (offer : Offer) (connection next : Connection)
      (known : node.router.handlers id = some connection)
      (state : connection.state = .offering offer)
      (moved : connection.step env.parse (.offered true) = some next)
      (isOpen : node.isOpen = true) (room : node.offers.length < 10) :
      Move env node (.handler id (.offered true))
        { node.advance env.resolve id (.offered true) next with
          offers := node.offers ++ [(offer, id)] }
  | posted (node : Node) (id : Nat) (event : Event) (bytes : UInt64)
      (connection next : Connection) (known : node.router.handlers id = some connection)
      (moved : connection.step env.parse event = some next) (posts : event.posts = some bytes) :
      Move env node (.handler id event)
        { node.advance env.resolve id event next with progress := node.progress.send bytes }
  | framed (node : Node) (input : Input) (after : Node) (isOpen : node.isOpen = true)
      (frame : Frame env.decodeString input node after) :
      Move env node (.ui input) { after with stage := node.stage.next }
  | worked (node : Node) (id : Nat) (task : Task) (event : TaskEvent) (state : TaskState)
      (found : node.tasks[id]? = some task) (moved : task.state.step event = some state)
      (running : ∀ result, event ≠ .reports result) :
      Move env node (.task id event) (node.work id task event state)
  | published (node : Node) (id : Nat) (task : Task) (bytes : UInt64) (state : TaskState)
      (found : node.tasks[id]? = some task)
      (moved : task.state.step (.sender (.published bytes true)) = some state) :
      Move env node (.task id (.sender (.published bytes true)))
        { node.work id task (.sender (.published bytes true)) state with
          sendProgress := node.sendProgress.send bytes }
  | reported (node : Node) (id : Nat) (task : Task) (result : Except Error SendOutcome)
      (state : TaskState) (found : node.tasks[id]? = some task)
      (moved : task.state.step (.reports result) = some state) :
      Move env node (.task id (.reports result))
        { node.work id task (.reports result) state with
          sendResults :=
            if node.isOpen then node.sendResults ++ [(id, result)] else node.sendResults }
  | ignored (node : Node) (event : DiscoveryEvent) (order : List Peer)
      (live : node.peers.closed = false) (found : discover node.discovered event = none) :
      Move env node (.discovery event order) { node with log := .discovery event :: node.log }
  | announced (node : Node) (event : DiscoveryEvent) (order : List Peer) (discovered : PeerMap)
      (live : node.peers.closed = false)
      (found : discover node.discovered event = some discovered)
      (lists : discovered.Lists order) : Move env node (.discovery event order)
        { node with
          discovered
          peers := if node.isOpen then node.peers.send order else { node.peers with closed := true }
          log := .discovery event :: node.log }
  | ended (node : Node) :
      Move env node .discoveryEnds { node with peers := { node.peers with closed := true } }
  | waited (node : Node) (elapsed : Nat) :
      Move env node (.tick elapsed) { node with now := node.now + elapsed }
  | closed (node : Node) (isOpen : node.isOpen = true) (between : node.stage = .refreshPeers) :
      Move env node .close
        { node with isOpen := false, offers := [], app := { node.app with pendingOffers := none } }

theorem receive_cases (id : Nat) (state : Handler) (event : Event) :
    (event = .offered true ∧ ∀ (node : Node) (offer : Offer), state = .offering offer →
      node.receive id state event = { node with offers := node.offers ++ [(offer, id)] }) ∨
    (∃ bytes, event.posts = some bytes ∧ ∀ node : Node,
      node.receive id state event = { node with progress := node.progress.send bytes }) ∨
    (event ≠ .offered true ∧ event.posts = none ∧
      ∀ node : Node, node.receive id state event = node) := by
  cases event with
  | offered ok =>
      cases ok with
      | false => exact .inr (.inr ⟨by simp, rfl, fun _ => rfl⟩)
      | true => exact .inl ⟨rfl, fun node offer same => by rw [same]; rfl⟩
  | published bytes ok =>
      cases ok with
      | false => exact .inr (.inr ⟨by simp, rfl, fun _ => rfl⟩)
      | true => exact .inr (.inl ⟨bytes, rfl, fun _ => rfl⟩)
  | replaced bytes => exact .inr (.inl ⟨bytes, rfl, fun _ => rfl⟩)
  | _ => exact .inr (.inr ⟨by simp, rfl, fun _ => rfl⟩)

theorem taskReceive_cases (id : Nat) (event : TaskEvent) :
    (∃ bytes, event = .sender (.published bytes true) ∧ ∀ node : Node,
      node.taskReceive id event = { node with sendProgress := node.sendProgress.send bytes }) ∨
    (∃ result, event = .reports result ∧ ∀ node : Node, node.taskReceive id event = { node with
      sendResults :=
        if node.isOpen then node.sendResults ++ [(id, result)] else node.sendResults }) ∨
    ((∀ result, event ≠ .reports result) ∧ ∀ node : Node, node.taskReceive id event = node) := by
  cases event with
  | reports result =>
      refine .inr (.inl ⟨result, rfl, fun node => ?_⟩)
      by_cases isOpen : node.isOpen = true
      · simp only [taskReceive, if_pos isOpen]
      · simp only [taskReceive, if_neg isOpen]
  | sender event =>
      cases event with
      | published bytes ok =>
          cases ok with
          | false => exact .inr (.inr ⟨by simp, fun _ => rfl⟩)
          | true => exact .inl ⟨bytes, rfl, fun _ => rfl⟩
      | _ => exact .inr (.inr ⟨by simp, fun _ => rfl⟩)
  | _ => exact .inr (.inr ⟨by simp, fun _ => rfl⟩)

theorem handle_move {env : Env} (stepped : node.handle env id event = some after) :
    Move env node (.handler id event) after := by
  simp only [handle] at stepped
  split at stepped
  · rename_i granted
    obtain ⟨connection, known, stepped⟩ := Option.bind_eq_some_iff.mp stepped
    obtain ⟨router, routed, rfl⟩ := Option.map_eq_some_iff.mp stepped
    obtain ⟨_, other, next, known', moved, rfl⟩ := Router.step_handler routed
    obtain rfl := Option.some.inj (known.symm.trans known')
    rcases receive_cases id connection.state event with
      ⟨rfl, received⟩ | ⟨bytes, posts, received⟩ | ⟨unoffered, silent, received⟩
    · obtain ⟨offer, state, _⟩ := (Connection.step_move moved).2.1.of_offered
      rw [received _ offer state]
      have granted : node.isOpen = true ∧ node.offers.length < 10 := by
        simpa [grants] using granted
      exact .offered node id offer connection next known state moved granted.1 granted.2
    · rw [received]
      exact .posted node id event bytes connection next known moved posts
    · rw [received]
      exact .handled node id event connection next known moved granted silent unoffered
  · cases stepped

theorem runTask_move {env : Env} (stepped : node.runTask id event = some after) :
    Move env node (.task id event) after := by
  simp only [runTask] at stepped
  split at stepped
  · obtain ⟨task, found, stepped⟩ := Option.bind_eq_some_iff.mp stepped
    obtain ⟨state, moved, rfl⟩ := Option.map_eq_some_iff.mp stepped
    rcases taskReceive_cases id event with
      ⟨bytes, rfl, received⟩ | ⟨result, rfl, received⟩ | ⟨running, received⟩
    · rw [received]
      exact .published node id task bytes state found moved
    · rw [received]
      exact .reported node id task result state found moved
    · rw [received]
      exact .worked node id task event state found moved running
  · cases stepped

theorem discovery_move {env : Env} (stepped : node.discovery event order = some after) :
    Move env node (.discovery event order) after := by
  simp only [discovery] at stepped
  split at stepped
  · cases stepped
  · rename_i live
    have live : node.peers.closed = false := Bool.eq_false_of_not_eq_true live
    split at stepped
    · rename_i found
      cases stepped
      exact .ignored node event order live found
    · rename_i discovered found
      split at stepped <;> cases stepped
      rename_i lists
      exact .announced node event order discovered live found lists

theorem step_move {env : Env} (stepped : node.step env action = some after) :
    Move env node action after := by
  cases action with
  | connect id remote incoming =>
      obtain ⟨router, connected, rfl⟩ := Option.map_eq_some_iff.mp stepped
      obtain ⟨free, rfl⟩ := Router.step_connect connected
      exact .connected node id remote incoming free
  | handler id event => exact handle_move stepped
  | ui input =>
      simp only [step] at stepped
      split at stepped <;> cases stepped
      rename_i isOpen
      exact .framed node input _ isOpen ui_frame
  | task id event => exact runTask_move stepped
  | discovery event order => exact discovery_move stepped
  | discoveryEnds =>
      cases stepped
      exact .ended node
  | tick elapsed =>
      cases stepped
      exact .waited node elapsed
  | close =>
      simp only [step] at stepped
      split at stepped <;> cases stepped
      rename_i idle
      exact .closed node idle.1 idle.2

theorem Frame.log_grows (frame : Frame decodeString input node after) : node.log <:+ after.log := by
  cases frame with
  | consumed | asked | declined | accepted => exact List.suffix_cons _ _
  | _ => exact List.suffix_rfl

theorem log_grows {env : Env} (run : Run (Steps (Node.step env)) node later after) :
    node.log <:+ after.log := by
  apply run.invariant (P := fun after => node.log <:+ after.log)
  · exact List.suffix_rfl
  · intro before action after grown stepped
    refine grown.trans ?_
    cases step_move stepped with
    | framed input after isOpen frame => exact frame.log_grows
    | connected | ended | waited | closed => exact List.suffix_rfl
    | _ => exact List.suffix_cons _ _

theorem receive_router : (node.receive id state event).router = node.router := by
  unfold receive
  split
  · split <;> rfl
  · rfl
  · rfl
  · rfl

theorem step_router {env : Env} (stepped : node.step env action = some after) :
    action.routed.elim (after.router = node.router) fun routed =>
      Steps (Router.step env.resolve env.parse) node.router routed after.router := by
  cases action with
  | connect id remote incoming =>
      obtain ⟨router, connected, rfl⟩ := Option.map_eq_some_iff.mp stepped
      exact connected
  | handler id event =>
      simp only [step, handle] at stepped
      split at stepped
      · obtain ⟨connection, _, stepped⟩ := Option.bind_eq_some_iff.mp stepped
        obtain ⟨router, routed, rfl⟩ := Option.map_eq_some_iff.mp stepped
        rw [receive_router]
        exact routed
      · cases stepped
  | ui input =>
      cases step_move stepped with
      | framed _ after isOpen frame => cases frame <;> rfl
  | task | discovery | discoveryEnds | tick | close => cases step_move stepped <;> rfl

/-- The program runs the router, and what holds of each run of the router holds of it. -/
theorem router_run {env : Env} (run : Run (Steps (Node.step env)) (.new files) past node) :
    Run (Steps (Router.step env.resolve env.parse)) (.new files)
      (past.filterMap Action.routed) node.router :=
  run.project router Action.routed step_router

/-- Each handler of the program runs as a connection of its own. -/
theorem connection_run {env : Env} (run : Run (Steps (Node.step env)) (.new files) past node)
    (known : node.router.handlers id = some connection) : ∃ remote incoming,
      Run (Steps (Connection.step env.parse)) (.new remote incoming)
        ((past.filterMap Action.routed).filterMap (RouterAction.own id)) connection :=
  (Router.connection_run (router_run run)).2 id connection known

end Node
end IrohShare
