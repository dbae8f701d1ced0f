import IrohShare.Router
import IrohShare.Sender
import IrohShare.Mdns
import IrohShare.Channel.Watch

/-! The application of `ui.rs`: its state, what it shares with the tasks in the
background, and the functions a frame calls, under their names in the source.
Painting is left out; a function keeps the clicks and texts it reacts to. -/
namespace IrohShare
open Wire Unix Channel

inductive SendStatus where
  | sending
  | completed
  | declined
  | failed
  deriving DecidableEq, Repr

def SendStatus.ofResult : Except Error SendOutcome → SendStatus
  | .ok .completed => .completed
  | .ok .declined => .declined
  | .error _ => .failed

structure ReceiveStatus where
  filename : String
  downloaded : UInt64
  total : UInt64
  completedAt : Option Nat
  deriving DecidableEq, Repr

/-- A new progress value completes the status when it reaches a nonzero total. -/
def ReceiveStatus.update (status : ReceiveStatus) (downloaded : UInt64) (now : Nat) :
    ReceiveStatus :=
  { status with
    downloaded
    completedAt := if 0 < status.total ∧ status.total ≤ downloaded then
      some (status.completedAt.getD now) else status.completedAt }

/-- A completed status is shown for two seconds. -/
def ReceiveStatus.expire (status : ReceiveStatus) (now : Nat) : Option ReceiveStatus :=
  if status.completedAt.any (fun completed => 2000 ≤ now - completed) then none else some status

/-- A reply channel is named by the handler that waits on it. -/
abbrev OfferRequest := Offer × Nat

structure App where
  peersSeen : Nat
  progressSeen : Nat
  peers : List Peer
  pendingOffers : Option OfferRequest
  droppedFiles : List PathBuf
  pickedPath : Option String
  peerPulseStarted : List (String × Nat)
  selectedPeer : Option (String × EndpointAddr)
  sendTotal : UInt64
  sendStatus : Option SendStatus
  ticketInput : Option String
  ticketError : Bool
  receiveStatus : Option ReceiveStatus
  deriving DecidableEq

def App.new : App := ⟨0, 0, [], none, [], none, [], none, 0, none, none, false, none⟩

/-- A spawned `run_sender`: before its offer is written, in its dialogue with the
receiver, or after its result has been handed over. -/
inductive TaskState where
  | preparing
  | talking (sender : Sender)
  | reported
  deriving DecidableEq

structure Task where
  filename : String
  endpointAddr : EndpointAddr
  state : TaskState
  deriving DecidableEq

inductive TaskEvent where
  | prepared
  | failed (error : Error)
  | sender (event : SenderEvent)
  | reports (result : Except Error SendOutcome)
  deriving DecidableEq

/-- What the user does and the system answers while one function of a frame runs. -/
structure Input where
  back : Bool := false
  useTicket : Bool := false
  typed : Option String := none
  ticketAction : Option Bool := none
  accept : Bool := false
  folder : Option PathBuf := none
  decline : Bool := false
  reset : Bool := false
  chooseFile : Bool := false
  file : Option PathBuf := none
  length : Option UInt64 := none
  clicked : List Bool := []
  dropped : List PathBuf := []
  deriving DecidableEq

/-- History entries; no function reads them. -/
inductive Entry where
  | handler (id : Nat) (event : Event)
  | discovery (event : DiscoveryEvent)
  | modal (request : OfferRequest) (decision : Option OfferDecision)
  | task (id : Nat) (event : TaskEvent)
  | consumed (id : Nat) (result : Except Error SendOutcome)
  deriving DecidableEq

/-- The functions of a frame, in the order `App::ui` calls them. -/
inductive FrameStage where
  | refreshPeers
  | refreshOffers
  | refreshSendStatus
  | refreshReceiveStatus
  | showHeader
  | showTicketModal
  | showPendingOffers
  | showContent
  | collectDroppedFiles
  deriving DecidableEq, Repr

def FrameStage.next : FrameStage → FrameStage
  | .refreshPeers => .refreshOffers
  | .refreshOffers => .refreshSendStatus
  | .refreshSendStatus => .refreshReceiveStatus
  | .refreshReceiveStatus => .showHeader
  | .showHeader => .showTicketModal
  | .showTicketModal => .showPendingOffers
  | .showPendingOffers => .showContent
  | .showContent => .collectDroppedFiles
  | .collectDroppedFiles => .refreshPeers

/-- The running program. `replies` holds the decisions sent on the one-shot
channels; each send result comes with the task it is from, which nothing reads. -/
structure Node where
  router : Router
  app : App
  stage : FrameStage
  isOpen : Bool
  now : Nat
  discovered : PeerMap
  peers : Watch (List Peer)
  offers : List OfferRequest
  replies : Nat → Option OfferDecision
  progress : Watch UInt64
  tasks : List Task
  sendProgress : Watch UInt64
  sendResults : List (Nat × Except Error SendOutcome)
  log : List Entry

def Input.decision (input : Input) : Option OfferDecision :=
  match input.accept, input.folder with
  | true, some path => some (.accept path)
  | _, _ => if input.decline then some .decline else none

/-- `char::is_whitespace`, which `trim` strips. -/
def isWhitespace (char : Char) : Bool :=
  (9 ≤ char.val ∧ char.val ≤ 13) ∨ char.val = 0x20 ∨ char.val = 0x85 ∨ char.val = 0xA0 ∨
    char.val = 0x1680 ∨ (0x2000 ≤ char.val ∧ char.val ≤ 0x200A) ∨ char.val = 0x2028 ∨
    char.val = 0x2029 ∨ char.val = 0x202F ∨ char.val = 0x205F ∨ char.val = 0x3000

def trim (text : String) : String :=
  String.ofList (((text.toList.dropWhile isWhitespace).reverse.dropWhile isWhitespace).reverse)

namespace Node

def refreshPeers (node : Node) : Node :=
  if node.peers.hasChanged node.app.peersSeen then
    let peers := node.peers.value
    { node with app := { node.app with
        peersSeen := node.peers.version
        peers
        peerPulseStarted := node.app.peerPulseStarted.filter fun (name, _) => peers.any (·.1 = name)
        selectedPeer := node.app.selectedPeer.filter fun (_, selected) =>
          peers.any (·.2.id = selected.id) } }
  else node

def refreshOffers (node : Node) : Node :=
  match node.app.pendingOffers, node.offers with
  | none, request :: offers =>
    { node with app := { node.app with pendingOffers := some request }, offers }
  | _, _ => node

def refreshSendStatus (node : Node) : Node :=
  match node.sendResults with
  | (id, result) :: sendResults =>
    { node with
      app := { node.app with sendStatus := some (.ofResult result) }
      sendResults
      log := .consumed id result :: node.log }
  | [] => node

def refreshReceiveStatus (node : Node) : Node :=
  match node.app.receiveStatus with
  | none => node
  | some status =>
    if node.progress.hasChanged node.app.progressSeen then
      { node with app := { node.app with
          progressSeen := node.progress.version
          receiveStatus := (status.update node.progress.value node.now).expire node.now } }
    else
      { node with app := { node.app with receiveStatus := status.expire node.now } }

/-- `length` is what the file system answers when asked for the file's size. -/
def sendFile (path : PathBuf) (length : Option UInt64) (node : Node) : Node :=
  match node.app.selectedPeer with
  | none => node
  | some (_, endpointAddr) =>
    if node.app.sendStatus = some .sending then node
    else
      { node with
        app := { node.app with sendTotal := length.getD 0, sendStatus := some .sending }
        sendProgress := node.sendProgress.send 0
        tasks := node.tasks ++ [⟨path.toStringLossy, endpointAddr, .preparing⟩] }

def sender (node : Node) : Option String :=
  node.app.pendingOffers.bind fun (offer, _) =>
    (node.app.peers.find? (·.2.id = offer.ticket.addr.id)).map (·.1)

def showPendingOffers (input : Input) (node : Node) : Node :=
  match node.app.pendingOffers with
  | none => node
  | some (offer, reply) =>
    let shown := { node with log := .modal (offer, reply) input.decision :: node.log }
    match input.decision with
    | none => shown
    | some .decline =>
      { shown with
        app := { node.app with pendingOffers := none }
        replies := Function.update node.replies reply (some .decline) }
    | some (.accept path) =>
      { shown with
        app := { node.app with
          pendingOffers := none
          progressSeen := node.progress.version
          receiveStatus := some ⟨offer.filename, 0, offer.filesize, none⟩ }
        replies := Function.update node.replies reply (some (.accept path)) }

def showHeader (input : Input) (node : Node) : Node :=
  match node.app.selectedPeer with
  | some _ =>
    if input.back ∧ node.app.sendStatus ≠ some .sending then
      { node with app := { node.app with
          selectedPeer := none, pickedPath := none, droppedFiles := [], sendStatus := none } }
    else node
  | none =>
    if input.useTicket then
      { node with app := { node.app with ticketInput := some "", ticketError := false } }
    else node

/-- `decodeString` parses an endpoint ticket. -/
def showTicketModal (decodeString : String → Option EndpointAddr) (input : Input)
    (node : Node) : Node :=
  match node.app.ticketInput with
  | none => node
  | some old =>
    let text := input.typed.getD old
    match input.ticketAction with
    | some true =>
      match decodeString (trim text) with
      | some endpointAddr =>
        { node with app := { node.app with
            selectedPeer := some ("Ticket device", endpointAddr)
            ticketInput := none
            ticketError := false } }
      | none => { node with app := { node.app with ticketInput := some text, ticketError := true } }
    | some false =>
      { node with app := { node.app with ticketInput := none, ticketError := false } }
    | none =>
      { node with app := { node.app with
          ticketInput := some text
          ticketError := node.app.ticketError && input.typed.isNone } }

def showFilePicker (input : Input) (node : Node) : Node :=
  match input.chooseFile, input.file with
  | true, some path =>
    if node.app.sendStatus = some .sending then node
    else { node with app := { node.app with
        droppedFiles := [], pickedPath := some path.toStringLossy } }.sendFile path input.length
  | _, _ => node

def selectedFilename (node : Node) : String :=
  let path := (node.app.pickedPath.map fun text => (⟨utf8 text⟩ : PathBuf)).or
    node.app.droppedFiles.head?
  fromUtf8Lossy ((path.bind PathBuf.fileName).getD [])

def showTransfer (input : Input) (node : Node) : Node :=
  match node.app.sendStatus with
  | some .completed | some .declined | some .failed =>
    if input.reset then
      { node with
        app := { node.app with
          pickedPath := none, droppedFiles := [], sendTotal := 0, sendStatus := none }
        sendProgress := node.sendProgress.send 0 }
    else node
  | _ => node

/-- Every listed name gets a pulse; the last device clicked is selected. -/
def showPeers (input : Input) (node : Node) : Node :=
  let pulses := node.app.peers.foldl (fun pulses (name, _) =>
    if pulses.any (·.1 = name) then pulses else (name, node.now) :: pulses)
      node.app.peerPulseStarted
  let selected := (node.app.peers.zip input.clicked).foldl
    (fun selected (peer, clicked) => if clicked then some peer else selected) none
  { node with app := { node.app with
      peerPulseStarted := pulses
      selectedPeer := selected.or node.app.selectedPeer } }

/-- `show_receive` only paints. -/
def showContent (input : Input) (node : Node) : Node :=
  if node.app.receiveStatus.isSome then node
  else if node.app.selectedPeer.isSome then
    if node.app.sendStatus.isSome then node.showTransfer input else node.showFilePicker input
  else node.showPeers input

def collectDroppedFiles (input : Input) (node : Node) : Node :=
  if node.app.sendStatus = some .sending then node
  else
    match input.dropped with
    | [] => node
    | path :: _ =>
      if path.bytes = [] then node
      else { node with app := { node.app with
          pickedPath := none, droppedFiles := [path] } }.sendFile path input.length

/-- One function of a frame. -/
def ui (decodeString : String → Option EndpointAddr) (input : Input) (node : Node) : Node :=
  match node.stage with
  | .refreshPeers => node.refreshPeers
  | .refreshOffers => node.refreshOffers
  | .refreshSendStatus => node.refreshSendStatus
  | .refreshReceiveStatus => node.refreshReceiveStatus
  | .showHeader => node.showHeader input
  | .showTicketModal => node.showTicketModal decodeString input
  | .showPendingOffers => node.showPendingOffers input
  | .showContent => node.showContent input
  | .collectDroppedFiles =>
    if node.app.selectedPeer.isSome then node.collectDroppedFiles input else node

end Node
end IrohShare
