import IrohShare.NodeMoves

/-! The receiving side of the program and the moves it makes: every step of the
program is one of them, so an invariant about receiving is proved by their cases. -/
namespace IrohShare
open Wire Unix Channel Transition

namespace Entry

def own (id : Nat) : Entry → Option Event
  | .handler actor event => if actor = id then some event else none
  | _ => none

def accepted : Entry → Option OfferRequest
  | .modal request (some (.accept _)) => some request
  | _ => none

def posted : Entry → Option (Nat × UInt64)
  | .handler id event => event.posts.map (id, ·)
  | _ => none

/-- Entries that do not concern receiving. -/
def quiet : Entry → Bool
  | .handler .. | .modal .. => false
  | _ => true

end Entry

def ownEvents (id : Nat) (log : List Entry) : List Event := log.filterMap (Entry.own id)

structure Receiving where
  handlers : Nat → Option Connection
  isOpen : Bool
  now : Nat
  pending : Option OfferRequest
  status : Option ReceiveStatus
  seen : Nat
  offers : List OfferRequest
  replies : Nat → Option OfferDecision
  progress : Watch UInt64
  log : List Entry

def Node.receiving (node : Node) : Receiving where
  handlers := node.router.handlers
  isOpen := node.isOpen
  now := node.now
  pending := node.app.pendingOffers
  status := node.app.receiveStatus
  seen := node.app.progressSeen
  offers := node.offers
  replies := node.replies
  progress := node.progress
  log := node.log

namespace Receiving

/-- What the reply channel answers a handler that waits for a decision. -/
def Answers (side : Receiving) (id : Nat) : Event → Prop
  | .decided (some decision) => side.replies id = some decision
  | .decided none => side.isOpen = false ∧ side.replies id = none
  | _ => True

def handle (side : Receiving) (id : Nat) (event : Event) (next : Connection) : Receiving :=
  { side with
    handlers := Function.update side.handlers id (some next)
    log := .handler id event :: side.log }

/-- The moves of the receiving side, at the frame function that is due. -/
inductive Move (parse : String → Option BlobTicket) (stage : FrameStage) :
    Receiving → Action → Receiving → Prop where
  | idle (side : Receiving) (action : Action) : Move parse stage side action side
  | noted (side : Receiving) (action : Action) (entry : Entry) (quiet : entry.quiet = true) :
      Move parse stage side action { side with log := entry :: side.log }
  | waited (side : Receiving) (elapsed : Nat) :
      Move parse stage side (.tick elapsed) { side with now := side.now + elapsed }
  | connected (side : Receiving) (id : Nat) (remote : EndpointId) (incoming : Bytes)
      (free : side.handlers id = none) : Move parse stage side (.connect id remote incoming)
      { side with handlers := Function.update side.handlers id (some (.new remote incoming)) }
  | handled (side : Receiving) (id : Nat) (event : Event) (connection next : Connection)
      (known : side.handlers id = some connection) (moved : connection.step parse event = some next)
      (answers : side.Answers id event) (silent : event.posts = none)
      (unoffered : event ≠ .offered true) :
      Move parse stage side (.handler id event) (side.handle id event next)
  | offered (side : Receiving) (id : Nat) (offer : Offer) (connection next : Connection)
      (known : side.handlers id = some connection) (state : connection.state = .offering offer)
      (moved : connection.step parse (.offered true) = some next) (isOpen : side.isOpen = true)
      (room : side.offers.length < 10) :
      Move parse stage side (.handler id (.offered true))
        { side.handle id (.offered true) next with offers := side.offers ++ [(offer, id)] }
  | posted (side : Receiving) (id : Nat) (event : Event) (bytes : UInt64)
      (connection next : Connection) (known : side.handlers id = some connection)
      (moved : connection.step parse event = some next) (posts : event.posts = some bytes) :
      Move parse stage side (.handler id event)
        { side.handle id event next with progress := side.progress.send bytes }
  | pulled (side : Receiving) (input : Input) (request : OfferRequest) (offers : List OfferRequest)
      (isOpen : side.isOpen = true) (empty : side.pending = none)
      (queued : side.offers = request :: offers) :
      Move parse stage side (.ui input) { side with pending := some request, offers }
  | polled (side : Receiving) (input : Input) (status : ReceiveStatus)
      (due : stage = .refreshReceiveStatus) (shown : side.status = some status)
      (changed : side.progress.hasChanged side.seen = true) : Move parse stage side (.ui input)
        { side with
          seen := side.progress.version
          status := (status.update side.progress.value side.now).expire side.now }
  | aged (side : Receiving) (input : Input) (status : ReceiveStatus)
      (due : stage = .refreshReceiveStatus) (shown : side.status = some status)
      (unchanged : side.progress.hasChanged side.seen = false) : Move parse stage side (.ui input)
        { side with status := status.expire side.now }
  | asked (side : Receiving) (input : Input) (request : OfferRequest)
      (due : stage = .showPendingOffers) (pending : side.pending = some request) (undecided : input.decision = none) :
      Move parse stage side (.ui input) { side with log := .modal request none :: side.log }
  | declined (side : Receiving) (input : Input) (offer : Offer) (id : Nat)
      (due : stage = .showPendingOffers) (isOpen : side.isOpen = true)
      (pending : side.pending = some (offer, id))
      (decision : input.decision = some .decline) : Move parse stage side (.ui input)
        { side with
          pending := none
          replies := Function.update side.replies id (some .decline)
          log := .modal (offer, id) (some .decline) :: side.log }
  | accepted (side : Receiving) (input : Input) (offer : Offer) (id : Nat)
      (downloadDir : PathBuf) (due : stage = .showPendingOffers) (isOpen : side.isOpen = true)
      (pending : side.pending = some (offer, id))
      (decision : input.decision = some (.accept downloadDir)) : Move parse stage side (.ui input)
        { side with
          pending := none
          seen := side.progress.version
          status := some ⟨offer.filename, 0, offer.filesize, none⟩
          replies := Function.update side.replies id (some (.accept downloadDir))
          log := .modal (offer, id) (some (.accept downloadDir)) :: side.log }
  | closed (side : Receiving) :
      Move parse stage side .close { side with isOpen := false, offers := [], pending := none }

end Receiving

namespace Node

variable {node after : Node} {id : Nat}

theorem answers_of_grants (granted : node.grants id event = true) :
    node.receiving.Answers id event := by
  cases event with
  | decided decision =>
      cases decision with
      | none =>
          have dropped : node.isOpen = false ∧ node.replies id = none := by
            simpa [grants] using granted
          exact dropped
      | some decision =>
          have sent : node.replies id = some decision := by simpa [grants] using granted
          exact sent
  | _ => trivial

/-- Most functions of a frame do not concern receiving. -/
theorem Frame.receiving (isOpen : node.isOpen = true)
    (frame : Frame decodeString input node after) :
    Receiving.Move parse node.stage node.receiving (.ui input) after.receiving := by
  cases frame with
  | pulled request offers empty queued =>
      exact .pulled node.receiving input request offers isOpen empty queued
  | consumed => exact .noted _ _ _ rfl
  | polled status due shown changed => exact .polled node.receiving input status due shown changed
  | aged status due shown unchanged => exact .aged node.receiving input status due shown unchanged
  | asked request due pending undecided =>
      exact .asked node.receiving input request due pending undecided
  | declined offer id due pending decision =>
      exact .declined node.receiving input offer id due isOpen pending decision
  | accepted offer id downloadDir due pending decision =>
      exact .accepted node.receiving input offer id downloadDir due isOpen pending decision
  | _ => exact .idle _ _

theorem step_receiving {env : Env} (stepped : node.step env action = some after) :
    Receiving.Move env.parse node.stage node.receiving action after.receiving := by
  cases step_move stepped with
  | connected id remote incoming free =>
      exact .connected node.receiving id remote incoming free
  | handled id event connection next known moved granted silent unoffered =>
      exact .handled node.receiving id event connection next known moved
        (answers_of_grants granted) silent unoffered
  | offered id offer connection next known state moved isOpen room =>
      exact .offered node.receiving id offer connection next known state moved isOpen room
  | posted id event bytes connection next known moved posts =>
      exact .posted node.receiving id event bytes connection next known moved posts
  | framed input after isOpen frame =>
      have moved : Receiving.Move env.parse node.stage node.receiving (.ui input) after.receiving :=
        frame.receiving isOpen
      exact moved
  | worked | published | reported | ignored | announced => exact .noted _ _ _ rfl
  | ended => exact .idle _ _
  | waited elapsed => exact .waited _ _
  | closed => exact .closed _

def refreshes (node : Node) : Action → Bool
  | .ui _ => node.stage = .refreshReceiveStatus
  | _ => false

end Node
end IrohShare
