import IrohShare.Protocol

/-! The receiver's connection handler, `OfferProtocol::accept`. A handler is the
await point it is suspended at; an event is what it does there together with
the answer it gets. Code between two awaits runs with the event. -/
namespace IrohShare
open Wire Unix

inductive OfferDecision where
  | accept (downloadDir : PathBuf)
  | decline
  deriving DecidableEq, Repr

inductive AcceptError where
  | notAllowed
  | connection
  | user (error : Error)
  deriving DecidableEq, Repr

/-- The items of a download's progress stream; `other` stands for those ignored. -/
inductive DownloadProgressItem where
  | progress (bytes : UInt64)
  | error (text : String)
  | downloadError
  | other
  deriving DecidableEq, Repr

/-- A failed export may have opened (and so created or emptied) its target. -/
inductive ExportResult where
  | saved
  | failed (opened : Bool)
  deriving DecidableEq, Repr

inductive Event where
  | acceptBi (ok : Bool)
  | read (result : Except Error Offer)
  | offered (ok : Bool)
  | decided (decision : Option OfferDecision)
  | wrote (byte : UInt8)
  | writeFailed
  | finished (ok : Bool)
  | closed
  | existed (target : PathBuf) (found : Option Bool)
  | opened (hash : Hash) (provider : EndpointId) (ok : Bool)
  | item (item : Option DownloadProgressItem)
  | published (bytes : UInt64) (ok : Bool)
  | exported (hash : Hash) (target : PathBuf) (result : ExportResult)
  | replaced (filesize : UInt64)
  | lost
  deriving DecidableEq

/-- The await points of `download`, once it has computed its target. -/
inductive Download where
  | checking
  | opening
  | downloading
  | publishing (bytes : UInt64)
  | reporting (pending : Bytes)
  | exporting
  | replacing
  deriving DecidableEq, Repr

/-- `send_progress` first tells the local UI, then the sender. -/
def sendProgress (bytes : UInt64) : Download := .publishing bytes

/-- What `download` does with the next item of its stream. -/
def Download.onItem : Option DownloadProgressItem → Download ⊕ Except Error Unit
  | none => .inl .exporting
  | some (.progress bytes) => .inl (sendProgress bytes)
  | some (.error text) => .inr (.error (.message s!"download failed {text}"))
  | some .downloadError => .inr (.error (.message "download failed"))
  | some .other => .inl .downloading

/-- One await of `download`: where it goes on, or the result it returns. -/
def Download.step (offer : Offer) (target : PathBuf) :
    Download → Event → Option (Download ⊕ Except Error Unit)
  | .checking, .existed path found =>
    if path = target then
      some (match found with
        | some false => .inl .opening
        | some true => .inr (.error (.message s!"file {target.toStringLossy} already exists"))
        | none => .inr (.error .io))
    else none
  | .opening, .opened hash provider ok =>
    if hash = offer.ticket.hash ∧ provider = offer.ticket.addr.id then
      some (if ok then .inl .downloading else .inr (.error (.message "failed to download")))
    else none
  | .downloading, .item item => some (onItem item)
  | .publishing bytes, .published value ok =>
    if value = bytes then
      some (if ok then .inl (.reporting (DownloadStatus.progress bytes).bytes)
        else .inr (.error .noReceiver))
    else none
  | .reporting (byte :: pending), .wrote value =>
    if value = byte then some (.inl (if pending = [] then .downloading else .reporting pending))
    else none
  | .reporting _, .writeFailed => some (.inr (.error .connectionLost))
  | .exporting, .exported hash path result =>
    if hash = offer.ticket.hash ∧ path = target then
      some (match result with
        | .saved => .inl .replacing
        | .failed _ => .inr (.error (.message "failed to export")))
    else none
  | .replacing, .replaced filesize =>
    if filesize = offer.filesize then some (.inr (.ok ())) else none
  | _, _ => none

inductive Handler where
  | accepting
  | reading
  | offering (offer : Offer)
  | deciding (offer : Offer)
  | declining
  | accepted (offer : Offer) (downloadDir : PathBuf)
  | downloading (offer : Offer) (target : PathBuf) (point : Download)
  | completing
  | failing (error : Error)
  | finishing (result : Except AcceptError Unit)
  | closing (result : Except AcceptError Unit)
  | returned (result : Except AcceptError Unit)
  deriving DecidableEq

/-- Where the export of this offer goes, when its name has a last component. -/
def targetOf (downloadDir : PathBuf) (offer : Offer) : Option PathBuf :=
  (PathBuf.fileName ⟨utf8 offer.filename⟩).map fun filename => downloadDir.join ⟨filename⟩

/-- The start of `download`: without a file name it fails before its first await. -/
def download (downloadDir : PathBuf) (offer : Offer) : Handler :=
  match targetOf downloadDir offer with
  | none => .failing (.message "offer contains no filename")
  | some target => .downloading offer target .checking

def declineDecision : Handler := .declining

def acceptDecision (downloadDir : PathBuf) (offer : Offer) : Handler := .accepted offer downloadDir

/-- `accept_decision` goes on with the result of `download`. -/
def Handler.resume (offer : Offer) (target : PathBuf) :
    Download ⊕ Except Error Unit → Handler
  | .inl point => .downloading offer target point
  | .inr (.ok ()) => .completing
  | .inr (.error error) => .failing error

/-- An offer must name the remote end as its provider. -/
def Handler.onRead (remote : EndpointId) : Except Error Offer → Handler
  | .ok offer =>
    if offer.ticket.addr.id ≠ remote then .returned (.error .notAllowed) else .offering offer
  | .error error => .returned (.error (.user error))

def Handler.onDecision (offer : Offer) : Option OfferDecision → Handler
  | some (.accept downloadDir) => acceptDecision downloadDir offer
  | some .decline => declineDecision
  | none => declineDecision

/-- Only a successful transfer minds whether its stream can be finished. -/
def Handler.onFinished : Except AcceptError Unit → Bool → Handler
  | .ok (), false => .returned (.error (.user .closedStream))
  | result, _ => .closing result

/-- Awaiting a write of one byte. -/
def Event.afterWrite (bytes : Bytes) (next failed : Handler) : Event → Option Handler
  | .wrote byte => if [byte] = bytes then some next else none
  | .writeFailed => some failed
  | _ => none

def Handler.step (remote : EndpointId) (state : Handler) (event : Event) : Option Handler :=
  if event = .lost then some state
  else
    match state with
    | .accepting =>
      match event with
      | .acceptBi ok => some (if ok then .reading else .returned (.error .connection))
      | _ => none
    | .reading =>
      match event with
      | .read result => some (onRead remote result)
      | _ => none
    | .offering offer =>
      match event with
      | .offered true => some (.deciding offer)
      | .offered false =>
        some (.returned (.error (.user (.message "failed to send offer to UI"))))
      | _ => none
    | .deciding offer =>
      match event with
      | .decided decision => some (onDecision offer decision)
      | _ => none
    | .declining => event.afterWrite [DecisionStatus.declined.toU8]
        (.finishing (.error .notAllowed)) (.finishing (.error .notAllowed))
    | .accepted offer downloadDir => event.afterWrite [DecisionStatus.accepted.toU8]
        (download downloadDir offer) (.returned (.error (.user .connectionLost)))
    | .downloading offer target point =>
      (point.step offer target event).map (Handler.resume offer target)
    | .completing => event.afterWrite DownloadStatus.completed.bytes
        (.finishing (.ok ())) (.returned (.error (.user .connectionLost)))
    | .failing error => event.afterWrite DownloadStatus.failed.bytes
        (.finishing (.error (.user error))) (.returned (.error (.user .connectionLost)))
    | .finishing result =>
      match event with
      | .finished ok => some (onFinished result ok)
      | _ => none
    | .closing result =>
      match event with
      | .closed => some (.returned result)
      | _ => none
    | .returned _ => none

/-- One connection: whom it comes from, the bytes of its offer stream, and the
reply stream, whose writes all fail once it is broken. -/
structure Connection where
  remote : EndpointId
  incoming : Bytes
  written : Bytes
  broken : Bool
  state : Handler
  deriving DecidableEq

def Connection.new (remote : EndpointId) (incoming : Bytes) : Connection :=
  ⟨remote, incoming, [], false, .accepting⟩

/-- The streams decide which answers a handler can get: reading yields the decoded
offer or a connection error, and writing fails exactly on a broken stream. -/
def Connection.admits (parse : String → Option BlobTicket) (connection : Connection) :
    Event → Bool
  | .read result =>
    result = Offer.decode parse connection.incoming ∨ result = .error .connectionLost
  | .wrote _ => !connection.broken
  | .writeFailed => connection.broken
  | _ => true

@[simp] theorem Connection.admits_read (parse : String → Option BlobTicket)
    (connection : Connection) (result : Except Error Offer) :
    connection.admits parse (.read result) =
      decide (result = Offer.decode parse connection.incoming ∨
        result = .error .connectionLost) := rfl

@[simp] theorem Connection.admits_wrote (parse : String → Option BlobTicket)
    (connection : Connection) (byte : UInt8) :
    connection.admits parse (.wrote byte) = !connection.broken := rfl

def Event.bytes : Event → Bytes
  | .wrote byte => [byte]
  | _ => []

def Connection.step (parse : String → Option BlobTicket) (connection : Connection)
    (event : Event) : Option Connection :=
  if connection.admits parse event then
    (connection.state.step connection.remote event).map fun state =>
      { connection with
        written := connection.written ++ event.bytes
        broken := connection.broken || event = .lost
        state }
  else none

end IrohShare
