import IrohShare.Ui

/-! The whole program as a transition system: handlers, the window's frames, send
tasks and discovery take steps in any order. A frame may be interleaved with the
tasks between any two of its functions. -/
namespace IrohShare
open Wire Unix Channel

/-- What comes from outside the program's code: how the file system resolves paths,
and the parsers of blob tickets and endpoint tickets. -/
structure Env where
  resolve : PathBuf → PathBuf
  parse : String → Option BlobTicket
  decodeString : String → Option EndpointAddr

inductive Action where
  | connect (id : Nat) (remote : EndpointId) (incoming : Bytes)
  | handler (id : Nat) (event : Event)
  | ui (input : Input)
  | task (id : Nat) (event : TaskEvent)
  | discovery (event : DiscoveryEvent) (order : List Peer)
  | discoveryEnds
  | tick (elapsed : Nat)
  | close
  deriving DecidableEq

/-- One step of a send task, up to handing over its result. -/
def TaskState.step : TaskState → TaskEvent → Option TaskState
  | .preparing, .prepared => some (.talking .deciding)
  | .preparing, .failed error => some (.talking (.returned (.error error)))
  | .talking sender, .sender event => (sender.step event).map .talking
  | .talking (.returned result), .reports value => if value = result then some .reported else none
  | _, _ => none

namespace Node

/-- The channels are those of `start_iroh` and `ui::run`. -/
def new (files : List PathBuf) : Node where
  router := .new files
  app := .new
  stage := .refreshPeers
  isOpen := true
  now := 0
  discovered := ∅
  peers := .channel []
  offers := []
  replies := fun _ => none
  progress := .channel 0
  tasks := []
  sendProgress := .channel 0
  sendResults := []
  log := []

/-- What a handler is told by the channels to the window: the offer channel holds ten
requests, a reply channel is dropped with the window, and progress needs a window. -/
def grants (node : Node) (id : Nat) : Event → Bool
  | .offered true => node.isOpen ∧ node.offers.length < 10
  | .offered false => !node.isOpen
  | .decided (some decision) => node.replies id = some decision
  | .decided none => !node.isOpen ∧ node.replies id = none
  | .published _ ok => ok = node.isOpen
  | _ => true

/-- What a handler's event puts into the channels to the window. -/
def receive (node : Node) (id : Nat) (state : Handler) : Event → Node
  | .offered true =>
    match state with
    | .offering offer => { node with offers := node.offers ++ [(offer, id)] }
    | _ => node
  | .published bytes true => { node with progress := node.progress.send bytes }
  | .replaced bytes => { node with progress := node.progress.send bytes }
  | _ => node

def handle (env : Env) (id : Nat) (event : Event) (node : Node) : Option Node :=
  if node.grants id event then
    (node.router.handlers id).bind fun connection =>
      (node.router.step env.resolve env.parse (.handler id event)).map fun router =>
        { node with router, log := .handler id event :: node.log }.receive id connection.state event
  else none

def taskGrants (node : Node) : TaskEvent → Bool
  | .sender (.published _ ok) => ok = node.isOpen
  | _ => true

/-- What a send task's event puts into the channels to the window. -/
def taskReceive (node : Node) (id : Nat) : TaskEvent → Node
  | .sender (.published bytes true) => { node with sendProgress := node.sendProgress.send bytes }
  | .reports result =>
    if node.isOpen then { node with sendResults := node.sendResults ++ [(id, result)] } else node
  | _ => node

def runTask (id : Nat) (event : TaskEvent) (node : Node) : Option Node :=
  if node.taskGrants event then
    (node.tasks[id]?).bind fun task => (task.state.step event).map fun state =>
      { node with
        tasks := node.tasks.set id { task with state }
        log := .task id event :: node.log }.taskReceive id event
  else none

def discovery (event : DiscoveryEvent) (order : List Peer) (node : Node) : Option Node :=
  if node.peers.closed then none
  else
    match discover node.discovered event with
    | none => some { node with log := .discovery event :: node.log }
    | some discovered =>
      if discovered.Lists order then
        some { node with
          discovered
          peers := if node.isOpen then node.peers.send order else { node.peers with closed := true }
          log := .discovery event :: node.log }
      else none

def step (env : Env) (node : Node) : Action → Option Node
  | .connect id remote incoming =>
    (node.router.step env.resolve env.parse (.connect id remote incoming)).map fun router =>
      { node with router }
  | .handler id event => node.handle env id event
  | .ui input =>
    if node.isOpen then some { node.ui env.decodeString input with stage := node.stage.next }
    else none
  | .task id event => node.runTask id event
  | .discovery event order => node.discovery event order
  | .discoveryEnds => some { node with peers := { node.peers with closed := true } }
  | .tick elapsed => some { node with now := node.now + elapsed }
  | .close =>
    if node.isOpen ∧ node.stage = .refreshPeers then
      some { node with
        isOpen := false, offers := [], app := { node.app with pendingOffers := none } }
    else none

end Node
end IrohShare
