import IrohShare.Transition.Family
import IrohShare.FileNames
import IrohShare.Node

/-! Devices that run the program and send each other files. A send task dials the device
it is addressed to, whose router starts a handler for it; the reply stream of that handler
is what the task reads. All other connections come from strangers and are not restricted. -/
namespace IrohShare
open Wire Unix Transition

/-- What is outside the programs: the identity of each device, which connections
authenticate, its file system, and the texts of tickets. -/
structure World (ι : Type) where
  ident : ι → EndpointId
  resolve : ι → PathBuf → PathBuf
  parse : String → Option BlobTicket
  toString : BlobTicket → String
  decodeString : String → Option EndpointAddr

def World.env (world : World ι) (i : ι) : Env :=
  ⟨world.resolve i, world.parse, world.decodeString⟩

/-- Writing an offer to a connection that carries `budget` bytes before it is lost. -/
def World.write (world : World ι) (offer : Offer) (budget : Option Nat) :
    Except Error Unit × SendStream :=
  offer.writeTo world.toString ⟨[], false, budget⟩

/-- The connection of a send task: the handler that serves it, the offer written to it,
and how much of the reply stream has arrived and has been read. -/
structure Link (ι : Type) where
  device : ι
  handler : Nat
  offer : Offer
  budget : Option Nat
  arrived : Nat
  consumed : Nat

structure Network (ι : Type) where
  nodes : ι → Node
  links : ι × Nat → Option (Link ι)

inductive NetworkAction (ι : Type) where
  | own (i : ι) (action : Action)
  | dial (i : ι) (task : Nat) (j : ι) (handler : Nat) (offer : Offer) (answers : Answers)
      (budget : Option Nat)
  | arrives (i : ι) (task : Nat)

/-- What the device `k` does in a step of the network. -/
def NetworkAction.at [DecidableEq ι] (world : World ι) (k : ι) : NetworkAction ι → Option Action
  | .own i action => if i = k then some action else none
  | .dial i _ j handler offer _ budget => if j = k then
      some (.connect handler (world.ident i) (world.write offer budget).2.written) else none
  | .arrives .. => none

namespace Network
variable {ι : Type} [DecidableEq ι]

def new (files : ι → List PathBuf) : Network ι := ⟨fun i => .new (files i), fun _ => none⟩

/-- The reply stream of a link. -/
def written (net : Network ι) (link : Link ι) : Bytes :=
  ((net.nodes link.device).router.handlers link.handler).elim [] (·.written)

/-- A send task goes on when its offer is written, and reads the bytes that have arrived. -/
def admits (world : World ι) (net : Network ι) (i : ι) : Action → Bool
  | .task id .prepared =>
    (net.links (i, id)).any fun link => (world.write link.offer link.budget).1 = .ok ()
  | .task id (.sender (.received byte)) => (net.links (i, id)).any fun link =>
      link.consumed < link.arrived ∧ (net.written link)[link.consumed]? = some byte
  | _ => true

def reads (net : Network ι) (i : ι) : Action → ι × Nat → Option (Link ι)
  | .task id (.sender (.received _)) => Function.update net.links (i, id)
      ((net.links (i, id)).map fun link => { link with consumed := link.consumed + 1 })
  | _ => net.links

/-- A task that has not connected yet may dial the device it is addressed to, with the
offer it prepares from its file. -/
def dials (world : World ι) (net : Network ι) (i : ι) (task : Nat) (j : ι) (offer : Offer)
    (answers : Answers) : Bool :=
  (net.links (i, task)).isNone && ((net.nodes i).tasks[task]?).any fun found =>
    found.state = .preparing ∧ found.endpointAddr.id = world.ident j ∧
      prepareOffer (world.ident i) found.filename answers = .ok offer

def step (world : World ι) (net : Network ι) : NetworkAction ι → Option (Network ι)
  | .own i action =>
    if net.admits world i action then
      (stepAt (fun i => Node.step (world.env i)) net.nodes i action).map fun nodes =>
        ⟨nodes, net.reads i action⟩
    else none
  | .dial i task j handler offer answers budget =>
    if net.dials world i task j offer answers then
      (stepAt (fun i => Node.step (world.env i)) net.nodes j
        (.connect handler (world.ident i) (world.write offer budget).2.written)).map fun nodes =>
          ⟨nodes, Function.update net.links (i, task)
            (some ⟨j, handler, offer, budget, 0, 0⟩)⟩
    else none
  | .arrives i task =>
    (net.links (i, task)).bind fun link =>
      if link.arrived < (net.written link).length then
        some ⟨net.nodes, Function.update net.links (i, task)
          (some { link with arrived := link.arrived + 1 })⟩
      else none

end Network
end IrohShare
