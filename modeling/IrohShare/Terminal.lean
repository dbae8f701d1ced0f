import IrohShare.Cli
import IrohShare.Node

/-! `Command::Receive` while connections come in: the loop of `main` takes requests from the
channel and confirms them one after the other, and the handlers go on meanwhile. -/
namespace IrohShare
open Wire Unix Channel

/-- Where the loop stands: in its `select!`, in a `confirm`, or behind its return. -/
inductive ReceiveLoop where
  | selecting
  | confirming (request : OfferRequest)
  | ended (result : Except Error Unit)
  deriving DecidableEq

def ReceiveLoop.request : ReceiveLoop → Option OfferRequest
  | .confirming request => some request
  | _ => none

/-- What `start_iroh` has started, whose window is never opened, and the loop with the
chunks of standard input it has not read yet. -/
structure Terminal where
  runtime : Node
  loop : ReceiveLoop
  stdin : List Bytes

inductive TerminalAction where
  | runtime (action : Action)
  | takes
  | confirms
  | ctrlC (ok : Bool)
  deriving DecidableEq

/-- The tasks that `start_iroh` leaves in the background. -/
def Action.background : Action → Bool
  | .connect .. | .handler .. | .discovery .. | .discoveryEnds | .tick _ => true
  | .ui _ | .task .. | .close => false

namespace Terminal

def new (files : List PathBuf) (stdin : List Bytes) : Terminal := ⟨.new files, .selecting, stdin⟩

def finish (terminal : Terminal) (result : Except Error Unit) : Terminal :=
  { terminal with
    runtime := { terminal.runtime with isOpen := false, offers := [] }
    loop := .ended result }

/-- A `confirm` returns: its decision is sent, or its error ends the loop. -/
def conclude (downloadDir : PathBuf) (terminal : Terminal) (request : OfferRequest) : Terminal :=
  match confirm terminal.stdin with
  | (.error error, stdin) => { terminal with stdin }.finish (.error error)
  | (.ok accepted, stdin) =>
    let decision := OfferDecision.ofAnswer downloadDir accepted
    { runtime := { terminal.runtime with
        replies := Function.update terminal.runtime.replies request.2 (some decision)
        log := .modal request (some decision) :: terminal.runtime.log }
      loop := .selecting
      stdin }

def step (env : Env) (downloadDir : PathBuf) (terminal : Terminal) :
    TerminalAction → Option Terminal
  | .runtime action =>
    if action.background then
      (terminal.runtime.step env action).map fun runtime => { terminal with runtime }
    else none
  | .takes =>
    match terminal.loop, terminal.runtime.offers with
    | .selecting, request :: offers =>
      some { terminal with
        runtime := { terminal.runtime with offers }
        loop := .confirming request }
    | _, _ => none
  | .confirms => terminal.loop.request.map (terminal.conclude downloadDir)
  -- a `confirm` does not listen to ctrl-c
  | .ctrlC ok =>
    if terminal.loop = .selecting then some (terminal.finish (if ok then .ok () else .error .io))
    else none

end Terminal
end IrohShare
