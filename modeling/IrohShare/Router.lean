import IrohShare.Receiver
import Mathlib.Logic.Function.Basic

/-! The router: it runs one handler for each connection, all against one file
system. How the file system resolves a path to a file is a parameter; only
exports of the handlers write while the router runs. -/
namespace IrohShare
open Wire Unix

structure Router where
  handlers : Nat → Option Connection
  files : List PathBuf

inductive RouterAction where
  | connect (id : Nat) (remote : EndpointId) (incoming : Bytes)
  | handler (id : Nat) (event : Event)
  deriving DecidableEq

/-- The file an event creates, or truncates and replaces. -/
def Event.creates : Event → Option PathBuf
  | .exported _ target .saved => some target
  | .exported _ target (.failed true) => some target
  | _ => none

namespace Router

def new (files : List PathBuf) : Router := ⟨fun _ => none, files⟩

/-- The answers of the file system: `try_exists` tells whether the file is there. -/
def grants (resolve : PathBuf → PathBuf) (router : Router) : Event → Bool
  | .existed target (some found) => found = decide (resolve target ∈ router.files)
  | _ => true

def step (resolve : PathBuf → PathBuf) (parse : String → Option BlobTicket) (router : Router) :
    RouterAction → Option Router
  | .connect id remote incoming =>
    if router.handlers id = none then
      some { router with
        handlers := Function.update router.handlers id (some (.new remote incoming)) }
    else none
  | .handler id event =>
    if router.grants resolve event then
      (router.handlers id).bind fun connection =>
        (connection.step parse event).map fun next =>
          { handlers := Function.update router.handlers id (some next)
            files := event.creates.toList.map resolve ++ router.files }
    else none

/-- The export opens a file that exists at that moment. -/
def Overwrites (resolve : PathBuf → PathBuf) (router : Router) : RouterAction → Prop
  | .handler _ event => ∃ target, event.creates = some target ∧ resolve target ∈ router.files
  | .connect .. => False

end Router

/-- The handler has looked for its target and found nothing. -/
def RouterAction.clears (id : Nat) : RouterAction → Bool
  | .handler actor (.existed _ (some false)) => actor = id
  | _ => false

/-- What has happened since the handler found its target absent. -/
def sinceCleared (id : Nat) (past : List RouterAction) : List RouterAction :=
  past.takeWhile fun action => !action.clears id

/-- Since the handler found its target absent, another handler has created that file. -/
def Raced (resolve : PathBuf → PathBuf) (past : List RouterAction) (id : Nat)
    (target : PathBuf) : Prop :=
  ∃ other event path, other ≠ id ∧ .handler other event ∈ sinceCleared id past ∧
    event.creates = some path ∧ resolve path = resolve target

/-- A handler exports after another one has created the same file since its check. -/
def RouterAction.LosesRace (resolve : PathBuf → PathBuf) (past : List RouterAction) :
    RouterAction → Prop
  | .handler id event => ∃ target, event.creates = some target ∧ Raced resolve past id target
  | .connect .. => False

end IrohShare
