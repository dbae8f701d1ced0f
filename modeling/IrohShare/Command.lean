import IrohShare.Terminal
import IrohShare.Wire.Decimal

/-! Sending from the command line: `parse_arguments`, `select_receiver` among the devices
that discovery has found, and `Command::Send` of `main`, which runs the sender. -/
namespace IrohShare
open Wire Unix Channel Buffered

inductive Command where
  | ui
  | send (filename : String) (endpointAddr : Option EndpointAddr)
  | receive (downloadDir : PathBuf)
  | help
  | version
  deriving DecidableEq

/-- What `parse_arguments` asks: the parser of tickets, and the system for directories. -/
structure Shell where
  decodeString : String → Except String EndpointAddr
  currentDir : Except Error PathBuf
  absolute : String → Except Error PathBuf

/-- Usage and version are printed on the way. -/
def parseArguments (shell : Shell) : List String → Except Error Command
  | [] => .ok .ui
  | ["send", filename, ticketStr] =>
    match shell.decodeString ticketStr with
    | .ok endpointAddr => .ok (.send filename (some endpointAddr))
    | .error e => .error (.message s!"failed to parse ticket: {e}")
  | ["send", filename] => .ok (.send filename none)
  | ["receive"] => shell.currentDir.map .receive
  | ["receive", downloadDir] => (shell.absolute downloadDir).map .receive
  | ["help"] | ["-h"] | ["--help"] => .ok .help
  | ["version"] | ["-V"] | ["--version"] => .ok .version
  | ["send"] => .error (.message "send requires <FILE> [TICKET]")
  | "send" :: _ :: _ :: _ => .error (.message "send accepts <FILE> [TICKET]")
  | "receive" :: _ :: _ => .error (.message "receive accepts [DOWNLOAD_DIR]")
  | arg :: _ => .error (.message s!"unknown command {arg}")

def parseUsize (text : String) : Option Nat := parseUnsigned (2 ^ 64) text

def receiverLines (devices : List Peer) : List String :=
  devices.mapIdx fun i peer => s!"{i + 1}. {peer.1}"

/-- What a line of input selects in the list. -/
def selectDevice (devices : List Peer) (line : Bytes) : Except Error EndpointAddr :=
  match fromUtf8 line with
  | none => .error .io
  | some input =>
    match parseUsize (trim input) with
    | none => .error (.message "selection must be a number")
    | some 0 => .error (.message "selection out of range")
    | some (idx + 1) =>
      match devices[idx]? with
      | none => .error (.message "selection out of range")
      | some (_, endpointAddr) => .ok endpointAddr

/-- Where `Command::Send` stands: in the waits of `select_receiver`, before its prompt, in
`run_sender`, or behind its return. -/
inductive SendPoint where
  | searching
  | sleeping (since : Nat)
  | choosing (devices : List Peer)
  | sending (endpointAddr : EndpointAddr) (task : TaskState)
  | ended (result : Except Error Unit)
  deriving DecidableEq

structure SendCommand where
  runtime : Node
  point : SendPoint
  stdin : List Bytes

inductive SendAction where
  | runtime (action : Action)
  | finds
  | wakes
  | chooses
  | task (event : TaskEvent)
  | returns
  deriving DecidableEq

namespace SendCommand

/-- With a ticket nothing is selected. -/
def new (files : List PathBuf) (stdin : List Bytes) : Option EndpointAddr → SendCommand
  | some endpointAddr => ⟨.new files, .sending endpointAddr .preparing, stdin⟩
  | none => ⟨.new files, .searching, stdin⟩

def finish (command : SendCommand) (result : Except Error Unit) : SendCommand :=
  { command with
    runtime := { command.runtime with isOpen := false, offers := [] }
    point := .ended result }

def find (command : SendCommand) : Option SendCommand :=
  if command.runtime.peers.value ≠ [] then
    some { command with point := .sleeping command.runtime.now }
  else if command.runtime.peers.closed then
    some (command.finish (.error (.message "device discovery stopped")))
  else none

/-- A line is read from standard input by a reader of its own. -/
def choose (command : SendCommand) (devices : List Peer) : SendCommand :=
  let (line, stdin) := readUntil newline command.stdin
  match selectDevice devices line with
  | .ok endpointAddr => { command with point := .sending endpointAddr .preparing, stdin }
  | .error error => { command with stdin }.finish (.error error)

/-- The sender gets the channel of the receiving side for its progress. -/
def publish (runtime : Node) : TaskEvent → Option Node
  | .sender (.published bytes true) => some { runtime with progress := runtime.progress.send bytes }
  | .sender (.published _ false) | .reports _ => none
  | _ => some runtime

def step (env : Env) (command : SendCommand) : SendAction → Option SendCommand
  | .runtime action =>
    if action.background then
      (command.runtime.step env action).map fun runtime => { command with runtime }
    else none
  | .finds => if command.point = .searching then command.find else none
  | .wakes =>
    match command.point with
    | .sleeping since =>
      if 2000 ≤ command.runtime.now - since then
        some { command with point := .choosing command.runtime.peers.value }
      else none
    | _ => none
  | .chooses =>
    match command.point with
    | .choosing devices => some (command.choose devices)
    | _ => none
  | .task event =>
    match command.point with
    | .sending endpointAddr task =>
      (publish command.runtime event).bind fun runtime => (task.step event).map fun task =>
        { command with runtime, point := .sending endpointAddr task }
    | _ => none
  | .returns =>
    match command.point with
    | .sending _ (.talking (.returned result)) => some (command.finish (result.map fun _ => ()))
    | _ => none

end SendCommand
end IrohShare
