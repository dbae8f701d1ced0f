import IrohShare.Ui
import IrohShare.Buffered.Reader

/-! Receiving from the command line: each offer is confirmed on standard input, which is
shared and delivers its bytes in chunks. -/
namespace IrohShare
open Wire Unix Buffered

def newline : UInt8 := 0x0A

/-- `to_ascii_lowercase`: Lean's `toLower` changes ASCII letters only. -/
def toAsciiLowercase (text : String) : String := String.ofList (text.toList.map Char.toLower)

/-- What a line answers; `read_line` fails on bytes that are not UTF-8. -/
def answer (line : Bytes) : Except Error Bool :=
  match fromUtf8 line with
  | some text => .ok (toAsciiLowercase (trim text) = "y")
  | none => .error .io

/-- One `confirm`, which makes a reader of its own and drops it: the answer, and the
chunks of standard input that are left. -/
def confirm (stdin : List Bytes) : Except Error Bool × List Bytes :=
  (answer (readUntil newline stdin).1, (readUntil newline stdin).2)

def OfferDecision.ofAnswer (downloadDir : PathBuf) : Bool → OfferDecision
  | true => .accept downloadDir
  | false => .decline

/-- The loop of `Command::Receive` over the requests it takes from the channel: the
decisions it sends to their reply channels, and how it ends. -/
def receive (downloadDir : PathBuf) :
    List OfferRequest → List Bytes → List (Nat × OfferDecision) × Except Error Unit
  | [], _ => ([], .ok ())
  | (_, reply) :: requests, stdin =>
    match confirm stdin with
    | (.error error, _) => ([], .error error)
    | (.ok accepted, rest) =>
      ((reply, .ofAnswer downloadDir accepted) :: (receive downloadDir requests rest).1,
        (receive downloadDir requests rest).2)

end IrohShare
