import IrohShare.Protocol

/-! The sender after it has written its offer: `run_sender` waits for the decision
and then reads download statuses. Like a receiving handler, a sender is the await
point it is suspended at; reads deliver one byte at a time. -/
namespace IrohShare
open Wire

inductive SendOutcome where
  | completed
  | declined
  deriving DecidableEq, Repr

inductive SenderEvent where
  | received (byte : UInt8)
  | readFailed
  | timedOut
  | published (bytes : UInt64) (ok : Bool)
  deriving DecidableEq, Repr

inductive Sender where
  | deciding
  | reading
  | counting (got : Bytes)
  | publishing (bytes : UInt64)
  | returned (result : Except Error SendOutcome)
  deriving DecidableEq

/-- Reading one byte: `transfer_decision` first, then `downloaded`, whose progress
values are eight bytes long. -/
def Sender.feed : Sender → UInt8 → Sender
  | .deciding, byte =>
    match DecisionStatus.tryFrom byte with
    | .ok .accepted => .reading
    | .ok .declined => .returned (.ok .declined)
    | .error error => .returned (.error error)
  | .reading, byte =>
    if byte = 2 then .counting []
    else if byte = 3 then .returned (.ok .completed)
    else if byte = 4 then .returned (.error (.message "download failed"))
    else .returned (.error (.message s!"invalid download status: {byte}"))
  | .counting got, byte =>
    if got.length = 7 then .publishing (fromBigEndian (got ++ [byte])).toUInt64
    else .counting (got ++ [byte])
  | state, _ => state

def Sender.step : Sender → SenderEvent → Option Sender
  | .returned _, _ => none
  | .publishing bytes, .published value ok =>
    if value = bytes then some (if ok then .reading else .returned (.error .noReceiver)) else none
  | .publishing _, _ => none
  | state, .received byte => some (state.feed byte)
  | .deciding, .timedOut =>
    some (.returned (.error (.message "receiver did not respond within 60 seconds")))
  | .deciding, .readFailed =>
    some (.returned (.error (.message "accept byte was not received")))
  | .reading, .readFailed => some (.returned (.error .unexpectedEof))
  | .counting _, .readFailed => some (.returned (.error .unexpectedEof))
  | _, _ => none

end IrohShare
