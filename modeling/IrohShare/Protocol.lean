import IrohShare.Unix.Path

/-! The wire protocol: transfer offers, the receiver's decision and the download
status, as `protocol.rs` reads and writes them. The ticket text comes from the
blob crate and is a parameter of the codec. -/
namespace IrohShare
open Wire

structure EndpointId where
  key : BitVec 256
  deriving DecidableEq, Repr

structure Hash where
  digest : BitVec 256
  deriving DecidableEq, Repr

structure EndpointAddr where
  id : EndpointId
  addrs : List String
  deriving DecidableEq, Repr

inductive BlobFormat where
  | raw
  | hashSeq
  deriving DecidableEq, Repr

structure BlobTicket where
  addr : EndpointAddr
  hash : Hash
  format : BlobFormat
  deriving DecidableEq, Repr

inductive Error where
  | unexpectedEof
  | tooLong
  | tryFromInt
  | connectionLost
  | closedStream
  | noReceiver
  | io
  | message (text : String)
  deriving DecidableEq, Repr

/-- The sending half of a stream. The connection carries `budget` more bytes
before it is lost; without a budget writes never fail. -/
structure SendStream where
  written : Bytes
  finished : Bool
  budget : Option Nat
  deriving DecidableEq, Repr

/-- A writer leaves the stream as it is at the point where it fails. -/
abbrev Writer := ExceptT Error (StateM SendStream)

def writeAll (bytes : Bytes) : Writer Unit := fun stream =>
  match stream.budget with
  | none => (.ok (), { stream with written := stream.written ++ bytes })
  | some room =>
    if bytes.length ≤ room then
      (.ok (), { stream with written := stream.written ++ bytes, budget := some (room - bytes.length) })
    else
      (.error .connectionLost,
        { stream with written := stream.written ++ bytes.take room, budget := some 0 })

def writeU8 (value : UInt8) : Writer Unit := writeAll [value]

def writeU16 (value : UInt16) : Writer Unit := writeAll (u16Bytes value)

def writeU64 (value : UInt64) : Writer Unit := writeAll (u64Bytes value)

def finish : Writer Unit := fun stream =>
  if stream.finished then (.error .closedStream, stream)
  else (.ok (), { stream with finished := true })

def context (value : Option α) (text : String) : Except Error α :=
  match value with
  | some value => .ok value
  | none => .error (.message text)

def ensure (condition : Bool) (text : String) : Except Error Unit :=
  if condition then .ok () else .error (.message text)

def u16TryFrom (value : Nat) : Except Error UInt16 :=
  if value < 65536 then .ok value.toUInt16 else .error .tryFromInt

structure Offer where
  filename : String
  filesize : UInt64
  ticket : BlobTicket
  deriving DecidableEq, Repr

def Offer.readFrom (parse : String → Option BlobTicket) : Reader Error Offer := do
  let filenameLen ← readU16 .unexpectedEof
  ensure (filenameLen.toNat ≤ 255) "filename too long"
  let filename ← readExact .unexpectedEof filenameLen.toNat
  let filename ← context (fromUtf8 filename) "filename is not valid utf8"
  let filesize ← readU64 .unexpectedEof
  let ticket ← readToEnd .tooLong 4096
  let ticket ← context (fromUtf8 ticket) "ticket is not valid utf8"
  let ticket ← context (parse ticket) "invalid blob ticket"
  return { filename, filesize, ticket }

/-- `read_from` on a stream of exactly these bytes. -/
def Offer.decode (parse : String → Option BlobTicket) (bytes : Bytes) : Except Error Offer :=
  (Offer.readFrom parse).run' bytes

def Offer.writeTo (toString : BlobTicket → String) (offer : Offer) : Writer Unit := do
  let filename := utf8 offer.filename
  let ticket := toString offer.ticket
  writeU16 (← u16TryFrom filename.length)
  writeAll filename
  writeU64 offer.filesize
  writeAll (utf8 ticket)
  finish

inductive DecisionStatus where
  | declined
  | accepted
  deriving DecidableEq, Repr

def DecisionStatus.toU8 : DecisionStatus → UInt8
  | .declined => 0
  | .accepted => 1

def DecisionStatus.tryFrom (value : UInt8) : Except Error DecisionStatus :=
  if value = 0 then .ok .declined
  else if value = 1 then .ok .accepted
  else .error (.message "invalid transfer status")

inductive DownloadStatus where
  | progress (downloaded : UInt64)
  | completed
  | failed
  deriving DecidableEq, Repr

def DownloadStatus.readFrom : Reader Error DownloadStatus := do
  let value ← readU8 .unexpectedEof
  if value = 2 then return .progress (← readU64 .unexpectedEof)
  else if value = 3 then return .completed
  else if value = 4 then return .failed
  else throw (.message s!"invalid download status: {value}")

def DownloadStatus.writeTo : DownloadStatus → Writer Unit
  | .progress downloaded => do
    writeU8 2
    writeU64 downloaded
  | .completed => writeU8 3
  | .failed => writeU8 4

def DownloadStatus.bytes : DownloadStatus → Bytes
  | .progress downloaded => 2 :: u64Bytes downloaded
  | .completed => [3]
  | .failed => [4]

def transferDecision : Reader Error DecisionStatus := fun stream =>
  match readU8 Error.unexpectedEof stream with
  | .ok (byte, rest) => (DecisionStatus.tryFrom byte).map (·, rest)
  | .error _ => .error (.message "accept byte was not received")

end IrohShare
