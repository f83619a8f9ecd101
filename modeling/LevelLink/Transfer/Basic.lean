import LevelLink.Files.Writer
import LevelLink.Link.Program
import LevelLink.Wire.Opcode

/-!
# Transfers

What a transfer is and how far it has come.  A transfer stream carries one transfer at a time; its progress is
that of the current transfer, or of the last one.
-/

namespace LevelLink

/-- Where a transfer is. -/
inductive TransferState where
  | idle
  | awaitingOpenAck
  | transferring
  | done
  | failed
  deriving DecidableEq, Repr

/-- Whether a transfer occupies its stream. -/
def TransferState.isActive : TransferState → Bool
  | awaitingOpenAck | transferring => true
  | _ => false

/-- How far a transfer has come. -/
structure Progress where
  state : TransferState := .idle
  fileName : String := ""
  /-- The announced size; zero until it is known. -/
  total : Nat := 0
  moved : Nat := 0
  deriving DecidableEq, Repr

/-- What a finished transfer has produced. -/
structure Outcome where
  fileName : String
  path : String
  bytes : Nat
  /-- The checksum that the peer announced. -/
  checksum : Option String
  deriving DecidableEq, Repr

/-- What the application does when a transfer has ended. -/
abbrev Completion (υ : Type) := Except StreamError Outcome → υ → υ

/-! ### Frames -/

/-- What the peers of a transfer say once it has been requested. -/
inductive TransferFrame where
  | accepted
  | refused (text : String)
  | metadata (name checksum : String)
  /-- The data is about to come: its size, and the size of a piece. -/
  | transfer (name : String) (size chunk : Int32)
  | data (bytes : Bytes)
  | problem (text : String)
  | ended
  deriving DecidableEq, Repr

namespace TransferFrame

/-- The payload of a frame. -/
def payload : TransferFrame → Bytes
  | accepted => Bytes.ofInt32 TransferOp.status.code ++ Bytes.ofInt32 TransferStatus.accepted.code
  | refused text => Bytes.ofInt32 TransferOp.status.code ++ Bytes.ofInt32 TransferStatus.refused.code ++
      (Utf8.encode text).block
  | metadata name checksum => Bytes.ofInt32 TransferOp.metadata.code ++ (Utf8.encode name).block ++
      (Utf8.encode checksum).block
  | transfer name size chunk => Bytes.ofInt32 TransferOp.transfer.code ++ (Utf8.encode name).block ++
      Bytes.ofInt32 size ++ Bytes.ofInt32 chunk
  | data bytes => Bytes.ofInt32 TransferOp.data.code ++ bytes.block
  | problem text => Bytes.ofInt32 TransferOp.protocolError.code ++ (Utf8.encode text).block
  | ended => Bytes.ofInt32 TransferOp.ended.code

end TransferFrame

/-! ### Transfer streams -/

/-- An endpoint of the peer with the directory whose files it exchanges. -/
structure Endpoint where
  node : String
  name : String
  dir : String
  /-- The number of its transfer stream. -/
  stream : Nat
  deriving DecidableEq, Repr

/-- A message to an endpoint. -/
def Endpoint.message (e : Endpoint) (payload : Bytes) : Message := (Message.start e.node e.name).write payload

/-- A download in progress. -/
structure Fetch (υ : Type) where
  endpoint : Endpoint
  fileName : String
  path : String
  writer : Option Files.Writer := none
  /-- Whether the destination has been made or emptied. -/
  created : Bool := false
  checksum : Option String := none
  /-- What is still to be done at the end. -/
  completion : Option (Completion υ)

/-- A file as it is offered to the peer. -/
structure OfferedFile where
  endpoint : Endpoint
  fileName : String
  path : String
  /-- The announced size. -/
  size : Nat
  /-- The number of bytes in a piece. -/
  chunk : Nat
  deriving DecidableEq, Repr

/-- An upload in progress. -/
structure Offer (υ : Type) where
  file : OfferedFile
  /-- Whether the sender has been started. -/
  started : Bool := false
  /-- What is still to be done at the end. -/
  completion : Option (Completion υ)

/-- A sender that is started. -/
structure SendJob where
  id : SubscriberId
  file : OfferedFile
  /-- Whether the upload has failed meanwhile. -/
  cancelled : Bool := false
  deriving DecidableEq, Repr

namespace Transfer

/-- The path of a name in a directory, unless the name leads out of it. -/
def resolve (dir name : String) : Except StreamError String :=
  if Files.Path.isPlain name then
    .ok (Files.Path.join dir name)
  else
    .error (.io (.custom .invalidInput
      s!"transfer name {Text.quoted name} is not a plain relative path"))

/-- Reads the answer of a status frame. -/
def readStatus {ω : Type} (context : String) (m : Message) : Step ω Unit := do
  let (status, m) ← Step.read Reader.int32 m
  match TransferStatus.ofCode? status with
  | some .accepted => return ()
  | some .refused =>
    let (text, _) ← Step.read Reader.text m
    throw (.remote context text)
  | none => throw (.protocol (.invalidMessage s!"unknown transfer status {status}"))

/-- An opcode that has no place here. -/
def unexpected (context : String) (opcode : Int32) : StreamError :=
  .protocol (.unexpectedOpcode context opcode)

end Transfer
end LevelLink
