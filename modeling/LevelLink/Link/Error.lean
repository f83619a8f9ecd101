import LevelLink.Delta.Error
import LevelLink.Files.Error
import LevelLink.Wire.Reply

/-!
# Errors of the link and of streams
-/

namespace LevelLink

/-- What can go wrong with the connection. -/
inductive TransportError where
  | connectFailed (address : String) (source : IoError)
  | sendFailed (source : IoError)
  | receiveFailed (source : IoError)
  | connectionClosed (reason : String)
  | frameTooLarge (size limit : Nat)
  | shutdown
  deriving DecidableEq, Repr

/-- The wording of a transport error. -/
def TransportError.message : TransportError → String
  | .connectFailed address source => s!"connect to {address} failed: {source.message}"
  | .sendFailed source => s!"send failed: {source.message}"
  | .receiveFailed source => s!"receive failed: {source.message}"
  | .connectionClosed reason => s!"connection closed: {reason}"
  | .frameTooLarge size limit => s!"frame of {size} bytes exceeds limit of {limit}"
  | .shutdown => "connection shut down"

/-- What ends a single stream or request. -/
inductive StreamError where
  | protocol (error : ProtocolError)
  | codec (error : DeltaError)
  /-- An update for an object that is not known. -/
  | missingSnapshot (object : Int32)
  | rejected (rejection : Rejection)
  /-- The peer reports a failure. -/
  | remote (context text : String)
  | io (error : IoError)
  | transport (error : TransportError)
  /-- A transfer ended before or after its announced size. -/
  | incompleteTransfer (expected received : Nat)
  deriving DecidableEq, Repr

/-- The wording of a stream error. -/
def StreamError.message : StreamError → String
  | .protocol e => e.message
  | .codec e => e.message
  | .missingSnapshot object => s!"no snapshot for object {object}"
  | .rejected r => r.message
  | .remote context text => s!"{context} failed: {text}"
  | .io e => s!"I/O error: {e.message}"
  | .transport e => e.message
  | .incompleteTransfer expected received => s!"transfer ended after {received} of {expected} bytes"

/-- A reading that ends a stream when it fails. -/
def Reader.inStream {α : Type} (r : Reader α) (m : Message) : Except StreamError (α × Message) :=
  (r.parse m).mapError .protocol

end LevelLink
