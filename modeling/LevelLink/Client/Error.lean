import LevelLink.Link.Error

/-!
# Errors of the client
-/

namespace LevelLink

/-- Any error that a client reports. -/
inductive ClientError where
  | transport (error : TransportError)
  | protocol (error : ProtocolError)
  | codec (error : DeltaError)
  | stream (error : StreamError)
  | config (reason : String)
  | io (error : IoError)
  deriving DecidableEq, Repr

/-- The wording of a client error. -/
def ClientError.message : ClientError → String
  | .transport e => e.message
  | .protocol e => e.message
  | .codec e => e.message
  | .stream e => e.message
  | .config reason => s!"invalid configuration: {reason}"
  | .io e => e.message

end LevelLink
