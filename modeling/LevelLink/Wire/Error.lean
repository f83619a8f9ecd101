import LevelLink.Bytes

/-!
# What can be wrong with a message
-/

namespace LevelLink

/-- Why bytes are not the message that was asked for. -/
inductive ProtocolError where
  /-- A field needs more bytes than are unread. -/
  | truncated (needed remaining : Nat)
  /-- The length in front of a text or block is negative. -/
  | negativeLength (length : Int32)
  /-- A text is not UTF-8. -/
  | invalidUtf8
  /-- The size field of a frame and the size of its body differ. -/
  | frameSize (declared actual : Nat)
  /-- The opcode has no meaning where it stands. -/
  | unexpectedOpcode (context : String) (opcode : Int32)
  /-- The fields are well formed and break a rule of the protocol. -/
  | invalidMessage (text : String)
  deriving DecidableEq, Repr

/-- The wording of a protocol error. -/
def ProtocolError.message : ProtocolError → String
  | .truncated needed remaining => s!"truncated message: needed {needed} bytes, {remaining} remaining"
  | .negativeLength n => s!"negative length prefix: {n}"
  | .invalidUtf8 => "string field is not valid UTF-8"
  | .frameSize declared actual =>
    s!"frame size mismatch: header declares {declared} bytes, body has {actual}"
  | .unexpectedOpcode context opcode => s!"unexpected opcode {opcode} in {context}"
  | .invalidMessage text => s!"invalid message: {text}"

end LevelLink
