import LevelLink.Text.Quoted
import LevelLink.Wire.Reader

/-!
# Replies

The peer answers a request with `ACK` and the fields of the answer, or with `NACK`, a code and a text.
-/

namespace LevelLink

/-- A request that was understood and refused. -/
structure Rejection where
  code : Int32
  text : String
  deriving DecidableEq, Repr

/-- The wording of a rejection. -/
def Rejection.message (r : Rejection) : String := s!"request rejected ({r.code}): {r.text}"

/-- What a reply opens with. -/
inductive Reply where
  | ack
  | nack (rejection : Rejection)
  deriving DecidableEq, Repr

namespace Reply

/-- Reads the opening of a reply; after `ack` the fields of the answer are next. -/
def read : Reader Reply := do
  let status ← Reader.text
  if status = "ACK" then
    return .ack
  else if status = "NACK" then
    let code ← Reader.int32
    let text ← Reader.text
    return .nack ⟨code, text⟩
  else
    throw (.invalidMessage s!"expected ACK or NACK, got {Text.quoted status}")

/-- The opening of a reply as it is written. -/
def bytes : Reply → Bytes
  | ack => (Utf8.encode "ACK").block
  | nack r =>
    (Utf8.encode "NACK").block ++ Bytes.ofInt32 r.code ++ (Utf8.encode r.text).block

end Reply
end LevelLink
