import LevelLink.Level.Record

/-!
# Presence

Who is connected to a level, in the order of arrival, and what each user points at.  `PresenceEvent.apply`
is what an event does to that list.
-/

namespace LevelLink

/-- A user of the level. -/
structure User where
  id : Int64
  name : String
  /-- The object under the cursor, or -1. -/
  object : Int32 := -1
  sub : Int32 := 0
  deriving DecidableEq, Repr

/-- An event of the presence stream. -/
inductive PresenceEvent where
  | connected (user : User)
  | disconnected (id : Int64) (name : String)
  | cursorMoved (id : Int64) (object sub : Int32)
  | closed
  deriving DecidableEq, Repr

namespace PresenceEvent

/-- The name of the stream that reports presence. -/
def streamName : String := "EVENT_STREAM"

/-- Reads an event. -/
def read : Reader PresenceEvent := do
  let opcode ← Reader.int32
  match EventOp.ofCode? opcode with
  | some .userConnected => return .connected { id := ← Reader.int64, name := ← Reader.text }
  | some .userDisconnected => return .disconnected (← Reader.int64) (← Reader.text)
  | some .userCursorMoved => return .cursorMoved (← Reader.int64) (← Reader.int32) (← Reader.int32)
  | some .ended => return .closed
  | none => throw (.unexpectedOpcode "event stream" opcode)

/-- Puts the cursor of the first user with this id. -/
def moveFirst (id : Int64) (object sub : Int32) : List User → List User
  | [] => []
  | u :: rest => if u.id = id then { u with object, sub } :: rest else u :: moveFirst id object sub rest

/-- The users after an event. -/
def apply : PresenceEvent → List User → List User
  | connected u, users => users ++ [u]
  | disconnected id _, users => users.filter fun u => u.id ≠ id
  | cursorMoved id object sub, users => moveFirst id object sub users
  | closed, _ => []

end PresenceEvent
end LevelLink
