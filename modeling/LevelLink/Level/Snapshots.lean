import Std.Data.TreeMap
import LevelLink.Delta.Codec
import LevelLink.Level.Record
import LevelLink.Link.Error

/-!
# Snapshots of objects

The peer announces an object with all of its bytes and later changes by a delta to the bytes it announced
last.  `Snapshots` keeps those bytes for every object.  `Snapshots.step` takes a frame of the object stream:
it gives the new table and what the application is told.
-/

namespace LevelLink

/-! ### Frames -/

/-- A frame of the object stream, without what the application adds to a record. -/
inductive ObjectFrame where
  | new (record : ObjectRecord)
  | update (id : Int32) (delta : Bytes)
  | delete (id : Int32)
  | ended
  deriving DecidableEq, Repr

namespace ObjectFrame

/-- Reads a frame.  After `new` the data of the application is next. -/
def read : Reader ObjectFrame := do
  let opcode ← Reader.int32
  match ObjectOp.ofCode? opcode with
  | some .new => return .new (← ObjectRecord.read)
  | some .update => return .update (← Reader.int32) (← Reader.block)
  | some .delete => return .delete (← Reader.int32)
  | some .ended => return .ended
  | none => throw (.unexpectedOpcode "object stream" opcode)

/-- The payload of a frame, `custom` being what the application adds to a record. -/
def payload (custom : Bytes) : ObjectFrame → Bytes
  | new r => r.payload custom
  | update id delta => Bytes.ofInt32 ObjectOp.update.code ++ Bytes.ofInt32 id ++ delta.block
  | delete id => Bytes.ofInt32 ObjectOp.delete.code ++ Bytes.ofInt32 id
  | ended => Bytes.ofInt32 ObjectOp.ended.code

end ObjectFrame

/-- What the application is told about the objects of a level. -/
inductive ObjectEvent where
  /-- A new object.  The data of the application is next in `rest`. -/
  | created (record : ObjectRecord) (rest : Message)
  /-- A changed object.  The data of the application is next in `rest`. -/
  | updated (record : ObjectRecord) (rest : Message)
  | deleted (id : Int32)
  | closed
  | failed (error : StreamError)
  deriving DecidableEq, Repr

/-! ### The table -/

/-- The body that was announced last, for every object. -/
abbrev Snapshots := Std.TreeMap Int32 Bytes

namespace Snapshots

variable (t : Snapshots)

/-- The body of an object after a delta. -/
def patched (id : Int32) (delta : Bytes) : Except StreamError Bytes :=
  match t[id]? with
  | some old => (Delta.decode old delta).mapError .codec
  | none => .error (.missingSnapshot id)

/-- Reads the record in a body.  The opcode in front of it is passed over. -/
def reread (frameId : Int32) (body : Bytes) : Except StreamError (ObjectRecord × Message) := do
  let m ← (Message.ofBody frameId body).mapError .protocol
  let (_, m) ← Reader.int32.inStream m
  ObjectRecord.read.inStream m

/-- Takes a frame of which `rest` is unread.  A patched body is kept before its record is read. -/
def apply (rest : Message) : ObjectFrame → Snapshots × Except StreamError ObjectEvent
  | .new r => (t.insert r.id rest.body, .ok (.created r rest))
  | .update id delta =>
    match t.patched id delta with
    | .error e => (t, .error e)
    | .ok body => (t.insert id body, (reread rest.id body).map fun (r, rest) => .updated r rest)
  | .delete id => (t.erase id, .ok (.deleted id))
  | .ended => (∅, .ok .closed)

/-- Takes a message of the object stream. -/
def step (m : Message) : Snapshots × Except StreamError ObjectEvent :=
  match ObjectFrame.read.inStream m with
  | .ok (frame, rest) => t.apply rest frame
  | .error e => (t, .error e)

/-- The request to change an object to `r` with `custom` behind it.  The table stays as it is until the peer
sends the change back. -/
def updateRequest (r : ObjectRecord) (custom : Bytes) : Except StreamError Message :=
  match t[r.id]? with
  | some old => .ok (ObjectRecord.updateRequest r.id (Delta.encode old (r.body custom)))
  | none => .error (.missingSnapshot r.id)

end Snapshots
end LevelLink
