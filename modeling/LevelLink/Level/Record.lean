import LevelLink.Wire.Opcode
import LevelLink.Wire.Reply

/-!
# Object records

The fixed part of a replicated object: id, position, scale, rotation, and whether data of the application's
own follows.  An object is announced as the body of a frame on the object stream (`ObjectRecord.body`); that
body is what snapshots and deltas are taken over.
-/

namespace LevelLink

/-- Three floating-point numbers, by their bits. -/
structure Vec3 where
  x : UInt64
  y : UInt64
  z : UInt64
  deriving DecidableEq, Repr

namespace Vec3

def bytes (v : Vec3) : Bytes := Bytes.ofUInt64 v.x ++ Bytes.ofUInt64 v.y ++ Bytes.ofUInt64 v.z

def read : Reader Vec3 := return ⟨← Reader.float, ← Reader.float, ← Reader.float⟩

end Vec3

/-- The fixed part of a replicated object. -/
structure ObjectRecord where
  id : Int32
  pos : Vec3
  scale : Vec3
  rot : Vec3
  /-- Whether data of the application's own follows. -/
  hasCustomData : Bool
  deriving DecidableEq, Repr

/-- The node that serves the state of the level. -/
def levelNode : String := "LEVEL_SVR"

namespace ObjectRecord

/-- The name of the stream that replicates objects. -/
def streamName : String := "OBJECT_STREAM"

/-- Reads a record; any flag but zero means that data follows. -/
def read : Reader ObjectRecord := do
  let id ← Reader.int32
  let pos ← Vec3.read
  let scale ← Vec3.read
  let rot ← Vec3.read
  let flag ← Reader.int32
  return ⟨id, pos, scale, rot, flag ≠ 0⟩

variable (r : ObjectRecord) (custom : Bytes)

/-- All of a record but its id. -/
def transformBytes : Bytes :=
  r.pos.bytes ++ r.scale.bytes ++ r.rot.bytes ++ Bytes.ofInt32 (if r.hasCustomData then 1 else 0)

/-- The payload that announces the object with `custom` behind it. -/
def payload : Bytes :=
  Bytes.ofInt32 ObjectOp.new.code ++ Bytes.ofInt32 r.id ++ r.transformBytes ++ custom

/-- The body of the frame that announces the object. -/
def body : Bytes := ((Message.start levelNode streamName).write (r.payload custom)).body

/-- The request to add the object.  The peer chooses the id, so it is not sent. -/
def addRequest : Message :=
  (Message.start levelNode "ADD_OBJECT").write (r.transformBytes ++ custom)

/-- The request to change object `id` by a delta. -/
def updateRequest (id : Int32) (delta : Bytes) : Message :=
  ((Message.start levelNode "UPDATE_OBJECT").writeInt32 id).writeBlock delta

end ObjectRecord
end LevelLink
