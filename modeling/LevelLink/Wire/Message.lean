import LevelLink.Text.Utf8
import LevelLink.Wire.Error

/-!
# Messages

A message is addressed to a node and a message name there, carries a correlation id, and has a payload of
fields.  The payload is kept as the part already read and the part still to read, so the place of reading is
part of the message and every copy has its own.  The part already read is kept backwards, because reading goes
on at its end.

On the wire a message is a frame: the size of the body and the id as words, then the body, which is the two
names and the payload.  `Message.frame` writes it; `LevelLink.Wire.Reader` reads it.
-/

namespace LevelLink

/-- A block with its length in front. -/
def Bytes.block (bs : Bytes) : Bytes := Bytes.ofInt32 (UInt32.ofNat bs.length).toInt32 ++ bs

@[simp] theorem Bytes.length_block (bs : Bytes) : bs.block.length = 4 + bs.length := by
  simp [Bytes.block]

/-- A message, with the place up to which it has been read. -/
structure Message where
  node : String
  name : String
  id : Int32
  /-- The size field of the header as last written. -/
  stamp : Int32
  /-- The payload before the place of reading, the last byte first. -/
  taken : Bytes
  /-- The payload after the place of reading. -/
  unread : Bytes
  deriving DecidableEq, Repr

namespace Message

/-- The bytes of a header: the size field and the id. -/
def headerLength : Nat := 8

/-- The id of a message that has not been given one. -/
def unsetId : Int32 := -1

/-- An empty message to `node` and `name`, without an id. -/
def start (node name : String) : Message := ⟨node, name, unsetId, 0, [], []⟩

variable (m : Message)

/-- The two names as they open the body. -/
def names : Bytes := (Utf8.encode m.node).block ++ (Utf8.encode m.name).block

/-- Everything after the names. -/
def payload : Bytes := m.taken.reverse ++ m.unread

/-- Everything after the header. -/
def body : Bytes := m.names ++ m.payload

/-- The message as it is buffered; the size field is the one last written. -/
def bytes : Bytes := Bytes.ofInt32 m.stamp ++ Bytes.ofInt32 m.id ++ m.body

/-- The number of buffered bytes, header included. -/
def length : Nat := headerLength + m.body.length

/-- The number of bytes still to read. -/
def remaining : Nat := m.unread.length

/-! ### Writing -/

/-- Appends bytes to the payload. -/
def write (bs : Bytes) : Message := { m with unread := m.unread ++ bs }

def writeInt32 (v : Int32) : Message := m.write (Bytes.ofInt32 v)

/-- Appends a block with its length in front. -/
def writeBlock (bs : Bytes) : Message := m.write bs.block

/-- Appends a text as a block. -/
def writeText (s : String) : Message := m.writeBlock (Utf8.encode s)

/-- Gives the message an id. -/
def withId (id : Int32) : Message := { m with id }

/-! ### Framing -/

/-- Writes the size of the body into the header. -/
def prepare : Message := { m with stamp := (UInt32.ofNat m.body.length).toInt32 }

/-- The frame that carries the message. -/
def frame : Bytes := m.prepare.bytes

@[simp] theorem payload_write (bs : Bytes) : (m.write bs).payload = m.payload ++ bs := by
  simp [payload, write]

@[simp] theorem names_write (bs : Bytes) : (m.write bs).names = m.names := rfl

@[simp] theorem body_write (bs : Bytes) : (m.write bs).body = m.body ++ bs := by
  simp [body]

@[simp] theorem body_prepare : m.prepare.body = m.body := rfl

@[simp] theorem body_withId (id : Int32) : (m.withId id).body = m.body := rfl

@[simp] theorem prepare_prepare : m.prepare.prepare = m.prepare := rfl

@[simp] theorem length_bytes : m.bytes.length = m.length := by
  simp [bytes, length, headerLength]
  omega

theorem frame_eq : m.frame =
    Bytes.ofInt32 (UInt32.ofNat m.body.length).toInt32 ++ Bytes.ofInt32 m.id ++ m.body := rfl

end Message
end LevelLink
