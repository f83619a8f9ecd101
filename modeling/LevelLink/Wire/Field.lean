import LevelLink.Wire.Reply

/-!
# Typed fields

The kinds of field a payload is made of, with the writer and the reader of each.  A floating-point number is
carried by its bits.
-/

namespace LevelLink

/-- A field of a payload. -/
inductive Field where
  | int32 (value : Int32)
  | int64 (value : Int64)
  | float (bits : UInt64)
  | text (value : String)
  | block (bytes : Bytes)
  /-- Bytes without a length in front. -/
  | raw (bytes : Bytes)
  | reply (value : Reply)
  deriving DecidableEq, Repr

/-- What a reader has to know to read a field. -/
inductive FieldKind where
  | int32 | int64 | float | text | block | reply
  | raw (length : Nat)
  deriving DecidableEq, Repr

namespace Field

/-- The bytes of a field. -/
def bytes : Field → Bytes
  | int32 v => Bytes.ofInt32 v
  | int64 v => Bytes.ofUInt64 v.toUInt64
  | float v => Bytes.ofUInt64 v
  | text s => (Utf8.encode s).block
  | block bs => bs.block
  | raw bs => bs
  | reply r => r.bytes

/-- The kind under which a field is read back. -/
def kind : Field → FieldKind
  | int32 _ => .int32
  | int64 _ => .int64
  | float _ => .float
  | text _ => .text
  | block _ => .block
  | raw bs => .raw bs.length
  | reply _ => .reply

/-- Reads a field of the given kind. -/
def read : FieldKind → Reader Field
  | .int32 => int32 <$> Reader.int32
  | .int64 => int64 <$> Reader.int64
  | .float => float <$> Reader.float
  | .text => text <$> Reader.text
  | .block => block <$> Reader.block
  | .raw n => raw <$> Reader.take n
  | .reply => reply <$> Reply.read

end Field

/-- Appends fields in order. -/
def Message.writeFields (m : Message) (fields : List Field) : Message :=
  m.write (fields.flatMap Field.bytes)

end LevelLink
