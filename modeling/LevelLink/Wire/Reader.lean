import LevelLink.Wire.Message

/-!
# Reading messages

A reader takes fields off the unread payload of a message.  Whether it succeeds or fails, the message it
leaves behind is part of the result, because a caller may go on reading after a failure.

`Message.ofBody` and `Message.ofFrame` read the names and the header of an incoming frame.
-/

namespace LevelLink

/-- A reader of fields: a value or an error, and the message as the reading left it. -/
abbrev Reader := ExceptT ProtocolError (StateM Message)

namespace Reader

/-- Runs a reader on a message. -/
def on {α : Type} (r : Reader α) (m : Message) : Except ProtocolError α × Message := r.run.run m

/-- Runs a reader where the message is of no interest after a failure. -/
def parse {α : Type} (r : Reader α) (m : Message) : Except ProtocolError (α × Message) :=
  match r.on m with
  | (.ok a, rest) => .ok (a, rest)
  | (.error e, _) => .error e

/-- The next `n` bytes; nothing is taken when fewer are left. -/
def take (n : Nat) : Reader Bytes := do
  let m ← get
  let bs := m.unread.take n
  if bs.length = n then
    set { m with taken := bs.reverse ++ m.taken, unread := m.unread.drop n }
    return bs
  else
    throw (.truncated n m.remaining)

def int32 : Reader Int32 := return Bytes.toInt32 (← take 4)

def int64 : Reader Int64 := return (Bytes.toUInt64 (← take 8)).toInt64

/-- The bits of a floating-point number. -/
def float : Reader UInt64 := return Bytes.toUInt64 (← take 8)

/-- A block with its length in front.  When it fails, nothing is taken, not even the length. -/
def block : Reader Bytes := do
  let before ← get
  let n ← int32
  if n < 0 then
    set before
    throw (.negativeLength n)
  else
    tryCatch (take n.toNatClampNeg) fun e => do
      set before
      throw e

/-- A text.  A block that is not UTF-8 stays taken. -/
def text : Reader String := do
  match Utf8.decode? (← block) with
  | some s => return s
  | none => throw .invalidUtf8

end Reader

namespace Message

/-- The message with this id and body.  The names are read at once; the rest stays unread. -/
def ofBody (id : Int32) (body : Bytes) : Except ProtocolError Message := do
  let whole : Message := ⟨"", "", id, (UInt32.ofNat body.length).toInt32, [], body⟩
  let (node, m) ← Reader.text.parse whole
  let (name, m) ← Reader.text.parse m
  return { m with node, name, taken := [] }

/-- The size and the id in a header. -/
def readHeader (header : Bytes) : Int32 × Int32 :=
  (Bytes.toInt32 header, Bytes.toInt32 (header.drop 4))

/-- The message in a frame. -/
def ofFrame (frame : Bytes) : Except ProtocolError Message :=
  if frame.length < headerLength then
    .error (.truncated headerLength frame.length)
  else
    let (size, id) := readHeader frame
    let actual := frame.length - headerLength
    if size < 0 ∨ size.toNatClampNeg ≠ actual then
      .error (.frameSize size.toNatClampNeg actual)
    else
      ofBody id (frame.drop headerLength)

end Message
end LevelLink
