import LevelLink.Proofs.Wire.Frames
import LevelLink.Wire.Field

/-!
# Messages in a buffer

A message can be kept as its frame in one buffer, with a cursor in it up to which it has been read, and with the names and
the id a second time beside it (`Buffer`).  Then every operation works in place: fields are appended, the header is
overwritten, readers move the cursor and put it back where they fail.  Nothing ties what stands beside the buffer to
what is in it but the operations themselves.

`Buffer.Represents b m` says that `b` is the message `m` kept so.  Every operation keeps it, whether readers succeed or
fail (`Represents.apply`), so it holds after every sequence of operations (`Represents.foldl_apply`).
-/

namespace LevelLink

/-- A message that is kept in a buffer. -/
@[ext]
structure Buffer where
  node : String
  name : String
  id : Int32
  /-- The header and the body as they are written so far. -/
  data : Bytes
  /-- The place of reading, counted from the front of the buffer. -/
  cursor : Nat
  deriving DecidableEq, Repr

/-- A reader that works on a buffer. -/
abbrev BufferReader := Attempt ProtocolError Buffer

namespace Buffer

variable (b : Buffer)

/-- What is still to be read. -/
def unread : Bytes := b.data.drop b.cursor

/-! ### Operations in place -/

/-- An empty message to `node` and `name`, without an id. -/
def start (node name : String) : Buffer :=
  let data := Bytes.ofInt32 0 ++ Bytes.ofInt32 Message.unsetId ++ (Utf8.encode node).block ++ (Utf8.encode name).block
  ⟨node, name, Message.unsetId, data, data.length⟩

/-- Appends bytes. -/
def write (bs : Bytes) : Buffer := { b with data := b.data ++ bs }

/-- Sets the id, and overwrites it in the header. -/
def withId (id : Int32) : Buffer := { b with id, data := b.data.take 4 ++ Bytes.ofInt32 id ++ b.data.drop Message.headerLength }

/-- Overwrites the header by the size of the body and the id. -/
def prepare : Buffer := { b with
  data := Bytes.ofInt32 (UInt32.ofNat (b.data.length - Message.headerLength)).toInt32 ++ Bytes.ofInt32 b.id ++
    b.data.drop Message.headerLength }

/-- Moves the cursor on. -/
def skip (k : Nat) : Buffer := { b with cursor := b.cursor + k }

/-! ### Readers in place -/

/-- The next `n` bytes. -/
def take (n : Nat) : BufferReader Bytes := .of fun b =>
  if b.unread.length < n then
    (.error (.truncated n b.unread.length), b)
  else
    (.ok (b.unread.take n), b.skip n)

def int32 : BufferReader Int32 := return Bytes.toInt32 (← take 4)

def int64 : BufferReader Int64 := return (Bytes.toUInt64 (← take 8)).toInt64

def float : BufferReader UInt64 := return Bytes.toUInt64 (← take 8)

/-- Puts the cursor back. -/
def rewind (cursor : Nat) : BufferReader Unit := modify fun b => { b with cursor }

/-- A block with its length in front. -/
def block : BufferReader Bytes := do
  let before ← get
  let n ← int32
  if n < 0 then
    rewind before.cursor
    throw (.negativeLength n)
  else
    tryCatch (take n.toNatClampNeg) fun e => do
      rewind before.cursor
      throw e

def text : BufferReader String := do
  match Utf8.decode? (← block) with
  | some s => return s
  | none => throw .invalidUtf8

def reply : BufferReader Reply := do
  let status ← text
  if status = "ACK" then
    return .ack
  else if status = "NACK" then
    let code ← int32
    let text ← text
    return .nack ⟨code, text⟩
  else
    throw (.invalidMessage s!"expected ACK or NACK, got {Text.quoted status}")

/-- Reads a field of the given kind. -/
def read : FieldKind → BufferReader Field
  | .int32 => Field.int32 <$> int32
  | .int64 => Field.int64 <$> int64
  | .float => Field.float <$> float
  | .text => Field.text <$> text
  | .block => Field.block <$> block
  | .raw n => Field.raw <$> take n
  | .reply => Field.reply <$> reply

/-- The two names that open a body. -/
def names : BufferReader (String × String) := return (← text, ← text)

/-- The message with this id and body; its names are read and kept beside it. -/
def ofBody (id : Int32) (body : Bytes) : Except ProtocolError Buffer :=
  let data := Bytes.ofInt32 (UInt32.ofNat body.length).toInt32 ++ Bytes.ofInt32 id ++ body
  match names.on ⟨"", "", id, data, Message.headerLength⟩ with
  | (.ok (node, name), b) => .ok { b with node, name }
  | (.error e, _) => .error e

/-- The message in a frame. -/
def ofFrame (frame : Bytes) : Except ProtocolError Buffer :=
  if frame.length < Message.headerLength then
    .error (.truncated Message.headerLength frame.length)
  else
    let (size, id) := Message.readHeader frame
    let actual := frame.length - Message.headerLength
    if size < 0 ∨ size.toNatClampNeg ≠ actual then
      .error (.frameSize size.toNatClampNeg actual)
    else
      ofBody id (frame.drop Message.headerLength)

end Buffer

/-! ### Readers that do the same -/

/-- The message without the next `k` bytes. -/
def Message.skip (m : Message) (k : Nat) : Message := m.past (m.unread.take k) (m.unread.drop k)

theorem Message.skip_skip (m : Message) (j k : Nat) : (m.skip j).skip k = m.skip (j + k) := by
  show (m.past _ _).past ((m.unread.drop j).take k) ((m.unread.drop j).drop k) = m.past _ _
  rw [past_past, List.drop_drop, List.take_add]

namespace BufferReader

variable {α β : Type}

/-- The reader of buffers does to a buffer what the reader of messages does to a message: where they find the same bytes
they have the same answer and take as many bytes, also when they fail. -/
def Mirrors (rb : BufferReader α) (r : Reader α) : Prop :=
  ∀ (b : Buffer) (m : Message), b.unread = m.unread →
    ∃ answer k, k ≤ m.unread.length ∧ rb.on b = (answer, b.skip k) ∧ r.on m = (answer, m.skip k)

theorem mirrors_pure (a : α) : Mirrors (pure a) (pure a) :=
  fun _ _ _ => ⟨.ok a, 0, Nat.zero_le _, rfl, rfl⟩

theorem mirrors_throw (e : ProtocolError) : Mirrors (throw e : BufferReader α) (throw e) :=
  fun _ _ _ => ⟨.error e, 0, Nat.zero_le _, rfl, rfl⟩

theorem unread_skip {b : Buffer} {m : Message} (h : b.unread = m.unread) (k : Nat) :
    (b.skip k).unread = (m.skip k).unread := by
  show b.data.drop (b.cursor + k) = m.unread.drop k
  rw [← h, Buffer.unread, List.drop_drop]

theorem Mirrors.bind {rb : BufferReader α} {r : Reader α} {fb : α → BufferReader β} {f : α → Reader β}
    (hr : Mirrors rb r) (hf : ∀ a, Mirrors (fb a) (f a)) : Mirrors (rb >>= fb) (r >>= f) := by
  intro b m h
  obtain ⟨e | a, j, hj, hb, hm⟩ := hr b m h
  · exact ⟨.error e, j, hj, Attempt.on_bind_of_error hb fb, Attempt.on_bind_of_error hm f⟩
  · obtain ⟨answer, k, hk, hb', hm'⟩ := hf a (b.skip j) (m.skip j) (unread_skip h j)
    change k ≤ (m.unread.drop j).length at hk
    rw [List.length_drop] at hk
    refine ⟨answer, j + k, by omega, ?_, ?_⟩
    · rw [Attempt.on_bind_of_ok hb fb, hb', Buffer.skip, Buffer.skip, Nat.add_assoc]
      rfl
    · rw [Reader.on_bind_of_ok hm f, hm', Message.skip_skip]

theorem Mirrors.map {rb : BufferReader α} {r : Reader α} (hr : Mirrors rb r) (f : α → β) :
    Mirrors (f <$> rb) (f <$> r) := by
  rw [map_eq_pure_bind, map_eq_pure_bind]
  exact hr.bind fun a => mirrors_pure (f a)

theorem mirrors_take (n : Nat) : Mirrors (Buffer.take n) (Reader.take n) := by
  intro b m h
  rw [Buffer.take, Attempt.on_of, h]
  by_cases hlt : m.unread.length < n
  · rw [if_pos hlt]
    exact ⟨_, 0, Nat.zero_le _, rfl, Reader.on_take_of_lt hlt⟩
  · rw [if_neg hlt]
    have hn : (m.unread.take n).length = n := List.length_take_of_le (Nat.le_of_not_lt hlt)
    have hread := Reader.reads_take (m.unread.take n) m (m.unread.drop n) (List.take_append_drop n m.unread).symm
    rw [hn] at hread
    exact ⟨_, n, Nat.le_of_not_lt hlt, rfl, hread⟩

theorem mirrors_int32 : Mirrors Buffer.int32 Reader.int32 := (mirrors_take 4).bind fun _ => mirrors_pure _

theorem mirrors_block : Mirrors Buffer.block Reader.block := by
  refine fun b m h => ?_
  -- What is taken up to a failure is put back on both sides, so the place before is needed here.
  show ∃ answer k, k ≤ m.unread.length ∧
    (Buffer.int32 >>= fun n =>
      if n < 0 then (Buffer.rewind b.cursor >>= fun _ => throw (.negativeLength n) : BufferReader Bytes)
      else tryCatch (Buffer.take n.toNatClampNeg) fun e => Buffer.rewind b.cursor >>= fun _ => throw e).on b =
        (answer, b.skip k) ∧
    (Reader.int32 >>= fun n =>
      if n < 0 then (set m >>= fun _ => throw (.negativeLength n) : Reader Bytes)
      else tryCatch (Reader.take n.toNatClampNeg) fun e => set m >>= fun _ => throw e).on m = (answer, m.skip k)
  obtain ⟨e | n, j, hj, hb, hm⟩ := mirrors_int32 b m h
  · exact ⟨.error e, j, hj, Attempt.on_bind_of_error hb _, Reader.on_bind_of_error hm _⟩
  rw [Attempt.on_bind_of_ok hb, Reader.on_bind_of_ok hm]
  by_cases hneg : n < 0
  · rw [if_pos hneg, if_pos hneg]
    exact ⟨.error (.negativeLength n), 0, Nat.zero_le _, rfl, rfl⟩
  rw [if_neg hneg, if_neg hneg]
  obtain ⟨e | bs, k, hk, hb', hm'⟩ := mirrors_take n.toNatClampNeg (b.skip j) (m.skip j) (unread_skip h j)
  · rw [Attempt.on_tryCatch_of_error hb', Reader.on_tryCatch_of_error hm']
    exact ⟨.error e, 0, Nat.zero_le _, rfl, rfl⟩
  · rw [Attempt.on_tryCatch_of_ok hb', Reader.on_tryCatch_of_ok hm', Message.skip_skip]
    change k ≤ (m.unread.drop j).length at hk
    rw [List.length_drop] at hk
    exact ⟨.ok bs, j + k, by omega, by rw [Buffer.skip, Buffer.skip, Nat.add_assoc]; rfl, rfl⟩

theorem mirrors_text : Mirrors Buffer.text Reader.text := by
  refine mirrors_block.bind fun bs => ?_
  rcases Utf8.decode? bs with _ | s
  · exact mirrors_throw _
  · exact mirrors_pure s

theorem mirrors_reply : Mirrors Buffer.reply Reply.read := by
  refine mirrors_text.bind fun status => ?_
  split
  · exact mirrors_pure _
  · split
    · exact mirrors_int32.bind fun _ => mirrors_text.bind fun _ => mirrors_pure _
    · exact mirrors_throw _

/-- Fields of every kind. -/
theorem mirrors_read (kind : FieldKind) : Mirrors (Buffer.read kind) (Field.read kind) := by
  cases kind with
  | int32 => exact mirrors_int32.map _
  | int64 => exact ((mirrors_take 8).bind fun _ => mirrors_pure _).map _
  | float => exact ((mirrors_take 8).bind fun _ => mirrors_pure _).map _
  | text => exact mirrors_text.map _
  | block => exact mirrors_block.map _
  | reply => exact mirrors_reply.map _
  | raw n => exact (mirrors_take n).map _

/-- The two names that open the body of a message. -/
def namesOfMessage : Reader (String × String) := return (← Reader.text, ← Reader.text)

theorem mirrors_names : Mirrors Buffer.names namesOfMessage :=
  mirrors_text.bind fun _ => mirrors_text.bind fun _ => mirrors_pure _

theorem ofBody_eq (id : Int32) (body : Bytes) : Message.ofBody id body =
    match namesOfMessage.on ⟨"", "", id, (UInt32.ofNat body.length).toInt32, [], body⟩ with
    | (.ok (node, name), m) => .ok { m with node, name, taken := [] }
    | (.error e, _) => .error e := by
  rcases hnode : Reader.text.on ⟨"", "", id, (UInt32.ofNat body.length).toInt32, [], body⟩ with ⟨e | node, m⟩
  · have hnames := Reader.on_bind_of_error hnode fun node => do return (node, ← Reader.text)
    simp only [Message.ofBody, Reader.parse, hnode, bind, Except.bind]
    rw [namesOfMessage, hnames]
  · have hnames := Reader.on_bind_of_ok hnode fun node => do return (node, ← Reader.text)
    rcases hname : Reader.text.on m with ⟨e | name, m'⟩
    · simp only [Message.ofBody, Reader.parse, hnode, hname, bind, Except.bind]
      rw [namesOfMessage, hnames, Reader.on_bind_of_error hname]
    · simp only [Message.ofBody, Reader.parse, hnode, hname, bind, Except.bind]
      rw [namesOfMessage, hnames, Reader.on_bind_of_ok hname]
      rfl

end BufferReader

/-! ### A buffer and its message -/

namespace Buffer

/-- The buffer is the message: the same names and the same id stand beside it, its bytes are those of the message, and
the cursor stands behind what has been read. -/
structure Represents (b : Buffer) (m : Message) : Prop where
  node : b.node = m.node
  name : b.name = m.name
  id : b.id = m.id
  data : b.data = m.bytes
  cursor : b.cursor = Message.headerLength + m.names.length + m.taken.length

/-- The bytes of a message up to the place of reading, and those behind it. -/
theorem bytes_eq (m : Message) : m.bytes =
    (Bytes.ofInt32 m.stamp ++ Bytes.ofInt32 m.id ++ m.names ++ m.taken.reverse) ++ m.unread := by
  simp only [Message.bytes, Message.body, Message.payload, List.append_assoc]

section Represents

variable {b : Buffer} {m : Message} (h : b.Represents m)
include h

theorem Represents.unread_eq : b.unread = m.unread := by
  rw [unread, h.data, h.cursor, bytes_eq]
  refine List.drop_left' ?_
  simp only [List.length_append, Bytes.length_ofInt32, List.length_reverse, Message.headerLength]

theorem Represents.cursor_le : b.cursor ≤ b.data.length := by
  rw [h.data, h.cursor, bytes_eq]
  simp only [List.length_append, Bytes.length_ofInt32, List.length_reverse, Message.headerLength]
  omega

theorem Represents.drop_eq : b.data.drop Message.headerLength = m.body := by
  rw [h.data, Message.bytes]
  exact List.drop_left' (by simp [Message.headerLength])

theorem Represents.write (bs : Bytes) : (b.write bs).Represents (m.write bs) := by
  refine ⟨h.node, h.name, h.id, ?_, h.cursor⟩
  show b.data ++ bs = _
  rw [h.data, Message.bytes, Message.bytes, Message.body_write, List.append_assoc]
  rfl

theorem Represents.withId (id : Int32) : (b.withId id).Represents (m.withId id) := by
  refine ⟨h.node, h.name, rfl, ?_, h.cursor⟩
  have htake : b.data.take 4 = Bytes.ofInt32 m.stamp := by
    rw [h.data, Message.bytes, List.append_assoc]
    exact List.take_left' (Bytes.length_ofInt32 _)
  show b.data.take 4 ++ Bytes.ofInt32 id ++ b.data.drop Message.headerLength = _
  rw [h.drop_eq, htake]
  rfl

theorem Represents.prepare : b.prepare.Represents m.prepare := by
  refine ⟨h.node, h.name, h.id, ?_, h.cursor⟩
  have hlength : b.data.length - Message.headerLength = m.body.length := by
    rw [← h.drop_eq, List.length_drop]
  show Bytes.ofInt32 (UInt32.ofNat (b.data.length - Message.headerLength)).toInt32 ++ Bytes.ofInt32 b.id ++
    b.data.drop Message.headerLength = _
  rw [hlength, h.drop_eq, h.id]
  rfl

theorem Represents.skip {k : Nat} (hk : k ≤ m.unread.length) : (b.skip k).Represents (m.skip k) := by
  refine ⟨h.node, h.name, h.id, ?_, ?_⟩
  · have hbody : (m.skip k).body = m.body := Message.body_past (List.take_append_drop k m.unread).symm
    show b.data = _
    rw [h.data, Message.bytes, Message.bytes, hbody]
    rfl
  · show b.cursor + k = Message.headerLength + m.names.length + ((m.unread.take k).reverse ++ m.taken).length
    rw [h.cursor, List.length_append, List.length_reverse, List.length_take_of_le hk]
    omega

/-- A reading has the same answer, and keeps the buffer the message. -/
theorem Represents.read (kind : FieldKind) :
    ((Buffer.read kind).on b).1 = ((Field.read kind).on m).1 ∧
      ((Buffer.read kind).on b).2.Represents ((Field.read kind).on m).2 := by
  obtain ⟨answer, k, hk, hb, hm⟩ := BufferReader.mirrors_read kind b m h.unread_eq
  rw [hb, hm]
  exact ⟨rfl, h.skip hk⟩

end Represents

theorem represents_start (node name : String) : (start node name).Represents (Message.start node name) := by
  refine ⟨rfl, rfl, rfl, ?_, ?_⟩
  · simp only [start, Message.bytes, Message.start, Message.body, Message.names, Message.payload, List.reverse_nil,
      List.append_nil, List.append_assoc]
  · simp only [start, Message.start, Message.names, Message.headerLength, List.length_append, Bytes.length_ofInt32,
      List.length_nil]
    omega

/-- Both are there and the buffer is the message, or both are refused for the same reason. -/
inductive Agree : Except ProtocolError Buffer → Except ProtocolError Message → Prop where
  | ok {b : Buffer} {m : Message} (h : b.Represents m) : Agree (.ok b) (.ok m)
  | error (e : ProtocolError) : Agree (.error e) (.error e)

theorem agree_ofBody (id : Int32) (body : Bytes) : Agree (ofBody id body) (Message.ofBody id body) := by
  let b : Buffer :=
    ⟨"", "", id, Bytes.ofInt32 (UInt32.ofNat body.length).toInt32 ++ Bytes.ofInt32 id ++ body, Message.headerLength⟩
  let m : Message := ⟨"", "", id, (UInt32.ofNat body.length).toInt32, [], body⟩
  have hunread : b.unread = m.unread := List.drop_left' (by simp only [List.length_append, Bytes.length_ofInt32]; rfl)
  obtain ⟨e | ⟨node, name⟩, k, hk, hb, hm⟩ := BufferReader.mirrors_names b m hunread
  all_goals
    have hmessage := BufferReader.ofBody_eq id body
    rw [hm] at hmessage
    rw [ofBody, hb, hmessage]
  · exact .error e
  · let m' : Message := { m.skip k with node, name, taken := [] }
    have hbody : m'.body = body := (Message.ofBody_ok hmessage).1
    refine .ok ⟨rfl, rfl, rfl, ?_, ?_⟩
    · show b.data = Bytes.ofInt32 m'.stamp ++ Bytes.ofInt32 m'.id ++ m'.body
      rw [hbody]
      rfl
    · -- The cursor has moved over as many bytes as are missing behind it, and these are the names.
      have hlength : m'.names.length + (body.drop k).length = body.length := by
        rw [← List.length_append]
        exact congrArg List.length hbody
      change k ≤ body.length at hk
      rw [List.length_drop] at hlength
      show Message.headerLength + k = Message.headerLength + m'.names.length + 0
      omega

theorem agree_ofFrame (frame : Bytes) : Agree (ofFrame frame) (Message.ofFrame frame) := by
  unfold ofFrame Message.ofFrame
  by_cases hshort : frame.length < Message.headerLength
  · rw [if_pos hshort, if_pos hshort]
    exact .error _
  rw [if_neg hshort, if_neg hshort]
  dsimp only
  by_cases hsize : (Message.readHeader frame).1 < 0 ∨
      (Message.readHeader frame).1.toNatClampNeg ≠ frame.length - Message.headerLength
  · rw [if_pos hsize, if_pos hsize]
    exact .error _
  · rw [if_neg hsize, if_neg hsize]
    exact agree_ofBody _ _

end Buffer

/-! ### Sequences of operations -/

namespace Message

/-- Where a message comes from. -/
inductive Source where
  | start (node name : String)
  | body (id : Int32) (bytes : Bytes)
  | frame (bytes : Bytes)

/-- What can be done to a message.  A copy of a message is the same message, so copying is nothing that is done to it. -/
inductive Edit where
  | withId (id : Int32)
  | prepare
  | write (f : Field)
  | read (kind : FieldKind)

/-- The message after an edit, whether a reading has succeeded or failed. -/
def apply (m : Message) : Edit → Message
  | .withId id => m.withId id
  | .prepare => m.prepare
  | .write f => m.write f.bytes
  | .read kind => ((Field.read kind).on m).2

def Source.message : Source → Except ProtocolError Message
  | start node name => .ok (Message.start node name)
  | body id bytes => ofBody id bytes
  | frame bytes => ofFrame bytes

end Message

namespace Buffer

open Message (Source Edit)

/-- The buffer after an edit in place. -/
def apply (b : Buffer) : Edit → Buffer
  | .withId id => b.withId id
  | .prepare => b.prepare
  | .write f => b.write f.bytes
  | .read kind => ((read kind).on b).2

def ofSource : Source → Except ProtocolError Buffer
  | .start node name => .ok (start node name)
  | .body id bytes => ofBody id bytes
  | .frame bytes => ofFrame bytes

theorem agree_ofSource (source : Source) : Agree (ofSource source) source.message := by
  cases source with
  | start node name => exact .ok (represents_start node name)
  | body id bytes => exact agree_ofBody id bytes
  | frame bytes => exact agree_ofFrame bytes

variable {b : Buffer} {m : Message}

theorem Represents.apply (h : b.Represents m) (edit : Edit) : (b.apply edit).Represents (m.apply edit) := by
  cases edit with
  | withId id => exact h.withId id
  | prepare => exact h.prepare
  | write f => exact h.write f.bytes
  | read kind => exact (h.read kind).2

theorem Represents.foldl_apply (h : b.Represents m) (edits : List Edit) :
    (edits.foldl Buffer.apply b).Represents (edits.foldl Message.apply m) := by
  induction edits generalizing b m with
  | nil => exact h
  | cons edit edits ih => exact ih (h.apply edit)

/-- What is made of a source by edits is made of it in a buffer by the same edits in place. -/
theorem represents_of_edits {source : Source} {edits : List Edit}
    (hmade : source.message.map (edits.foldl Message.apply) = .ok m) :
    ∃ b, (ofSource source).map (edits.foldl Buffer.apply) = .ok b ∧ b.Represents m := by
  have hagree := agree_ofSource source
  rcases hmessage : source.message with e | m₀
  · rw [hmessage] at hmade
    cases hmade
  rw [hmessage] at hmade hagree
  obtain rfl := Except.ok.inj hmade
  rcases hbuffer : ofSource source with e | b₀
  · rw [hbuffer] at hagree
    cases hagree
  · rw [hbuffer] at hagree
    cases hagree with
    | ok h => exact ⟨edits.foldl Buffer.apply b₀, rfl, h.foldl_apply edits⟩

/-- What ties what stands beside a buffer to what is in it. -/
structure Sound (b : Buffer) : Prop where
  names : (Utf8.encode b.node).block ++ (Utf8.encode b.name).block <+: b.data.drop Message.headerLength
  id : (b.data.drop 4).take 4 = Bytes.ofInt32 b.id
  names_le_cursor :
    Message.headerLength + ((Utf8.encode b.node).block ++ (Utf8.encode b.name).block).length ≤ b.cursor
  cursor_le : b.cursor ≤ b.data.length

theorem Represents.sound (h : b.Represents m) : b.Sound := by
  refine ⟨?_, ?_, ?_, h.cursor_le⟩
  · rw [h.drop_eq, h.node, h.name]
    exact List.prefix_append m.names m.payload
  · rw [h.data, Message.bytes, List.append_assoc, List.drop_left' (Bytes.length_ofInt32 _),
      List.take_left' (Bytes.length_ofInt32 _), h.id]
  · rw [h.cursor, h.node, h.name]
    exact Nat.le_add_right _ _

/-- The buffer that its own frame is read into: the cursor stands behind the names. -/
def reopened (b : Buffer) : Buffer := { b.prepare with
  cursor := Message.headerLength + ((Utf8.encode b.node).block ++ (Utf8.encode b.name).block).length }

/-- A message is kept in one way only. -/
theorem Represents.unique {b' : Buffer} (h : b.Represents m) (h' : b'.Represents m) : b = b' :=
  Buffer.ext (h.node.trans h'.node.symm) (h.name.trans h'.name.symm) (h.id.trans h'.id.symm) (h.data.trans h'.data.symm)
    (h.cursor.trans h'.cursor.symm)

theorem Represents.reopened (h : b.Represents m) :
    b.reopened.Represents { m.prepare with taken := [], unread := m.payload } := by
  refine ⟨h.node, h.name, h.id, h.prepare.data, ?_⟩
  rw [Buffer.reopened, h.node, h.name]
  rfl

/-- The frame of a message that is short enough can be read. -/
theorem Represents.ofFrame_prepare (h : b.Represents m) (hlimit : m.body.length < Bytes.lengthLimit) :
    ofFrame b.prepare.data = .ok b.reopened := by
  have hagree := agree_ofFrame m.frame
  rw [Message.ofFrame_frame_of_lt hlimit] at hagree
  rw [h.prepare.data]
  rcases hread : ofFrame m.frame with e | b'
  · rw [hread] at hagree
    cases hagree
  · rw [hread] at hagree
    cases hagree with
    | ok h' => exact hread.trans (congrArg Except.ok (h'.unique h.reopened))

end Buffer
end LevelLink
