import LevelLink.Proofs.Wire.Reading
import LevelLink.Wire.Field

/-!
# Fields on the wire

A field is read off its own bytes and no further (`Field.reads_bytes`), so fields that are written in order are read
back in order, and after each reading exactly the bytes of those that remain are unread (`Message.yields_of_unread`).  A
frame in between changes nothing (`Message.yields_of_frame`).
-/

namespace LevelLink

open Reader (Reads)

/-! ### One field -/

theorem Reader.reads_int64 (v : Int64) : Reads Reader.int64 (Bytes.ofUInt64 v.toUInt64) v := by
  have := (reads_take (Bytes.ofUInt64 v.toUInt64)).map fun bs => (Bytes.toUInt64 bs).toInt64
  rwa [Bytes.toUInt64_ofUInt64, Int64.toInt64_toUInt64] at this

theorem Reader.int64_ok {m m' : Message} {v : Int64} (h : Reader.int64.on m = (.ok v, m')) :
    ∃ rest, m.unread = Bytes.ofUInt64 v.toUInt64 ++ rest ∧ m' = m.past (Bytes.ofUInt64 v.toUInt64) rest := by
  refine word_ok (fun v : Int64 => Bytes.ofUInt64 v.toUInt64) (fun bs hlen => ?_) h
  rw [UInt64.toUInt64_toInt64, Bytes.ofUInt64_toUInt64 hlen]

/-- A reply is read off its own bytes; a field that comes behind it is none of them. -/
theorem Reply.reads_bytes {r : Reply} (h : r.bytes.length < Bytes.lengthLimit) : Reads Reply.read r.bytes r := by
  cases r with
  | ack =>
    have hstatus := Reader.reads_text (s := "ACK") (by decide +kernel)
    intro m rest hm
    rw [Reply.read, Reader.on_bind_of_ok (hstatus m rest hm)]
    rfl
  | nack r =>
    obtain ⟨code, text⟩ := r
    have hstatus := Reader.reads_text (s := "NACK") (by decide +kernel)
    have htext : (Utf8.encode text).length < Bytes.lengthLimit := by
      rw [Reply.bytes, List.length_append, Bytes.length_block] at h
      dsimp only at h
      omega
    rw [Reply.bytes, List.append_assoc]
    -- The status that was read decides what is read next.
    refine hstatus.bind ?_
    rw [if_neg (by decide), if_pos rfl]
    exact (Reader.reads_int32 code).bind ((Reader.reads_text htext).map fun text => Reply.nack ⟨code, text⟩)

/-- What a reader reads is made into a field. -/
theorem Reader.Reads.field {α : Type} {r : Reader α} {bs : Bytes} {a : α} (hr : Reads r bs a) (f : α → Field) :
    Reads (f <$> r) bs (f a) := by
  rw [map_eq_pure_bind]
  exact hr.map f

/-- A field is read off its own bytes. -/
theorem Field.reads_bytes {f : Field} (h : f.bytes.length < Bytes.lengthLimit) : Reads (read f.kind) f.bytes f := by
  cases f with
  | int32 v => exact (Reader.reads_int32 v).field Field.int32
  | int64 v => exact (Reader.reads_int64 v).field Field.int64
  | float v => exact (Reader.reads_float v).field Field.float
  | raw bs => exact (Reader.reads_take bs).field Field.raw
  | reply r => exact (Reply.reads_bytes h).field Field.reply
  | text s =>
    rw [bytes, Bytes.length_block] at h
    exact (Reader.reads_text (by omega)).field Field.text
  | block bs =>
    rw [bytes, Bytes.length_block] at h
    exact (Reader.reads_block (by omega)).field Field.block

/-! ### Fields in order -/

/-- Reads fields of these kinds in order. -/
def Field.readAll (kinds : List FieldKind) : Reader (List Field) := kinds.mapM read

theorem Field.reads_flatMap_bytes {fs : List Field} (h : (fs.flatMap bytes).length < Bytes.lengthLimit) :
    Reads (readAll (fs.map kind)) (fs.flatMap bytes) fs := by
  induction fs with
  | nil => exact Reader.reads_pure []
  | cons f fs ih =>
    rw [List.flatMap_cons, List.length_append] at h
    rw [readAll, List.map_cons, List.mapM_cons, List.flatMap_cons]
    exact (reads_bytes (by omega)).bind ((ih (by omega)).map fun fs => f :: fs)

namespace Message

/-- The fields can be read from a message in order: after any number of readings those are left that have not been
read, with exactly their bytes. -/
def Yields (m : Message) (fields : List Field) : Prop :=
  ∀ j, ∃ m', (Field.readAll ((fields.take j).map Field.kind)).on m = (.ok (fields.take j), m') ∧
    m'.unread = (fields.drop j).flatMap Field.bytes

variable {m : Message} {fields : List Field}

theorem yields_of_unread (h : m.unread = fields.flatMap Field.bytes) (hlimit : m.unread.length < Bytes.lengthLimit) :
    m.Yields fields := by
  intro j
  rw [← List.take_append_drop j fields, List.flatMap_append] at h
  have hfront : ((fields.take j).flatMap Field.bytes).length < Bytes.lengthLimit := by
    rw [h, List.length_append] at hlimit
    omega
  exact ⟨_, Field.reads_flatMap_bytes hfront m _ h, rfl⟩

theorem foldl_write (m : Message) (fields : List Field) :
    fields.foldl (fun m f => m.write f.bytes) m = m.writeFields fields := by
  induction fields generalizing m with
  | nil =>
    show m = { m with unread := m.unread ++ [] }
    rw [List.append_nil]
  | cons f fields ih =>
    rw [List.foldl_cons, ih]
    show { m with unread := m.unread ++ f.bytes ++ fields.flatMap Field.bytes } = m.write _
    rw [List.append_assoc]
    rfl

/-- Fields that are written to a message in order are read back from it in order, and from the message in its frame, as
long as the size of the frame can be said. -/
theorem yields_of_body_lt {node name : String} {id : Int32}
    (hm : fields.foldl (fun m f => m.write f.bytes) ((start node name).withId id) = m)
    (hbody : m.body.length < Bytes.lengthLimit) :
    m.Yields fields ∧
      ∃ m', ofFrame m.frame = .ok m' ∧ m'.node = node ∧ m'.name = name ∧ m'.id = id ∧ m'.Yields fields := by
  rw [foldl_write] at hm
  have hunread : m.unread = fields.flatMap Field.bytes := hm ▸ rfl
  have hpayload : m.payload = fields.flatMap Field.bytes := hm ▸ rfl
  have hshort : (fields.flatMap Field.bytes).length < Bytes.lengthLimit := by
    rw [body, hpayload, List.length_append] at hbody
    omega
  refine ⟨yields_of_unread hunread (hunread ▸ hshort), _, ofFrame_frame_of_lt hbody, ?_, ?_, ?_, ?_⟩
  · exact hm ▸ rfl
  · exact hm ▸ rfl
  · exact hm ▸ rfl
  · exact yields_of_unread hpayload (hpayload ▸ hshort)

/-- Fields that are written to a message in order are read back from it in order, and from the message in its frame, as
long as the length of the message can be said. -/
theorem yields_of_frame {node name : String} {id : Int32} {fields : List Field}
    (hm : fields.foldl (fun m f => m.write f.bytes) ((start node name).withId id) = m)
    (hlimit : m.length < Bytes.lengthLimit) :
    m.Yields fields ∧
      ∃ m', ofFrame m.frame = .ok m' ∧ m'.node = node ∧ m'.name = name ∧ m'.id = id ∧ m'.Yields fields := by
  refine yields_of_body_lt hm ?_
  rw [length] at hlimit
  omega

/-- Every kind of field once. -/
def sampleFields : List Field :=
  [.int32 (-5), .int64 (-6), .float 0x7ff0000000000001, .text "up", .block [1, 2], .raw [3], .reply .ack,
    .reply (.nack ⟨404, "no"⟩)]

theorem yields_of_sampleFields :
    let m := sampleFields.foldl (fun m f => m.write f.bytes) ((start "A" "X").withId 7)
    m.length < Bytes.lengthLimit ∧ m.Yields sampleFields ∧
      ∃ m', ofFrame m.frame = .ok m' ∧ m'.node = "A" ∧ m'.name = "X" ∧ m'.id = 7 ∧ m'.Yields sampleFields := by
  intro m
  have hlimit : m.length < Bytes.lengthLimit := by decide +kernel
  exact ⟨hlimit, yields_of_frame rfl hlimit⟩

end Message
end LevelLink
