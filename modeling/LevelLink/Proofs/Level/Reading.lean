import LevelLink.Level.Snapshots
import LevelLink.Proofs.Wire.Reading

/-!
# Reading object frames

The frames of the object stream and the records in them are read off the bytes they are written with, and what
the application adds to a record is left unread.
-/

namespace LevelLink

open Reader

theorem Vec3.reads_bytes (v : Vec3) : Reads Vec3.read v.bytes v := by
  rw [Vec3.bytes, List.append_assoc]
  exact (reads_float v.x).bind ((reads_float v.y).bind ((reads_float v.z).map _))

theorem Vec3.takes_read : Takes Vec3.read :=
  takes_float.bind fun _ => takes_float.bind fun _ => takes_float.bind fun _ => takes_pure _

theorem Vec3.read_ok {m m' : Message} {v : Vec3} (h : Vec3.read.on m = (.ok v, m')) :
    ∃ rest, m.unread = v.bytes ++ rest ∧ m' = m.past v.bytes rest := by
  obtain ⟨x, m₁, hx, h⟩ := parts_of_on_bind_ok h
  obtain ⟨y, m₂, hy, h⟩ := parts_of_on_bind_ok h
  obtain ⟨z, m₃, hz, h⟩ := parts_of_on_bind_ok h
  obtain ⟨hv, rfl⟩ := Prod.mk.inj h
  obtain rfl := Except.ok.inj hv
  obtain ⟨rest₁, hm, rfl⟩ := float_ok hx
  obtain ⟨rest₂, hrest₁, rfl⟩ := float_ok hy
  obtain ⟨rest₃, hrest₂, rfl⟩ := float_ok hz
  change rest₁ = _ at hrest₁
  change rest₂ = _ at hrest₂
  refine ⟨rest₃, ?_, ?_⟩
  · rw [hm, hrest₁, hrest₂, Vec3.bytes, List.append_assoc, List.append_assoc]
  · simp only [Message.past_past, Vec3.bytes, List.append_assoc]

namespace ObjectRecord

theorem takes_read : Takes ObjectRecord.read :=
  takes_int32.bind fun _ => Vec3.takes_read.bind fun _ => Vec3.takes_read.bind fun _ =>
    Vec3.takes_read.bind fun _ => takes_int32.bind fun _ => takes_pure _

/-- The id of a record and the rest of it. -/
def fieldBytes (r : ObjectRecord) : Bytes := Bytes.ofInt32 r.id ++ r.transformBytes

/-- The id and the three vectors, which stand in front of the flag. -/
def placement (r : ObjectRecord) : Bytes := Bytes.ofInt32 r.id ++ (r.pos.bytes ++ (r.scale.bytes ++ r.rot.bytes))

/-- The flag as it is written. -/
def flag (r : ObjectRecord) : Int32 := if r.hasCustomData then 1 else 0

theorem transformBytes_eq (r : ObjectRecord) :
    r.transformBytes = r.pos.bytes ++ (r.scale.bytes ++ (r.rot.bytes ++ Bytes.ofInt32 r.flag)) := by
  rw [transformBytes, List.append_assoc, List.append_assoc]
  rfl

theorem fieldBytes_eq (r : ObjectRecord) : r.fieldBytes = r.placement ++ Bytes.ofInt32 r.flag := by
  rw [fieldBytes, transformBytes_eq, placement, List.append_assoc, List.append_assoc, List.append_assoc]

theorem flag_ne_zero (r : ObjectRecord) : decide (r.flag ≠ 0) = r.hasCustomData := by
  rw [flag]
  cases r.hasCustomData <;> decide

/-- A record is read with any flag that says the same. -/
theorem reads_flagged (r : ObjectRecord) {flag : Int32} (h : decide (flag ≠ 0) = r.hasCustomData) :
    Reads ObjectRecord.read (r.placement ++ Bytes.ofInt32 flag) r := by
  rw [placement, List.append_assoc, List.append_assoc, List.append_assoc]
  refine (reads_int32 r.id).bind ((Vec3.reads_bytes r.pos).bind ((Vec3.reads_bytes r.scale).bind
    ((Vec3.reads_bytes r.rot).bind ?_)))
  have hflag := (reads_int32 flag).map fun flag => (⟨r.id, r.pos, r.scale, r.rot, flag ≠ 0⟩ : ObjectRecord)
  rwa [h] at hflag

/-- What was read as a record was one, with a flag that says the same. -/
theorem read_ok {m m' : Message} {r : ObjectRecord} (h : ObjectRecord.read.on m = (.ok r, m')) :
    ∃ (flag : Int32) (rest : Bytes), decide (flag ≠ 0) = r.hasCustomData ∧
      m.unread = r.placement ++ Bytes.ofInt32 flag ++ rest ∧ m' = m.past (r.placement ++ Bytes.ofInt32 flag) rest := by
  obtain ⟨id, m₁, hid, h⟩ := parts_of_on_bind_ok h
  obtain ⟨pos, m₂, hpos, h⟩ := parts_of_on_bind_ok h
  obtain ⟨scale, m₃, hscale, h⟩ := parts_of_on_bind_ok h
  obtain ⟨rot, m₄, hrot, h⟩ := parts_of_on_bind_ok h
  obtain ⟨flag, m₅, hflag, h⟩ := parts_of_on_bind_ok h
  obtain ⟨hr, rfl⟩ := Prod.mk.inj h
  obtain rfl := Except.ok.inj hr
  obtain ⟨rest₁, hm, rfl⟩ := int32_ok hid
  obtain ⟨rest₂, hrest₁, rfl⟩ := Vec3.read_ok hpos
  obtain ⟨rest₃, hrest₂, rfl⟩ := Vec3.read_ok hscale
  obtain ⟨rest₄, hrest₃, rfl⟩ := Vec3.read_ok hrot
  obtain ⟨rest, hrest₄, rfl⟩ := int32_ok hflag
  change rest₁ = _ at hrest₁
  change rest₂ = _ at hrest₂
  change rest₃ = _ at hrest₃
  change rest₄ = _ at hrest₄
  refine ⟨flag, rest, rfl, ?_, ?_⟩
  · rw [hm, hrest₁, hrest₂, hrest₃, hrest₄]
    simp only [placement, List.append_assoc]
  · simp only [Message.past_past, placement, List.append_assoc]

theorem reads_fieldBytes (r : ObjectRecord) : Reads ObjectRecord.read r.fieldBytes r := by
  rw [fieldBytes_eq]
  exact r.reads_flagged r.flag_ne_zero

theorem payload_eq (r : ObjectRecord) (custom : Bytes) :
    r.payload custom = Bytes.ofInt32 ObjectOp.new.code ++ r.fieldBytes ++ custom := by
  rw [payload, fieldBytes, List.append_assoc (Bytes.ofInt32 _)]

/-- A body with the names of the stream is a message of the stream. -/
theorem ofBody_of_payload (id : Int32) (bs : Bytes) :
    Message.ofBody id ((Message.start levelNode streamName).write bs).body =
      .ok (((Message.start levelNode streamName).withId id).write bs).prepare := by
  have hnode : (Utf8.encode levelNode).length < Bytes.lengthLimit := by decide
  have hname : (Utf8.encode streamName).length < Bytes.lengthLimit := by decide
  exact Message.ofBody_body (m := ((Message.start levelNode streamName).withId id).write bs) rfl hnode hname

/-- The message that carries an announced object. -/
theorem body_eq (r : ObjectRecord) (custom : Bytes) (id : Int32) :
    r.body custom = (((Message.start levelNode streamName).withId id).write (r.payload custom)).body := rfl

end ObjectRecord

namespace ObjectFrame

theorem reads_new (r : ObjectRecord) :
    Reads ObjectFrame.read (Bytes.ofInt32 ObjectOp.new.code ++ r.fieldBytes) (.new r) :=
  (reads_int32 ObjectOp.new.code).bind ((r.reads_fieldBytes).map _)

theorem reads_update (id : Int32) {delta : Bytes} (h : delta.length < Bytes.lengthLimit) :
    Reads ObjectFrame.read ((ObjectFrame.update id delta).payload []) (.update id delta) := by
  rw [payload, List.append_assoc]
  exact (reads_int32 ObjectOp.update.code).bind ((reads_int32 id).bind ((reads_block h).map _))

theorem reads_delete (id : Int32) : Reads ObjectFrame.read ((ObjectFrame.delete id).payload []) (.delete id) :=
  (reads_int32 ObjectOp.delete.code).bind ((reads_int32 id).map _)

theorem reads_ended : Reads ObjectFrame.read (ObjectFrame.ended.payload []) .ended := by
  rw [payload, ← List.append_nil (Bytes.ofInt32 _)]
  exact (reads_int32 ObjectOp.ended.code).bind (reads_pure _)

theorem takes_read : Takes ObjectFrame.read := by
  refine takes_int32.bind fun opcode => ?_
  split
  · exact ObjectRecord.takes_read.bind fun _ => takes_pure _
  · exact takes_int32.bind fun _ => takes_block.bind fun _ => takes_pure _
  · exact takes_int32.bind fun _ => takes_pure _
  · exact takes_pure _
  · exact takes_throw _

/-- A frame that announces an object has an opcode and a record. -/
theorem parts_of_read_new {m rest : Message} {r : ObjectRecord}
    (h : ObjectFrame.read.inStream m = .ok (.new r, rest)) :
    ∃ opcode m₁, int32.inStream m = .ok (opcode, m₁) ∧ ObjectRecord.read.inStream m₁ = .ok (r, rest) := by
  obtain ⟨opcode, m₁, hopcode, hframe⟩ := parts_of_on_bind_ok (on_of_inStream h)
  refine ⟨opcode, m₁, inStream_of_on hopcode, ?_⟩
  split at hframe
  · obtain ⟨r', m₂, hrecord, hnew⟩ := parts_of_on_bind_ok hframe
    obtain ⟨hr, rfl⟩ := Prod.mk.inj hnew
    obtain rfl := ObjectFrame.new.inj (Except.ok.inj hr)
    exact inStream_of_on hrecord
  · obtain ⟨id, m₂, -, hframe⟩ := parts_of_on_bind_ok hframe
    obtain ⟨delta, m₃, -, hupdate⟩ := parts_of_on_bind_ok hframe
    cases hupdate
  · obtain ⟨id, m₂, -, hdelete⟩ := parts_of_on_bind_ok hframe
    cases hdelete
  · cases hframe
  · cases hframe

end ObjectFrame

namespace Snapshots

/-- A body that was announced is read as the object that was announced. -/
theorem reread_body (r : ObjectRecord) (custom : Bytes) (frameId : Int32) :
    ∃ rest : Message, reread frameId (r.body custom) = .ok (r, rest) ∧ rest.unread = custom := by
  let m : Message := ((Message.start levelNode ObjectRecord.streamName).withId frameId).write (r.payload custom)
  have hm : Message.ofBody frameId (r.body custom) = .ok m.prepare := ObjectRecord.ofBody_of_payload frameId _
  let m₁ : Message := m.prepare.past (Bytes.ofInt32 ObjectOp.new.code) (r.fieldBytes ++ custom)
  have hopcode : int32.inStream m.prepare = .ok (ObjectOp.new.code, m₁) := by
    refine (reads_int32 ObjectOp.new.code).inStream ?_
    show [] ++ r.payload custom = _
    rw [List.nil_append, r.payload_eq, List.append_assoc]
  have hrecord : ObjectRecord.read.inStream m₁ = .ok (r, m₁.past r.fieldBytes custom) :=
    (r.reads_fieldBytes).inStream rfl
  refine ⟨m₁.past r.fieldBytes custom, ?_, rfl⟩
  rw [reread, hm]
  simp only [Except.mapError, bind, Except.bind, hopcode, hrecord]

end Snapshots
end LevelLink
