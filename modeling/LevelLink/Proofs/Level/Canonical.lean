import LevelLink.Proofs.Level.Reading

/-!
# The written form of a record

A record with the data of the application behind it is written as one body, and is read off that body again.  The
converse fails in one place.  Any flag but zero says that data follows, and only one of these flags is ever written, so a
body can be read as a record and yet not be what is written for it.

`ObjectRecord.heldIn_iff` says which bodies hold a record: the written one, with any flag in it that says the same.
`ObjectRecord.body_roundTrip` follows from it.
-/

namespace LevelLink.ObjectRecord

open Reader

variable {r : ObjectRecord} {custom body : Bytes} {id flag : Int32}

/-! ### Bodies that hold a record -/

/-- The body announces the record: it is that of a message of the object stream, the opcode for a new object comes first,
the record is read behind it, and `custom` is left. -/
def HeldIn (r : ObjectRecord) (custom : Bytes) (id : Int32) (body : Bytes) : Prop :=
  ∃ m m₁ m₂ : Message, Message.ofBody id body = .ok m ∧ m.node = levelNode ∧ m.name = streamName ∧
    int32.on m = (.ok ObjectOp.new.code, m₁) ∧ ObjectRecord.read.on m₁ = (.ok r, m₂) ∧ m₂.unread = custom

/-- What stands in front of the flag in a body. -/
def front (r : ObjectRecord) : Bytes :=
  (Message.start levelNode streamName).names ++ (Bytes.ofInt32 ObjectOp.new.code ++ r.placement)

/-- The place of the flag in a body: behind the names, the opcode, the id and nine numbers. -/
def flagPlace : Nat := (Message.start levelNode streamName).names.length + (4 + 4 + 9 * 8)

/-- The flag in a body. -/
def flagOf (body : Bytes) : Int32 := Bytes.toInt32 (body.drop flagPlace)

theorem length_front (r : ObjectRecord) : r.front.length = flagPlace := by
  simp only [front, placement, flagPlace, Vec3.bytes, List.length_append, Bytes.length_ofInt32, Bytes.length_ofUInt64]

theorem flagOf_front (r : ObjectRecord) (flag : Int32) (custom : Bytes) :
    flagOf (r.front ++ (Bytes.ofInt32 flag ++ custom)) = flag := by
  rw [flagOf, List.drop_left' r.length_front, Bytes.toInt32_ofInt32_append]

theorem body_eq_front (r : ObjectRecord) (custom : Bytes) :
    r.body custom = r.front ++ (Bytes.ofInt32 r.flag ++ custom) := by
  rw [body, Message.body_write, payload_eq, fieldBytes_eq, front]
  simp only [Message.body, Message.payload, Message.start, List.reverse_nil, List.append_nil, List.append_assoc]

/-- A body with any flag in it is read up to the flag and on. -/
theorem heldIn_front (h : decide (flag ≠ 0) = r.hasCustomData) (custom : Bytes) (id : Int32) :
    r.HeldIn custom id (r.front ++ (Bytes.ofInt32 flag ++ custom)) := by
  let rest : Bytes := r.placement ++ Bytes.ofInt32 flag ++ custom
  have hm := ofBody_of_payload id (Bytes.ofInt32 ObjectOp.new.code ++ rest)
  have hbody : r.front ++ (Bytes.ofInt32 flag ++ custom) =
      ((Message.start levelNode streamName).write (Bytes.ofInt32 ObjectOp.new.code ++ rest)).body := by
    rw [Message.body_write, front]
    simp only [Message.body, Message.payload, Message.start, rest, List.reverse_nil, List.append_nil, List.append_assoc]
  rw [← hbody] at hm
  let m : Message :=
    (((Message.start levelNode streamName).withId id).write (Bytes.ofInt32 ObjectOp.new.code ++ rest)).prepare
  let m₁ : Message := m.past (Bytes.ofInt32 ObjectOp.new.code) rest
  have hopcode : int32.on m = (.ok ObjectOp.new.code, m₁) := reads_int32 ObjectOp.new.code m rest rfl
  exact ⟨m, m₁, _, hm, rfl, rfl, hopcode, r.reads_flagged h m₁ custom rfl, rfl⟩

/-- The bodies that hold a record are the written one and those that differ from it by a flag that says the same. -/
theorem heldIn_iff : r.HeldIn custom id body ↔
    ∃ flag : Int32, decide (flag ≠ 0) = r.hasCustomData ∧ body = r.front ++ (Bytes.ofInt32 flag ++ custom) := by
  constructor
  · rintro ⟨m, m₁, m₂, hm, hnode, hname, hopcode, hread, rfl⟩
    obtain ⟨rest, hunread, rfl⟩ := int32_ok hopcode
    obtain ⟨flag, custom, hflag, hrest, rfl⟩ := read_ok hread
    change rest = _ at hrest
    refine ⟨flag, hflag, ?_⟩
    have hnames : m.names = (Message.start levelNode streamName).names := by
      rw [Message.names, hnode, hname]
      rfl
    rw [← (Message.ofBody_ok hm).1, Message.body, Message.payload, Message.taken_of_ofBody hm, hunread, hrest, hnames,
      front]
    simp only [Message.past, List.reverse_nil, List.nil_append, List.append_assoc]
  · rintro ⟨flag, hflag, rfl⟩
    exact heldIn_front hflag custom id

/-! ### The written form -/

/-- The flag that is written is the one that says the same and is zero or one. -/
theorem flag_eq_iff (h : decide (flag ≠ 0) = r.hasCustomData) : r.flag = flag ↔ flag = 0 ∨ flag = 1 := by
  rw [ObjectRecord.flag, ← h]
  by_cases hzero : flag = 0
  · simp [hzero]
  · simp [hzero, eq_comm]

/-- Another word in the same place changes the four bytes of the word and no others. -/
theorem getElem?_word {front rest : Bytes} {v w : Int32} {k : Nat} (h : k < front.length ∨ front.length + 4 ≤ k) :
    (front ++ (Bytes.ofInt32 v ++ rest))[k]? = (front ++ (Bytes.ofInt32 w ++ rest))[k]? := by
  rcases h with hfront | hbehind
  · rw [List.getElem?_append_left hfront, List.getElem?_append_left hfront]
  · have hrest (v : Int32) : (front ++ (Bytes.ofInt32 v ++ rest))[k]? = rest[k - front.length - 4]? := by
      rw [List.getElem?_append_right (by omega), List.getElem?_append_right (by rw [Bytes.length_ofInt32]; omega),
        Bytes.length_ofInt32]
    rw [hrest v, hrest w]

/-- What is written for a record and the data behind it is read as that, under any id, and consists of the names, the
opcode, the id of the object and what is sent to have the object added.  Whatever is read as a record has a flag that says
what the record says; it is what is written for the record exactly if this flag is zero or one, and nowhere but in the
four bytes of the flag is it anything else. -/
theorem body_roundTrip :
    (∀ (r : ObjectRecord) (custom : Bytes) (id : Int32), r.HeldIn custom id (r.body custom)) ∧
    (∀ (r : ObjectRecord) (custom : Bytes), r.body custom = (Message.start levelNode streamName).names ++
      (Bytes.ofInt32 ObjectOp.new.code ++ (Bytes.ofInt32 r.id ++ (r.addRequest custom).payload))) ∧
    ∀ (r : ObjectRecord) (custom : Bytes) (id : Int32) (body : Bytes), r.HeldIn custom id body →
      (r.hasCustomData = true ↔ flagOf body ≠ 0) ∧
      (r.body custom = body ↔ flagOf body = 0 ∨ flagOf body = 1) ∧
      ∀ k, k < flagPlace ∨ flagPlace + 4 ≤ k → (r.body custom)[k]? = body[k]? := by
  refine ⟨?_, ?_, ?_⟩
  · intro r custom id
    rw [body_eq_front]
    exact heldIn_front r.flag_ne_zero custom id
  · intro r custom
    rw [body_eq_front, front, placement, addRequest, Message.payload_write, transformBytes_eq]
    simp only [Message.payload, Message.start, List.reverse_nil, List.nil_append, List.append_assoc]
  · intro r custom id body h
    obtain ⟨flag, hflag, rfl⟩ := heldIn_iff.mp h
    rw [flagOf_front, body_eq_front]
    refine ⟨?_, ?_, ?_⟩
    · rw [← hflag, decide_eq_true_iff]
    · rw [List.append_cancel_left_eq, List.append_cancel_right_eq, ← flag_eq_iff hflag]
      constructor
      · intro hbytes
        rw [← Bytes.toInt32_ofInt32 r.flag, hbytes, Bytes.toInt32_ofInt32]
      · exact congrArg Bytes.ofInt32
    · intro k hk
      rw [← r.length_front] at hk
      exact getElem?_word hk

/-- A record with a number in it that is none, and with data behind it. -/
def sampleMarked : ObjectRecord := ⟨7, ⟨0x7ff0000000000001, 1, 2⟩, ⟨3, 4, 5⟩, ⟨6, 7, 8⟩, true⟩

/-- A body that holds the record and has the flag two. -/
def sampleFlagged : Bytes := sampleMarked.front ++ (Bytes.ofInt32 2 ++ [9])

theorem body_roundTrip_sampleFlagged : sampleMarked.HeldIn [9] 3 sampleFlagged ∧ flagOf sampleFlagged = 2 ∧
    sampleMarked.body [9] ≠ sampleFlagged ∧
    ∀ k, k < 110 ∨ 114 ≤ k → (sampleMarked.body [9])[k]? = sampleFlagged[k]? := by
  have hplace : flagPlace = 110 := by decide +kernel
  have hheld : sampleMarked.HeldIn [9] 3 sampleFlagged := heldIn_front (by decide) [9] 3
  have hflag : flagOf sampleFlagged = 2 := by decide +kernel
  obtain ⟨-, -, hread⟩ := body_roundTrip
  obtain ⟨-, hsame, hrest⟩ := hread _ _ _ _ hheld
  rw [hflag] at hsame
  rw [hplace] at hrest
  refine ⟨hheld, hflag, fun heq => ?_, hrest⟩
  exact absurd (hsame.mp heq) (by decide)

end LevelLink.ObjectRecord
