import LevelLink.Proofs.Wire.Reading

/-!
# What is a frame

A byte string is a frame if its size field says how many bytes follow the header and if these open with the two names
(`Message.IsFrame`), and there are four ways to be none (`Message.NoFrame`).  One of the two holds of every byte
string, and reading follows them: `Message.ofFrame_accepts`.
-/

namespace LevelLink

/-! ### Texts in front of bytes -/

/-- The bytes open with a text: a length, which is therefore not negative, as many bytes, which are the text in UTF-8,
and the rest. -/
def HasText (bs : Bytes) (s : String) (rest : Bytes) : Prop :=
  ∃ (n : Int32) (content : Bytes), bs = Bytes.ofInt32 n ++ (content ++ rest) ∧ n.toInt = content.length ∧
    content = Utf8.encode s

/-- What is wrong with bytes that do not open with a text. -/
inductive NoText : Bytes → ProtocolError → Prop where
  | short {bs : Bytes} (h : bs.length < 4) : NoText bs (.truncated 4 bs.length)
  | negative {n : Int32} {rest : Bytes} (hn : n.toInt < 0) : NoText (Bytes.ofInt32 n ++ rest) (.negativeLength n)
  | cut {n : Int32} {rest : Bytes} (hn : (rest.length : Int) < n.toInt) :
      NoText (Bytes.ofInt32 n ++ rest) (.truncated n.toInt.toNat rest.length)
  | encoding {n : Int32} {content rest : Bytes} (hn : n.toInt = content.length)
      (hcontent : ∀ s, content ≠ Utf8.encode s) : NoText (Bytes.ofInt32 n ++ (content ++ rest)) .invalidUtf8

/-- A length and as many bytes are a block. -/
theorem ofInt32_append_of_toInt {n : Int32} {content : Bytes} (h : n.toInt = content.length) (rest : Bytes) :
    content.length < Bytes.lengthLimit ∧ Bytes.ofInt32 n ++ (content ++ rest) = content.block ++ rest := by
  obtain ⟨hlength, hn⟩ := toInt32_of_toInt h
  exact ⟨hlength, by rw [Bytes.block, hn, List.append_assoc]⟩

theorem Bytes.exists_ofInt32_append {bs : Bytes} (h : 4 ≤ bs.length) :
    ∃ (v : Int32) (rest : Bytes), bs = ofInt32 v ++ rest := by
  refine ⟨toInt32 (bs.take 4), bs.drop 4, ?_⟩
  rw [ofInt32_toInt32 (List.length_take_of_le h), List.take_append_drop]

/-- A length in front of bytes is that of the first of them, or it is negative, or it is too long. -/
theorem length_cases {bs : Bytes} (h : 4 ≤ bs.length) :
    (∃ (n : Int32) (content rest : Bytes), bs = Bytes.ofInt32 n ++ (content ++ rest) ∧ n.toInt = content.length) ∨
    (∃ (n : Int32) (rest : Bytes), bs = Bytes.ofInt32 n ++ rest ∧ n.toInt < 0) ∨
    ∃ (n : Int32) (rest : Bytes), bs = Bytes.ofInt32 n ++ rest ∧ (rest.length : Int) < n.toInt := by
  obtain ⟨n, rest, rfl⟩ := Bytes.exists_ofInt32_append h
  by_cases hneg : n.toInt < 0
  · exact .inr (.inl ⟨n, rest, rfl, hneg⟩)
  by_cases hcut : (rest.length : Int) < n.toInt
  · exact .inr (.inr ⟨n, rest, rfl, hcut⟩)
  refine .inl ⟨n, rest.take n.toInt.toNat, rest.drop n.toInt.toNat, ?_, ?_⟩
  · rw [List.take_append_drop]
  · rw [List.length_take]
    omega

/-- Bytes open with a text, or something is wrong with them. -/
theorem hasText_or_noText (bs : Bytes) : (∃ s rest, HasText bs s rest) ∨ ∃ e, NoText bs e := by
  by_cases hshort : bs.length < 4
  · exact .inr ⟨_, .short hshort⟩
  rcases length_cases (Nat.le_of_not_lt hshort) with ⟨n, content, rest, rfl, hn⟩ | ⟨n, rest, rfl, hneg⟩ |
    ⟨n, rest, rfl, hcut⟩
  · by_cases htext : ∃ s, content = Utf8.encode s
    · obtain ⟨s, hs⟩ := htext
      exact .inl ⟨s, rest, n, content, rfl, hn, hs⟩
    · exact .inr ⟨_, .encoding hn fun s hs => htext ⟨s, hs⟩⟩
  · exact .inr ⟨_, .negative hneg⟩
  · exact .inr ⟨_, .cut hcut⟩

namespace Reader

variable {m : Message} {s : String} {rest : Bytes} {e : ProtocolError}

theorem parse_text_of_hasText (h : HasText m.unread s rest) :
    text.parse m = .ok (s, m.past (Utf8.encode s).block rest) := by
  obtain ⟨n, content, hm, hn, rfl⟩ := h
  obtain ⟨hlength, hblock⟩ := ofInt32_append_of_toInt hn rest
  rw [parse, reads_text hlength m rest (hm.trans hblock)]

theorem parse_text_of_noText (h : NoText m.unread e) : text.parse m = .error e := by
  have hparse {m₁ : Message} (h : text.on m = (.error e, m₁)) : text.parse m = .error e := by
    rw [parse, h]
  generalize hm : m.unread = bs at h
  cases h with
  | short hshort =>
    subst hm
    exact hparse (on_bind_of_error (on_block_of_short hshort) _)
  | negative hn => exact hparse (on_bind_of_error (on_block_of_negative hm hn) _)
  | cut hn => exact hparse (on_bind_of_error (on_block_of_cut hm hn) _)
  | @encoding n content rest hn hcontent =>
    obtain ⟨hlength, hblock⟩ := ofInt32_append_of_toInt hn rest
    exact hparse (on_text_of_encoding hlength (hm.trans hblock) hcontent)

end Reader

/-! ### Frames -/

namespace Message

/-- The bytes are a frame with these names and this payload. -/
structure IsFrame (f : Bytes) (node name : String) (payload : Bytes) : Prop where
  header : headerLength ≤ f.length
  size : (Bytes.toInt32 f).toInt = (f.length : Int) - headerLength
  names : ∃ rest, HasText (f.drop headerLength) node rest ∧ HasText rest name payload

/-- What is wrong with bytes that are no frame; the first of it counts. -/
inductive NoFrame (f : Bytes) : ProtocolError → Prop where
  | header (hlength : f.length < headerLength) : NoFrame f (.truncated headerLength f.length)
  | size (hlength : headerLength ≤ f.length) (hsize : (Bytes.toInt32 f).toInt ≠ (f.length : Int) - headerLength) :
      NoFrame f (.frameSize (Bytes.toInt32 f).toInt.toNat (f.length - headerLength))
  | node {e : ProtocolError} (hlength : headerLength ≤ f.length)
      (hsize : (Bytes.toInt32 f).toInt = (f.length : Int) - headerLength)
      (hnode : NoText (f.drop headerLength) e) : NoFrame f e
  | name {e : ProtocolError} {node : String} {rest : Bytes} (hlength : headerLength ≤ f.length)
      (hsize : (Bytes.toInt32 f).toInt = (f.length : Int) - headerLength)
      (hnode : HasText (f.drop headerLength) node rest) (hname : NoText rest e) : NoFrame f e

variable {f bs rest payload : Bytes} {id : Int32} {node name : String} {e : ProtocolError} {m : Message}

theorem isFrame_or_noFrame (f : Bytes) : (∃ node name payload, IsFrame f node name payload) ∨ ∃ e, NoFrame f e := by
  by_cases hshort : f.length < headerLength
  · exact .inr ⟨_, .header hshort⟩
  have hlength := Nat.le_of_not_lt hshort
  by_cases hsize : (Bytes.toInt32 f).toInt = (f.length : Int) - headerLength
  · rcases hasText_or_noText (f.drop headerLength) with ⟨node, rest, hnode⟩ | ⟨e, hnode⟩
    · rcases hasText_or_noText rest with ⟨name, payload, hname⟩ | ⟨e, hname⟩
      · exact .inl ⟨node, name, payload, hlength, hsize, rest, hnode, hname⟩
      · exact .inr ⟨e, .name hlength hsize hnode hname⟩
    · exact .inr ⟨e, .node hlength hsize hnode⟩
  · exact .inr ⟨_, .size hlength hsize⟩

theorem ofBody_of_names (hnode : HasText bs node rest) (hname : HasText rest name payload) :
    ofBody id bs = .ok ⟨node, name, id, (UInt32.ofNat bs.length).toInt32, [], payload⟩ := by
  have hfirst := Reader.parse_text_of_hasText (m := ⟨"", "", id, (UInt32.ofNat bs.length).toInt32, [], bs⟩) hnode
  have hsecond := Reader.parse_text_of_hasText
    (m := Message.past ⟨"", "", id, (UInt32.ofNat bs.length).toInt32, [], bs⟩ (Utf8.encode node).block rest) hname
  simp only [ofBody, hfirst, hsecond, bind, Except.bind]
  rfl

theorem ofBody_of_noNode (hnode : NoText bs e) : ofBody id bs = .error e := by
  have hfirst := Reader.parse_text_of_noText (m := ⟨"", "", id, (UInt32.ofNat bs.length).toInt32, [], bs⟩) hnode
  simp only [ofBody, hfirst, bind, Except.bind]

theorem ofBody_of_noName (hnode : HasText bs node rest) (hname : NoText rest e) : ofBody id bs = .error e := by
  have hfirst := Reader.parse_text_of_hasText (m := ⟨"", "", id, (UInt32.ofNat bs.length).toInt32, [], bs⟩) hnode
  have hsecond := Reader.parse_text_of_noText
    (m := Message.past ⟨"", "", id, (UInt32.ofNat bs.length).toInt32, [], bs⟩ (Utf8.encode node).block rest) hname
  simp only [ofBody, hfirst, hsecond, bind, Except.bind]

section Sized

variable (hlength : headerLength ≤ f.length) (hsize : (Bytes.toInt32 f).toInt = (f.length : Int) - headerLength)
include hlength hsize

/-- A size field that is right says the length of the body. -/
theorem toInt_size : (Bytes.toInt32 f).toInt = ((f.drop headerLength).length : Nat) := by
  rw [hsize, List.length_drop]
  omega

/-- Where the size is right, the frame is the message that its body is. -/
theorem ofFrame_of_size : ofFrame f = ofBody (Bytes.toInt32 (f.drop 4)) (f.drop headerLength) := by
  have hnat := toNatClampNeg_of_toInt (toInt_size hlength hsize)
  have hneg : ¬ Bytes.toInt32 f < 0 := by
    rw [Int32.lt_iff_toInt_lt, Int32.toInt_zero]
    omega
  rw [ofFrame, if_neg (by omega)]
  simp only [readHeader]
  refine if_neg ?_
  rintro (h | h)
  · exact hneg h
  · exact h (hnat.trans List.length_drop)

end Sized

theorem ofFrame_of_noFrame (h : NoFrame f e) : ofFrame f = .error e := by
  cases h with
  | header hlength => rw [ofFrame, if_pos hlength]
  | size hlength hsize =>
    rw [ofFrame, if_neg (by omega)]
    simp only [readHeader]
    refine if_pos ?_
    by_cases hneg : Bytes.toInt32 f < 0
    · exact .inl hneg
    · right
      rw [Int32.lt_iff_toInt_lt, Int32.toInt_zero] at hneg
      rw [Int32.toNatClampNeg]
      omega
  | node hlength hsize hnode => rw [ofFrame_of_size hlength hsize, ofBody_of_noNode hnode]
  | name hlength hsize hnode hname => rw [ofFrame_of_size hlength hsize, ofBody_of_noName hnode hname]

theorem IsFrame.ofFrame_eq (h : IsFrame f node name payload) :
    ofFrame f = .ok ⟨node, name, Bytes.toInt32 (f.drop 4), Bytes.toInt32 f, [], payload⟩ := by
  obtain ⟨hlength, hsize, rest, hnode, hname⟩ := h
  obtain ⟨-, hstamp⟩ := toInt32_of_toInt (toInt_size hlength hsize)
  rw [ofFrame_of_size hlength hsize, ofBody_of_names hnode hname, hstamp]

theorem isFrame_of_ofFrame (h : ofFrame f = .ok m) :
    IsFrame f m.node m.name m.unread ∧ m.id = Bytes.toInt32 (f.drop 4) ∧ m.stamp = Bytes.toInt32 f ∧ m.taken = [] := by
  rcases isFrame_or_noFrame f with ⟨node, name, payload, hf⟩ | ⟨e, hf⟩
  · obtain rfl := Except.ok.inj (hf.ofFrame_eq.symm.trans h)
    exact ⟨hf, rfl, rfl, rfl⟩
  · rw [ofFrame_of_noFrame hf] at h
    cases h

theorem noFrame_of_ofFrame (h : ofFrame f = .error e) : NoFrame f e := by
  rcases isFrame_or_noFrame f with ⟨node, name, payload, hf⟩ | ⟨e', hf⟩
  · rw [hf.ofFrame_eq] at h
    cases h
  · obtain rfl := Except.error.inj ((ofFrame_of_noFrame hf).symm.trans h)
    exact hf

/-- A frame that was read is the frame of what was read. -/
theorem frame_of_ofFrame (h : ofFrame f = .ok m) : m.frame = f := by
  obtain ⟨⟨hlength, hsize, -⟩, hid, -, -⟩ := isFrame_of_ofFrame h
  rw [ofFrame_of_size hlength hsize] at h
  obtain ⟨hbody, -⟩ := ofBody_ok h
  obtain ⟨-, hstamp⟩ := toInt32_of_toInt (toInt_size hlength hsize)
  rw [frame_eq, hbody, hid, hstamp, List.append_assoc]
  exact ofInt32_readHeader hlength

/-- The size of a frame that is read has been said in its header. -/
theorem body_lt_of_ofFrame {m' : Message} (h : ofFrame m.frame = .ok m') : m.body.length < Bytes.lengthLimit := by
  obtain ⟨⟨hlength, hsize, -⟩, -⟩ := isFrame_of_ofFrame h
  obtain ⟨hlt, -⟩ := toInt32_of_toInt (toInt_size hlength hsize)
  rw [List.length_drop, frame, length_bytes] at hlt
  exact Nat.lt_of_le_of_lt (Nat.le_sub_of_add_le' (Nat.le_refl _)) hlt

/-- The size of a body that is too long by less than what can be said is negative in the header, and the frame is not read. -/
theorem ofFrame_frame_of_le (h : Bytes.lengthLimit ≤ m.body.length) (h' : m.body.length < 2 * Bytes.lengthLimit) :
    (Bytes.toInt32 m.frame).toInt < 0 ∧ ofFrame m.frame = .error (.frameSize 0 m.body.length) := by
  have hstamp : Bytes.toInt32 m.frame = (UInt32.ofNat m.body.length).toInt32 := by
    rw [frame_eq, List.append_assoc, Bytes.toInt32_ofInt32_append]
  have hneg : (Bytes.toInt32 m.frame).toInt < 0 := by
    rw [hstamp, UInt32.toInt32_ofNat', Int32.toInt_ofNat', Int.bmod_def, Int32.size]
    rw [Bytes.lengthLimit] at h h'
    split
    all_goals omega
  have hlength : m.frame.length = headerLength + m.body.length := m.prepare.length_bytes
  have hnone : NoFrame m.frame _ := .size (by omega) (by omega)
  have herror := ofFrame_of_noFrame hnone
  rw [hlength, Nat.add_sub_cancel_left, Int.toNat_of_nonpos (Int.le_of_lt hneg)] at herror
  exact ⟨hneg, herror⟩

/-- Reading accepts exactly the frames, and nothing of a frame is lost: the message has its names, its id and its
payload, all of which is still to be read, and is written as the same frame again.  What is wrong with bytes that are no
frame is told. -/
theorem ofFrame_accepts (f : Bytes) :
    ((∃ m, ofFrame f = .ok m) ↔ ∃ node name payload, IsFrame f node name payload) ∧
    (∀ m, ofFrame f = .ok m ↔ IsFrame f m.node m.name m.unread ∧ m.id = Bytes.toInt32 (f.drop 4) ∧
      m.stamp = Bytes.toInt32 f ∧ m.taken = []) ∧
    (∀ m, ofFrame f = .ok m → m.frame = f) ∧
    (∀ e, ofFrame f = .error e ↔ NoFrame f e) := by
  refine ⟨⟨?_, ?_⟩, fun m => ⟨isFrame_of_ofFrame, ?_⟩, fun m => frame_of_ofFrame,
    fun e => ⟨noFrame_of_ofFrame, ofFrame_of_noFrame⟩⟩
  · rintro ⟨m, h⟩
    exact ⟨_, _, _, (isFrame_of_ofFrame h).1⟩
  · rintro ⟨node, name, payload, h⟩
    exact ⟨_, h.ofFrame_eq⟩
  · obtain ⟨node, name, id, stamp, taken, unread⟩ := m
    rintro ⟨h, rfl, rfl, rfl⟩
    exact h.ofFrame_eq

/-- A second name that is longer than what is left of the frame. -/
example : ofFrame [10, 0, 0, 0, 1, 0, 0, 0, 1, 0, 0, 0, 65, 2, 0, 0, 0, 88] = .error (.truncated 2 1) := by decide

end Message
end LevelLink
