import LevelLink.Proofs.Wire.Buffer
import LevelLink.Proofs.Wire.Fields

/-!
# What a reading leaves

A reading of a field ends in one of three ways (`Field.Outcome`).  The field is read, and exactly its bytes are taken.  Or
the bytes do not open with such a field (`FieldKind.Fault`), and nothing is taken, not even a length that could be read:
the field can be told of, or read again.  Or there is a text that is not UTF-8; then the error says so, but its bytes are
taken like those of a text that is.

`Message.outcome_of_edits` says this of every message and of the buffer it may be kept in.
-/

namespace LevelLink

/-! ### What can be wrong with a field -/

/-- The number of bytes that are read first: a whole field, or the length in front of it. -/
def FieldKind.head : FieldKind → Nat
  | int32 | text | block | reply => 4
  | int64 | float => 8
  | raw n => n

/-- A length stands in front of the field. -/
def FieldKind.HasLength (kind : FieldKind) : Prop := kind = .text ∨ kind = .block

/-- What is wrong with bytes that do not open with a field of the kind. -/
inductive FieldKind.Fault : FieldKind → Bytes → ProtocolError → Prop where
  | short {kind : FieldKind} {bs : Bytes} (h : bs.length < kind.head) : Fault kind bs (.truncated kind.head bs.length)
  | negative {kind : FieldKind} {n : Int32} {rest : Bytes} (hkind : kind.HasLength) (hn : n.toInt < 0) :
      Fault kind (Bytes.ofInt32 n ++ rest) (.negativeLength n)
  /-- The error counts what is behind the length, although the length is left unread with it. -/
  | cut {kind : FieldKind} {n : Int32} {rest : Bytes} (hkind : kind.HasLength) (hn : (rest.length : Int) < n.toInt) :
      Fault kind (Bytes.ofInt32 n ++ rest) (.truncated n.toInt.toNat rest.length)

/-- The bytes open with a block that is no text. -/
structure Garbled (bs content rest : Bytes) : Prop where
  length_lt : content.length < Bytes.lengthLimit
  eq : bs = content.block ++ rest
  ne_encode : ∀ s, content ≠ Utf8.encode s

/-- How a reading of a field can end: with an answer, and with the message that it leaves. -/
inductive Field.Outcome (m : Message) : FieldKind → Except ProtocolError Field → Message → Prop where
  | field (f : Field) {rest : Bytes} (h : m.unread = f.bytes ++ rest) : Outcome m f.kind (.ok f) (m.past f.bytes rest)
  | fault {kind : FieldKind} {e : ProtocolError} (h : kind.Fault m.unread e) : Outcome m kind (.error e) m
  | garbled {content rest : Bytes} (h : Garbled m.unread content rest) :
      Outcome m .text (.error .invalidUtf8) (m.past content.block rest)

theorem FieldKind.Fault.ne_invalidUtf8 {kind : FieldKind} {bs : Bytes} {e : ProtocolError} (h : kind.Fault bs e) :
    e ≠ .invalidUtf8 := by
  cases h <;> nofun

/-! ### Words and blocks in front of bytes -/

theorem Bytes.exists_ofUInt64_append {bs : Bytes} (h : 8 ≤ bs.length) :
    ∃ (v : UInt64) (rest : Bytes), bs = ofUInt64 v ++ rest := by
  refine ⟨toUInt64 (bs.take 8), bs.drop 8, ?_⟩
  rw [ofUInt64_toUInt64 (List.length_take_of_le h), List.take_append_drop]

/-- Bytes that are long enough for a length open with a block, or something is wrong with them. -/
theorem exists_block_or_fault {bs : Bytes} (h : 4 ≤ bs.length) {kind : FieldKind} (hkind : kind.HasLength) :
    (∃ content rest : Bytes, content.length < Bytes.lengthLimit ∧ bs = content.block ++ rest) ∨
      ∃ e, kind.Fault bs e := by
  rcases length_cases h with ⟨n, content, rest, rfl, hn⟩ | ⟨n, rest, rfl, hneg⟩ | ⟨n, rest, rfl, hcut⟩
  · exact .inl ⟨content, rest, ofInt32_append_of_toInt hn rest⟩
  · exact .inr ⟨_, .negative hkind hneg⟩
  · exact .inr ⟨_, .cut hkind hcut⟩

namespace Reader

variable {m : Message} {e : ProtocolError}

theorem on_map_of_error {α β : Type} {r : Reader α} {m₁ : Message} (h : r.on m = (.error e, m₁)) (f : α → β) :
    (f <$> r).on m = (.error e, m₁) := by
  rw [map_eq_pure_bind]
  exact on_bind_of_error h _

/-- Where there is no block nothing is taken. -/
theorem on_block_of_fault {kind : FieldKind} (hkind : kind.HasLength) (h : kind.Fault m.unread e) :
    block.on m = (.error e, m) := by
  generalize hm : m.unread = bs at h
  cases h with
  | short hshort =>
    subst hm
    obtain rfl | rfl := hkind
    · exact on_block_of_short hshort
    · exact on_block_of_short hshort
  | negative _ hn => exact on_block_of_negative hm hn
  | cut _ hn => exact on_block_of_cut hm hn

end Reader

/-! ### One reading -/

namespace Field

open Reader (Reads)

variable {m : Message}

/-- A field that is read off its bytes is one way in which a reading ends. -/
theorem outcome_of_reads {f : Field} {rest : Bytes} (hr : Reads (read f.kind) f.bytes f) (h : m.unread = f.bytes ++ rest) :
    ∃ answer m', (read f.kind).on m = (answer, m') ∧ Outcome m f.kind answer m' :=
  ⟨.ok f, _, hr m rest h, .field f h⟩

/-- A reading that does not find what it reads first fails, and takes nothing. -/
theorem on_read_of_lt {kind : FieldKind} (h : m.unread.length < kind.head) :
    (read kind).on m = (.error (.truncated kind.head m.unread.length), m) := by
  cases kind with
  | raw n => exact Reader.on_map_of_error (Reader.on_take_of_lt h) _
  | block => exact Reader.on_map_of_error (Reader.on_block_of_short h) _
  | text => exact Reader.on_map_of_error (Reader.on_bind_of_error (Reader.on_block_of_short h) _) _
  | reply =>
    have htext : Reader.text.on m = (.error (.truncated 4 m.unread.length), m) :=
      Reader.on_bind_of_error (Reader.on_block_of_short h) _
    exact Reader.on_map_of_error (Reader.on_bind_of_error htext _) _
  | int32 | int64 | float => exact Reader.on_map_of_error (Reader.on_bind_of_error (Reader.on_take_of_lt h) _) _

/-- A block that is no text is taken by the reading of a text, which fails. -/
theorem on_read_of_garbled {content rest : Bytes} (h : Garbled m.unread content rest) :
    (read .text).on m = (.error .invalidUtf8, m.past content.block rest) :=
  Reader.on_map_of_error (Reader.on_text_of_encoding h.length_lt h.eq h.ne_encode) _

/-- Every reading of a field, a reply apart, ends in one of the three ways. -/
theorem exists_outcome (m : Message) {kind : FieldKind} (hkind : kind ≠ .reply) :
    ∃ answer m', (read kind).on m = (answer, m') ∧ Outcome m kind answer m' := by
  by_cases hshort : m.unread.length < kind.head
  · exact ⟨_, _, on_read_of_lt hshort, .fault (.short hshort)⟩
  have hlong : kind.head ≤ m.unread.length := Nat.le_of_not_lt hshort
  cases kind with
  | reply => exact absurd rfl hkind
  | int32 =>
    obtain ⟨v, rest, hm⟩ := Bytes.exists_ofInt32_append hlong
    exact outcome_of_reads (f := .int32 v) ((Reader.reads_int32 v).field Field.int32) hm
  | int64 =>
    obtain ⟨v, rest, hm⟩ := Bytes.exists_ofUInt64_append hlong
    rw [← UInt64.toUInt64_toInt64 v] at hm
    exact outcome_of_reads (f := .int64 v.toInt64) ((Reader.reads_int64 v.toInt64).field Field.int64) hm
  | float =>
    obtain ⟨v, rest, hm⟩ := Bytes.exists_ofUInt64_append hlong
    exact outcome_of_reads (f := .float v) ((Reader.reads_float v).field Field.float) hm
  | raw n =>
    obtain ⟨bs, rest, hm, rfl⟩ : ∃ bs rest, m.unread = bs ++ rest ∧ bs.length = n :=
      ⟨_, _, (List.take_append_drop n m.unread).symm, List.length_take_of_le hlong⟩
    exact outcome_of_reads (f := .raw bs) ((Reader.reads_take bs).field Field.raw) hm
  | block =>
    rcases exists_block_or_fault hlong (.inr rfl) with ⟨content, rest, hlength, hm⟩ | ⟨e, hfault⟩
    · exact outcome_of_reads (f := .block content) ((Reader.reads_block hlength).field Field.block) hm
    · exact ⟨_, _, Reader.on_map_of_error (Reader.on_block_of_fault (.inr rfl) hfault) _, .fault hfault⟩
  | text =>
    rcases exists_block_or_fault hlong (.inl rfl) with ⟨content, rest, hlength, hm⟩ | ⟨e, hfault⟩
    · by_cases htext : ∃ s, content = Utf8.encode s
      · obtain ⟨s, rfl⟩ := htext
        exact outcome_of_reads (f := .text s) ((Reader.reads_text hlength).field Field.text) hm
      · have hgarbled : Garbled m.unread content rest := ⟨hlength, hm, fun s hs => htext ⟨s, hs⟩⟩
        exact ⟨_, _, on_read_of_garbled hgarbled, .garbled hgarbled⟩
    · have hblock := Reader.on_block_of_fault (.inl rfl) hfault
      exact ⟨_, _, Reader.on_map_of_error (Reader.on_bind_of_error hblock _) _, .fault hfault⟩

end Field

/-! ### Readings of any message -/

namespace Message

/-- As many bytes have been skipped as have been taken. -/
theorem length_of_skip {m : Message} {k : Nat} {bs rest : Bytes} (hk : k ≤ m.unread.length) (hm : m.unread = bs ++ rest)
    (hskip : m.skip k = m.past bs rest) : k = bs.length := by
  have hrest : m.unread.drop k = rest := congrArg Message.unread hskip
  have hlength := congrArg List.length hm
  rw [← hrest, List.length_append, List.length_drop] at hlength
  omega

/-- A reading of a field from a message that was made by any sequence of operations.  Where it gives a field, the place of
reading has moved over the bytes of the field, and nothing else is changed.  Where it fails, the message is what it was,
and so is the buffer it is kept in, unless what fails is the decoding of a text: then the text has been passed over,
together with its length. -/
theorem outcome_of_edits {source : Source} {edits : List Edit} {m : Message}
    (hmade : source.message.map (edits.foldl apply) = .ok m) {kind : FieldKind} (hkind : kind ≠ .reply) :
    ∃ b answer m' b', (Buffer.ofSource source).map (edits.foldl Buffer.apply) = .ok b ∧ b.Represents m ∧
      (Field.read kind).on m = (answer, m') ∧ (Buffer.read kind).on b = (answer, b') ∧
      (∀ f, answer = .ok f → f.kind = kind ∧ b' = b.skip f.bytes.length ∧
        ∃ rest, m.unread = f.bytes ++ rest ∧ m' = m.past f.bytes rest) ∧
      (∀ e, answer = .error e → e ≠ .invalidUtf8 → kind.Fault m.unread e ∧ m' = m ∧ b' = b) ∧
      (answer = .error .invalidUtf8 ↔ ∃ content rest, kind = .text ∧ Garbled m.unread content rest ∧
        m' = m.past content.block rest ∧ b' = b.skip content.block.length) := by
  obtain ⟨b, hb, hrepresents⟩ := Buffer.represents_of_edits hmade
  obtain ⟨answer, m', hread, houtcome⟩ := Field.exists_outcome m hkind
  obtain ⟨answer', k, hk, hbuffer, hskip⟩ := BufferReader.mirrors_read kind b m hrepresents.unread_eq
  obtain ⟨rfl, hm'⟩ := Prod.mk.inj (hskip.symm.trans hread)
  -- The buffer knows how far its cursor has moved; the outcome knows which bytes have been taken.
  refine ⟨b, answer', m', b.skip k, hb, hrepresents, hread, hbuffer, ?_, ?_, ?_, ?_⟩
  · rintro f rfl
    cases houtcome with
    | field f hm =>
      obtain rfl := length_of_skip hk hm hm'
      exact ⟨rfl, rfl, _, hm, rfl⟩
  · rintro e rfl hne
    cases houtcome with
    | fault h =>
      obtain rfl : k = ([] : Bytes).length := length_of_skip hk rfl hm'
      exact ⟨h, rfl, rfl⟩
    | garbled h => exact absurd rfl hne
  · rintro rfl
    cases houtcome with
    | fault h => exact absurd rfl h.ne_invalidUtf8
    | garbled h =>
      obtain rfl := length_of_skip hk h.eq hm'
      exact ⟨_, _, rfl, h, rfl, rfl⟩
  · rintro ⟨content, rest, rfl, hgarbled, -, -⟩
    exact (Prod.mk.inj (hread.symm.trans (Field.on_read_of_garbled hgarbled))).1

/-- A block that is no text is written. -/
def sampleGarbling : List Edit := [.write (.block [255, 254])]

def sampleGarbled : Message := ⟨"A", "X", -1, 0, [], [2, 0, 0, 0, 255, 254]⟩

/-- The message when a text has been read, or tried. -/
def sampleTried : Message := ⟨"A", "X", -1, 0, [254, 255, 0, 0, 0, 2], []⟩

theorem outcome_of_sampleGarbling :
    (Source.start "A" "X").message.map (sampleGarbling.foldl apply) = .ok sampleGarbled ∧ FieldKind.text ≠ .reply ∧
      ∃ b, (Buffer.ofSource (.start "A" "X")).map (sampleGarbling.foldl Buffer.apply) = .ok b ∧ b.cursor = 18 ∧
        (Field.read .text).on sampleGarbled = (.error .invalidUtf8, sampleTried) ∧
        (Buffer.read .text).on b = (.error .invalidUtf8, b.skip 6) := by
  have hmade : (Source.start "A" "X").message.map (sampleGarbling.foldl apply) = .ok sampleGarbled := by decide +kernel
  have hkind : FieldKind.text ≠ .reply := by decide
  have hread : (Field.read .text).on sampleGarbled = (.error .invalidUtf8, sampleTried) := by decide +kernel
  obtain ⟨b, answer, m', b', hb, hrepresents, hm', hb', -, -, hgarbled⟩ := outcome_of_edits hmade hkind
  obtain ⟨rfl, rfl⟩ := Prod.mk.inj (hm'.symm.trans hread)
  obtain ⟨content, rest, -, ⟨-, hcontent, -⟩, htaken, rfl⟩ := hgarbled.mp rfl
  refine ⟨hmade, hkind, b, hb, ?_, hread, ?_⟩
  · rw [hrepresents.cursor]
    decide +kernel
  · rw [hb']
    have hrest : rest = [] := (congrArg Message.unread htaken).symm
    have hlength := congrArg List.length hcontent
    rw [hrest, List.append_nil] at hlength
    rw [← hlength]
    rfl

/-- The reading of a text has failed, and its bytes cannot be read as a block any more. -/
theorem moved_sampleGarbled :
    (Source.start "A" "X").message.map (sampleGarbling.foldl apply) = .ok sampleGarbled ∧
      (Field.read .text).on sampleGarbled = (.error .invalidUtf8, sampleTried) ∧ sampleTried ≠ sampleGarbled ∧
      (Field.read .block).on sampleGarbled = (.ok (.block [255, 254]), sampleTried) ∧
      (Field.read .block).on sampleTried = (.error (.truncated 4 0), sampleTried) := by
  decide +kernel

end Message
end LevelLink
