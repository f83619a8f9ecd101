import Mathlib.Data.List.Basic
import LevelLink.Link.Error
import LevelLink.Proofs.Attempts

/-!
# What readers take

`Reader.Reads r bs a` says that `r` reads `a` off the bytes `bs`, whatever is behind them.  There is one such
statement for every primitive reader, `Reads.bind` for reading one field after another, and for every primitive
reader the converse: where it succeeds, the unread part began with the written form of the value.

`Message.ofFrame_frame` is the same for frames: the frame of a message is read as that message.
-/

namespace LevelLink

/-- The number of lengths that a length field can say; the first one that it cannot. -/
def Bytes.lengthLimit : Nat := 2147483648

theorem toNatClampNeg_length {n : Nat} (h : n < Bytes.lengthLimit) :
    (UInt32.ofNat n).toInt32.toNatClampNeg = n :=
  Int32.toNatClampNeg_ofNat_of_lt h

theorem length_not_neg {n : Nat} (h : n < Bytes.lengthLimit) : ¬ (UInt32.ofNat n).toInt32 < 0 := by
  rw [UInt32.toInt32_ofNat', Int32.lt_iff_toInt_lt, Int32.toInt_ofNat_of_lt h, Int32.toInt_zero]
  omega

theorem toNatClampNeg_of_toInt {n : Int32} {k : Nat} (h : n.toInt = k) : n.toNatClampNeg = k := by
  rw [Int32.toNatClampNeg, h, Int.toNat_natCast]

/-- A length that a field says is one that a field can say, and is written as it stands there. -/
theorem toInt32_of_toInt {n : Int32} {k : Nat} (h : n.toInt = k) :
    k < Bytes.lengthLimit ∧ (UInt32.ofNat k).toInt32 = n := by
  have hk : n.toNatClampNeg = k := toNatClampNeg_of_toInt h
  have hneg : 0 ≤ n := by
    rw [Int32.le_iff_toInt_le, h, Int32.toInt_zero]
    exact Int.natCast_nonneg _
  refine ⟨hk ▸ n.toNatClampNeg_lt, ?_⟩
  rw [UInt32.toInt32_ofNat', ← hk, Int32.ofNat_toNatClampNeg n hneg]

/-- Only the first four bytes matter. -/
theorem Bytes.toInt32_ofInt32_append (v : Int32) (rest : Bytes) : toInt32 (ofInt32 v ++ rest) = v := by
  have h := toInt32_ofInt32 v
  rw [toInt32, List.take_of_length_le (Nat.le_of_eq (length_ofInt32 v))] at h
  rw [toInt32, List.take_left' (length_ofInt32 v), h]

/-- The message with `bs` taken off, `rest` being what is then unread. -/
def Message.past (m : Message) (bs rest : Bytes) : Message :=
  { m with taken := bs.reverse ++ m.taken, unread := rest }

theorem Message.past_past (m : Message) (bs cs rest rest' : Bytes) :
    (m.past bs rest).past cs rest' = m.past (bs ++ cs) rest' := by
  simp [past]

theorem Message.body_past {m : Message} {bs rest : Bytes} (h : m.unread = bs ++ rest) :
    (m.past bs rest).body = m.body := by
  show m.names ++ ((bs.reverse ++ m.taken).reverse ++ rest) = m.names ++ (m.taken.reverse ++ m.unread)
  rw [h]
  simp

namespace Reader

variable {α β : Type}

/-! ### Running readers -/

section Running

variable {r : Reader α} {m m₁ : Message} {a : α} {e : ProtocolError}

theorem on_pure (a : α) (m : Message) : (pure a : Reader α).on m = (.ok a, m) := rfl

theorem on_bind_of_ok (h : r.on m = (.ok a, m₁)) (f : α → Reader β) : (r >>= f).on m = (f a).on m₁ :=
  Attempt.on_bind_of_ok h f

theorem on_bind_of_error (h : r.on m = (.error e, m₁)) (f : α → Reader β) : (r >>= f).on m = (.error e, m₁) :=
  Attempt.on_bind_of_error h f

theorem on_tryCatch_of_ok (h : r.on m = (.ok a, m₁)) (f : ProtocolError → Reader α) :
    (tryCatch r f).on m = (.ok a, m₁) :=
  Attempt.on_tryCatch_of_ok h f

theorem on_tryCatch_of_error (h : r.on m = (.error e, m₁)) (f : ProtocolError → Reader α) :
    (tryCatch r f).on m = (f e).on m₁ :=
  Attempt.on_tryCatch_of_error h f

theorem parts_of_on_bind_ok {f : α → Reader β} {b : β} {m' : Message} (h : (r >>= f).on m = (.ok b, m')) :
    ∃ a m₁, r.on m = (.ok a, m₁) ∧ (f a).on m₁ = (.ok b, m') :=
  Attempt.parts_of_on_bind_ok h

end Running

/-! ### What is read off which bytes -/

/-- Reads `a` off `bs`, whatever is behind. -/
def Reads (r : Reader α) (bs : Bytes) (a : α) : Prop :=
  ∀ (m : Message) (rest : Bytes), m.unread = bs ++ rest → r.on m = (.ok a, m.past bs rest)

theorem reads_pure (a : α) : Reads (pure a) [] a := by
  intro m rest h
  rw [on_pure, Message.past, ← List.nil_append rest, ← h]
  rfl

theorem Reads.bind {r : Reader α} {f : α → Reader β} {bs cs : Bytes} {a : α} {b : β} (hr : Reads r bs a)
    (hf : Reads (f a) cs b) : Reads (r >>= f) (bs ++ cs) b := by
  intro m rest h
  rw [List.append_assoc] at h
  rw [on_bind_of_ok (hr m _ h), hf _ rest rfl, Message.past_past]

/-- The last field of a reading. -/
theorem Reads.map {r : Reader α} {bs : Bytes} {a : α} (hr : Reads r bs a) (f : α → β) :
    Reads (r >>= fun a => pure (f a)) bs (f a) := by
  have := hr.bind (f := fun a => pure (f a)) (reads_pure (f a))
  rwa [List.append_nil] at this

theorem reads_take (bs : Bytes) : Reads (take bs.length) bs bs := by
  intro m rest h
  have htake : m.unread.take bs.length = bs := by rw [h, List.take_left]
  have hdrop : m.unread.drop bs.length = rest := by rw [h, List.drop_left]
  show (if (m.unread.take bs.length).length = bs.length then
      (set { m with taken := (m.unread.take bs.length).reverse ++ m.taken, unread := m.unread.drop bs.length } >>=
        fun _ => pure (m.unread.take bs.length) : Reader Bytes)
    else throw (.truncated bs.length m.remaining)).on m = _
  rw [if_pos (by rw [htake]), htake, hdrop]
  rfl

theorem reads_int32 (v : Int32) : Reads int32 (Bytes.ofInt32 v) v := by
  have := (reads_take (Bytes.ofInt32 v)).map Bytes.toInt32
  rwa [Bytes.toInt32_ofInt32] at this

theorem reads_float (v : UInt64) : Reads float (Bytes.ofUInt64 v) v := by
  have := (reads_take (Bytes.ofUInt64 v)).map Bytes.toUInt64
  rwa [Bytes.toUInt64_ofUInt64] at this

/-- A block is read back if its length can be said. -/
theorem reads_block {bs : Bytes} (h : bs.length < Bytes.lengthLimit) : Reads block bs.block bs := by
  intro m rest hm
  rw [Bytes.block, List.append_assoc] at hm
  have hlength := reads_int32 (UInt32.ofNat bs.length).toInt32 m (bs ++ rest) hm
  have hbytes := reads_take bs (m.past (Bytes.ofInt32 (UInt32.ofNat bs.length).toInt32) (bs ++ rest)) rest rfl
  rw [Message.past_past] at hbytes
  show (int32 >>= fun n =>
    if n < 0 then (set m >>= fun _ => throw (.negativeLength n) : Reader Bytes)
    else tryCatch (take n.toNatClampNeg) fun e => set m >>= fun _ => throw e).on m = _
  rw [on_bind_of_ok hlength, if_neg (length_not_neg h), toNatClampNeg_length h, on_tryCatch_of_ok hbytes,
    Bytes.block]

theorem reads_text {s : String} (h : (Utf8.encode s).length < Bytes.lengthLimit) :
    Reads text (Utf8.encode s).block s := by
  intro m rest hm
  rw [text, on_bind_of_ok (reads_block h m rest hm)]
  simp only [Utf8.decode?_encode]
  rfl

/-! ### What was taken by a reading that has succeeded -/

theorem take_ok {n : Nat} {m m' : Message} {bs : Bytes} (h : (take n).on m = (.ok bs, m')) :
    bs.length = n ∧ ∃ rest, m.unread = bs ++ rest ∧ m' = m.past bs rest := by
  change (if (m.unread.take n).length = n then
      (set { m with taken := (m.unread.take n).reverse ++ m.taken, unread := m.unread.drop n } >>=
        fun _ => pure (m.unread.take n) : Reader Bytes)
    else throw (.truncated n m.remaining)).on m = _ at h
  split at h
  · next hlen =>
    obtain ⟨hbs, hm⟩ := Prod.mk.inj h
    obtain rfl := Except.ok.inj hbs
    exact ⟨hlen, m.unread.drop n, (List.take_append_drop n m.unread).symm, hm.symm⟩
  · cases h

/-- A word that was read is written as the bytes that have been taken. -/
theorem word_ok {n : Nat} {ofBytes : Bytes → α} (toBytes : α → Bytes) {m m' : Message} {v : α}
    (hword : ∀ bs : Bytes, bs.length = n → toBytes (ofBytes bs) = bs)
    (h : (take n >>= fun bs => pure (ofBytes bs)).on m = (.ok v, m')) :
    ∃ rest, m.unread = toBytes v ++ rest ∧ m' = m.past (toBytes v) rest := by
  obtain ⟨bs, m₁, hbs, hv⟩ := parts_of_on_bind_ok h
  obtain ⟨hlen, rest, hm, rfl⟩ := take_ok hbs
  obtain ⟨hvalue, rfl⟩ := Prod.mk.inj hv
  obtain rfl := Except.ok.inj hvalue
  rw [hword bs hlen]
  exact ⟨rest, hm, rfl⟩

theorem int32_ok {m m' : Message} {v : Int32} (h : int32.on m = (.ok v, m')) :
    ∃ rest, m.unread = Bytes.ofInt32 v ++ rest ∧ m' = m.past (Bytes.ofInt32 v) rest :=
  word_ok Bytes.ofInt32 (fun _ => Bytes.ofInt32_toInt32) h

theorem float_ok {m m' : Message} {v : UInt64} (h : float.on m = (.ok v, m')) :
    ∃ rest, m.unread = Bytes.ofUInt64 v ++ rest ∧ m' = m.past (Bytes.ofUInt64 v) rest :=
  word_ok Bytes.ofUInt64 (fun _ => Bytes.ofUInt64_toUInt64) h

theorem block_ok {m m' : Message} {bs : Bytes} (h : block.on m = (.ok bs, m')) :
    bs.length < Bytes.lengthLimit ∧ ∃ rest, m.unread = bs.block ++ rest ∧ m' = m.past bs.block rest := by
  change (int32 >>= fun n =>
    if n < 0 then (set m >>= fun _ => throw (.negativeLength n) : Reader Bytes)
    else tryCatch (take n.toNatClampNeg) fun e => set m >>= fun _ => throw e).on m = _ at h
  obtain ⟨n, m₁, hn, hbs⟩ := parts_of_on_bind_ok h
  obtain ⟨rest, hm, rfl⟩ := int32_ok hn
  split at hbs
  · cases hbs
  · next hneg =>
    rcases htake : (take n.toNatClampNeg).on (m.past (Bytes.ofInt32 n) rest) with ⟨e | bs', m₂⟩
    · rw [on_tryCatch_of_error htake] at hbs
      cases hbs
    · rw [on_tryCatch_of_ok htake] at hbs
      obtain ⟨hb, rfl⟩ := Prod.mk.inj hbs
      obtain rfl := Except.ok.inj hb
      obtain ⟨hlen, rest', hrest, rfl⟩ := take_ok htake
      have hlt : bs'.length < Bytes.lengthLimit := hlen ▸ n.toNatClampNeg_lt
      have hn : (UInt32.ofNat bs'.length).toInt32 = n := by
        rw [hlen, UInt32.toInt32_ofNat']
        exact Int32.ofNat_toNatClampNeg n (Int32.not_lt.mp hneg)
      rw [Message.past_past, Bytes.block, hn]
      refine ⟨hlt, rest', ?_, rfl⟩
      rw [hm, List.append_assoc]
      exact congrArg _ hrest

theorem text_ok {m m' : Message} {s : String} (h : text.on m = (.ok s, m')) :
    (Utf8.encode s).length < Bytes.lengthLimit ∧
      ∃ rest, m.unread = (Utf8.encode s).block ++ rest ∧ m' = m.past (Utf8.encode s).block rest := by
  obtain ⟨bs, m₁, hbs, hs⟩ := parts_of_on_bind_ok h
  obtain ⟨hlen, hrest⟩ := block_ok hbs
  split at hs
  · next s' hdecode =>
    obtain ⟨hvalue, rfl⟩ := Prod.mk.inj hs
    obtain rfl := Except.ok.inj hvalue
    rw [Utf8.encode_of_decode? hdecode]
    exact ⟨hlen, hrest⟩
  · cases hs

/-! ### Readings that fail -/

section Failing

variable {n : Int32} {k : Nat} {m : Message} {rest : Bytes}

theorem on_take_of_lt (h : m.unread.length < k) : (take k).on m = (.error (.truncated k m.unread.length), m) := by
  show (if (m.unread.take k).length = k then
      (set { m with taken := (m.unread.take k).reverse ++ m.taken, unread := m.unread.drop k } >>=
        fun _ => pure (m.unread.take k) : Reader Bytes)
    else throw (.truncated k m.remaining)).on m = _
  rw [if_neg (by rw [List.length_take]; omega)]
  rfl

theorem on_block_of_short (h : m.unread.length < 4) : block.on m = (.error (.truncated 4 m.unread.length), m) :=
  on_bind_of_error (on_bind_of_error (on_take_of_lt h) _) _

/-- The length of a block decides how its reading goes on. -/
theorem on_block_of_length (hm : m.unread = Bytes.ofInt32 n ++ rest) :
    block.on m = (if n < 0 then (set m >>= fun _ => throw (.negativeLength n) : Reader Bytes)
      else tryCatch (take n.toNatClampNeg) fun e => set m >>= fun _ => throw e).on (m.past (Bytes.ofInt32 n) rest) :=
  on_bind_of_ok (reads_int32 n m rest hm) _

theorem on_block_of_negative (hm : m.unread = Bytes.ofInt32 n ++ rest) (hn : n.toInt < 0) :
    block.on m = (.error (.negativeLength n), m) := by
  have hneg : n < 0 := by
    rw [Int32.lt_iff_toInt_lt, Int32.toInt_zero]
    exact hn
  rw [on_block_of_length hm, if_pos hneg]
  rfl

theorem on_block_of_cut (hm : m.unread = Bytes.ofInt32 n ++ rest) (hn : (rest.length : Int) < n.toInt) :
    block.on m = (.error (.truncated n.toInt.toNat rest.length), m) := by
  have hneg : ¬ n < 0 := by
    rw [Int32.lt_iff_toInt_lt, Int32.toInt_zero]
    omega
  have hlt : (m.past (Bytes.ofInt32 n) rest).unread.length < n.toNatClampNeg := by
    rw [Int32.toNatClampNeg]
    show rest.length < n.toInt.toNat
    omega
  rw [on_block_of_length hm, if_neg hneg, on_tryCatch_of_error (on_take_of_lt hlt)]
  rfl

/-- A block that is no text is taken all the same. -/
theorem on_text_of_encoding {bs : Bytes} (hbs : bs.length < Bytes.lengthLimit) (hm : m.unread = bs.block ++ rest)
    (hnone : ∀ s, bs ≠ Utf8.encode s) : text.on m = (.error .invalidUtf8, m.past bs.block rest) := by
  have hdecode : Utf8.decode? bs = none := by
    rcases h : Utf8.decode? bs with _ | s
    · rfl
    · exact absurd (Utf8.encode_of_decode? h).symm (hnone s)
  rw [text, on_bind_of_ok (reads_block hbs m rest hm)]
  simp only [hdecode]
  rfl

end Failing

/-! ### Readings in a stream -/

theorem Reads.inStream {r : Reader α} {bs : Bytes} {a : α} (hr : Reads r bs a) {m : Message} {rest : Bytes}
    (h : m.unread = bs ++ rest) : r.inStream m = .ok (a, m.past bs rest) := by
  rw [Reader.inStream, parse, hr m rest h]
  rfl

theorem Reads.goes_on {r : Reader α} {bs : Bytes} {a : α} (hr : Reads r bs a) {m : Message} {rest : Bytes}
    (h : m.unread = bs ++ rest) : ∃ m' : Message, r.inStream m = .ok (a, m') ∧ m'.unread = rest :=
  ⟨m.past bs rest, hr.inStream h, rfl⟩

theorem on_of_parse {r : Reader α} {m m' : Message} {a : α} (h : r.parse m = .ok (a, m')) :
    r.on m = (.ok a, m') := by
  rw [parse] at h
  rcases hr : r.on m with ⟨e | a', m₁⟩
  · rw [hr] at h
    cases h
  · rw [hr] at h
    obtain ⟨rfl, rfl⟩ := Prod.mk.inj (Except.ok.inj h)
    rfl

theorem on_of_inStream {r : Reader α} {m m' : Message} {a : α} (h : r.inStream m = .ok (a, m')) :
    r.on m = (.ok a, m') := by
  rcases hparse : r.parse m with e | parsed
  · rw [Reader.inStream, hparse] at h
    cases h
  · rw [Reader.inStream, hparse] at h
    obtain rfl := Except.ok.inj h
    exact on_of_parse hparse

theorem int32_took {m m' : Message} {v : Int32} (h : int32.inStream m = .ok (v, m')) :
    m.unread = Bytes.ofInt32 v ++ m'.unread := by
  obtain ⟨rest, hm, rfl⟩ := int32_ok (on_of_inStream h)
  exact hm

theorem block_took {m m' : Message} {bs : Bytes} (h : block.inStream m = .ok (bs, m')) :
    bs.length < Bytes.lengthLimit ∧ m.unread = bs.block ++ m'.unread := by
  obtain ⟨hlen, rest, hm, rfl⟩ := block_ok (on_of_inStream h)
  exact ⟨hlen, hm⟩

theorem text_took {m m' : Message} {s : String} (h : text.inStream m = .ok (s, m')) :
    (Utf8.encode s).length < Bytes.lengthLimit ∧ m.unread = (Utf8.encode s).block ++ m'.unread := by
  obtain ⟨hlen, rest, hm, rfl⟩ := text_ok (on_of_inStream h)
  exact ⟨hlen, hm⟩

theorem inStream_of_on {r : Reader α} {m m' : Message} {a : α} (h : r.on m = (.ok a, m')) :
    r.inStream m = .ok (a, m') := by
  rw [Reader.inStream, parse, h]
  rfl

/-! ### Readers that take and nothing else -/

/-- A reading that succeeds moves the place of reading on, and leaves the message as it is otherwise. -/
def Takes (r : Reader α) : Prop :=
  ∀ (m m' : Message) (a : α), r.on m = (.ok a, m') → ∃ bs rest, m.unread = bs ++ rest ∧ m' = m.past bs rest

theorem takes_pure (a : α) : Takes (pure a) := by
  rintro m m' a' h
  obtain ⟨-, rfl⟩ := Prod.mk.inj h
  exact ⟨[], m.unread, rfl, rfl⟩

theorem takes_throw (e : ProtocolError) : Takes (throw e : Reader α) := by
  intro m m' a h
  cases h

theorem Takes.bind {r : Reader α} {f : α → Reader β} (hr : Takes r) (hf : ∀ a, Takes (f a)) : Takes (r >>= f) := by
  intro m m' b h
  obtain ⟨a, m₁, hfirst, hsecond⟩ := parts_of_on_bind_ok h
  obtain ⟨bs, rest, hm, rfl⟩ := hr m m₁ a hfirst
  obtain ⟨cs, rest', hrest, rfl⟩ := hf a _ m' b hsecond
  refine ⟨bs ++ cs, rest', ?_, Message.past_past m bs cs rest rest'⟩
  rw [hm, List.append_assoc]
  exact congrArg _ hrest

theorem takes_take (n : Nat) : Takes (take n) := by
  intro m m' bs h
  obtain ⟨-, rest, hm, hpast⟩ := take_ok h
  exact ⟨bs, rest, hm, hpast⟩

theorem takes_int32 : Takes int32 := (takes_take 4).bind fun _ => takes_pure _

theorem takes_float : Takes float := (takes_take 8).bind fun _ => takes_pure _

theorem takes_block : Takes block := by
  intro m m' bs h
  obtain ⟨-, rest, hm, hpast⟩ := block_ok h
  exact ⟨bs.block, rest, hm, hpast⟩

/-- What is read stays in the body. -/
theorem Takes.body_eq {r : Reader α} (hr : Takes r) {m m' : Message} {a : α} (h : r.inStream m = .ok (a, m')) :
    m'.body = m.body ∧ m'.id = m.id := by
  obtain ⟨bs, rest, hm, rfl⟩ := hr m m' a (on_of_inStream h)
  exact ⟨Message.body_past hm, rfl⟩

end Reader

/-! ### Frames -/

namespace Message

/-- What a frame carries behind the names.  A frame that is no message carries nothing. -/
def payloadOf (frame : Bytes) : Bytes :=
  match ofFrame frame with
  | .ok m => m.unread
  | .error _ => []

theorem payloadOf_eq {frame : Bytes} {m : Message} (h : ofFrame frame = .ok m) : payloadOf frame = m.unread := by
  rw [payloadOf, h]

/-- A complete header consists of the two words that are read off it. -/
theorem ofInt32_readHeader {bs : Bytes} (hlong : headerLength ≤ bs.length) :
    Bytes.ofInt32 (readHeader bs).1 ++ (Bytes.ofInt32 (readHeader bs).2 ++ bs.drop headerLength) = bs := by
  have hword (cs : Bytes) (h : 4 ≤ cs.length) : Bytes.ofInt32 (Bytes.toInt32 cs) = cs.take 4 := by
    have hfour : (cs.take 4).length = 4 := List.length_take_of_le h
    have hread : Bytes.toInt32 (cs.take 4) = Bytes.toInt32 cs := by
      rw [Bytes.toInt32, Bytes.toInt32, List.take_take, Nat.min_self]
    rw [← hread, Bytes.ofInt32_toInt32 hfour]
  have hdrop : bs.drop headerLength = (bs.drop 4).drop 4 := by
    rw [List.drop_drop]
    rfl
  unfold headerLength at hlong
  rw [readHeader, hword bs (by omega), hword (bs.drop 4) (by rw [List.length_drop]; omega), hdrop,
    List.take_append_drop, List.take_append_drop]

/-- Names that can be written are read off a body. -/
theorem ofBody_body {m : Message} (htaken : m.taken = []) (hnode : (Utf8.encode m.node).length < Bytes.lengthLimit)
    (hname : (Utf8.encode m.name).length < Bytes.lengthLimit) : ofBody m.id m.body = .ok m.prepare := by
  have hbody : m.body = (Utf8.encode m.node).block ++ ((Utf8.encode m.name).block ++ m.unread) := by
    rw [body, names, payload, htaken, List.reverse_nil, List.nil_append, List.append_assoc]
  have hfirst := Reader.reads_text hnode
    ⟨"", "", m.id, (UInt32.ofNat m.body.length).toInt32, [], m.body⟩ _ hbody
  have hsecond := Reader.reads_text hname
    (Message.past ⟨"", "", m.id, (UInt32.ofNat m.body.length).toInt32, [], m.body⟩
      (Utf8.encode m.node).block ((Utf8.encode m.name).block ++ m.unread)) m.unread rfl
  simp only [ofBody, Reader.parse, hfirst, hsecond, bind, Except.bind]
  rw [prepare, htaken]
  rfl

/-- The frame of a message is read as the message, if the size field can say its size. -/
theorem ofFrame_frame {m : Message} (htaken : m.taken = []) (hlen : m.body.length < Bytes.lengthLimit) :
    ofFrame m.frame = .ok m.prepare := by
  have hlength : m.frame.length = headerLength + m.body.length := length_bytes m.prepare
  have hheader : readHeader m.frame = ((UInt32.ofNat m.body.length).toInt32, m.id) := by
    rw [readHeader, frame_eq, List.append_assoc, Bytes.toInt32_ofInt32_append,
      List.drop_left' (Bytes.length_ofInt32 _), Bytes.toInt32_ofInt32_append]
  have hdrop : m.frame.drop headerLength = m.body := by
    rw [frame_eq]
    exact List.drop_left' (by simp [headerLength])
  have hnames : (Utf8.encode m.node).length + (Utf8.encode m.name).length ≤ m.body.length := by
    rw [body, names]
    simp only [List.length_append, Bytes.length_block]
    omega
  rw [ofFrame, if_neg (by omega), hheader]
  dsimp only
  rw [hlength, Nat.add_sub_cancel_left, toNatClampNeg_length hlen,
    if_neg (by simpa using Int32.not_lt.mp (length_not_neg hlen)), hdrop]
  exact ofBody_body htaken (by omega) (by omega)

/-- A message that has been read in part is read from its front again. -/
theorem ofFrame_frame_of_lt {m : Message} (hlen : m.body.length < Bytes.lengthLimit) :
    ofFrame m.frame = .ok { m.prepare with taken := [], unread := m.payload } := by
  let whole : Message := { m with taken := [], unread := m.payload }
  have hframe : whole.frame = m.frame := by
    rw [frame_eq, frame_eq]
    rfl
  rw [← hframe]
  exact ofFrame_frame (m := whole) rfl hlen

/-- A body that is a message is the body of that message. -/
theorem ofBody_ok {id : Int32} {bs : Bytes} {m : Message} (h : ofBody id bs = .ok m) : m.body = bs ∧ m.id = id := by
  obtain ⟨⟨node, m₁⟩, hnode, h⟩ := parts_of_bind_ok h
  obtain ⟨⟨name, m₂⟩, hname, h⟩ := parts_of_bind_ok h
  obtain ⟨-, rest, hrest, rfl⟩ := Reader.text_ok (Reader.on_of_parse hnode)
  obtain ⟨-, rest', hrest', rfl⟩ := Reader.text_ok (Reader.on_of_parse hname)
  obtain rfl := Except.ok.inj h
  change bs = _ ++ rest at hrest
  change rest = _ ++ rest' at hrest'
  refine ⟨?_, rfl⟩
  rw [hrest, hrest']
  simp [body, names, payload, Message.past]

/-- Of the payload of a body nothing has been read. -/
theorem taken_of_ofBody {id : Int32} {bs : Bytes} {m : Message} (h : ofBody id bs = .ok m) : m.taken = [] := by
  obtain ⟨⟨node, m₁⟩, -, h⟩ := parts_of_bind_ok h
  obtain ⟨⟨name, m₂⟩, -, h⟩ := parts_of_bind_ok h
  obtain rfl := Except.ok.inj h
  rfl

/-- The message in a frame is the message that its body is. -/
theorem ofBody_of_ofFrame {frame : Bytes} {m : Message} (h : ofFrame frame = .ok m) :
    ofBody m.id m.body = .ok m := by
  unfold ofFrame at h
  split at h
  · cases h
  · dsimp only at h
    split at h
    · cases h
    · obtain ⟨hbody, hid⟩ := ofBody_ok h
      rw [hbody, hid, h]

end Message
end LevelLink
