import LevelLink.Proofs.Link.Dispatch
import LevelLink.Proofs.Wire.Frames
import LevelLink.Service.Assets

/-!
# Listing assets

The answer to a request for the names of all assets is read completely or not at all.  What a payload says is put
without the reader: it is a list of names (`AssetService.Lists`), a rejection (`AssetService.Refuses`), or neither
(`AssetService.Conveys`).  The reading counts the names that it tries, so a count in the payload that is too large costs no
more than the bytes behind it (`AssetService.countList_snd_le`).  Main statement: `AssetService.listing_of_reply`.
-/

namespace LevelLink

variable {bs rest tail : Bytes} {s : String} {m m' : Message}

/-! ### Texts one behind the other -/

/-- The bytes open with these texts, and the rest is behind them. -/
inductive HasTexts : Bytes → List String → Bytes → Prop where
  | nil {rest : Bytes} : HasTexts rest [] rest
  | cons {bs between rest : Bytes} {s : String} {texts : List String} (first : HasText bs s between)
      (others : HasTexts between texts rest) : HasTexts bs (s :: texts) rest

/-- A text is a block that is not too long for its length field. -/
theorem hasText_iff : HasText bs s rest ↔
    (Utf8.encode s).length < Bytes.lengthLimit ∧ bs = (Utf8.encode s).block ++ rest := by
  constructor
  · rintro ⟨n, _, rfl, hn, rfl⟩
    exact ofInt32_append_of_toInt hn rest
  · rintro ⟨hlength, rfl⟩
    refine ⟨(UInt32.ofNat (Utf8.encode s).length).toInt32, Utf8.encode s, ?_, ?_, rfl⟩
    · rw [Bytes.block, List.append_assoc]
    · rw [UInt32.toInt32_ofNat', Int32.toInt_ofNat_of_lt hlength]

/-- A text has four bytes at least. -/
theorem HasText.length_le (h : HasText bs s rest) : rest.length + 4 ≤ bs.length := by
  obtain ⟨-, rfl⟩ := hasText_iff.mp h
  rw [List.length_append, Bytes.length_block]
  omega

namespace Reader

/-- A reading in a stream fails as a reading does. -/
theorem protocol_of_inStream {α : Type} {r : Reader α} {e : StreamError} (h : r.inStream m = .error e) :
    ∃ p, e = .protocol p := by
  rw [inStream] at h
  rcases hparse : r.parse m with p | parsed
  · rw [hparse] at h
    exact ⟨p, (Except.error.inj h).symm⟩
  · rw [hparse] at h
    cases h

theorem on_text_of_hasText (h : HasText m.unread s rest) : text.on m = (.ok s, m.past (Utf8.encode s).block rest) :=
  on_of_parse (parse_text_of_hasText h)

theorem hasText_of_on_text (h : text.on m = (.ok s, m')) : HasText m.unread s m'.unread := by
  obtain ⟨hlength, rest, hm, rfl⟩ := text_ok h
  exact hasText_iff.mpr ⟨hlength, hm⟩

end Reader

/-! ### Replies -/

namespace Reply

theorem inStream_read_of_ack (h : HasText m.unread "ACK" rest) :
    read.inStream m = .ok (.ack, m.past (Utf8.encode "ACK").block rest) := by
  refine Reader.inStream_of_on ?_
  rw [read, Reader.on_bind_of_ok (Reader.on_text_of_hasText h)]
  rfl

theorem inStream_read_of_nack {r : Rejection} (hstatus : HasText m.unread "NACK" (Bytes.ofInt32 r.code ++ rest))
    (htext : HasText rest r.text tail) : ∃ m', read.inStream m = .ok (.nack r, m') := by
  obtain ⟨hshort, hrest⟩ := hasText_iff.mp htext
  have hcode : Reader.Reads (do
      let code ← Reader.int32
      let text ← Reader.text
      return nack ⟨code, text⟩) (Bytes.ofInt32 r.code ++ (Utf8.encode r.text).block) (nack r) :=
    (Reader.reads_int32 r.code).bind ((Reader.reads_text hshort).map fun text => nack ⟨r.code, text⟩)
  have hread : ∃ m', read.on m = (.ok (nack r), m') := by
    rw [read, Reader.on_bind_of_ok (Reader.on_text_of_hasText hstatus), if_neg (by decide), if_pos rfl]
    refine ⟨_, hcode _ tail ?_⟩
    rw [List.append_assoc, ← hrest]
    rfl
  obtain ⟨m', hread⟩ := hread
  exact ⟨m', Reader.inStream_of_on hread⟩

/-- A reply that is read is an acknowledgement or a rejection. -/
theorem parts_of_read {r : Reply} (h : read.inStream m = .ok (r, m')) :
    (r = .ack ∧ HasText m.unread "ACK" m'.unread) ∨
      ∃ rejection rest, r = .nack rejection ∧ HasText m.unread "NACK" (Bytes.ofInt32 rejection.code ++ rest) ∧
        HasText rest rejection.text m'.unread := by
  obtain ⟨status, m₁, hstatus, h⟩ := Reader.parts_of_on_bind_ok (Reader.on_of_inStream h)
  have hopening := Reader.hasText_of_on_text hstatus
  split at h
  · next hack =>
    obtain ⟨hr, rfl⟩ := Prod.mk.inj h
    obtain rfl := Except.ok.inj hr
    exact .inl ⟨rfl, hack ▸ hopening⟩
  · split at h
    · next hnack =>
      obtain ⟨code, m₂, hcode, h⟩ := Reader.parts_of_on_bind_ok h
      obtain ⟨text, m₃, htext, h⟩ := Reader.parts_of_on_bind_ok h
      obtain ⟨hr, rfl⟩ := Prod.mk.inj h
      obtain rfl := Except.ok.inj hr
      obtain ⟨rest, hm₁, rfl⟩ := Reader.int32_ok hcode
      rw [hm₁, hnack] at hopening
      exact .inr ⟨⟨code, text⟩, rest, rfl, hopening, Reader.hasText_of_on_text htext⟩
    · cases h

end Reply

namespace AssetService

variable {names : List String} {n : Nat}

/-! ### Names -/

theorem on_tryText {text : Except ProtocolError String} (h : Reader.text.on m = (text, m')) (tried : Nat) :
    tryText.on (m, tried) = (text, m', tried + 1) := by
  rw [tryText, Attempt.on_of]
  simp only [h]

/-- Names that are there are read. -/
theorem on_readNames_of_hasTexts (h : HasTexts m.unread names rest) (done : List String) (before : Nat) :
    ∃ left, ((readNames names.length done).on (m, before)) = (.ok (done.reverse ++ names), left) := by
  induction names generalizing m done before with
  | nil => exact ⟨(m, before), by rw [List.append_nil]; rfl⟩
  | cons s names ih =>
    generalize hm : m.unread = bs at h
    cases h with
    | cons first others =>
      have htext := on_tryText (Reader.on_text_of_hasText (m := m) (hm ▸ first)) before
      obtain ⟨left, hnames⟩ := ih (m := m.past _ _) others (s :: done) (before + 1)
      refine ⟨left, ?_⟩
      rw [List.length_cons, readNames, Attempt.on_bind_of_ok htext, hnames, List.reverse_cons, List.append_assoc]
      rfl

/-- Names that are read are there, as many as were asked for. -/
theorem hasTexts_of_on_readNames {done result : List String} {before after : Nat}
    (h : (readNames n done).on (m, before) = (.ok result, m', after)) :
    ∃ names, names.length = n ∧ result = done.reverse ++ names ∧ HasTexts m.unread names m'.unread := by
  induction n generalizing m done before with
  | zero =>
    obtain ⟨hresult, hleft⟩ := Prod.mk.inj h
    obtain rfl := Except.ok.inj hresult
    obtain ⟨rfl, -⟩ := Prod.mk.inj hleft
    exact ⟨[], rfl, (List.append_nil _).symm, .nil⟩
  | succ n ih =>
    obtain ⟨s, ⟨m₁, between⟩, hread, h⟩ := Attempt.parts_of_on_bind_ok h
    rcases htext : Reader.text.on m with ⟨text, m₂⟩
    obtain ⟨rfl, hleft⟩ := Prod.mk.inj ((on_tryText htext before).symm.trans hread)
    obtain ⟨rfl, -⟩ := Prod.mk.inj hleft
    obtain ⟨names, rfl, rfl, hnames⟩ := ih h
    refine ⟨s :: names, rfl, ?_, .cons (Reader.hasText_of_on_text htext) hnames⟩
    rw [List.reverse_cons, List.append_assoc]
    rfl

/-- Every text that is there takes four bytes, and at most one that is tried is not there. -/
theorem tried_readNames_le (n : Nat) (done : List String) (m : Message) (before : Nat) :
    ∃ result m' tried, (readNames n done).on (m, before) = (result, m', before + tried) ∧
      tried ≤ n ∧ 4 * tried ≤ m.remaining + 4 := by
  induction n generalizing done m before with
  | zero => exact ⟨_, m, 0, rfl, Nat.le_refl _, Nat.zero_le _⟩
  | succ n ih =>
    rcases htext : Reader.text.on m with ⟨e | s, m₁⟩
    · refine ⟨.error e, m₁, 1, ?_, Nat.le_add_left _ _, Nat.le_add_left _ _⟩
      rw [readNames, Attempt.on_bind_of_error (on_tryText htext before)]
    · have hshorter : m₁.remaining + 4 ≤ m.remaining := (Reader.hasText_of_on_text htext).length_le
      obtain ⟨result, m', tried, hnames, hle, hbytes⟩ := ih (s :: done) m₁ (before + 1)
      refine ⟨result, m', tried + 1, ?_, Nat.succ_le_succ hle, by omega⟩
      rw [readNames, Attempt.on_bind_of_ok (on_tryText htext before), hnames, Nat.add_assoc, Nat.add_comm 1]

/-- Behind an acknowledgement, the count says how many names are read. -/
theorem countList_of_ack {count : Int32} (h : HasText m.unread "ACK" (Bytes.ofInt32 count ++ rest)) :
    ∃ m' : Message, m'.unread = rest ∧ countList m =
      if count < 0 then (.error (.protocol (.negativeLength count)), 0)
      else
        let (names, _, tried) := (readNames count.toNatClampNeg []).on (m', 0)
        (names.mapError .protocol, tried) := by
  obtain ⟨m', hcount, hrest⟩ := (Reader.reads_int32 count).goes_on
    (m := m.past (Utf8.encode "ACK").block (Bytes.ofInt32 count ++ rest)) rfl
  refine ⟨m', hrest, ?_⟩
  rw [countList, Reply.inStream_read_of_ack h]
  dsimp only
  rw [hcount]

/-- No more names are tried than there should be, nor than the bytes have room for, but one. -/
theorem countList_snd_le {count : Int32} (h : HasText m.unread "ACK" (Bytes.ofInt32 count ++ rest)) :
    (countList m).2 ≤ count.toNatClampNeg ∧ (countList m).2 ≤ rest.length / 4 + 1 := by
  obtain ⟨m', rfl, hcount⟩ := countList_of_ack h
  obtain ⟨result, m'', tried, hnames, hle, hbytes⟩ := tried_readNames_le count.toNatClampNeg [] m' 0
  rw [hcount]
  split
  · exact ⟨Nat.zero_le _, Nat.zero_le _⟩
  · rw [hnames]
    dsimp only
    rw [Message.remaining] at hbytes
    omega

/-! ### What a payload says -/

/-- The payload lists these names: it is an acknowledgement, their number and the names; anything may follow. -/
def Lists (payload : Bytes) (names : List String) : Prop :=
  ∃ (count : Int32) (rest tail : Bytes), HasText payload "ACK" (Bytes.ofInt32 count ++ rest) ∧
    count.toInt = names.length ∧ HasTexts rest names tail

/-- The payload is this rejection; anything may follow. -/
def Refuses (payload : Bytes) (r : Rejection) : Prop :=
  ∃ rest tail, HasText payload "NACK" (Bytes.ofInt32 r.code ++ rest) ∧ HasText rest r.text tail

/-- The answer is what the payload says: the names that it lists, the rejection that it is, or a protocol error. -/
structure Conveys (payload : Bytes) (answer : Except StreamError (List String)) : Prop where
  names : ∀ names, answer = .ok names ↔ Lists payload names
  rejected : ∀ r, answer = .error (.rejected r) ↔ Refuses payload r
  otherwise : (∀ names, ¬ Lists payload names) → (∀ r, ¬ Refuses payload r) → ∃ e, answer = .error (.protocol e)

theorem readList_of_lists (h : Lists m.unread names) : readList m = .ok names := by
  obtain ⟨count, rest, tail, hopening, hcount, htexts⟩ := h
  obtain ⟨m', rfl, hlist⟩ := countList_of_ack hopening
  obtain ⟨left, hnames⟩ := on_readNames_of_hasTexts htexts [] 0
  have hneg : ¬ count < 0 := by
    rw [Int32.lt_iff_toInt_lt, hcount, Int32.toInt_zero]
    omega
  rw [readList, hlist, if_neg hneg, toNatClampNeg_of_toInt hcount, hnames]
  rfl

theorem readList_of_refuses {r : Rejection} (h : Refuses m.unread r) : readList m = .error (.rejected r) := by
  obtain ⟨rest, tail, hstatus, htext⟩ := h
  obtain ⟨m', hread⟩ := Reply.inStream_read_of_nack hstatus htext
  rw [readList, countList, hread]

/-- An answer that is no protocol error is in the payload. -/
theorem readList_cases (m : Message) :
    (∃ names, readList m = .ok names ∧ Lists m.unread names) ∨
      (∃ r, readList m = .error (.rejected r) ∧ Refuses m.unread r) ∨ ∃ e, readList m = .error (.protocol e) := by
  rcases hopening : Reply.read.inStream m with e | ⟨opening, m₁⟩
  · obtain ⟨p, rfl⟩ := Reader.protocol_of_inStream hopening
    refine .inr (.inr ⟨p, ?_⟩)
    rw [readList, countList, hopening]
  rcases Reply.parts_of_read hopening with ⟨rfl, hack⟩ | ⟨r, rest, rfl, hnack, htext⟩
  · rcases hcount : Reader.int32.inStream m₁ with e | ⟨count, m₂⟩
    · obtain ⟨p, rfl⟩ := Reader.protocol_of_inStream hcount
      refine .inr (.inr ⟨p, ?_⟩)
      rw [readList, countList, hopening]
      dsimp only
      rw [hcount]
    rw [Reader.int32_took hcount] at hack
    obtain ⟨m', hm', hlist⟩ := countList_of_ack hack
    rw [readList, hlist]
    split
    · exact .inr (.inr ⟨_, rfl⟩)
    · next hneg =>
      rcases hread : (readNames count.toNatClampNeg []).on (m', 0) with ⟨e | result, m'', tried⟩
      · exact .inr (.inr ⟨e, rfl⟩)
      · obtain ⟨names, hlength, hresult, htexts⟩ := hasTexts_of_on_readNames hread
        obtain rfl : result = names := hresult
        refine .inl ⟨result, rfl, count, m₂.unread, m''.unread, hack, ?_, hm' ▸ htexts⟩
        rw [Int32.lt_iff_toInt_lt, Int32.toInt_zero] at hneg
        rw [hlength, Int32.toNatClampNeg]
        omega
  · exact .inr (.inl ⟨r, readList_of_refuses ⟨rest, _, hnack, htext⟩, rest, _, hnack, htext⟩)

theorem conveys_readList (m : Message) : Conveys m.unread (readList m) := by
  refine ⟨fun names => ⟨fun h => ?_, readList_of_lists⟩, fun r => ⟨fun h => ?_, readList_of_refuses⟩, ?_⟩
  · rcases readList_cases m with ⟨names', hread, hlists⟩ | ⟨r, hread, -⟩ | ⟨e, hread⟩
    · obtain rfl := Except.ok.inj (hread.symm.trans h)
      exact hlists
    · cases hread.symm.trans h
    · cases hread.symm.trans h
  · rcases readList_cases m with ⟨names, hread, -⟩ | ⟨r', hread, hrefuses⟩ | ⟨e, hread⟩
    · cases hread.symm.trans h
    · obtain rfl := StreamError.rejected.inj (Except.error.inj (hread.symm.trans h))
      exact hrefuses
    · cases hread.symm.trans h
  · intro hnames hrejected
    rcases readList_cases m with ⟨names, -, hlists⟩ | ⟨r, -, hrefuses⟩ | ⟨e, hread⟩
    · exact absurd hlists (hnames names)
    · exact absurd hrefuses (hrejected r)
    · exact ⟨e, hread⟩

/-! ### The reply -/

variable {υ : Type} {act : Except StreamError (List String) → υ → υ} {s s₁ r : Session υ} {id : SubscriberId}

/-- A request for a list waits for its reply under this number. -/
def Awaits (r : Session υ) (id : SubscriberId) (act : Except StreamError (List String) → υ → υ) : Prop :=
  ∃ request : Message, request.node = node ∧ request.name = "ASSET_LIST" ∧
    r.live[id]? = some (.once request fun _ reply => .edit (·.tell (act (readList reply))) .done)

theorem awaits_of_list (h : (list act).on s = (.ok id, s₁)) : Awaits s₁ id act := by
  obtain ⟨rfl, -, -, hlive⟩ := Registry.added_of_add h
  exact ⟨_, rfl, rfl, (hlive s.nextId).trans (if_pos rfl)⟩

/-- The reply is read and told once, and the request has gone. -/
theorem dispatch_reply (h : Awaits r m.id act) (hm : m.AddressedTo node "ASSET_LIST" m.id) (depth : Nat) :
    Registry.dispatch (depth + 1) m r =
      (1, ((r.takeAway m.id).changed (·.tell (act (readList m)))).settled) := by
  obtain ⟨request, hnode, hname, hlive⟩ := h
  have haccepts : request.node == m.node && request.name == m.name := by
    simp [hnode, hname, hm.1, hm.2.1]
  refine Prod.ext ?_ ?_
  · rw [Registry.dispatch_of_accepts hlive haccepts]
  · exact Registry.dispatch_once hlive haccepts rfl rfl

/-- A request for a list that is sent waits for its reply.  The first reply, whenever it comes and whatever it says, is told
once: the names, if it lists names; the rejection, if it is one; and a protocol error otherwise, never a part of a list.
Whatever the count is, no more names are tried than it says, nor than a fourth of the bytes behind it and one.  Then the
request has gone, and later messages with its number reach nobody. -/
theorem listing_of_reply (hlist : (list act).on s = (.ok id, s₁)) :
    Awaits s₁ id act ∧
    ∀ (r : Session υ) (m : Message), Awaits r id act → m.AddressedTo node "ASSET_LIST" id → ∀ depth,
      let r' := (Registry.dispatch (depth + 1) m r).2
      (Registry.dispatch (depth + 1) m r).1 = 1 ∧
      (∃ answer tried, countList m = (answer, tried) ∧ r'.world = r.world.tell (act answer) ∧ Conveys m.unread answer ∧
        ∀ count rest, HasText m.unread "ACK" (Bytes.ofInt32 count ++ rest) →
          tried ≤ count.toNatClampNeg ∧ tried ≤ rest.length / 4 + 1) ∧
      r'.contains id = false ∧
      ∀ depth' later, (∀ m' ∈ later, m'.id = id) → r'.dispatchAll depth' later = r' := by
  refine ⟨awaits_of_list hlist, ?_⟩
  rintro r m hawaits ⟨hnode, hname, rfl⟩ depth
  rw [dispatch_reply hawaits ⟨hnode, hname, rfl⟩]
  have hgone : ((r.takeAway m.id).changed (·.tell (act (readList m)))).settled.live[m.id]? = none :=
    (r.getElem?_takeOut m.id m.id).trans (if_pos rfl)
  refine ⟨rfl, ⟨readList m, (countList m).2, ?_, rfl, conveys_readList m, fun _ _ => countList_snd_le⟩, ?_, ?_⟩
  · rw [readList]
  · exact Registry.contains_delivered r (r.world.tell (act (readList m))) hgone
  · intro depth' later hlater
    exact Registry.dispatchAll_of_getElem?_eq_none hgone hlater depth'

/-- A client that has asked for the names, and keeps all answers. -/
def sampleAsking : Session (List (Except StreamError (List String))) := ((list List.cons).on (Session.start [])).2

/-- A list of two names. -/
def sampleList : Message :=
  ((((Message.start node "ASSET_LIST").withId 1).writeText "ACK").writeInt32 2).writeText "tree" |>.writeText "rock"

theorem listing_of_sampleList :
    (list List.cons).on (Session.start []) = (.ok 1, sampleAsking) ∧
    (Registry.dispatch 1 sampleList sampleAsking).2.world.app = [.ok ["tree", "rock"]] ∧
    Lists sampleList.unread ["tree", "rock"] := by
  have hlist : (list List.cons).on (Session.start []) = (.ok 1, sampleAsking) := rfl
  obtain ⟨hawaits, hreply⟩ := listing_of_reply hlist
  obtain ⟨-, ⟨answer, tried, hcount, hworld, conveys, -⟩, -⟩ := hreply _ sampleList hawaits ⟨rfl, rfl, rfl⟩ 0
  have hanswer : answer = .ok ["tree", "rock"] := by
    have hread : (countList sampleList).1 = .ok ["tree", "rock"] := by decide +kernel
    rwa [hcount] at hread
  refine ⟨hlist, ?_, (conveys.names _).mp hanswer⟩
  rw [hworld, hanswer]
  rfl

end AssetService
end LevelLink
