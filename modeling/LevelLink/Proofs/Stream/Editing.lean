import LevelLink.Proofs.Stream.Failure

/-!
# Edits that come back

The request to change an object carries the delta from the body that the table has to the edited one, and the table
stays as it is.  The peer sends id and delta back as a change, and meanwhile anything may happen to other objects
(`ObjectStream.Meanwhile`).  The change then finds the body that the delta was made from, and so it puts the edited
body in its place.  Main statement: `edit_echoed`.
-/

namespace LevelLink

/-! ### Tables -/

/-- Whether a frame can have an effect on the body of an object: it names the object, or it ends everything. -/
def ObjectFrame.Touches (object : Int32) : ObjectFrame → Prop
  | new r => r.id = object
  | update id _ => id = object
  | delete id => id = object
  | ended => True

/-- A frame that is taken leaves alone what it does not touch. -/
theorem Snapshots.getElem?_apply {t t' : Snapshots} {rest : Message} {f : ObjectFrame} {event : ObjectEvent}
    {object : Int32} (happly : t.apply rest f = (t', .ok event)) (hnot : ¬ f.Touches object) :
    t'[object]? = t[object]? := by
  cases f with
  | new r =>
    obtain ⟨rfl, -⟩ := Prod.mk.inj happly
    rw [getElem?_insert_ite]
    exact if_neg hnot
  | update id delta =>
    obtain ⟨body, r, rest', -, -, rfl, -⟩ := apply_update happly
    rw [getElem?_insert_ite]
    exact if_neg hnot
  | delete id =>
    obtain ⟨rfl, -⟩ := Prod.mk.inj happly
    rw [getElem?_erase_ite]
    exact if_neg hnot
  | ended => exact absurd trivial hnot

/-! ### Requests -/

/-- Reads the id and the delta in a request to change an object. -/
def readEdit : Reader (Int32 × Bytes) := return (← Reader.int32, ← Reader.block)

/-- A request to change an object is read to its end. -/
theorem readEdit_updateRequest (id : Int32) {delta : Bytes} (h : delta.length < Bytes.lengthLimit) :
    ∃ rest : Message, readEdit.inStream (ObjectRecord.updateRequest id delta) = .ok ((id, delta), rest) ∧
      rest.unread = [] := by
  have hreads : Reader.Reads readEdit (Bytes.ofInt32 id ++ delta.block) (id, delta) :=
    (Reader.reads_int32 id).bind ((Reader.reads_block h).map _)
  exact hreads.goes_on (List.append_nil _).symm

theorem length_delta_lt {id : Int32} {delta : Bytes}
    (h : (ObjectRecord.updateRequest id delta).frame.length < Bytes.lengthLimit) :
    delta.length < Bytes.lengthLimit := by
  rw [Message.frame, Message.length_bytes, Message.length, Message.body_prepare, ObjectRecord.updateRequest,
    Message.writeBlock, Message.body_write, List.length_append, Bytes.length_block] at h
  omega

namespace ObjectStream

variable {υ : Type} {hook : ObjectEvent → υ → υ} {o : ObjectStream} {s s' : Session υ} {object : Int32}

/-- The frame to the stream that changes an object by a delta. -/
def changeFrame (o : ObjectStream) (object : Int32) (delta : Bytes) : Bytes :=
  (((Message.start levelNode ObjectRecord.streamName).withId o.id).write
    ((ObjectFrame.update object delta).payload [])).frame

/-! ### While an edit is under way -/

/-- What may come to pass while an edit of an object is under way: frames to the stream that do not touch the object
and after which the stream is open, and anything beside the stream, which listens on and has the same table. -/
inductive Meanwhile (hook : ObjectEvent → υ → υ) (o : ObjectStream) (object : Int32) (s : Session υ) :
    Session υ → Prop
  | refl : Meanwhile hook o object s s
  | frame {s' : Session υ} {frame : Bytes} {m : Message} (depth : Nat) (before : Meanwhile hook o object s s')
      (hframe : Message.ofFrame frame = .ok m) (haddr : m.AddressedTo levelNode ObjectRecord.streamName o.id)
      (hnot : ∀ f rest, ObjectFrame.read.inStream m = .ok (f, rest) → ¬ f.Touches object)
      (hopen : o.isOpen (s'.receive (depth + 1) frame) = true) :
      Meanwhile hook o object s (s'.receive (depth + 1) frame)
  | beside {s' s'' : Session υ} (before : Meanwhile hook o object s s')
      (hears : s''.Hears levelNode ObjectRecord.streamName o.id (handler hook))
      (same : o.snapshots s'' = o.snapshots s') : Meanwhile hook o object s s''

/-- A frame that does not touch an object leaves its body, if the stream goes on. -/
theorem snapshot?_receive {frame : Bytes} {m : Message} {depth : Nat}
    (hears : s.Hears levelNode ObjectRecord.streamName o.id (handler hook))
    (hframe : Message.ofFrame frame = .ok m) (haddr : m.AddressedTo levelNode ObjectRecord.streamName o.id)
    (hnot : ∀ f rest, ObjectFrame.read.inStream m = .ok (f, rest) → ¬ f.Touches object)
    (hopen : o.isOpen (s.receive (depth + 1) frame) = true) :
    (s.receive (depth + 1) frame).Hears levelNode ObjectRecord.streamName o.id (handler hook) ∧
      o.snapshot? (s.receive (depth + 1) frame) object = o.snapshot? s object := by
  rw [Registry.receive_of_ofFrame hframe] at hopen ⊢
  rcases dispatch_cases hears haddr depth with ⟨hclosed, -⟩ | ⟨⟨f, event, taken⟩, hears'⟩
  · rw [hclosed] at hopen
    cases hopen
  · obtain ⟨rest, hread, happly⟩ := taken.read
    exact ⟨hears', Snapshots.getElem?_apply happly (hnot f rest hread)⟩

/-- Meanwhile the stream listens on, and the body of the object is as it was. -/
theorem Meanwhile.keeps (h : Meanwhile hook o object s s')
    (hears : s.Hears levelNode ObjectRecord.streamName o.id (handler hook)) :
    s'.Hears levelNode ObjectRecord.streamName o.id (handler hook) ∧ o.snapshot? s' object = o.snapshot? s object := by
  induction h with
  | refl => exact ⟨hears, rfl⟩
  | frame depth before hframe haddr hnot hopen ih =>
    obtain ⟨hears', hsame⟩ := ih
    obtain ⟨hears'', hsame'⟩ := snapshot?_receive hears' hframe haddr hnot hopen
    exact ⟨hears'', hsame'.trans hsame⟩
  | beside before hears'' same ih =>
    refine ⟨hears'', ?_⟩
    rw [snapshot?, same]
    exact ih.2

/-! ### Echoes -/

/-- A change whose delta was made from the body that the table has. -/
theorem receive_changeFrame {old : Bytes} {r : ObjectRecord} {custom : Bytes}
    (hears : s.Hears levelNode ObjectRecord.streamName o.id (handler hook)) (hold : o.snapshot? s r.id = some old)
    (hlen : (o.changeFrame r.id (Delta.encode old (r.body custom))).length < Bytes.lengthLimit) (depth : Nat) :
    ∃ rest : Message, rest.unread = custom ∧
      (s.receive (depth + 1) (o.changeFrame r.id (Delta.encode old (r.body custom)))).world.app =
        hook (.updated r rest) s.world.app ∧
      Synced hook o (Function.update (fun object => o.snapshot? s object) r.id (some (r.body custom)))
        (s.receive (depth + 1) (o.changeFrame r.id (Delta.encode old (r.body custom)))) := by
  -- the stream is in sync with a server that has announced just what is in the table
  let t : Announced := fun object => o.snapshot? s object
  have synced : Synced hook o t s := ⟨hears, fun _ => rfl⟩
  have permits : t.Permits (.update r custom) := Option.isSome_iff_exists.mpr ⟨old, hold⟩
  have hdelta : (t.message o.id (.update r custom)).frame = o.changeFrame r.id (Delta.encode old (r.body custom)) := by
    show (((Message.start levelNode ObjectRecord.streamName).withId o.id).write ((ObjectFrame.update r.id
      (Delta.encode ((o.snapshot? s r.id).getD []) (r.body custom))).payload [])).frame = _
    rw [hold]
    rfl
  rw [← hdelta] at hlen ⊢
  obtain ⟨event, tells, happ, synced'⟩ := synced.receive permits hlen depth nofun
  cases tells with
  | updated hcustom => exact ⟨_, hcustom, happ, synced'⟩

/-- An edit of an object that the stream does not know is refused.  One of an object that it knows gives a request, from
which the id and the delta can be read, and asking for it changes nothing.  When these come back in a change, whatever
has come to pass meanwhile that does not touch the object, the body of the object is the edited one, all other bodies
are as they were, and the application is told of the record that was asked for, with its own data unread. -/
theorem edit_echoed (o : ObjectStream) (s : Session υ) (r : ObjectRecord) (custom : Bytes) :
    (o.snapshot? s r.id = none → o.updateRequest s r custom = .error (.missingSnapshot r.id)) ∧
    ∀ old, o.snapshot? s r.id = some old → ∃ request : Message, o.updateRequest s r custom = .ok request ∧
      request.node = levelNode ∧ request.name = "UPDATE_OBJECT" ∧
      (request.frame.length < Bytes.lengthLimit → ∃ (delta : Bytes) (rest : Message),
        readEdit.inStream request = .ok ((r.id, delta), rest) ∧ rest.unread = [] ∧
        ∀ (hook : ObjectEvent → υ → υ) (s' : Session υ) (depth : Nat),
          s.Hears levelNode ObjectRecord.streamName o.id (handler hook) → Meanwhile hook o r.id s s' →
          (o.changeFrame r.id delta).length < Bytes.lengthLimit →
          let s'' := s'.receive (depth + 1) (o.changeFrame r.id delta)
          o.snapshot? s' r.id = some old ∧ o.snapshot? s'' r.id = some (r.body custom) ∧
          (∀ other, other ≠ r.id → o.snapshot? s'' other = o.snapshot? s' other) ∧ o.isOpen s'' = true ∧
          ∃ rest' : Message, rest'.unread = custom ∧ s''.world.app = hook (.updated r rest') s'.world.app) := by
  constructor
  · intro hnone
    have htable : (o.snapshots s)[r.id]? = none := hnone
    rw [updateRequest, Snapshots.updateRequest, htable]
  · intro old hold
    have htable : (o.snapshots s)[r.id]? = some old := hold
    let delta := Delta.encode old (r.body custom)
    refine ⟨ObjectRecord.updateRequest r.id delta, ?_, rfl, rfl, ?_⟩
    · rw [updateRequest, Snapshots.updateRequest, htable]
    · intro hrequest
      obtain ⟨rest, hread, hend⟩ := readEdit_updateRequest r.id (length_delta_lt hrequest)
      refine ⟨delta, rest, hread, hend, ?_⟩
      intro hook s' depth hears meanwhile hchange s''
      obtain ⟨hears', hsame⟩ := meanwhile.keeps hears
      have hold' : o.snapshot? s' r.id = some old := hsame.trans hold
      obtain ⟨rest', hcustom, happ, synced⟩ := receive_changeFrame hears' hold' hchange depth
      refine ⟨hold', ?_, ?_, Registry.contains_of_hears synced.hears, rest', hcustom, happ⟩
      · exact (synced.agrees r.id).trans (Function.update_self ..)
      · intro other hother
        exact (synced.agrees other).trans (Function.update_of_ne hother ..)

section Sample

/-- The object of the session at another place. -/
def editedRecord : ObjectRecord := { sampleRecord with pos := ⟨9, 1, 2⟩ }

/-- The session in which meanwhile another object has come. -/
def sampleMeanwhile : Session (List ObjectEvent) := sampleHolding.receive 1 (sampleFrame (.new otherRecord))

theorem meanwhile_sampleMeanwhile : Meanwhile (fun event events => events ++ [event]) sampleStream editedRecord.id
    sampleHolding sampleMeanwhile := by
  let m : Message := (((Message.start levelNode ObjectRecord.streamName).withId 1).write
    ((ObjectFrame.new otherRecord).payload [])).prepare
  have hframe : Message.ofFrame (sampleFrame (.new otherRecord)) = .ok m := by decide +kernel
  refine .frame 0 .refl hframe ⟨rfl, rfl, rfl⟩ ?_ (by decide +kernel)
  intro f rest hread
  have hnew : ObjectFrame.read.inStream m = .ok (.new otherRecord, _) :=
    (ObjectFrame.reads_new otherRecord).inStream (List.append_nil _).symm
  obtain ⟨rfl, -⟩ := Prod.mk.inj (Except.ok.inj (hread.symm.trans hnew))
  exact (by decide : otherRecord.id ≠ editedRecord.id)

/-- The delta of the edit. -/
def sampleDelta : Bytes := Delta.encode (sampleRecord.body []) (editedRecord.body [4, 2])

/-- An object is moved, and its own data changed, while another one comes. -/
theorem edit_echoed_sampleMeanwhile :
    sampleStream.snapshot? sampleHolding editedRecord.id = some (sampleRecord.body []) ∧
    Meanwhile (fun event events => events ++ [event]) sampleStream editedRecord.id sampleHolding sampleMeanwhile ∧
    sampleStream.updateRequest sampleHolding editedRecord [4, 2] =
      .ok (ObjectRecord.updateRequest editedRecord.id sampleDelta) ∧
    sampleStream.snapshot? (sampleMeanwhile.receive 1 (sampleStream.changeFrame editedRecord.id sampleDelta))
      editedRecord.id = some (editedRecord.body [4, 2]) := by
  have hold : sampleStream.snapshot? sampleHolding editedRecord.id = some (sampleRecord.body []) := by decide +kernel
  have hmade : sampleStream.updateRequest sampleHolding editedRecord [4, 2] =
      .ok (ObjectRecord.updateRequest editedRecord.id sampleDelta) := by
    have htable : (sampleStream.snapshots sampleHolding)[editedRecord.id]? = some (sampleRecord.body []) := hold
    rw [updateRequest, Snapshots.updateRequest, htable]
    rfl
  obtain ⟨request, hrequest, -, -, hback⟩ := (edit_echoed sampleStream sampleHolding editedRecord [4, 2]).2 _ hold
  obtain rfl := Except.ok.inj (hmade.symm.trans hrequest)
  obtain ⟨delta, rest, hread, -, hecho⟩ := hback (by decide +kernel)
  obtain ⟨rest', hread', -⟩ := readEdit_updateRequest editedRecord.id
    (show sampleDelta.length < Bytes.lengthLimit by decide +kernel)
  obtain ⟨hpair, -⟩ := Prod.mk.inj (Except.ok.inj (hread.symm.trans hread'))
  rw [(Prod.mk.inj hpair).2] at hecho
  exact ⟨hold, meanwhile_sampleMeanwhile, hmade,
    (hecho _ _ 0 hears_sampleHolding meanwhile_sampleMeanwhile (by decide +kernel)).2.1⟩

end Sample

end ObjectStream
end LevelLink
