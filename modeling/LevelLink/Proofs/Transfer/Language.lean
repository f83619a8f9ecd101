import Mathlib.Data.List.Forall2
import Mathlib.Data.List.Induction
import LevelLink.Proofs.Wire.Reading
import LevelLink.Transfer.Basic

/-!
# The language of a download

`TransferFrame.CarriedBy` says which payloads carry which frame; a payload carries at most one.  The frames of a
download are remarks (acceptances and descriptions), then the announcement of the size, then data and remarks
(`Underway`), and at last the end, if there is as much data as was announced (`Complete`).  `Stage` is the
automaton that reads this language and keeps the size, the data and the last checksum.
-/

namespace LevelLink

namespace TransferFrame

/-! ### Payloads -/

/-- The length fields can say the lengths. -/
def Sayable : TransferFrame → Prop
  | refused text | problem text => (Utf8.encode text).length < Bytes.lengthLimit
  | metadata name checksum =>
    (Utf8.encode name).length < Bytes.lengthLimit ∧ (Utf8.encode checksum).length < Bytes.lengthLimit
  | transfer name _ _ => (Utf8.encode name).length < Bytes.lengthLimit
  | data bytes => bytes.length < Bytes.lengthLimit
  | accepted | ended => True

instance (f : TransferFrame) : Decidable f.Sayable :=
  match f with
  | refused _ | problem _ | transfer _ _ _ | data _ => inferInstanceAs (Decidable (_ < _))
  | metadata _ _ => inferInstanceAs (Decidable (_ ∧ _))
  | accepted | ended => .isTrue trivial

/-- The payload is well formed and that of this frame, whatever is behind it. -/
def CarriedBy (f : TransferFrame) (payload : Bytes) : Prop := f.Sayable ∧ f.payload <+: payload

theorem CarriedBy.eq_append {f : TransferFrame} {payload : Bytes} (h : f.CarriedBy payload) :
    ∃ rest, payload = f.payload ++ rest := by
  obtain ⟨rest, hrest⟩ := h.2
  exact ⟨rest, hrest.symm⟩

/-- Reads a frame. -/
def read : Reader TransferFrame := do
  let opcode ← Reader.int32
  match TransferOp.ofCode? opcode with
  | some .status =>
    let status ← Reader.int32
    match TransferStatus.ofCode? status with
    | some .accepted => return accepted
    | some .refused => return refused (← Reader.text)
    | none => throw (.invalidMessage "status")
  | some .metadata => return metadata (← Reader.text) (← Reader.text)
  | some .transfer => return transfer (← Reader.text) (← Reader.int32) (← Reader.int32)
  | some .data => return data (← Reader.block)
  | some .protocolError => return problem (← Reader.text)
  | some .ended => return ended
  | some .opening | none => throw (.unexpectedOpcode "transfer" opcode)

open Reader in
theorem reads_payload {f : TransferFrame} (h : f.Sayable) : Reads read f.payload f := by
  cases f with
  | accepted =>
    rw [payload, ← List.append_nil (Bytes.ofInt32 TransferStatus.accepted.code)]
    exact (reads_int32 TransferOp.status.code).bind ((reads_int32 TransferStatus.accepted.code).bind (reads_pure _))
  | refused text =>
    rw [payload, List.append_assoc]
    exact (reads_int32 TransferOp.status.code).bind
      ((reads_int32 TransferStatus.refused.code).bind ((reads_text h).map _))
  | metadata name checksum =>
    rw [payload, List.append_assoc]
    exact (reads_int32 TransferOp.metadata.code).bind ((reads_text h.1).bind ((reads_text h.2).map _))
  | transfer name size chunk =>
    rw [payload, List.append_assoc, List.append_assoc]
    exact (reads_int32 TransferOp.transfer.code).bind
      ((reads_text h).bind ((reads_int32 size).bind ((reads_int32 chunk).map _)))
  | data bytes => exact (reads_int32 TransferOp.data.code).bind ((reads_block h).map _)
  | problem text => exact (reads_int32 TransferOp.protocolError.code).bind ((reads_text h).map _)
  | ended =>
    rw [payload, ← List.append_nil (Bytes.ofInt32 _)]
    exact (reads_int32 TransferOp.ended.code).bind (reads_pure _)

/-- A payload carries at most one frame. -/
theorem CarriedBy.unique {f g : TransferFrame} {payload : Bytes} (hf : f.CarriedBy payload)
    (hg : g.CarriedBy payload) : f = g := by
  obtain ⟨rest, hrest⟩ := hf.eq_append
  obtain ⟨rest', hrest'⟩ := hg.eq_append
  have hfirst := reads_payload hf.1 ⟨"", "", 0, 0, [], payload⟩ rest hrest
  have hsecond := reads_payload hg.1 ⟨"", "", 0, 0, [], payload⟩ rest' hrest'
  rw [hfirst] at hsecond
  exact Except.ok.inj (Prod.mk.inj hsecond).1

/-! ### Words -/

/-- An acceptance or a description. -/
def IsRemark : TransferFrame → Prop
  | accepted | metadata _ _ => True
  | _ => False

def IsData : TransferFrame → Prop
  | data _ => True
  | _ => False

/-- The data of a frame. -/
def content : TransferFrame → Bytes
  | data bytes => bytes
  | _ => []

theorem content_of_isRemark {f : TransferFrame} (h : f.IsRemark) : f.content = [] := by
  cases f with
  | accepted | metadata => rfl
  | _ => exact h.elim

/-- A payload is at least as long as the data in it. -/
theorem CarriedBy.length_content_le {f : TransferFrame} {payload : Bytes} (h : f.CarriedBy payload) :
    f.content.length ≤ payload.length := by
  have hle := h.2.length_le
  cases f with
  | data bytes =>
    rw [TransferFrame.payload, List.length_append, Bytes.length_block] at hle
    rw [content]
    omega
  | _ => exact Nat.zero_le _

/-- The checksum that a frame describes the file by. -/
def checksum? : TransferFrame → Option String
  | metadata _ checksum => some checksum
  | _ => none

end TransferFrame

/-! ### Answers -/

theorem TransferOp.code_of_ofCode? {v : Int32} {op : TransferOp} (h : ofCode? v = some op) : op.code = v := by
  simpa using List.find?_some h

theorem TransferStatus.code_of_ofCode? {v : Int32} {status : TransferStatus} (h : ofCode? v = some status) :
    status.code = v := by
  simpa using List.find?_some h

namespace Transfer

variable {ω : Type} {m : Message} {rest : Bytes}

/-- An acceptance is read without a failure. -/
theorem on_readStatus_accepted (h : m.unread = Bytes.ofInt32 TransferStatus.accepted.code ++ rest)
    (context : String) (w : ω) : (readStatus context m).on w = (.ok (), w) := by
  obtain ⟨m₁, hstatus, -⟩ := (Reader.reads_int32 _).goes_on h
  simp only [readStatus, Step.read, Attempt.on_lift, Attempt.on_bind, hstatus, TransferStatus.ofCode?_code,
    Attempt.on_pure]

/-- Any other answer fails. -/
theorem fails_readStatus (h : ¬ TransferFrame.accepted.CarriedBy (Bytes.ofInt32 TransferOp.status.code ++ m.unread))
    (context : String) (w : ω) : (readStatus context m : Step ω Unit).Fails w := by
  refine Attempt.fails_lift_bind fun ⟨status, m₁⟩ hstatus => ?_
  dsimp only
  rcases hcode : TransferStatus.ofCode? status with _ | _ | _
  · exact Attempt.fails_throw _ w
  · obtain rfl := TransferStatus.code_of_ofCode? hcode
    refine (h ⟨trivial, m₁.unread, ?_⟩).elim
    rw [Reader.int32_took hstatus, TransferFrame.payload, List.append_assoc]
  · exact Attempt.fails_lift_bind fun _ _ => Attempt.fails_throw _ w

end Transfer

namespace Download

variable {fs : List TransferFrame} {f : TransferFrame} {size : Int32} {checksum : Option String}

/-- All data of these frames. -/
def dataOf (fs : List TransferFrame) : Bytes := fs.flatMap TransferFrame.content

/-- The checksum in the last description among these frames. -/
def lastChecksum (fs : List TransferFrame) : Option String := (fs.filterMap TransferFrame.checksum?).getLast?

/-- The frames of a download that is under way: remarks, and if the size has been announced, its announcement and
then remarks and data. -/
def Underway (fs : List TransferFrame) : (announced : Option Int32) → Prop
  | none => ∀ f ∈ fs, f.IsRemark
  | some size => ∃ front name chunk middle, fs = front ++ .transfer name size chunk :: middle ∧
      (∀ f ∈ front, f.IsRemark) ∧ 0 ≤ size ∧ ∀ f ∈ middle, f.IsRemark ∨ f.IsData

/-- The frames of a whole download: the end follows as much data as was announced. -/
def Complete (fs : List TransferFrame) (size : Int32) : Prop :=
  ∃ front, fs = front ++ [.ended] ∧ Underway front (some size) ∧ (dataOf fs).length = size.toNatClampNeg

/-! ### The automaton -/

/-- How far the frames of a download have come. -/
inductive Stage where
  | waiting (checksum : Option String)
  | receiving (size : Int32) (bytes : Bytes) (checksum : Option String)
  | complete (size : Int32) (bytes : Bytes) (checksum : Option String)

namespace Stage

/-- The stage after a frame, if the frame has a place there. -/
def next : Stage → TransferFrame → Option Stage
  | waiting c, .accepted => some (waiting c)
  | waiting _, .metadata _ c => some (waiting (some c))
  | waiting c, .transfer _ size _ => if size < 0 then none else some (receiving size [] c)
  | receiving size bytes c, .accepted => some (receiving size bytes c)
  | receiving size bytes _, .metadata _ c => some (receiving size bytes (some c))
  | receiving size bytes c, .data more => some (receiving size (bytes ++ more) c)
  | receiving size bytes c, .ended =>
    if bytes.length = size.toNatClampNeg then some (complete size bytes c) else none
  | _, _ => none

/-- The size, once it has been announced. -/
def announced : Stage → Option Int32
  | waiting _ => none
  | receiving size _ _ | complete size _ _ => some size

end Stage

/-- The stage after these frames, if all of them have their place. -/
def stage (fs : List TransferFrame) : Option Stage := fs.foldlM Stage.next (.waiting none)

theorem stage_concat (fs : List TransferFrame) (f : TransferFrame) :
    stage (fs ++ [f]) = (stage fs).bind (·.next f) := by
  rw [stage, List.foldlM_append]
  show ((stage fs).bind fun st => (st.next f).bind some) = _
  simp

@[simp] theorem dataOf_concat (fs : List TransferFrame) (f : TransferFrame) :
    dataOf (fs ++ [f]) = dataOf fs ++ f.content := by
  simp [dataOf]

theorem lastChecksum_concat (fs : List TransferFrame) (f : TransferFrame) :
    lastChecksum (fs ++ [f]) = f.checksum?.or (lastChecksum fs) := by
  rw [lastChecksum, List.filterMap_append]
  cases h : f.checksum? with
  | none => simp [h, lastChecksum]
  | some c => simp [h]

theorem underway_concat_none : Underway (fs ++ [f]) none ↔ Underway fs none ∧ f.IsRemark := by
  simp only [Underway, List.mem_append, List.mem_singleton]
  exact ⟨fun h => ⟨fun g hg => h g (.inl hg), h f (.inr rfl)⟩,
    fun h g hg => hg.elim (h.1 g) fun hgf => hgf ▸ h.2⟩

theorem underway_concat_some : Underway (fs ++ [f]) (some size) ↔
    (Underway fs (some size) ∧ (f.IsRemark ∨ f.IsData)) ∨
      (∃ name chunk, f = .transfer name size chunk) ∧ 0 ≤ size ∧ Underway fs none := by
  constructor
  · rintro ⟨front, name, chunk, middle, hfs, hfront, hsize, hmiddle⟩
    rcases List.eq_nil_or_concat middle with rfl | ⟨middle, g, rfl⟩
    · obtain ⟨rfl, hf⟩ := List.append_inj' hfs rfl
      exact .inr ⟨⟨name, chunk, (List.cons.inj hf).1⟩, hsize, hfront⟩
    · rw [List.concat_eq_append, ← List.cons_append, ← List.append_assoc] at hfs
      obtain ⟨rfl, hf⟩ := List.append_inj' hfs rfl
      obtain rfl := (List.cons.inj hf).1
      rw [List.concat_eq_append] at hmiddle
      exact .inl ⟨⟨front, name, chunk, middle, rfl, hfront, hsize,
        fun g hg => hmiddle g (List.mem_append_left _ hg)⟩, hmiddle _ (by simp)⟩
  · rintro (⟨⟨front, name, chunk, middle, rfl, hfront, hsize, hmiddle⟩, hf⟩ | ⟨⟨name, chunk, rfl⟩, hsize, hfront⟩)
    · refine ⟨front, name, chunk, middle ++ [f], by simp, hfront, hsize, ?_⟩
      intro g hg
      rcases List.mem_append.mp hg with hg | hg
      · exact hmiddle g hg
      · exact List.mem_singleton.mp hg ▸ hf
    · exact ⟨fs, name, chunk, [], rfl, hfront, hsize, by simp⟩

theorem complete_concat : Complete (fs ++ [f]) size ↔
    f = .ended ∧ Underway fs (some size) ∧ (dataOf fs).length = size.toNatClampNeg := by
  constructor
  · rintro ⟨front, hfs, hunder, hlen⟩
    obtain ⟨rfl, hf⟩ := List.append_inj' hfs rfl
    obtain rfl := (List.cons.inj hf).1
    refine ⟨rfl, hunder, ?_⟩
    rw [dataOf_concat] at hlen
    simpa [TransferFrame.content] using hlen
  · rintro ⟨rfl, hunder, hlen⟩
    refine ⟨fs, rfl, hunder, ?_⟩
    rw [dataOf_concat]
    simpa [TransferFrame.content] using hlen

/-- Remarks have no data. -/
theorem dataOf_of_underway_none (h : Underway fs none) : dataOf fs = [] := by
  exact List.flatMap_eq_nil_iff.mpr fun f hf => TransferFrame.content_of_isRemark (h f hf)

/-- What the frames are that lead to a stage. -/
def Stage.Describes (fs : List TransferFrame) : Stage → Prop
  | waiting c => Underway fs none ∧ c = lastChecksum fs
  | receiving size bytes c => Underway fs (some size) ∧ bytes = dataOf fs ∧ c = lastChecksum fs
  | complete size bytes c => Complete fs size ∧ bytes = dataOf fs ∧ c = lastChecksum fs

theorem Stage.Describes.concat {st st' : Stage} (h : st.Describes fs) (hnext : st.next f = some st') :
    st'.Describes (fs ++ [f]) := by
  have hsum := (lastChecksum_concat fs f).symm
  cases st with
  | waiting c =>
    obtain ⟨hunder, rfl⟩ := h
    cases f with
    | accepted | metadata =>
      obtain rfl := Option.some.inj hnext
      exact ⟨underway_concat_none.mpr ⟨hunder, trivial⟩, hsum⟩
    | transfer name size chunk =>
      rw [next] at hnext
      split at hnext
      · cases hnext
      · next hsize =>
        obtain rfl := Option.some.inj hnext
        refine ⟨underway_concat_some.mpr (.inr ⟨⟨name, chunk, rfl⟩, Int32.not_lt.mp hsize, hunder⟩), ?_, hsum⟩
        rw [dataOf_concat, dataOf_of_underway_none hunder]
        rfl
    | _ => cases hnext
  | receiving size bytes c =>
    obtain ⟨hunder, rfl, rfl⟩ := h
    cases f with
    | accepted | metadata =>
      obtain rfl := Option.some.inj hnext
      refine ⟨underway_concat_some.mpr (.inl ⟨hunder, .inl trivial⟩), ?_, hsum⟩
      rw [dataOf_concat]
      exact (List.append_nil _).symm
    | data more =>
      obtain rfl := Option.some.inj hnext
      exact ⟨underway_concat_some.mpr (.inl ⟨hunder, .inr trivial⟩), (dataOf_concat fs (.data more)).symm, hsum⟩
    | ended =>
      rw [next] at hnext
      split at hnext
      · next hlen =>
        obtain rfl := Option.some.inj hnext
        refine ⟨complete_concat.mpr ⟨rfl, hunder, hlen⟩, ?_, hsum⟩
        rw [dataOf_concat]
        exact (List.append_nil _).symm
      · cases hnext
    | _ => cases hnext
  | complete size bytes c => cases hnext

theorem Stage.Describes.of_concat {st' : Stage} (h : st'.Describes (fs ++ [f])) :
    ∃ st : Stage, st.Describes fs ∧ st.next f = some st' := by
  cases st' with
  | waiting c =>
    obtain ⟨hunder, rfl⟩ := h
    obtain ⟨hbefore, hremark⟩ := underway_concat_none.mp hunder
    refine ⟨.waiting (lastChecksum fs), ⟨hbefore, rfl⟩, ?_⟩
    rw [lastChecksum_concat]
    cases f with
    | accepted | metadata => rfl
    | _ => exact hremark.elim
  | receiving size bytes c =>
    obtain ⟨hunder, rfl, rfl⟩ := h
    rw [lastChecksum_concat, dataOf_concat]
    rcases underway_concat_some.mp hunder with ⟨hbefore, hf⟩ | ⟨⟨name, chunk, rfl⟩, hsize, hbefore⟩
    · refine ⟨.receiving size (dataOf fs) (lastChecksum fs), ⟨hbefore, rfl, rfl⟩, ?_⟩
      cases f with
      | accepted | metadata =>
        rw [TransferFrame.content_of_isRemark (hf.resolve_right id), List.append_nil]
        rfl
      | data more => rfl
      | _ => exact (hf.elim id id).elim
    · refine ⟨.waiting (lastChecksum fs), ⟨hbefore, rfl⟩, ?_⟩
      rw [dataOf_of_underway_none hbefore, next, if_neg (Int32.not_lt.mpr hsize)]
      rfl
  | complete size bytes c =>
    obtain ⟨hcomplete, rfl, rfl⟩ := h
    obtain ⟨rfl, hbefore, hlen⟩ := complete_concat.mp hcomplete
    refine ⟨.receiving size (dataOf fs) (lastChecksum fs), ⟨hbefore, rfl, rfl⟩, ?_⟩
    rw [next, if_pos hlen, lastChecksum_concat, dataOf_concat, show TransferFrame.ended.content = [] from rfl,
      List.append_nil]
    rfl

/-- The automaton reads the language. -/
theorem stage_eq_some_iff {st : Stage} : stage fs = some st ↔ st.Describes fs := by
  induction fs using List.reverseRecOn generalizing st with
  | nil =>
    constructor
    · intro h
      obtain rfl := Option.some.inj h
      exact ⟨by simp [Underway], rfl⟩
    · intro h
      cases st with
      | waiting c =>
        obtain ⟨-, rfl⟩ := h
        rfl
      | receiving size bytes c =>
        obtain ⟨⟨front, name, chunk, middle, hfs, -⟩, -⟩ := h
        simp at hfs
      | complete size bytes c =>
        obtain ⟨⟨front, hfs, -⟩, -⟩ := h
        simp at hfs
  | append_singleton fs f ih =>
    rw [stage_concat, Option.bind_eq_some_iff]
    constructor
    · rintro ⟨st₀, hst, hnext⟩
      exact (ih.mp hst).concat hnext
    · intro h
      obtain ⟨st₀, hst, hnext⟩ := h.of_concat
      exact ⟨st₀, ih.mpr hst, hnext⟩

/-! ### Payloads of a download -/

variable {payloads front : List Bytes} {fs' : List TransferFrame} {p : Bytes} {st st' : Stage}
  {announced : Option Int32}

/-- The payloads carry these frames, and they lead to this stage. -/
structure Reach (payloads : List Bytes) (fs : List TransferFrame) (st : Stage) : Prop where
  carried : List.Forall₂ TransferFrame.CarriedBy fs payloads
  stage_eq : stage fs = some st

/-- Some first payloads carry the frames of a whole download. -/
def Finishes (payloads : List Bytes) (fs : List TransferFrame) (size : Int32) : Prop :=
  ∃ front, front <+: payloads ∧ List.Forall₂ TransferFrame.CarriedBy fs front ∧ Complete fs size

/-- Some first payloads carry frames of a download that is under way, and the next one carries nothing that has a
place behind them. -/
def Leaves (payloads : List Bytes) (fs : List TransferFrame) (announced : Option Int32) : Prop :=
  ∃ front p, front ++ [p] <+: payloads ∧ List.Forall₂ TransferFrame.CarriedBy fs front ∧ Underway fs announced ∧
    ∀ f : TransferFrame, f.CarriedBy p →
      (∀ announced, ¬ Underway (fs ++ [f]) announced) ∧ ∀ size, ¬ Complete (fs ++ [f]) size

theorem forall₂_carriedBy_payload (h : ∀ f ∈ fs, f.Sayable) :
    List.Forall₂ TransferFrame.CarriedBy fs (fs.map TransferFrame.payload) := by
  apply List.forall₂_map_right_iff.mpr
  apply List.forall₂_same.mpr
  intro f hf
  exact ⟨h f hf, List.prefix_rfl⟩

theorem forall₂_carriedBy_unique (h : List.Forall₂ TransferFrame.CarriedBy fs payloads)
    (h' : List.Forall₂ TransferFrame.CarriedBy fs' payloads) : fs = fs' := by
  induction h generalizing fs' with
  | nil => exact (List.forall₂_nil_right_iff.mp h').symm
  | cons hf _ ih =>
    obtain ⟨g, gs, hg, hgs, rfl⟩ := List.forall₂_cons_right_iff.mp h'
    rw [hf.unique hg, ih hgs]

theorem Reach.unique (h : Reach payloads fs st) (h' : Reach payloads fs' st') : st = st' := by
  obtain rfl := forall₂_carriedBy_unique h.carried h'.carried
  exact Option.some.inj (h.stage_eq.symm.trans h'.stage_eq)

theorem Reach.nil : Reach [] [] (.waiting none) := ⟨.nil, rfl⟩

theorem Reach.concat (h : Reach payloads fs st) (hf : f.CarriedBy p) (hnext : st.next f = some st') :
    Reach (payloads ++ [p]) (fs ++ [f]) st' := by
  refine ⟨List.rel_append h.carried (.cons hf .nil), ?_⟩
  rw [stage_concat, h.stage_eq]
  exact hnext

/-- What has led to a stage has led to one before every payload. -/
theorem Reach.before {more : List Bytes} (h : Reach (payloads ++ p :: more) fs st) :
    ∃ fs₀ st₀ f st₁, Reach payloads fs₀ st₀ ∧ f.CarriedBy p ∧ st₀.next f = some st₁ := by
  obtain ⟨hcarried, hstage⟩ := h
  obtain ⟨f, gs, hf, -, hdrop⟩ :=
    List.forall₂_cons_right_iff.mp (List.forall₂_drop_append _ payloads (p :: more) hcarried)
  rw [stage, ← List.take_append_drop payloads.length fs, hdrop, List.foldlM_append] at hstage
  obtain ⟨st₀, hst₀, hrest⟩ := Option.bind_eq_some_iff.mp hstage
  obtain ⟨st₁, hst₁, -⟩ := Option.bind_eq_some_iff.mp hrest
  exact ⟨_, st₀, f, st₁, ⟨List.forall₂_take_append _ _ _ hcarried, hst₀⟩, hf, hst₁⟩

/-- The last payload has led from one stage to the next. -/
theorem Reach.last (h : Reach (payloads ++ [p]) fs st) :
    ∃ fs₀ st₀ f, fs = fs₀ ++ [f] ∧ Reach payloads fs₀ st₀ ∧ f.CarriedBy p ∧ st₀.next f = some st := by
  obtain ⟨fs₀, st₀, f, st₁, hreach, hf, hnext⟩ := h.before
  have hreach₁ := hreach.concat hf hnext
  exact ⟨fs₀, st₀, f, forall₂_carriedBy_unique h.carried hreach₁.carried, hreach, hf,
    by rw [hnext, hreach₁.unique h]⟩

/-- Nothing has a place behind the end. -/
def Stage.IsComplete : Stage → Prop
  | complete _ _ _ => True
  | _ => False

theorem Stage.next_of_isComplete (h : st.IsComplete) (f : TransferFrame) : st.next f = none := by
  cases st with
  | complete => cases f <;> rfl
  | _ => exact h.elim

theorem Stage.not_isComplete_of_next (h : st.next f = some st') : ¬ st.IsComplete := by
  intro hcomplete
  rw [st.next_of_isComplete hcomplete] at h
  cases h

/-- No payload carries a frame that has a place at this stage. -/
def Stage.Rejects (st : Stage) (p : Bytes) : Prop := ∀ f : TransferFrame, f.CarriedBy p → st.next f = none

theorem Stage.rejects_of_isComplete (h : st.IsComplete) (p : Bytes) : st.Rejects p :=
  fun f _ => st.next_of_isComplete h f

/-- Nothing is reached past a payload that was rejected. -/
theorem Reach.not_past_rejected (h : Reach front fs st) (hreject : st.Rejects p)
    {more : List Bytes} : ¬ Reach (front ++ p :: more) fs' st' := by
  intro hpast
  obtain ⟨fs₀, st₀, f, st₁, hreach, hf, hnext⟩ := hpast.before
  rw [← h.unique hreach, hreject f hf] at hnext
  cases hnext

/-- What has been completed is neither going on nor completed elsewhere. -/
theorem Reach.unique_of_isComplete (h : Reach front fs st) (hcomplete : st.IsComplete)
    (hfront : front <+: payloads) (h' : Reach payloads fs' st') : front = payloads := by
  obtain ⟨more, rfl⟩ := hfront
  cases more with
  | nil => exact (List.append_nil _).symm
  | cons p more => exact (h.not_past_rejected (Stage.rejects_of_isComplete hcomplete p) h').elim

theorem Stage.Describes.underway (h : st.Describes fs) (hst : ¬ st.IsComplete) : Underway fs st.announced := by
  cases st with
  | waiting c => exact h.1
  | receiving size bytes c => exact h.1
  | complete size bytes c => exact (hst trivial).elim

theorem Stage.describes_of_underway (h : Underway fs announced) :
    ∃ st : Stage, st.Describes fs ∧ ¬ st.IsComplete ∧ st.announced = announced := by
  cases announced with
  | none => exact ⟨.waiting (lastChecksum fs), ⟨h, rfl⟩, id, rfl⟩
  | some size => exact ⟨.receiving size (dataOf fs) (lastChecksum fs), ⟨h, rfl, rfl⟩, id, rfl⟩

/-- A frame has no place behind others if neither a download under way nor a whole one begins with it. -/
theorem Stage.Describes.next_eq_none_iff (h : st.Describes fs) : st.next f = none ↔
    (∀ announced, ¬ Underway (fs ++ [f]) announced) ∧ ∀ size, ¬ Complete (fs ++ [f]) size := by
  have hof (st' : Stage) (h' : st'.Describes (fs ++ [f])) : st.next f = some st' := by
    obtain ⟨st₀, hst₀, hnext⟩ := h'.of_concat
    rw [← stage_eq_some_iff] at h hst₀
    rwa [Option.some.inj (h.symm.trans hst₀)]
  constructor
  · intro hnone
    refine ⟨?_, ?_⟩
    · intro announced hunder
      obtain ⟨st', hst', -⟩ := Stage.describes_of_underway hunder
      rw [hof st' hst'] at hnone
      cases hnone
    · intro size hcomplete
      have hst' : (Stage.complete size (dataOf (fs ++ [f])) (lastChecksum (fs ++ [f]))).Describes (fs ++ [f]) :=
        ⟨hcomplete, rfl, rfl⟩
      rw [hof _ hst'] at hnone
      cases hnone
  · rintro ⟨hunder, hcomplete⟩
    apply Option.eq_none_iff_forall_ne_some.mpr
    intro st' hnext
    cases st' with
    | waiting c => exact hunder _ (h.concat hnext).1
    | receiving size bytes c => exact hunder _ (h.concat hnext).1
    | complete size bytes c => exact hcomplete _ (h.concat hnext).1

theorem finishes_iff : Finishes payloads fs size ↔
    ∃ front, front <+: payloads ∧ Reach front fs (.complete size (dataOf fs) (lastChecksum fs)) := by
  constructor
  · rintro ⟨front, hfront, hcarried, hcomplete⟩
    exact ⟨front, hfront, hcarried, stage_eq_some_iff.mpr ⟨hcomplete, rfl, rfl⟩⟩
  · rintro ⟨front, hfront, hcarried, hstage⟩
    exact ⟨front, hfront, hcarried, (stage_eq_some_iff.mp hstage).1⟩

theorem leaves_iff : Leaves payloads fs announced ↔
    ∃ front p st, front ++ [p] <+: payloads ∧ Reach front fs st ∧ ¬ st.IsComplete ∧ st.announced = announced ∧
      st.Rejects p := by
  constructor
  · rintro ⟨front, p, hfront, hcarried, hunder, hleaves⟩
    obtain ⟨st, hst, hgoing, hannounced⟩ := Stage.describes_of_underway hunder
    exact ⟨front, p, st, hfront, ⟨hcarried, stage_eq_some_iff.mpr hst⟩, hgoing, hannounced,
      fun f hf => hst.next_eq_none_iff.mpr (hleaves f hf)⟩
  · rintro ⟨front, p, st, hfront, ⟨hcarried, hstage⟩, hgoing, rfl, hreject⟩
    have hst := stage_eq_some_iff.mp hstage
    exact ⟨front, p, hfront, hcarried, hst.underway hgoing, fun f hf => hst.next_eq_none_iff.mp (hreject f hf)⟩

/-! ### How much data there is -/

/-- The data of a download under way that these payloads begin with is at most `n` bytes. -/
def FitsIn (payloads : List Bytes) (n : Nat) : Prop :=
  ∀ front fs announced, front <+: payloads → List.Forall₂ TransferFrame.CarriedBy fs front → Underway fs announced →
    (dataOf fs).length ≤ n

theorem dataOf_append (fs fs' : List TransferFrame) : dataOf (fs ++ fs') = dataOf fs ++ dataOf fs' :=
  List.flatMap_append

/-- The first of these frames have at most all of the data. -/
theorem fitsIn_of_carried (h : List.Forall₂ TransferFrame.CarriedBy fs payloads) :
    FitsIn payloads (dataOf fs).length := by
  rintro front fs' announced ⟨more, rfl⟩ hcarried -
  have hfirst : fs' = fs.take front.length :=
    forall₂_carriedBy_unique hcarried (List.forall₂_take_append fs front more h)
  have hdata : dataOf fs = dataOf fs' ++ dataOf (fs.drop front.length) := by
    rw [hfirst, ← dataOf_append, List.take_append_drop]
  rw [hdata, List.length_append]
  exact Nat.le_add_right _ _

/-- There is not more data than payload. -/
theorem fitsIn_length (payloads : List Bytes) : FitsIn payloads payloads.flatten.length := by
  rintro front fs announced ⟨more, rfl⟩ hcarried -
  rw [List.flatten_append, List.length_append]
  refine Nat.le_trans ?_ (Nat.le_add_right _ _)
  induction hcarried with
  | nil => exact Nat.le_refl _
  | @cons f p fs front hf _ ih =>
    have hcontent := hf.length_content_le
    have hcons : dataOf (f :: fs) = f.content ++ dataOf fs := List.flatMap_cons
    rw [hcons, List.flatten_cons, List.length_append, List.length_append]
    omega

theorem Reach.length_dataOf_le {n : Nat} (h : Reach front fs st) (hst : ¬ st.IsComplete) (hfront : front <+: payloads)
    (fits : FitsIn payloads n) : (dataOf fs).length ≤ n :=
  fits front fs st.announced hfront h.carried ((stage_eq_some_iff.mp h.stage_eq).underway hst)

/-! ### The three ways a download can stand -/

/-- The payloads so far are those of a download that is under way. -/
def Pending (payloads : List Bytes) : Prop :=
  ∃ fs announced, List.Forall₂ TransferFrame.CarriedBy fs payloads ∧ Underway fs announced

theorem pending_iff : Pending payloads ↔ ∃ fs st, Reach payloads fs st ∧ ¬ st.IsComplete := by
  constructor
  · rintro ⟨fs, announced, hcarried, hunder⟩
    obtain ⟨st, hst, hgoing, -⟩ := Stage.describes_of_underway hunder
    exact ⟨fs, st, ⟨hcarried, stage_eq_some_iff.mpr hst⟩, hgoing⟩
  · rintro ⟨fs, st, ⟨hcarried, hstage⟩, hgoing⟩
    exact ⟨fs, st.announced, hcarried, (stage_eq_some_iff.mp hstage).underway hgoing⟩

theorem Pending.not_finishes (h : Pending payloads) : ¬ Finishes payloads fs size := by
  intro hfinishes
  obtain ⟨fs', st, hreach, hgoing⟩ := pending_iff.mp h
  obtain ⟨front, hfront, hcomplete⟩ := finishes_iff.mp hfinishes
  obtain rfl := hcomplete.unique_of_isComplete trivial hfront hreach
  exact hgoing (hcomplete.unique hreach ▸ trivial)

theorem Reach.not_leaves (h : Reach payloads fs' st) : ¬ Leaves payloads fs announced := by
  intro hleaves
  obtain ⟨front, p, st₀, ⟨more, rfl⟩, hreach, -, -, hreject⟩ := leaves_iff.mp hleaves
  rw [List.append_assoc] at h
  exact hreach.not_past_rejected hreject h

theorem Finishes.not_leaves (h : Finishes payloads fs size) : ¬ Leaves payloads fs' announced := by
  intro hleaves
  obtain ⟨front, hfront, hcomplete⟩ := finishes_iff.mp h
  obtain ⟨front', p, st, hfront', hreach, hgoing, hannounced, hreject⟩ := leaves_iff.mp hleaves
  rcases List.prefix_or_prefix_of_prefix hfront hfront' with hle | hle
  · rcases List.prefix_concat_iff.mp hle with rfl | hle
    · exact hcomplete.not_leaves
        (leaves_iff.mpr ⟨front', p, st, List.prefix_rfl, hreach, hgoing, hannounced, hreject⟩)
    · exact (pending_iff.mpr ⟨_, st, hreach, hgoing⟩).not_finishes (finishes_iff.mpr ⟨front, hle, hcomplete⟩)
  · exact hcomplete.not_leaves (leaves_iff.mpr ⟨front', p, st, hle, hreach, hgoing, hannounced, hreject⟩)

theorem Finishes.of_prefix (h : Finishes front fs size) (hfront : front <+: payloads) :
    Finishes payloads fs size := by
  obtain ⟨first, hfirst, hcarried, hcomplete⟩ := h
  exact ⟨first, hfirst.trans hfront, hcarried, hcomplete⟩

theorem Leaves.of_prefix (h : Leaves front fs announced) (hfront : front <+: payloads) :
    Leaves payloads fs announced := by
  obtain ⟨first, p, hfirst, hcarried, hunder, hleaves⟩ := h
  exact ⟨first, p, hfirst.trans hfront, hcarried, hunder, hleaves⟩

/-- A download is under way, or it has finished, or it has failed. -/
theorem pending_or_finishes_or_leaves (payloads : List Bytes) :
    Pending payloads ∨ (∃ fs size, Finishes payloads fs size) ∨ ∃ fs announced, Leaves payloads fs announced := by
  induction payloads using List.reverseRecOn with
  | nil => exact .inl (pending_iff.mpr ⟨[], .waiting none, .nil, id⟩)
  | append_singleton front p ih =>
    have hprefix : front <+: front ++ [p] := List.prefix_append front [p]
    rcases ih with hpending | ⟨fs, size, h⟩ | ⟨fs, announced, h⟩
    · obtain ⟨fs, st, hreach, hgoing⟩ := pending_iff.mp hpending
      by_cases hreject : st.Rejects p
      · exact .inr (.inr ⟨fs, st.announced,
          leaves_iff.mpr ⟨front, p, st, List.prefix_rfl, hreach, hgoing, rfl, hreject⟩⟩)
      · obtain ⟨f, hf⟩ := not_forall.mp hreject
        obtain ⟨hcarried, hnext⟩ := Classical.not_imp.mp hf
        obtain ⟨st', hst'⟩ := Option.ne_none_iff_exists'.mp hnext
        have hreach' := hreach.concat hcarried hst'
        by_cases hcomplete : st'.IsComplete
        · cases st' with
          | complete size bytes c =>
            have hwhole := (stage_eq_some_iff.mp hreach'.stage_eq).1
            exact .inr (.inl ⟨_, size, _, List.prefix_rfl, hreach'.carried, hwhole⟩)
          | _ => exact hcomplete.elim
        · exact .inl (pending_iff.mpr ⟨_, st', hreach', hcomplete⟩)
    · exact .inr (.inl ⟨fs, size, h.of_prefix hprefix⟩)
    · exact .inr (.inr ⟨fs, announced, h.of_prefix hprefix⟩)

end Download
end LevelLink
