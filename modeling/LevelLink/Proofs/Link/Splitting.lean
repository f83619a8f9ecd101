import LevelLink.Link.Framing
import LevelLink.Proofs.Wire.Reading

/-!
# Splitting a stream of bytes

`Framing.Splits limit bs frames rest` says, without cutting anything off, that `bs` is the frames one behind the other
and then a rest that no frame can be taken off: it is broken, or it is not complete.  There is one way to split a
stream (`Splits.unique`), `Framing.frames` finds it (`splits_frames`), and it does not matter where the stream was
interrupted (`Splits.append`, `Splits.append_broken`).
-/

namespace LevelLink.Framing

/-- The bytes of the frame with this id and this body. -/
def bytes (frame : Int32 × Bytes) : Bytes :=
  Bytes.ofInt32 (UInt32.ofNat frame.2.length).toInt32 ++ Bytes.ofInt32 frame.1 ++ frame.2

theorem length_bytes (frame : Int32 × Bytes) : (bytes frame).length = Message.headerLength + frame.2.length := by
  simp only [bytes, List.length_append, Bytes.length_ofInt32, Message.headerLength]

/-- The size that a header declares. -/
def declared (bs : Bytes) : Int32 := (Message.readHeader bs).1

variable (limit : Nat)

/-- A frame whose body is accepted where `limit` bytes are: it is not too long for that, and its length can be said in
a header. -/
def Fits (frame : Int32 × Bytes) : Prop :=
  frame.2.length ≤ limit ∧ frame.2.length < Bytes.lengthLimit

/-- The header is complete, and declares a size that no frame can have. -/
def Broken (bs : Bytes) : Prop :=
  Message.headerLength ≤ bs.length ∧ (declared bs < 0 ∨ limit < (declared bs).toNatClampNeg)

/-- The header is not complete, or the body is not. -/
def Unfinished (bs : Bytes) : Prop :=
  bs.length < Message.headerLength ∨ bs.length < Message.headerLength + (declared bs).toNatClampNeg

/-- The stream is these frames, and then a rest that does not begin with a frame. -/
structure Splits (bs : Bytes) (frames : List (Int32 × Bytes)) (rest : Bytes) : Prop where
  bytes : bs = frames.flatMap bytes ++ rest
  fits : ∀ frame ∈ frames, Fits limit frame
  stops : Broken limit rest ∨ Unfinished rest

variable {limit}

/-! ### The first frame -/

variable {frame : Int32 × Bytes} {rest : Bytes}

theorem bytes_append (frame : Int32 × Bytes) (rest : Bytes) : bytes frame ++ rest =
    Bytes.ofInt32 (UInt32.ofNat frame.2.length).toInt32 ++ (Bytes.ofInt32 frame.1 ++ (frame.2 ++ rest)) := by
  simp only [bytes, List.append_assoc]

theorem readHeader_bytes_append (frame : Int32 × Bytes) (rest : Bytes) :
    Message.readHeader (bytes frame ++ rest) = ((UInt32.ofNat frame.2.length).toInt32, frame.1) := by
  rw [Message.readHeader, bytes_append, Bytes.toInt32_ofInt32_append, List.drop_left' (Bytes.length_ofInt32 _),
    Bytes.toInt32_ofInt32_append]

theorem declared_bytes_append (frame : Int32 × Bytes) (rest : Bytes) :
    declared (bytes frame ++ rest) = (UInt32.ofNat frame.2.length).toInt32 := by
  rw [declared, readHeader_bytes_append]

theorem drop_bytes_append (frame : Int32 × Bytes) (rest : Bytes) :
    (bytes frame ++ rest).drop Message.headerLength = frame.2 ++ rest := by
  rw [bytes, List.append_assoc]
  exact List.drop_left' (by simp [Message.headerLength])

theorem length_le_bytes_append (frame : Int32 × Bytes) (rest : Bytes) :
    Message.headerLength + frame.2.length ≤ (bytes frame ++ rest).length := by
  rw [List.length_append, length_bytes]
  omega

/-- A stream that begins with a frame is not broken. -/
theorem Fits.not_broken (h : Fits limit frame) (rest : Bytes) : ¬ Broken limit (bytes frame ++ rest) := by
  rintro ⟨-, hsize⟩
  rw [declared_bytes_append, toNatClampNeg_length h.2] at hsize
  rcases hsize with hneg | hlarge
  · exact length_not_neg h.2 hneg
  · exact absurd hlarge (Nat.not_lt.mpr h.1)

theorem Fits.not_unfinished (h : Fits limit frame) (rest : Bytes) : ¬ Unfinished (bytes frame ++ rest) := by
  have hlength := length_le_bytes_append frame rest
  unfold Unfinished
  rw [declared_bytes_append, toNatClampNeg_length h.2]
  omega

/-- Where the frames of a stream end there is none. -/
theorem Fits.not_stops (h : Fits limit frame) (rest : Bytes) :
    ¬ (Broken limit (bytes frame ++ rest) ∨ Unfinished (bytes frame ++ rest)) := by
  rintro (hbroken | hunfinished)
  · exact h.not_broken rest hbroken
  · exact h.not_unfinished rest hunfinished

/-- A frame that fits is cut off as it is. -/
theorem Fits.cut_eq (h : Fits limit frame) (rest : Bytes) :
    cut limit (bytes frame ++ rest) = .frame frame.1 frame.2 rest := by
  have hlength := length_le_bytes_append frame rest
  unfold cut
  rw [if_neg (by omega), readHeader_bytes_append]
  dsimp only
  rw [toNatClampNeg_length h.2, drop_bytes_append, if_neg (length_not_neg h.2), if_neg (Nat.not_lt.mpr h.1),
    if_neg (by simp), List.take_left, List.drop_left]

/-- A stream with a complete header and a complete body begins with a frame. -/
theorem eq_bytes_append {bs body rest : Bytes} (hlong : Message.headerLength ≤ bs.length) (hsize : ¬ declared bs < 0)
    (hdrop : bs.drop Message.headerLength = body ++ rest) (hbody : body.length = (declared bs).toNatClampNeg) :
    bs = bytes ((Message.readHeader bs).2, body) ++ rest := by
  have hdeclared : (UInt32.ofNat body.length).toInt32 = (Message.readHeader bs).1 := by
    rw [hbody, UInt32.toInt32_ofNat']
    exact Int32.ofNat_toNatClampNeg _ (Int32.not_lt.mp hsize)
  have hheader := Message.ofInt32_readHeader hlong
  rw [bytes_append]
  dsimp only
  rw [hdeclared, ← hdrop, hheader]

/-- What is cut off a stream of bytes. -/
theorem cut_cases (limit : Nat) (bs : Bytes) :
    (∃ id body rest, cut limit bs = .frame id body rest ∧ bs = bytes (id, body) ++ rest ∧ Fits limit (id, body)) ∨
      (cut limit bs = .incomplete ∧ Unfinished bs ∧ ¬ Broken limit bs) ∨
      (∃ e, cut limit bs = .broken e ∧ Broken limit bs) := by
  unfold cut
  by_cases hheader : bs.length < Message.headerLength
  · rw [if_pos hheader]
    exact .inr (.inl ⟨rfl, .inl hheader, fun h => absurd h.1 (by omega)⟩)
  have hlong : Message.headerLength ≤ bs.length := Nat.not_lt.mp hheader
  rw [if_neg hheader]
  dsimp only
  by_cases hneg : (Message.readHeader bs).1 < 0
  · rw [if_pos hneg]
    exact .inr (.inr ⟨_, rfl, hlong, .inl hneg⟩)
  rw [if_neg hneg]
  by_cases hlarge : limit < (Message.readHeader bs).1.toNatClampNeg
  · rw [if_pos hlarge]
    exact .inr (.inr ⟨_, rfl, hlong, .inr hlarge⟩)
  rw [if_neg hlarge]
  by_cases hshort : (bs.drop Message.headerLength).length < (Message.readHeader bs).1.toNatClampNeg
  · rw [if_pos hshort]
    have hunfinished : bs.length < Message.headerLength + (declared bs).toNatClampNeg := by
      rw [List.length_drop] at hshort
      unfold declared
      omega
    exact .inr (.inl ⟨rfl, .inr hunfinished, fun h => h.2.elim hneg hlarge⟩)
  · rw [if_neg hshort]
    have hbody := List.length_take_of_le (Nat.not_lt.mp hshort)
    refine .inl ⟨_, _, _, rfl, eq_bytes_append hlong hneg (List.take_append_drop _ _).symm hbody, ?_, ?_⟩
    · exact Nat.le_trans (Nat.le_of_eq hbody) (Nat.not_lt.mp hlarge)
    · exact Nat.lt_of_le_of_lt (Nat.le_of_eq hbody) (Int32.toNatClampNeg_lt _)

/-! ### All frames -/

/-- How the end of the frames is told. -/
inductive Ends (limit : Nat) : Tail → Bytes → Prop where
  | unfinished {rest : Bytes} (h : ¬ Broken limit rest) : Ends limit (.unfinished rest) rest
  | broken {rest : Bytes} (e : TransportError) (h : Broken limit rest) : Ends limit (.broken e) rest

theorem frames_of_cut_frame {bs body rest : Bytes} {id : Int32} (h : cut limit bs = .frame id body rest) :
    frames limit bs = ((id, body) :: (frames limit rest).1, (frames limit rest).2) := by
  rw [frames]
  split <;> simp_all

theorem frames_of_cut_incomplete {bs : Bytes} (h : cut limit bs = .incomplete) :
    frames limit bs = ([], .unfinished bs) := by
  rw [frames]
  split <;> simp_all

theorem frames_of_cut_broken {bs : Bytes} {e : TransportError} (h : cut limit bs = .broken e) :
    frames limit bs = ([], .broken e) := by
  rw [frames]
  split <;> simp_all

/-- Taking the frames off splits the stream. -/
theorem splits_frames (limit : Nat) (bs : Bytes) :
    ∃ rest, Splits limit bs (frames limit bs).1 rest ∧ Ends limit (frames limit bs).2 rest := by
  induction hn : bs.length using Nat.strongRecOn generalizing bs with
  | ind n ih =>
    rcases cut_cases limit bs with ⟨id, body, rest, hcut, hbs, hfits⟩ | ⟨hcut, hunfinished, hbroken⟩ | ⟨e, hcut, hbroken⟩
    · have hshorter : rest.length < n := hn ▸ length_lt_of_cut limit hcut
      obtain ⟨rest', hsplits, hends⟩ := ih rest.length hshorter rest rfl
      rw [frames_of_cut_frame hcut]
      refine ⟨rest', ⟨?_, List.forall_mem_cons.mpr ⟨hfits, hsplits.fits⟩, hsplits.stops⟩, hends⟩
      rw [hbs, List.flatMap_cons, List.append_assoc, ← hsplits.bytes]
    · rw [frames_of_cut_incomplete hcut]
      exact ⟨bs, ⟨rfl, nofun, .inr hunfinished⟩, .unfinished hbroken⟩
    · rw [frames_of_cut_broken hcut]
      exact ⟨bs, ⟨rfl, nofun, .inl hbroken⟩, .broken e hbroken⟩

namespace Splits

variable {bs more rest' : Bytes} {frames frames' : List (Int32 × Bytes)}

/-- There is one way to split a stream. -/
theorem unique (h : Splits limit bs frames rest) (h' : Splits limit bs frames' rest') :
    frames = frames' ∧ rest = rest' := by
  induction frames generalizing bs frames' with
  | nil =>
    have hrest : bs = rest := h.bytes
    cases frames' with
    | nil => exact ⟨rfl, hrest.symm.trans h'.bytes⟩
    | cons frame' frames' =>
      have hbs := h'.bytes
      rw [List.flatMap_cons, List.append_assoc, hrest] at hbs
      exact absurd (hbs ▸ h.stops) ((h'.fits frame' List.mem_cons_self).not_stops _)
  | cons frame frames ih =>
    have hbs := h.bytes
    rw [List.flatMap_cons, List.append_assoc] at hbs
    have hfits := h.fits frame List.mem_cons_self
    cases frames' with
    | nil =>
      have hrest : bs = rest' := h'.bytes
      rw [hrest] at hbs
      exact absurd (hbs ▸ h'.stops) (hfits.not_stops _)
    | cons frame' frames' =>
      have hbs' := h'.bytes
      rw [List.flatMap_cons, List.append_assoc] at hbs'
      have hcut := hfits.cut_eq (frames.flatMap Framing.bytes ++ rest)
      rw [← hbs, hbs', (h'.fits frame' List.mem_cons_self).cut_eq] at hcut
      obtain ⟨hid, hbody, htail⟩ := Cut.frame.inj hcut
      have hframes := ih ⟨rfl, fun f hf => h.fits f (List.mem_cons_of_mem _ hf), h.stops⟩
        ⟨htail.symm, fun f hf => h'.fits f (List.mem_cons_of_mem _ hf), h'.stops⟩
      exact ⟨List.cons_eq_cons.mpr ⟨Prod.ext hid.symm hbody.symm, hframes.1⟩, hframes.2⟩

/-- A stream that goes on is split by splitting what was left. -/
theorem append (h : Splits limit bs frames rest) (h' : Splits limit (rest ++ more) frames' rest') :
    Splits limit (bs ++ more) (frames ++ frames') rest' := by
  refine ⟨?_, ?_, h'.stops⟩
  · rw [h.bytes, List.append_assoc, h'.bytes, List.flatMap_append, List.append_assoc]
  · intro frame hframe
    rcases List.mem_append.mp hframe with hfront | hback
    · exact h.fits frame hfront
    · exact h'.fits frame hback

theorem nil : Splits limit [] [] [] := ⟨rfl, nofun, .inr (.inl (by simp [Message.headerLength]))⟩

end Splits

/-- A stream that is broken stays broken, whatever comes. -/
theorem Broken.append (h : Broken limit rest) (more : Bytes) : Broken limit (rest ++ more) := by
  obtain ⟨hheader, hsize⟩ := h
  have hfour : 4 ≤ rest.length := Nat.le_trans (by decide) hheader
  have hdeclared : declared (rest ++ more) = declared rest := by
    simp only [declared, Message.readHeader, Bytes.toInt32, List.take_append_of_le_length hfour]
  refine ⟨?_, hdeclared.symm ▸ hsize⟩
  rw [List.length_append]
  omega

/-- Behind a header that no frame can have nothing is taken off. -/
theorem Splits.append_broken {bs : Bytes} {frames : List (Int32 × Bytes)} (h : Splits limit bs frames rest)
    (hbroken : Broken limit rest) (more : Bytes) : Splits limit (bs ++ more) frames (rest ++ more) := by
  refine ⟨?_, h.fits, .inl (hbroken.append more)⟩
  rw [h.bytes, List.append_assoc]

/-! ### The messages in frames -/

/-- The message in the frame, unless its body is none. -/
def message? (frame : Int32 × Bytes) : Option Message := (Message.ofFrame (bytes frame)).toOption

/-- The messages in frames.  A frame whose body is no message is passed over. -/
def messages (frames : List (Int32 × Bytes)) : List Message := frames.filterMap message?

theorem messages_append (front back : List (Int32 × Bytes)) :
    messages (front ++ back) = messages front ++ messages back := List.filterMap_append

/-- A frame that fits is read as its body is. -/
theorem Fits.ofFrame_bytes (h : Fits limit frame) :
    Message.ofFrame (bytes frame) = Message.ofBody frame.1 frame.2 := by
  have hheader := readHeader_bytes_append frame []
  have hdrop := drop_bytes_append frame []
  rw [List.append_nil] at hheader hdrop
  rw [List.append_nil] at hdrop
  unfold Message.ofFrame
  rw [length_bytes, if_neg (by omega), hheader]
  dsimp only
  rw [Nat.add_sub_cancel_left, toNatClampNeg_length h.2, hdrop,
    if_neg (by simpa using Int32.not_lt.mp (length_not_neg h.2))]

/-- A message as the peer reads it, from its first field on. -/
def received (m : Message) : Message := { m.prepare with taken := [], unread := m.payload }

theorem bytes_body (m : Message) : bytes (m.id, m.body) = m.frame := m.frame_eq.symm

theorem message?_body {m : Message} (h : Fits limit (m.id, m.body)) : message? (m.id, m.body) = some (received m) := by
  rw [message?, bytes_body, Message.ofFrame_frame_of_lt h.2]
  rfl

/-- The frames of messages that fit, one behind the other, are split into just these messages. -/
theorem messages_of_frames {ms : List Message} (h : ∀ m ∈ ms, Fits limit (m.id, m.body)) :
    Splits limit (ms.flatMap Message.frame) (ms.map fun m => (m.id, m.body)) [] ∧
      messages (ms.map fun m => (m.id, m.body)) = ms.map received := by
  refine ⟨⟨?_, List.forall_mem_map.mpr h, Splits.nil.stops⟩, ?_⟩
  · rw [List.flatMap_map, List.append_nil]
    simp only [bytes_body]
  · unfold messages
    rw [List.filterMap_map]
    induction ms with
    | nil => rfl
    | cons m ms ih =>
      rw [List.filterMap_cons, Function.comp_apply, message?_body (h m List.mem_cons_self), List.map_cons,
        ih fun m' hm' => h m' (List.mem_cons_of_mem _ hm')]

end LevelLink.Framing
