import LevelLink.Link.Error

/-!
# Frames in a stream of bytes

A connection carries frames one behind the other.  `Framing.cut` takes the first frame off, and
`Framing.frames` all of them, up to a frame that is not complete or a header that no frame can have.
-/

namespace LevelLink.Framing

/-- What a stream of bytes begins with. -/
inductive Cut where
  | frame (id : Int32) (body rest : Bytes)
  /-- More bytes have to come first. -/
  | incomplete
  /-- No frame can begin like this. -/
  | broken (error : TransportError)
  deriving DecidableEq, Repr

variable (limit : Nat)

/-- Takes the first frame off, the body of which may have `limit` bytes. -/
def cut (bs : Bytes) : Cut :=
  if bs.length < Message.headerLength then
    .incomplete
  else
    let (size, id) := Message.readHeader bs
    let rest := bs.drop Message.headerLength
    if size < 0 then
      .broken (.receiveFailed (.custom .invalidData s!"negative frame size {size}"))
    else if limit < size.toNatClampNeg then
      .broken (.frameTooLarge size.toNatClampNeg limit)
    else if rest.length < size.toNatClampNeg then
      .incomplete
    else
      .frame id (rest.take size.toNatClampNeg) (rest.drop size.toNatClampNeg)

theorem length_lt_of_cut {bs body rest : Bytes} {id : Int32} (h : cut limit bs = .frame id body rest) :
    rest.length < bs.length := by
  simp only [cut] at h
  split at h
  · cases h
  · rename_i long
    split at h
    · cases h
    · split at h
      · cases h
      · split at h
        · cases h
        · injection h with _ _ hr
          subst hr
          simp only [List.length_drop, Message.headerLength] at *
          omega

/-- Where the frames of a stream end. -/
inductive Tail where
  /-- With bytes that are not a complete frame. -/
  | unfinished (rest : Bytes)
  | broken (error : TransportError)
  deriving DecidableEq, Repr

/-- The id and the body of every frame, and where the frames end. -/
def frames (bs : Bytes) : List (Int32 × Bytes) × Tail :=
  match _h : cut limit bs with
  | .incomplete => ([], .unfinished bs)
  | .broken e => ([], .broken e)
  | .frame id body rest =>
    let (more, tail) := frames rest
    ((id, body) :: more, tail)
termination_by bs.length
decreasing_by exact length_lt_of_cut limit _h

end LevelLink.Framing
