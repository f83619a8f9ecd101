import LevelLink.Delta.Block
import LevelLink.Delta.Search

/-!
# Deltas between byte strings

`Delta.encode old new` is a delta that turns `old` into `new`, and `Delta.decode` applies one.  A difference
block stores `old - new` byte by byte, so it is short where the two agree.
-/

namespace LevelLink.Delta

/-- Literal blocks for `bs`, each as long as a block can be. -/
def literalBlocks (bs : Bytes) : List BlockBody := (bs.chunks BlockBody.maxLength).map .literal

/-- The block that turns `old` into `new`, which is as long. -/
def differenceBlock (old new : Bytes) : BlockBody :=
  .difference old.length (Run.compress (List.zipWith (· - ·) old new))

/-- The blocks that turn `old` into `new`: a difference block where `old` is as long as `new` or occurs in
it, and literal blocks around it or instead. -/
def blocks (old new : Bytes) : List BlockBody :=
  if old.isEmpty ∨ new.length < old.length ∨ BlockBody.maxLength < old.length then
    literalBlocks new
  else if old.length = new.length then
    [differenceBlock old new]
  else
    match search old new with
    | some k =>
      literalBlocks (new.take k) ++
        differenceBlock old ((new.drop k).take old.length) :: literalBlocks (new.drop (k + old.length))
    | none => literalBlocks new

/-- A delta that turns `old` into `new`. -/
def encode (old new : Bytes) : Bytes := (blocks old new).flatMap BlockBody.bytes

/-- The bytes that a block produces from the base, of which `used` bytes are used up; with the number used up
afterwards.  A difference block has to cover all that is left. -/
def applyBlock (old : Bytes) (used : Nat) : BlockBody → Except DeltaError (Bytes × Nat)
  | .literal bs => .ok (bs, used)
  | .difference length runs =>
    if length = old.length - used then
      .ok (List.zipWith (· - ·) old (Run.expand runs), used + length)
    else
      .error (.wrongLength (old.length - used) length)

/-- Applies blocks in order; `done` are the pieces produced so far, the latest first. -/
def applyBlocks (old : Bytes) : (used : Nat) → (done : List Bytes) → List Block → Except DeltaError Bytes
  | _, done, [] => .ok done.reverse.flatten
  | used, done, b :: bs => do
    let (piece, used) ← applyBlock old used b.body
    applyBlocks old used (piece :: done) bs

/-- Applies a delta to `old`. -/
def decode (old delta : Bytes) : Except DeltaError Bytes := do
  applyBlocks old 0 [] (← parse delta)

end LevelLink.Delta
