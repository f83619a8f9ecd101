import LevelLink.Files.Store

/-!
# Buffered writing

A writer appends to one file through a buffer.  What does not fit any more first empties the buffer into the
file, and what is as large as the buffer goes past it.
-/

namespace LevelLink.Files

/-- A file that is open for writing. -/
structure Writer where
  file : Nat
  /-- The place in the file of what is written next. -/
  position : Nat := 0
  buffer : Bytes := []
  deriving DecidableEq, Repr

namespace Writer

/-- The largest number of bytes that are held back. -/
def capacity : Nat := 8192

variable (w : Writer)

/-- Writes past the buffer. -/
def pass (bs : Bytes) : Attempt SystemError Store Writer := do
  Store.write w.file w.position bs
  return { w with position := w.position + bs.length }

/-- Empties the buffer into the file. -/
def flush : Attempt SystemError Store Writer := do
  return { ← w.pass w.buffer with buffer := [] }

/-- Appends bytes. -/
def write (bs : Bytes) : Attempt SystemError Store Writer := do
  let w ← if capacity < w.buffer.length + bs.length then w.flush else pure w
  if capacity ≤ bs.length then
    w.pass bs
  else
    return { w with buffer := w.buffer ++ bs }

end Writer
end LevelLink.Files
