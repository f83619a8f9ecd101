import LevelLink.Delta.Error
import LevelLink.Delta.Run

/-!
# Delta blocks

A delta is a sequence of blocks.  Each opens with a flag and the number of bytes it produces, on two bytes; a
literal block goes on with those bytes, a difference block with runs that cover them.  `BlockBody.bytes`
writes a block and `Delta.parse` reads a whole delta.
-/

namespace LevelLink

/-- What a block says about the bytes it produces. -/
inductive BlockBody where
  /-- The bytes themselves. -/
  | literal (bytes : Bytes)
  /-- Their differences to the base, in run-length form. -/
  | difference (length : Nat) (runs : List Run)
  deriving DecidableEq, Repr

/-- A block, with the place its bytes take in the result. -/
structure Block where
  offset : Nat
  body : BlockBody
  deriving DecidableEq, Repr

namespace BlockBody

/-- The largest number of bytes one block can produce. -/
def maxLength : Nat := 65535

def literalFlag : UInt8 := 0

def differenceFlag : UInt8 := 1

/-- The number of bytes a block produces. -/
def length : BlockBody → Nat
  | literal bs => bs.length
  | difference n _ => n

/-- A block on the wire. -/
def bytes : BlockBody → Bytes
  | literal bs => literalFlag :: Bytes.le 2 bs.length ++ bs
  | difference n runs => differenceFlag :: Bytes.le 2 n ++ runs.flatMap Run.bytes

end BlockBody

namespace Delta

/-- What is left of a delta, and how many bytes of it have been read. -/
structure Rest where
  bytes : Bytes
  position : Nat

/-- Reads runs until they cover `length` bytes; `covered` bytes are covered by the runs in `done`, the latest
first.  Gives the runs, the number of bytes they cover and the rest. -/
def readRuns (length : Nat) (covered : Nat) (done : List Run) (position : Nat) (bs : Bytes) :
    Except DeltaError (List Run × Nat × Rest) :=
  if length ≤ covered then
    .ok (done.reverse, covered, ⟨bs, position⟩)
  else
    match bs with
    | value :: lo :: hi :: bs =>
      let count := UInt16.ofNat (Bytes.toNat [lo, hi])
      readRuns length (covered + count.toNat) (⟨value, count⟩ :: done) (position + 3) bs
    | [] => .error (.truncated position)
    | _ :: _ => .error (.truncated (position + 1))

/-- Reads what follows the header of a block. -/
def readBody (flag : UInt8) (length : Nat) (rest : Rest) : Except DeltaError (BlockBody × Rest) :=
  if flag = BlockBody.literalFlag then
    let bytes := rest.bytes.take length
    if bytes.length = length then
      .ok (.literal bytes, ⟨rest.bytes.drop length, rest.position + length⟩)
    else
      .error (.truncated rest.position)
  else if flag = BlockBody.differenceFlag then do
    let (runs, covered, rest) ← readRuns length 0 [] rest.position rest.bytes
    if length < covered then
      throw (.blockTooLong covered)
    return (.difference length runs, rest)
  else
    .error (.unknownBlock flag)

/-- Reads one block.  The header is read whole before the flag is looked at. -/
def readBlock (rest : Rest) : Except DeltaError (BlockBody × Rest) :=
  match rest.bytes with
  | flag :: lo :: hi :: bs => readBody flag (Bytes.toNat [lo, hi]) ⟨bs, rest.position + 3⟩
  | [] => .error (.truncated rest.position)
  | _ :: _ => .error (.truncated (rest.position + 1))

/-- Reads at most `fuel` blocks, those of `done` being read and `offset` the bytes they produce. -/
def readBlocks : (fuel : Nat) → (offset : Nat) → (done : List Block) → Rest → Except DeltaError (List Block)
  | 0, _, done, _ => .ok done.reverse
  | fuel + 1, offset, done, rest =>
    if rest.bytes.isEmpty then
      .ok done.reverse
    else do
      let (body, rest) ← readBlock rest
      readBlocks fuel (offset + body.length) (⟨offset, body⟩ :: done) rest

/-- The blocks of a delta.  Each block takes bytes, so their number bounds the number of blocks. -/
def parse (delta : Bytes) : Except DeltaError (List Block) :=
  readBlocks delta.length 0 [] ⟨delta, 0⟩

/-- The bytes of a sequence of blocks. -/
def bytes (blocks : List Block) : Bytes := blocks.flatMap fun b => b.body.bytes

end Delta
end LevelLink
