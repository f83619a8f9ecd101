import LevelLink.Bytes

/-!
# What can be wrong with a delta
-/

namespace LevelLink

/-- Why a delta cannot be read or applied. -/
inductive DeltaError where
  /-- The payload ends inside a block; `offset` is where the missing bytes would start. -/
  | truncated (offset : Nat)
  /-- The flag of a block is neither of the two known ones. -/
  | unknownBlock (flag : UInt8)
  /-- A difference block does not cover exactly what is left of the base. -/
  | wrongLength (expected actual : Nat)
  /-- The runs of a block cover more bytes than the block. -/
  | blockTooLong (covered : Nat)
  deriving DecidableEq, Repr

/-- The wording of a delta error. -/
def DeltaError.message : DeltaError → String
  | .truncated offset => s!"delta payload truncated at byte {offset}"
  | .unknownBlock flag => s!"unknown delta block flag {flag}"
  | .wrongLength expected actual =>
    s!"delta block covers {actual} bytes but the base snapshot has {expected}"
  | .blockTooLong covered =>
    s!"run-length pairs expand to {covered} bytes, past the end of their block"

end LevelLink
