/-!
# Sums of floating-point numbers by their bits
-/

namespace LevelLink.Metric

/-- Whether bits stand for no number. -/
def isNaN (bits : UInt64) : Bool := 0x7ff0000000000000 < (bits &&& 0x7fffffffffffffff)

/-- The sum of two numbers, rounded to nearest.  The first operand that is no number is the result, marked as
quiet; a sum without a value has the sign bit set. -/
def sum (a b : UInt64) : UInt64 :=
  if isNaN a then a ||| 0x0008000000000000
  else if isNaN b then b ||| 0x0008000000000000
  else
    let bits := (Float.ofBits a + Float.ofBits b).toBits
    if isNaN bits then 0xfff8000000000000 else bits

/-- The number nearest to a natural number. -/
def ofNat (n : Nat) : UInt64 := n.toFloat.toBits

end LevelLink.Metric
