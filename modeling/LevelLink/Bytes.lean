/-!
# Byte strings and little-endian words

`Bytes.le k n` writes the low `k` bytes of `n`, least significant first; `Bytes.toNat` reads a byte
string that way.  Main statements: `toNat_le` (reading what was written gives `n` modulo `range k`) and
the round trips of the fixed-width words built on it.
-/

namespace LevelLink

/-- A string of bytes. -/
abbrev Bytes := List UInt8

namespace Bytes

/-- The low `k` bytes of `n`, least significant first. -/
def le : Nat → Nat → Bytes
  | 0, _ => []
  | k + 1, n => UInt8.ofNat n :: le k (n / 256)

/-- The numbers below `range k` are those that `k` bytes can write. -/
def range : Nat → Nat
  | 0 => 1
  | k + 1 => 256 * range k

/-- The number written by `bs`, least significant byte first. -/
def toNat : Bytes → Nat
  | [] => 0
  | b :: bs => b.toNat + 256 * toNat bs

@[simp] theorem length_le (k n : Nat) : (le k n).length = k := by
  induction k generalizing n with
  | zero => rfl
  | succ k ih => simp [le, ih]

theorem toNat_le (k n : Nat) : toNat (le k n) = n % range k := by
  induction k generalizing n with
  | zero => simp [le, toNat, range, Nat.mod_one]
  | succ k ih =>
    have hb : (UInt8.ofNat n).toNat = n % 256 := by simp
    rw [le, toNat, ih, hb, range, Nat.mod_mul]

theorem toNat_lt (bs : Bytes) : toNat bs < range bs.length := by
  induction bs with
  | nil => simp [toNat, range]
  | cons b bs ih =>
    have hb := b.toNat_lt
    simp only [toNat, List.length_cons, range]
    omega

theorem le_toNat (bs : Bytes) : le bs.length (toNat bs) = bs := by
  induction bs with
  | nil => rfl
  | cons b bs ih =>
    have hb := b.toNat_lt
    have hdiv : toNat (b :: bs) / 256 = toNat bs := by simp only [toNat]; omega
    have hhead : UInt8.ofNat (toNat (b :: bs)) = b := by
      apply UInt8.toNat_inj.mp
      simp only [toNat, UInt8.toNat_ofNat']
      omega
    rw [List.length_cons, le, hdiv, hhead, ih]

/-! ### Words -/

/-- A signed 32-bit word on four bytes. -/
def ofInt32 (v : Int32) : Bytes := le 4 v.toUInt32.toNat

/-- The signed 32-bit word that the first four bytes of `bs` write. -/
def toInt32 (bs : Bytes) : Int32 := (UInt32.ofNat (toNat (bs.take 4))).toInt32

/-- An unsigned 64-bit word on eight bytes. -/
def ofUInt64 (v : UInt64) : Bytes := le 8 v.toNat

/-- The unsigned 64-bit word that the first eight bytes of `bs` write. -/
def toUInt64 (bs : Bytes) : UInt64 := UInt64.ofNat (toNat (bs.take 8))

/-- An unsigned 16-bit word on two bytes. -/
def ofUInt16 (v : UInt16) : Bytes := le 2 v.toNat

@[simp] theorem length_ofInt32 (v : Int32) : (ofInt32 v).length = 4 := length_le _ _

@[simp] theorem length_ofUInt64 (v : UInt64) : (ofUInt64 v).length = 8 := length_le _ _

@[simp] theorem length_ofUInt16 (v : UInt16) : (ofUInt16 v).length = 2 := length_le _ _

@[simp] theorem toInt32_ofInt32 (v : Int32) : toInt32 (ofInt32 v) = v := by
  have h : v.toUInt32.toNat % range 4 = v.toUInt32.toNat := Nat.mod_eq_of_lt v.toUInt32.toNat_lt
  rw [toInt32, ofInt32, List.take_of_length_le (Nat.le_of_eq (length_le _ _)), toNat_le, h,
    UInt32.ofNat_toNat, Int32.toInt32_toUInt32]

@[simp] theorem toUInt64_ofUInt64 (v : UInt64) : toUInt64 (ofUInt64 v) = v := by
  have h : v.toNat % range 8 = v.toNat := Nat.mod_eq_of_lt v.toNat_lt
  rw [toUInt64, ofUInt64, List.take_of_length_le (Nat.le_of_eq (length_le _ _)), toNat_le, h,
    UInt64.ofNat_toNat]

theorem ofInt32_toInt32 {bs : Bytes} (h : bs.length = 4) : ofInt32 (toInt32 bs) = bs := by
  have hlt : toNat bs < range 4 := h ▸ toNat_lt bs
  rw [ofInt32, toInt32, List.take_of_length_le (Nat.le_of_eq h), UInt32.toUInt32_toInt32,
    UInt32.toNat_ofNat_of_lt' hlt, ← h, le_toNat]

theorem ofUInt64_toUInt64 {bs : Bytes} (h : bs.length = 8) : ofUInt64 (toUInt64 bs) = bs := by
  have hlt : toNat bs < range 8 := h ▸ toNat_lt bs
  rw [ofUInt64, toUInt64, List.take_of_length_le (Nat.le_of_eq h), UInt64.toNat_ofNat_of_lt' hlt, ← h,
    le_toNat]

/-! ### Chunks -/

/-- Cuts `bs` into pieces of `n` bytes, the last one possibly shorter; at most `fuel` of them. -/
def chunksUpTo (n : Nat) : (fuel : Nat) → (done : List Bytes) → Bytes → List Bytes
  | 0, done, _ => done.reverse
  | _ + 1, done, [] => done.reverse
  | fuel + 1, done, bs => chunksUpTo n fuel (bs.take n :: done) (bs.drop n)

/-- Cuts `bs` into pieces of `n` bytes, the last one possibly shorter. -/
def chunks (n : Nat) (bs : Bytes) : List Bytes := chunksUpTo n bs.length [] bs

end Bytes
end LevelLink
