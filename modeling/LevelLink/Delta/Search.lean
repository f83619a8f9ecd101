import LevelLink.Bytes

/-!
# Searching byte strings

`firstOccurrence` says where a byte string first occurs in another, and `search` finds it.  The search compares
fingerprints, which cost one step a byte, and looks at the bytes only where these agree; `search_eq` says that
it misses nothing.
-/

namespace LevelLink.Delta

/-- The first place, counted from `k`, at which `needle` occurs. -/
def firstOccurrenceFrom (needle : Bytes) (k : Nat) : Bytes → Option Nat
  | [] => if needle.isEmpty then some k else none
  | b :: bs => if needle.isPrefixOf (b :: bs) then some k else firstOccurrenceFrom needle (k + 1) bs

/-- The first place at which `needle` occurs in `hay`. -/
def firstOccurrence (needle hay : Bytes) : Option Nat := firstOccurrenceFrom needle 0 hay

/-! ### Fingerprints -/

/-- How much more a byte counts than the one behind it. -/
def radix : UInt64 := 0x100000001b3

/-- A word that equal byte strings share, and different ones rarely. -/
def fingerprint (bs : Bytes) : UInt64 := bs.foldl (fun h b => h * radix + b.toUInt64) 0

/-- How much a byte counts that has `n` bytes behind it. -/
def weight : (n : Nat) → UInt64
  | 0 => 1
  | n + 1 => radix * weight n

theorem foldl_fingerprint (h : UInt64) (bs : Bytes) :
    bs.foldl (fun h b => h * radix + b.toUInt64) h = h * weight bs.length + fingerprint bs := by
  induction bs generalizing h with
  | nil => simp [weight, fingerprint]
  | cons b bs ih =>
    rw [fingerprint, List.foldl_cons, ih, List.foldl_cons, ih, List.length_cons, weight]
    grind

theorem fingerprint_cons (b : UInt8) (bs : Bytes) :
    fingerprint (b :: bs) = b.toUInt64 * weight bs.length + fingerprint bs := by
  rw [fingerprint, List.foldl_cons, foldl_fingerprint]
  grind

theorem fingerprint_concat (bs : Bytes) (c : UInt8) :
    fingerprint (bs ++ [c]) = fingerprint bs * radix + c.toUInt64 := by
  simp [fingerprint]

/-! ### The search -/

/-- Looks for `needle` at the front of `window` and further on.  The first bytes of `window`, as many as
`needle` has, have the fingerprint `h`, and `ahead` is behind them.  The fingerprint of `needle` is `target`,
and `first` is how much its first byte counts. -/
def searchFrom (needle : Bytes) (first target : UInt64) (k : Nat) (h : UInt64) :
    (window ahead : Bytes) → Option Nat
  | b :: window, c :: ahead =>
    if h = target && needle.isPrefixOf (b :: window) then
      some k
    else
      searchFrom needle first target (k + 1) ((h - b.toUInt64 * first) * radix + c.toUInt64) window ahead
  | window, _ => if needle.isPrefixOf window then some k else none

/-- The first place at which `needle` occurs in `hay`. -/
def search (needle hay : Bytes) : Option Nat :=
  searchFrom needle (weight (needle.length - 1)) (fingerprint needle) 0
    (fingerprint (hay.take needle.length)) hay (hay.drop needle.length)

theorem firstOccurrenceFrom_of_length_lt {needle bs : Bytes} (k : Nat) (h : bs.length < needle.length) :
    firstOccurrenceFrom needle k bs = none := by
  induction bs generalizing k with
  | nil =>
    cases needle with
    | nil => simp at h
    | cons => rfl
  | cons b bs ih =>
    have short : ¬ needle.isPrefixOf (b :: bs) := by
      intro p
      have := (List.isPrefixOf_iff_prefix.mp p).length_le
      omega
    rw [firstOccurrenceFrom, if_neg short]
    exact ih (k + 1) (by simp at h; omega)

theorem searchFrom_eq {needle : Bytes} (k : Nat) (window : Bytes) :
    searchFrom needle (weight (needle.length - 1)) (fingerprint needle) k
        (fingerprint (window.take needle.length)) window (window.drop needle.length) =
      firstOccurrenceFrom needle k window := by
  induction window generalizing k with
  | nil => cases needle <;> simp [searchFrom, firstOccurrenceFrom]
  | cons b window ih =>
    by_cases p : needle.isPrefixOf (b :: window)
    · have : (b :: window).take needle.length = needle :=
        (List.prefix_iff_eq_take.mp (List.isPrefixOf_iff_prefix.mp p)).symm
      rw [this, firstOccurrenceFrom, if_pos p]
      cases (b :: window).drop needle.length <;> simp [searchFrom, p]
    · rw [firstOccurrenceFrom, if_neg p]
      cases needle with
      | nil => simp at p
      | cons a rest =>
        have next := ih (k + 1)
        simp only [List.length_cons, Nat.add_sub_cancel, List.take_succ_cons, List.drop_succ_cons] at next ⊢
        cases ahead : window.drop rest.length with
        | nil =>
          have := List.drop_eq_nil_iff.mp ahead
          rw [firstOccurrenceFrom_of_length_lt (k + 1) (by simp; omega), searchFrom, if_neg p]
          simp
        | cons c ahead' =>
          have long : rest.length < window.length := by
            have := congrArg List.length ahead
            simp at this
            omega
          have hc : window.take (rest.length + 1) = window.take rest.length ++ [c] := by
            rw [List.take_add_one, ← List.head?_drop, ahead]
            rfl
          have ha : window.drop (rest.length + 1) = ahead' := by
            rw [← List.drop_drop, ahead]
            rfl
          rw [hc, ha, fingerprint_concat] at next
          have hb : fingerprint (b :: window.take rest.length) - b.toUInt64 * weight rest.length =
              fingerprint (window.take rest.length) := by
            rw [fingerprint_cons, List.length_take, Nat.min_eq_left (Nat.le_of_lt long)]
            grind
          rw [searchFrom, if_neg (by simp [p]), ← next, hb]

theorem search_eq (needle hay : Bytes) : search needle hay = firstOccurrence needle hay :=
  searchFrom_eq 0 hay

end LevelLink.Delta
