import LevelLink.Bytes

/-!
# Runs

A byte string as pairs of a value and a count.  `Run.compress` is the run-length form with maximal runs, cut
only at the largest count a word can hold; `Run.expand` is its inverse (`expand_compress`).
-/

namespace LevelLink

/-- As many bytes of one value as `count` says. -/
structure Run where
  value : UInt8
  count : UInt16
  deriving DecidableEq, Repr

namespace Run

/-- The bytes that a list of runs stands for. -/
def expand (runs : List Run) : Bytes := runs.flatMap fun r => List.replicate r.count.toNat r.value

/-- The number of bytes that a list of runs stands for. -/
def total (runs : List Run) : Nat := runs.foldr (fun r n => r.count.toNat + n) 0

@[simp] theorem length_expand (runs : List Run) : (expand runs).length = total runs := by
  induction runs with
  | nil => rfl
  | cons r runs ih =>
    simp only [expand, total] at ih
    simp [expand, total, ih]

/-- One more byte after the runs of `done`, the latest run first. -/
def push (done : List Run) (b : UInt8) : List Run :=
  match done with
  | [] => [⟨b, 1⟩]
  | r :: rest =>
    if r.value = b ∧ r.count < 65535 then { r with count := r.count + 1 } :: rest
    else ⟨b, 1⟩ :: done

/-- The run-length form of a byte string. -/
def compress (bs : Bytes) : List Run := (bs.foldl push []).reverse

theorem expand_reverse_push (done : List Run) (b : UInt8) :
    expand (push done b).reverse = expand done.reverse ++ [b] := by
  cases done with
  | nil => rfl
  | cons r rest =>
    by_cases h : r.value = b ∧ r.count < 65535
    · obtain ⟨rfl, hc⟩ := h
      have hc' : r.count.toNat < 65535 := UInt16.lt_iff_toNat_lt.mp hc
      have hn : (r.count + 1).toNat = r.count.toNat + 1 := by
        rw [UInt16.toNat_add]
        simp
        omega
      simp [push, hc, expand, hn, List.replicate_succ']
    · simp [push, h, expand, List.replicate_succ]

theorem expand_compress (bs : Bytes) : expand (compress bs) = bs := by
  have key : ∀ (bs : Bytes) (done : List Run),
      expand (bs.foldl push done).reverse = expand done.reverse ++ bs := by
    intro bs
    induction bs with
    | nil => simp
    | cons b bs ih =>
      intro done
      simp [ih, expand_reverse_push]
  simpa [compress, expand] using key bs []

/-- A run on the wire: the value, then the count. -/
def bytes (r : Run) : Bytes := r.value :: Bytes.ofUInt16 r.count

end Run
end LevelLink
