import Mathlib.Algebra.Ring.Nat
import LevelLink.Delta.Codec
import LevelLink.Proofs.Delta.Parsing

/-!
# Which deltas a base accepts

A difference block has to cover exactly what the ones before it have left of the base.  So the first one is as long
as the base, and nothing is left for any later one: a later one is refused unless it is empty.  Main statement
(`decode_accepts`): which payloads a base accepts, and which error each of the others gives.  A base is used once at
most, but it is not that a payload has one difference block at most (`accepted_sampleRepeated`).
-/

namespace LevelLink

/-- How much of the base a block covers, if it is told by differences. -/
def BlockBody.covers? : BlockBody → Option Nat
  | literal _ => none
  | difference n _ => some n

namespace Delta

variable {available n : Nat} {lengths later : List Nat}

/-- The lengths of the difference blocks, in order. -/
def differences (blocks : List Block) : List Nat := blocks.filterMap fun b => b.body.covers?

theorem differences_literal (offset : Nat) (bs : Bytes) (blocks : List Block) :
    differences (⟨offset, .literal bs⟩ :: blocks) = differences blocks := rfl

theorem differences_difference (offset n : Nat) (runs : List Run) (blocks : List Block) :
    differences (⟨offset, .difference n runs⟩ :: blocks) = n :: differences blocks := rfl

/-! ### Lengths that fit -/

/-- The first length is all that is available, and the later ones are zero. -/
def Fit (available : Nat) (lengths : List Nat) : Prop :=
  lengths = [] ∨ ∃ later, lengths = available :: later ∧ ∀ n ∈ later, n = 0

/-- There is one length at most, and it is all that is available. -/
def FitOnce (available : Nat) (lengths : List Nat) : Prop := lengths = [] ∨ lengths = [available]

/-- The lengths before `actual` fit and leave `expected`, which `actual` is not. -/
def Misfit (available : Nat) (lengths : List Nat) (expected actual : Nat) : Prop :=
  ∃ front back, lengths = front ++ actual :: back ∧ Fit available front ∧ expected = available - front.sum ∧
    actual ≠ expected

theorem fit_nil : Fit available [] := .inl rfl

theorem fit_zero_iff : Fit 0 lengths ↔ ∀ n ∈ lengths, n = 0 := by
  constructor
  · rintro (rfl | ⟨later, rfl, hzero⟩)
    · exact nofun
    · exact List.forall_mem_cons.mpr ⟨rfl, hzero⟩
  · intro hzero
    cases lengths with
    | nil => exact fit_nil
    | cons n later =>
      obtain ⟨rfl, hlater⟩ := List.forall_mem_cons.mp hzero
      exact .inr ⟨later, rfl, hlater⟩

/-- Behind the first length nothing is available any more. -/
theorem fit_cons_iff : Fit available (n :: later) ↔ n = available ∧ Fit 0 later := by
  rw [fit_zero_iff]
  constructor
  · rintro (hnil | ⟨later', heq, hzero⟩)
    · cases hnil
    · obtain ⟨rfl, rfl⟩ := List.cons.inj heq
      exact ⟨rfl, hzero⟩
  · rintro ⟨rfl, hzero⟩
    exact .inr ⟨later, rfl, hzero⟩

/-- What fits takes no more than is available. -/
theorem Fit.sum_le (h : Fit available lengths) : lengths.sum ≤ available := by
  rcases h with rfl | ⟨later, rfl, hzero⟩
  · exact Nat.zero_le _
  · rw [List.sum_cons, List.sum_eq_zero_iff_forall_eq_nat.mpr hzero, Nat.add_zero]

theorem fitOnce_iff : FitOnce available lengths ↔ Fit available lengths ∧ lengths.length ≤ 1 := by
  constructor
  · rintro (rfl | rfl)
    · exact ⟨fit_nil, Nat.zero_le _⟩
    · exact ⟨.inr ⟨[], rfl, nofun⟩, Nat.le_refl _⟩
  · rintro ⟨rfl | ⟨later, rfl, -⟩, hshort⟩
    · exact .inl rfl
    · have hlater : later = [] := List.eq_nil_of_length_eq_zero (by simpa using hshort)
      exact .inr (by rw [hlater])

theorem misfit_nil {expected actual : Nat} : ¬ Misfit available [] expected actual := by
  rintro ⟨front, back, hsplit, -⟩
  cases front <;> cases hsplit

/-- A first length that fits is passed over. -/
theorem misfit_cons_self {expected actual : Nat} :
    Misfit available (available :: later) expected actual ↔ Misfit 0 later expected actual := by
  constructor
  · rintro ⟨front, back, hsplit, hfit, hexpected, hne⟩
    cases front with
    | nil =>
      obtain ⟨rfl, -⟩ := List.cons.inj hsplit
      exact absurd hexpected.symm hne
    | cons n front =>
      obtain ⟨rfl, hlater⟩ := List.cons.inj hsplit
      refine ⟨front, back, hlater, (fit_cons_iff.mp hfit).2, ?_, hne⟩
      rw [hexpected, List.sum_cons]
      omega
  · rintro ⟨front, back, rfl, hfit, rfl, hne⟩
    refine ⟨available :: front, back, rfl, fit_cons_iff.mpr ⟨rfl, hfit⟩, ?_, hne⟩
    rw [List.sum_cons]
    omega

/-- A first length that does not fit is where it ends. -/
theorem misfit_cons_of_ne (h : n ≠ available) {expected actual : Nat} :
    Misfit available (n :: later) expected actual ↔ expected = available ∧ actual = n := by
  constructor
  · rintro ⟨front, back, hsplit, hfit, hexpected, -⟩
    cases front with
    | nil =>
      obtain ⟨rfl, -⟩ := List.cons.inj hsplit
      exact ⟨hexpected, rfl⟩
    | cons m front =>
      obtain ⟨rfl, -⟩ := List.cons.inj hsplit
      exact absurd (fit_cons_iff.mp hfit).1 h
  · rintro ⟨rfl, rfl⟩
    exact ⟨[], later, rfl, fit_nil, rfl, h⟩

/-! ### Applying blocks -/

section Apply

variable (old : Bytes) (used : Nat) (done : List Bytes) (offset : Nat) (blocks : List Block)

theorem applyBlocks_literal (bs : Bytes) :
    applyBlocks old used done (⟨offset, .literal bs⟩ :: blocks) = applyBlocks old used (bs :: done) blocks := rfl

variable {old used}

/-- A difference block that covers what is left uses it up. -/
theorem applyBlocks_difference_of_eq (h : n = old.length - used) (runs : List Run) :
    applyBlocks old used done (⟨offset, .difference n runs⟩ :: blocks) =
      applyBlocks old (used + n) (List.zipWith (· - ·) old (Run.expand runs) :: done) blocks := by
  rw [applyBlocks, applyBlock, if_pos h]
  rfl

theorem applyBlocks_difference_of_ne (h : n ≠ old.length - used) (runs : List Run) :
    applyBlocks old used done (⟨offset, .difference n runs⟩ :: blocks) =
      .error (.wrongLength (old.length - used) n) := by
  rw [applyBlocks, applyBlock, if_neg h]
  rfl

variable {done blocks}

/-- Blocks can be applied exactly if their lengths fit what is left of the base. -/
theorem exists_applyBlocks_iff :
    (∃ new, applyBlocks old used done blocks = .ok new) ↔ Fit (old.length - used) (differences blocks) := by
  induction blocks generalizing used done with
  | nil => exact iff_of_true ⟨_, rfl⟩ fit_nil
  | cons b blocks ih =>
    obtain ⟨offset, body⟩ := b
    cases body with
    | literal bs =>
      rw [applyBlocks_literal]
      exact ih
    | difference n runs =>
      rw [differences_difference, fit_cons_iff]
      by_cases h : n = old.length - used
      · have hleft : old.length - (used + n) = 0 := by omega
        rw [applyBlocks_difference_of_eq done offset blocks h, ih, hleft]
        exact (and_iff_right h).symm
      · rw [applyBlocks_difference_of_ne done offset blocks h]
        exact iff_of_false (fun ⟨_, hnew⟩ => nomatch hnew) (fun hfit => h hfit.1)

/-- Blocks that cannot be applied are refused for the first length that does not fit. -/
theorem applyBlocks_eq_error_iff {e : DeltaError} : applyBlocks old used done blocks = .error e ↔
    ∃ expected actual, Misfit (old.length - used) (differences blocks) expected actual ∧
      e = .wrongLength expected actual := by
  induction blocks generalizing used done with
  | nil => exact iff_of_false nofun fun ⟨_, _, hmisfit, _⟩ => misfit_nil hmisfit
  | cons b blocks ih =>
    obtain ⟨offset, body⟩ := b
    cases body with
    | literal bs =>
      rw [applyBlocks_literal]
      exact ih
    | difference n runs =>
      rw [differences_difference]
      by_cases h : n = old.length - used
      · have hleft : old.length - (used + n) = 0 := by omega
        rw [applyBlocks_difference_of_eq done offset blocks h, ih, hleft]
        subst h
        simp only [misfit_cons_self]
      · rw [applyBlocks_difference_of_ne done offset blocks h]
        simp only [misfit_cons_of_ne h]
        constructor
        · rintro ⟨⟩
          exact ⟨_, _, ⟨rfl, rfl⟩, rfl⟩
        · rintro ⟨_, _, ⟨rfl, rfl⟩, rfl⟩
          rfl

end Apply

/-! ### Decoding -/

section Decode

variable {old d : Bytes} {blocks : List Block}

theorem decode_of_parse (h : parse d = .ok blocks) : decode old d = applyBlocks old 0 [] blocks := by
  rw [decode, h]
  rfl

theorem decode_of_parse_error {e : DeltaError} (h : parse d = .error e) : decode old d = .error e := by
  rw [decode, h]
  rfl

theorem exists_decode_iff_of_parse (h : parse d = .ok blocks) :
    (∃ new, decode old d = .ok new) ↔ Fit old.length (differences blocks) := by
  rw [decode_of_parse h]
  exact exists_applyBlocks_iff

end Decode

/-- A base accepts a payload exactly if the payload can be parsed, its first difference block is as long as the base,
and all later ones are empty.  Otherwise the error is that of the parser, or it tells the length of the first
difference block that does not fit and what the ones before it have left of the base.  If there is to be one
difference block at most, as long as the base, then this is what is accepted, less the payloads with a further one. -/
theorem decode_accepts (old d : Bytes) :
    ((∃ new, decode old d = .ok new) ↔
      ∃ blocks, parse d = .ok blocks ∧ Fit old.length (differences blocks)) ∧
    (∀ e, decode old d = .error e ↔ parse d = .error e ∨ ∃ blocks expected actual, parse d = .ok blocks ∧
      Misfit old.length (differences blocks) expected actual ∧ e = .wrongLength expected actual) ∧
    ((∃ blocks, parse d = .ok blocks ∧ FitOnce old.length (differences blocks)) ↔
      (∃ new, decode old d = .ok new) ∧ ∀ blocks, parse d = .ok blocks → (differences blocks).length ≤ 1) := by
  rcases hparse : parse d with e | blocks
  · have hdecode : decode old d = .error e := decode_of_parse_error hparse
    rw [hdecode]
    refine ⟨?_, ?_, ?_⟩
    · exact iff_of_false (fun ⟨_, h⟩ => nomatch h) (fun ⟨_, h, _⟩ => nomatch h)
    · intro e'
      constructor
      · rintro ⟨⟩
        exact .inl rfl
      · rintro (⟨⟨⟩⟩ | ⟨_, _, _, h, -⟩)
        · rfl
        · cases h
    · exact iff_of_false (fun ⟨_, h, _⟩ => nomatch h) (fun ⟨⟨_, h⟩, _⟩ => nomatch h)
  · have hok : (∃ new, decode old d = .ok new) ↔ Fit old.length (differences blocks) :=
      exists_decode_iff_of_parse hparse
    refine ⟨?_, ?_, ?_⟩
    · simpa using hok
    · intro e
      rw [decode_of_parse hparse, applyBlocks_eq_error_iff, Nat.sub_zero]
      constructor
      · rintro ⟨expected, actual, hmisfit, he⟩
        exact .inr ⟨blocks, expected, actual, rfl, hmisfit, he⟩
      · rintro (h | ⟨_, expected, actual, h, hmisfit, he⟩)
        · cases h
        · obtain rfl := Except.ok.inj h
          exact ⟨expected, actual, hmisfit, he⟩
    · rw [hok]
      simpa using fitOnce_iff

section Sample

/-- A difference block for a base of one byte, and an empty one behind it. -/
def sampleRepeated : Bytes := [1, 1, 0, 0, 1, 0, 1, 0, 0]

/-- A second difference block that is not empty is refused. -/
theorem decode_accepts_sampleRepeated :
    parse (sampleRepeated ++ sampleRepeated) = .ok [⟨0, .difference 1 [⟨0, 1⟩]⟩, ⟨1, .difference 0 []⟩,
      ⟨1, .difference 1 [⟨0, 1⟩]⟩, ⟨2, .difference 0 []⟩] ∧
    decode [5] (sampleRepeated ++ sampleRepeated) = .error (.wrongLength 0 1) := by
  have hparse : parse (sampleRepeated ++ sampleRepeated) = .ok [⟨0, .difference 1 [⟨0, 1⟩]⟩,
      ⟨1, .difference 0 []⟩, ⟨1, .difference 1 [⟨0, 1⟩]⟩, ⟨2, .difference 0 []⟩] := by decide
  refine ⟨hparse, ((decode_accepts [5] (sampleRepeated ++ sampleRepeated)).2.1 _).mpr (.inr ⟨_, 0, 1, hparse, ?_, rfl⟩)⟩
  exact ⟨[1, 0], [0], rfl, fit_cons_iff.mpr ⟨rfl, fit_zero_iff.mpr (by simp)⟩, rfl, by decide⟩

/-- Two difference blocks are accepted, of which the second is shorter than the base. -/
theorem accepted_sampleRepeated :
    (∃ new, decode [5] sampleRepeated = .ok new) ∧
    ¬ ∃ blocks, parse sampleRepeated = .ok blocks ∧ FitOnce [(5 : UInt8)].length (differences blocks) := by
  refine ⟨⟨[5], by decide⟩, ?_⟩
  rintro ⟨blocks, hparse, hfit⟩
  have hblocks : parse sampleRepeated = .ok [⟨0, .difference 1 [⟨0, 1⟩]⟩, ⟨1, .difference 0 []⟩] := by decide
  obtain rfl := Except.ok.inj (hparse.symm.trans hblocks)
  rcases hfit with h | h <;> cases h

end Sample

end Delta
end LevelLink
