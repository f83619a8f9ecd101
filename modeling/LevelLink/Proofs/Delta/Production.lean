import Mathlib.Algebra.Ring.Nat
import Mathlib.Data.List.Basic
import LevelLink.Proofs.Delta.Acceptance

/-!
# What a delta produces

A delta that a base accepts produces the bytes of its literal blocks and, for each difference block, the next bytes of
the base less the differences.  So the result is as long as the blocks together, and no longer than the base and the
delta together.  `Delta.walk` decodes with one cursor on the base that the runs of a block share, and with a
subtraction that need not have a result.  Main statement (`decode_produces`): the walk always comes to its end, with
what decoding gives, and what that is.
-/

namespace LevelLink

/-! ### Runs against a base -/

/-- Bytes are subtracted from a base one behind the other. -/
theorem Bytes.zipWith_sub_append (base xs ys : Bytes) :
    List.zipWith (· - ·) base (xs ++ ys) =
      List.zipWith (· - ·) base xs ++ List.zipWith (· - ·) (base.drop xs.length) ys := by
  induction xs generalizing base with
  | nil => simp
  | cons x xs ih =>
    cases base with
    | nil => simp
    | cons b base => simp [ih]

namespace Run

/-- Subtracts a run from what is left of the base, byte by byte.  The count is looked at before the base, so that a run
which has come to its end takes nothing. -/
def subtract (value : UInt8) : (count : Nat) → Bytes → Bytes × Bytes
  | 0, base => ([], base)
  | _ + 1, [] => ([], [])
  | count + 1, b :: base =>
    let (piece, rest) := subtract value count base
    ((b - value) :: piece, rest)

/-- Subtracts runs one after the other, each from what the one before it has left of the base. -/
def subtractAll : List Run → Bytes → Bytes × Bytes
  | [], base => ([], base)
  | r :: runs, base =>
    let (piece, rest) := subtract r.value r.count.toNat base
    let (pieces, rest) := subtractAll runs rest
    (piece ++ pieces, rest)

theorem subtract_eq (value : UInt8) (count : Nat) (base : Bytes) :
    subtract value count base = (List.zipWith (· - ·) base (List.replicate count value), base.drop count) := by
  induction count generalizing base with
  | zero => simp [subtract]
  | succ count ih =>
    cases base with
    | nil => simp [subtract]
    | cons b base =>
      rw [subtract, ih]
      rfl

/-- Nothing of the base is lost between two runs. -/
theorem subtractAll_eq (runs : List Run) (base : Bytes) :
    subtractAll runs base = (List.zipWith (· - ·) base (expand runs), base.drop (total runs)) := by
  induction runs generalizing base with
  | nil => simp [subtractAll, expand]
  | cons r runs ih =>
    have hexpand : expand (r :: runs) = List.replicate r.count.toNat r.value ++ expand runs := rfl
    rw [subtractAll, subtract_eq, hexpand, Bytes.zipWith_sub_append, List.length_replicate, total_cons,
      ← List.drop_drop]
    dsimp only
    rw [ih]

end Run

namespace Delta

variable {old d new : Bytes} {used : Nat} {blocks front back : List Block}

/-! ### Walking along the base -/

/-- What is left of a base of which `used` bytes are used, if the subtraction has a result. -/
def left? (old : Bytes) (used : Nat) : Option Nat :=
  if used ≤ old.length then some (old.length - used) else none

/-- Applies blocks in order, `done` being what the ones before have produced.  Gives nothing if a subtraction has no
result. -/
def walkBlocks (old : Bytes) : (used : Nat) → (done : Bytes) → List Block → Option (Except DeltaError Bytes)
  | _, done, [] => some (.ok done)
  | used, done, b :: blocks =>
    match b.body with
    | .literal bs => walkBlocks old used (done ++ bs) blocks
    | .difference n runs =>
      (left? old used).bind fun left =>
        if n = left then walkBlocks old (used + n) (done ++ (Run.subtractAll runs old).1) blocks
        else some (.error (.wrongLength left n))

/-- Applies a delta, block by block and run by run.  Parsing only adds and compares. -/
def walk (old d : Bytes) : Option (Except DeltaError Bytes) :=
  match parse d with
  | .ok blocks => walkBlocks old 0 [] blocks
  | .error e => some (.error e)

/-- As long as no more is used than there is, every subtraction has a result. -/
theorem walkBlocks_eq (hused : used ≤ old.length) (done : List Bytes) :
    walkBlocks old used done.reverse.flatten blocks = some (applyBlocks old used done blocks) := by
  induction blocks generalizing used done with
  | nil => rfl
  | cons b blocks ih =>
    obtain ⟨offset, body⟩ := b
    cases body with
    | literal bs =>
      have hdone : done.reverse.flatten ++ bs = (bs :: done).reverse.flatten := by simp
      rw [applyBlocks_literal, ← ih hused (bs :: done), ← hdone]
      rfl
    | difference n runs =>
      rw [walkBlocks, left?, if_pos hused]
      dsimp only [Option.bind_some]
      by_cases h : n = old.length - used
      · have hdone : done.reverse.flatten ++ (Run.subtractAll runs old).1 =
            (List.zipWith (· - ·) old (Run.expand runs) :: done).reverse.flatten := by
          simp [Run.subtractAll_eq]
        rw [if_pos h, applyBlocks_difference_of_eq done offset blocks h, hdone]
        exact ih (by omega) _
      · rw [if_neg h, applyBlocks_difference_of_ne done offset blocks h]

/-- The walk comes to its end, whatever the payload is. -/
theorem walk_eq (old d : Bytes) : walk old d = some (decode old d) := by
  unfold walk
  rcases hparse : parse d with e | blocks
  · rw [decode_of_parse_error hparse]
  · rw [decode_of_parse hparse]
    exact walkBlocks_eq (Nat.zero_le _) []

/-! ### The result -/

/-- What blocks produce from a base: a literal block its bytes, and a difference block the next bytes of the base less
its differences. -/
def produced : (base : Bytes) → List Block → Bytes
  | _, [] => []
  | base, b :: blocks =>
    match b.body with
    | .literal bs => bs ++ produced base blocks
    | .difference n runs =>
      List.zipWith (· - ·) (base.take n) (Run.expand runs) ++ produced (base.drop n) blocks

/-- The differences in a block are as many as the block is long. -/
theorem length_expand_of_sound {n : Nat} {runs : List Run} (h : (BlockBody.difference n runs).Sound) :
    (Run.expand runs).length = n := by
  rw [Run.length_expand]
  exact h.2.1

/-- A difference block takes the whole base, or it is empty and takes nothing of a base that is used. -/
theorem zipWith_expand_eq {n : Nat} {runs : List Run} (h : (BlockBody.difference n runs).Sound)
    (hused : used = 0 ∨ used = old.length) (hn : n = old.length - used) :
    List.zipWith (· - ·) old (Run.expand runs) =
      List.zipWith (· - ·) ((old.drop used).take n) (Run.expand runs) := by
  rcases hused with rfl | rfl
  · rw [List.drop_zero, List.take_of_length_le (by omega)]
  · have hempty : Run.expand runs = [] := by
      apply List.eq_nil_of_length_eq_zero
      rw [length_expand_of_sound h]
      omega
    rw [hempty, List.zipWith_nil_right, List.zipWith_nil_right]

theorem applyBlocks_ok (hsound : ∀ b ∈ blocks, b.body.Sound) (hused : used = 0 ∨ used = old.length)
    {done : List Bytes} (h : applyBlocks old used done blocks = .ok new) :
    new = done.reverse.flatten ++ produced (old.drop used) blocks := by
  induction blocks generalizing used done with
  | nil =>
    obtain rfl := Except.ok.inj h
    exact (List.append_nil _).symm
  | cons b blocks ih =>
    obtain ⟨hb, hblocks⟩ := List.forall_mem_cons.mp hsound
    obtain ⟨offset, body⟩ := b
    cases body with
    | literal bs =>
      rw [applyBlocks_literal] at h
      rw [ih hblocks hused h, produced, List.reverse_cons, List.flatten_append, List.flatten_singleton,
        List.append_assoc]
    | difference n runs =>
      by_cases hn : n = old.length - used
      · rw [applyBlocks_difference_of_eq done offset blocks hn] at h
        rw [ih hblocks (by omega) h, produced, zipWith_expand_eq hb hused hn, ← List.drop_drop, List.reverse_cons,
          List.flatten_append, List.flatten_singleton, List.append_assoc]
      · rw [applyBlocks_difference_of_ne done offset blocks hn] at h
        cases h

/-! ### Its size -/

theorem length_produced (hsound : ∀ b ∈ blocks, b.body.Sound) {base : Bytes}
    (hfits : (differences blocks).sum ≤ base.length) :
    (produced base blocks).length = (blocks.map fun b => b.body.length).sum := by
  induction blocks generalizing base with
  | nil => rfl
  | cons b blocks ih =>
    obtain ⟨hb, hblocks⟩ := List.forall_mem_cons.mp hsound
    obtain ⟨offset, body⟩ := b
    cases body with
    | literal bs =>
      rw [produced, List.length_append, ih hblocks hfits, List.map_cons, List.sum_cons, BlockBody.length]
    | difference n runs =>
      rw [differences_difference, List.sum_cons] at hfits
      have hrest : (differences blocks).sum ≤ (base.drop n).length := by
        rw [List.length_drop]
        omega
      have hpiece : (List.zipWith (· - ·) (base.take n) (Run.expand runs)).length = n := by
        rw [List.length_zipWith, List.length_take, length_expand_of_sound hb]
        omega
      rw [produced, List.length_append, hpiece, ih hblocks hrest, List.map_cons, List.sum_cons, BlockBody.length]

/-- A block takes three bytes besides those it produces, if it does not take these from the base. -/
theorem sum_lengths_add_le (blocks : List Block) :
    (blocks.map fun b => b.body.length).sum + 3 * blocks.length ≤
      (differences blocks).sum + (Delta.bytes blocks).length := by
  induction blocks with
  | nil => exact Nat.le_refl _
  | cons b blocks ih =>
    obtain ⟨offset, body⟩ := b
    have hbytes : (Delta.bytes (⟨offset, body⟩ :: blocks)).length = body.bytes.length + (Delta.bytes blocks).length := by
      rw [Delta.bytes, List.flatMap_cons, List.length_append]
      rfl
    rw [hbytes, List.map_cons, List.sum_cons, List.length_cons]
    cases body with
    | literal bs =>
      rw [differences_literal, BlockBody.length_bytes_literal, BlockBody.length]
      omega
    | difference n runs =>
      rw [differences_difference, List.sum_cons, BlockBody.length_bytes_difference, BlockBody.length]
      omega

/-- Where a difference block begins in the base, there is left what it covers. -/
theorem Fit.sum_add_eq {available n : Nat} {before after : List Nat} (h : Fit available (before ++ n :: after)) :
    before.sum + n = available := by
  cases before with
  | nil =>
    rw [List.sum_nil, Nat.zero_add]
    exact (fit_cons_iff.mp h).1
  | cons m before =>
    obtain ⟨rfl, hlater⟩ := fit_cons_iff.mp h
    obtain ⟨hbefore, hn⟩ := List.forall_mem_append.mp (fit_zero_iff.mp hlater)
    rw [List.sum_cons, List.sum_eq_zero_iff_forall_eq_nat.mpr hbefore, hn n List.mem_cons_self]
    rfl

/-- Decoding subtracts no more than there is, and the runs of a block take the base byte after byte: a walk that stops
where a subtraction has no result gives what decoding gives, for any payload.  What a base accepts can be parsed, and
gives the bytes of the literal blocks and, for the difference blocks, the bytes of the base less the differences, in
order.  The runs of a difference block stand for as many differences as the block is long, and that is what the
difference blocks before it have left of the base; so no byte of the base is used twice.  The result is as long as the
blocks together, and, with three bytes for each block, no longer than the base and the payload together. -/
theorem decode_produces (old d : Bytes) :
    walk old d = some (decode old d) ∧
    ∀ new, decode old d = .ok new → ∃ blocks, parse d = .ok blocks ∧
      new = produced old blocks ∧
      (∀ front b back n runs, blocks = front ++ b :: back → b.body = .difference n runs →
        (Run.expand runs).length = n ∧ (differences front).sum + n = old.length) ∧
      new.length = (blocks.map fun b => b.body.length).sum ∧
      new.length + 3 * blocks.length ≤ old.length + d.length := by
  refine ⟨walk_eq old d, ?_⟩
  intro new hnew
  rcases hparse : parse d with e | blocks
  · rw [decode_of_parse_error hparse] at hnew
    cases hnew
  have hwritten := written_of_parse hparse
  have hfit : Fit old.length (differences blocks) := (exists_decode_iff_of_parse hparse).mp ⟨new, hnew⟩
  rw [decode_of_parse hparse] at hnew
  have hproduced : new = produced old blocks := applyBlocks_ok hwritten.sound (.inl rfl) hnew
  have hlength : new.length = (blocks.map fun b => b.body.length).sum := by
    rw [hproduced]
    exact length_produced hwritten.sound hfit.sum_le
  refine ⟨blocks, rfl, hproduced, ?_, hlength, ?_⟩
  · rintro front b back n runs rfl hbody
    have hb := hwritten.sound b (List.mem_append_right _ List.mem_cons_self)
    rw [hbody] at hb
    have hlengths : differences (front ++ b :: back) = differences front ++ n :: differences back := by
      simp [differences, hbody, BlockBody.covers?]
    rw [hlengths] at hfit
    exact ⟨length_expand_of_sound hb, hfit.sum_add_eq⟩
  · have hbound := sum_lengths_add_le blocks
    have hused := hfit.sum_le
    rw [← hwritten.bytes] at hbound
    omega

section Sample

/-- A literal block, and a difference block of two runs for a base of three bytes. -/
def sampleTwoRuns : Bytes := [0, 1, 0, 42, 1, 3, 0, 1, 1, 0, 255, 2, 0]

/-- Every byte of the base is met by one difference. -/
theorem decode_produces_sampleTwoRuns :
    decode [10, 20, 30] sampleTwoRuns = .ok [42, 9, 21, 31] ∧
    walk [10, 20, 30] sampleTwoRuns = some (.ok [42, 9, 21, 31]) ∧
    ∃ blocks, parse sampleTwoRuns = .ok blocks ∧ [42, 9, 21, 31] = produced [10, 20, 30] blocks := by
  have hdecode : decode [10, 20, 30] sampleTwoRuns = .ok [42, 9, 21, 31] := by decide
  obtain ⟨hwalk, hall⟩ := decode_produces [10, 20, 30] sampleTwoRuns
  obtain ⟨blocks, hparse, hproduced, -⟩ := hall _ hdecode
  exact ⟨hdecode, hwalk.trans (congrArg some hdecode), blocks, hparse, hproduced⟩

end Sample

end Delta
end LevelLink
