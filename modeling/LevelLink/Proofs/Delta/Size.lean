import Mathlib.Data.List.SplitBy
import LevelLink.Proofs.Delta.Mismatch

/-!
# The size of a delta

The run-length form of at most 65535 bytes has the maximal runs of equal values (`Run.length_compress`), because
nothing but another value ends a run as long as no run can be full.  A place at which the old and the new bytes differ
ends the run before it and begins one of its own, so few differences make few runs (`Run.length_le_of_isChain`).  Literal
bytes cost a header for every 65535 of them (`length_literalBlocks`).  Main statement (`length_encode`): the exact size
of the delta between any two byte strings, and when it has a difference block.
-/

namespace LevelLink

/-! ### Maximal runs -/

namespace Run

variable {done runs : List Run} {bs : Bytes} {b : UInt8}

theorem total_reverse (runs : List Run) : total runs.reverse = total runs := by
  rw [← length_expand, ← length_expand, expand, expand]
  simp [List.length_flatMap]

/-- A byte more makes the runs stand for a byte more. -/
theorem total_push (done : List Run) (b : UInt8) : total (push done b) = total done + 1 := by
  have h := congrArg List.length (expand_reverse_push done b)
  rwa [List.length_append, length_expand, length_expand, total_reverse, total_reverse, List.length_singleton] at h

/-- A run that is not full is ended by another value only. -/
theorem isChain_push (hchain : done.IsChain (·.value ≠ ·.value)) (hroom : total done < 65535) (b : UInt8) :
    (push done b).IsChain (·.value ≠ ·.value) := by
  cases done with
  | nil => exact List.isChain_singleton _
  | cons r rest =>
    rw [total_cons] at hroom
    have hfree : r.count < 65535 := by
      rw [UInt16.lt_iff_toNat_lt]
      exact Nat.lt_of_le_of_lt (Nat.le_add_right _ _) hroom
    by_cases hvalue : r.value = b
    · rw [push, if_pos ⟨hvalue, hfree⟩]
      rw [List.isChain_cons] at hchain ⊢
      exact hchain
    · rw [push, if_neg fun h => hvalue h.1]
      exact List.isChain_cons_cons.mpr ⟨fun h => hvalue h.symm, hchain⟩

theorem isChain_foldl_push (hchain : done.IsChain (·.value ≠ ·.value)) (hroom : total done + bs.length ≤ 65535) :
    (bs.foldl push done).IsChain (·.value ≠ ·.value) := by
  induction bs generalizing done with
  | nil => exact hchain
  | cons b bs ih =>
    rw [List.length_cons] at hroom
    refine ih (isChain_push hchain (by omega) b) ?_
    rw [total_push]
    omega

/-- No run of few bytes goes on with the value of the one before it. -/
theorem isChain_compress (h : bs.length ≤ 65535) : (compress bs).IsChain (·.value ≠ ·.value) := by
  have hroom : total [] + bs.length ≤ 65535 := by simpa using h
  have hchain := isChain_foldl_push List.isChain_nil hroom
  rw [compress, List.isChain_reverse]
  exact hchain.imp fun _ _ hne => hne.symm

/-- The bytes of runs fall into these runs again, if no run is empty and no run goes on with the value of the one before
it. -/
theorem splitBy_expand (hpos : ∀ r ∈ runs, 0 < r.count.toNat) (hchain : runs.IsChain (·.value ≠ ·.value)) :
    (expand runs).splitBy (· == ·) = runs.map fun r => List.replicate r.count.toNat r.value := by
  rw [expand, List.flatMap_def]
  refine List.splitBy_flatten ?_ ?_ ?_
  · intro hnil
    obtain ⟨r, hr, hempty⟩ := List.mem_map.mp hnil
    have hcount := hpos r hr
    rw [List.replicate_eq_nil_iff] at hempty
    omega
  · intro piece hpiece
    obtain ⟨r, -, rfl⟩ := List.mem_map.mp hpiece
    exact List.isChain_replicate_of_rel _ (beq_self_eq_true r.value)
  · rw [List.isChain_map]
    -- the counts are needed where two runs meet, because empty runs have no ends
    refine List.IsChain.imp_of_mem_imp ?_ hchain
    intro r r' hr hr' hne
    have hcount := hpos r hr
    have hcount' := hpos r' hr'
    refine ⟨by simpa using Nat.ne_of_gt hcount, by simpa using Nat.ne_of_gt hcount', ?_⟩
    simpa using hne

/-- The run-length form of few bytes has exactly the maximal runs of equal values. -/
theorem length_compress (h : bs.length ≤ 65535) : (compress bs).length = (bs.splitBy (· == ·)).length := by
  have hsplit := splitBy_expand (fun _ => count_pos_of_mem_compress) (isChain_compress h)
  rw [expand_compress] at hsplit
  rw [hsplit, List.length_map]

/-! ### Few differences -/

/-- Between two runs of zeros there is a run of something else. -/
theorem length_le_of_isChain (hchain : runs.IsChain (·.value ≠ ·.value)) :
    runs.length ≤ 2 * (runs.countP fun r => r.value != 0) + if runs.head?.any (·.value == 0) then 1 else 0 := by
  induction runs with
  | nil => exact Nat.zero_le _
  | cons r runs ih =>
    obtain ⟨hnext, hrest⟩ := List.isChain_cons.mp hchain
    have hle := ih hrest
    by_cases hzero : r.value = 0
    · have hother : runs.head?.any (·.value == 0) = false := by
        cases runs with
        | nil => rfl
        | cons r' runs =>
          have hne := hnext r' rfl
          rw [hzero] at hne
          simpa using hne.symm
      rw [hother] at hle
      simp [hzero] at hle ⊢
      omega
    · simp only [List.length_cons, List.head?_cons, Option.any_some]
      rw [List.countP_cons_of_pos (by simpa using hzero)]
      split at hle <;> omega

/-- Runs of other values than zero stand for as many bytes at least. -/
theorem countP_le_countP_expand (hpos : ∀ r ∈ runs, 0 < r.count.toNat) :
    (runs.countP fun r => r.value != 0) ≤ (expand runs).countP (· != 0) := by
  induction runs with
  | nil => exact Nat.le_refl _
  | cons r runs ih =>
    obtain ⟨hr, hruns⟩ := List.forall_mem_cons.mp hpos
    have hle := ih hruns
    have hexpand : expand (r :: runs) = List.replicate r.count.toNat r.value ++ expand runs := rfl
    rw [hexpand, List.countP_append, List.countP_replicate, List.countP_cons]
    split
    · omega
    · omega

end Run

/-- The difference of two byte strings is zero where they agree. -/
theorem Bytes.countP_zipWith_sub (xs ys : Bytes) : (List.zipWith (· - ·) xs ys).countP (· != 0) = distance xs ys := by
  induction xs generalizing ys with
  | nil => rfl
  | cons x xs ih =>
    cases ys with
    | nil => rfl
    | cons y ys =>
      have hsub : x - y = 0 ↔ x = y := by grind
      rw [List.zipWith_cons_cons, List.countP_cons, ih, distance_cons]
      by_cases h : x = y <;> simp [hsub, h]

/-! ### Literal bytes -/

namespace Bytes

theorem length_chunksUpTo {n : Nat} (hn : 0 < n) {fuel : Nat} {bs : Bytes} (h : bs.length ≤ fuel) (done : List Bytes) :
    (chunksUpTo n fuel done bs).length = done.length + (bs.length + (n - 1)) / n := by
  have hnone : (0 + (n - 1)) / n = 0 := Nat.div_eq_of_lt (by omega)
  induction fuel generalizing bs done with
  | zero =>
    obtain rfl : bs = [] := List.eq_nil_of_length_eq_zero (by omega)
    rw [chunksUpTo, List.length_reverse, List.length_nil, hnone, Nat.add_zero]
  | succ fuel ih =>
    cases bs with
    | nil => rw [chunksUpTo, List.length_reverse, List.length_nil, hnone, Nat.add_zero]
    | cons b bs =>
      have hdrop : ((b :: bs).drop n).length ≤ fuel := by
        simp only [List.length_drop, List.length_cons] at h ⊢
        omega
      show (chunksUpTo n fuel ((b :: bs).take n :: done) ((b :: bs).drop n)).length = _
      rw [ih hdrop, List.length_cons, List.length_drop]
      -- the first chunk takes `n` bytes, or all there are
      by_cases hle : n ≤ (b :: bs).length
      · have hsplit : (b :: bs).length + (n - 1) = (b :: bs).length - n + (n - 1) + n := by omega
        rw [hsplit, Nat.add_div_right _ hn, Nat.add_assoc, Nat.add_comm 1]
      · have hlast : (b :: bs).length + (n - 1) = bs.length + n := by
          rw [List.length_cons]
          omega
        have hshort : bs.length / n = 0 := Nat.div_eq_of_lt (by rw [List.length_cons] at hle; omega)
        rw [hlast, Nat.add_div_right _ hn, hshort, Nat.sub_eq_zero_of_le (by omega), hnone]

/-- The last chunk is counted even if it is not full. -/
theorem length_chunks {n : Nat} (hn : 0 < n) (bs : Bytes) : (chunks n bs).length = (bs.length + (n - 1)) / n := by
  rw [chunks, length_chunksUpTo hn (Nat.le_refl _), List.length_nil, Nat.zero_add]

end Bytes

namespace Delta

/-- The number of bytes that `n` literal bytes take: a header of three bytes for every 65535 of them, the last block being
counted even if it is not full. -/
def literalSize (n : Nat) : Nat := n + 3 * ((n + 65534) / 65535)

theorem length_flatMap_literal (pieces : List Bytes) :
    ((pieces.map BlockBody.literal).flatMap BlockBody.bytes).length = pieces.flatten.length + 3 * pieces.length := by
  induction pieces with
  | nil => rfl
  | cons piece pieces ih =>
    rw [List.map_cons, List.flatMap_cons, List.length_append, ih, BlockBody.length_bytes_literal, List.flatten_cons,
      List.length_append, List.length_cons]
    omega

theorem length_literalBlocks (bs : Bytes) :
    ((literalBlocks bs).flatMap BlockBody.bytes).length = literalSize bs.length := by
  rw [literalBlocks, length_flatMap_literal, Bytes.flatten_chunks (by decide), Bytes.length_chunks (by decide)]
  rfl

/-! ### Difference blocks -/

variable {old new : Bytes} {p : Nat}

theorem length_zipWith_sub_le (hlength : old.length = new.length) (hmax : old.length ≤ BlockBody.maxLength) :
    (List.zipWith (· - ·) old new).length ≤ 65535 := by
  rw [List.length_zipWith, ← hlength, Nat.min_self]
  exact hmax

/-- A difference block has a header of three bytes and three for every maximal run of differences. -/
theorem length_differenceBlock (hlength : old.length = new.length) (hmax : old.length ≤ BlockBody.maxLength) :
    (differenceBlock old new).bytes.length = 3 + 3 * ((List.zipWith (· - ·) old new).splitBy (· == ·)).length := by
  rw [differenceBlock, BlockBody.length_bytes_difference, Run.length_compress (length_zipWith_sub_le hlength hmax)]

/-- Every place at which the two differ makes two runs at most. -/
theorem length_differenceBlock_le (hlength : old.length = new.length) (hmax : old.length ≤ BlockBody.maxLength) :
    (differenceBlock old new).bytes.length ≤ 6 * old.distance new + 6 := by
  have hruns := Run.length_le_of_isChain (Run.isChain_compress (length_zipWith_sub_le hlength hmax))
  have hcounts : ∀ r ∈ Run.compress (List.zipWith (· - ·) old new), 0 < r.count.toNat := fun _ =>
    Run.count_pos_of_mem_compress
  have hbytes := Run.countP_le_countP_expand hcounts
  rw [Run.expand_compress, Bytes.countP_zipWith_sub] at hbytes
  rw [differenceBlock, BlockBody.length_bytes_difference]
  split at hruns <;> omega

/-- Bytes that are the same make one run. -/
theorem length_differenceBlock_self (hne : old ≠ []) (hmax : old.length ≤ BlockBody.maxLength) :
    (differenceBlock old old).bytes.length = 6 := by
  have hle := length_differenceBlock_le rfl hmax
  rw [Bytes.distance_self] at hle
  have hsome : 0 < ((List.zipWith (· - ·) old old).splitBy (· == ·)).length := by
    rw [List.length_pos_iff, List.splitBy_ne_nil]
    simpa using hne
  have heq := length_differenceBlock (rfl : old.length = old.length) hmax
  omega

/-! ### Where the old bytes are found -/

theorem firstOccurrenceFrom_eq_some_iff (needle hay : Bytes) (k i : Nat) :
    firstOccurrenceFrom needle k hay = some (k + i) ↔ needle <+: hay.drop i ∧ ∀ j < i, ¬ needle <+: hay.drop j := by
  induction hay generalizing k i with
  | nil =>
    cases needle with
    | nil =>
      cases i with
      | zero => simp [firstOccurrenceFrom]
      | succ i => exact iff_of_false (by simp [firstOccurrenceFrom]) fun h => h.2 0 (Nat.zero_lt_succ i) List.nil_prefix
    | cons a needle => simp [firstOccurrenceFrom]
  | cons b bs ih =>
    by_cases hfront : needle <+: b :: bs
    · rw [firstOccurrenceFrom, if_pos (List.isPrefixOf_iff_prefix.mpr hfront)]
      cases i with
      | zero => simp [hfront]
      | succ i => exact iff_of_false (by simp) fun h => h.2 0 (Nat.zero_lt_succ i) hfront
    · rw [firstOccurrenceFrom, if_neg fun h => hfront (List.isPrefixOf_iff_prefix.mp h)]
      cases i with
      | zero =>
        refine iff_of_false ?_ fun h => hfront h.1
        intro h
        obtain ⟨i, hi, -⟩ := prefix_of_firstOccurrenceFrom h
        omega
      | succ i =>
        rw [Nat.add_comm i, ← Nat.add_assoc, ih, Nat.add_comm 1 i, List.drop_succ_cons]
        refine and_congr_right fun _ => ⟨?_, ?_⟩
        · intro h j hj
          cases j with
          | zero => exact hfront
          | succ j => exact h j (Nat.lt_of_succ_lt_succ hj)
        · intro h j hj
          exact h (j + 1) (Nat.succ_lt_succ hj)

/-- The search finds the first place. -/
theorem search_eq_some_iff : search old new = some p ↔ old <+: new.drop p ∧ ∀ q < p, ¬ old <+: new.drop q := by
  have h := firstOccurrenceFrom_eq_some_iff old new 0 p
  rwa [Nat.zero_add, ← firstOccurrence, ← search_eq] at h

/-! ### Deltas -/

theorem blocks_of_length_eq (hne : old ≠ []) (hmax : old.length ≤ BlockBody.maxLength)
    (hlength : old.length = new.length) : blocks old new = [differenceBlock old new] := by
  rw [blocks, if_neg, if_pos hlength]
  rw [List.isEmpty_iff]
  rintro (hempty | hshort | hlong)
  · exact hne hempty
  · omega
  · omega

/-- Bytes that stand in longer ones are kept, between what is in front of them and what is behind. -/
theorem blocks_of_search (hne : old ≠ []) (hmax : old.length ≤ BlockBody.maxLength) (hlength : old.length < new.length)
    (hsearch : search old new = some p) :
    blocks old new = literalBlocks (new.take p) ++
      differenceBlock old old :: literalBlocks (new.drop (p + old.length)) := by
  have hwindow : (new.drop p).take old.length = old := (List.prefix_iff_eq_take.mp (prefix_of_search hsearch)).symm
  rw [blocks, if_neg, if_neg (Nat.ne_of_lt hlength), hsearch]
  · simp only [hwindow]
  · rw [List.isEmpty_iff]
    rintro (hempty | hshort | hlong)
    · exact hne hempty
    · omega
    · omega

theorem length_encode_of_search (hne : old ≠ []) (hmax : old.length ≤ BlockBody.maxLength)
    (hlength : old.length < new.length) (hsearch : search old new = some p) :
    (encode old new).length = literalSize p + 6 + literalSize (new.length - p - old.length) := by
  have hpos := List.length_pos_iff.mpr hne
  have hfits := (prefix_of_search hsearch).length_le
  rw [List.length_drop] at hfits
  rw [encode, blocks_of_search hne hmax hlength hsearch, List.flatMap_append, List.flatMap_cons, List.length_append,
    List.length_append, length_literalBlocks, length_literalBlocks, length_differenceBlock_self hne hmax,
    List.length_take, List.length_drop, Nat.min_eq_left (by omega), Nat.sub_sub, Nat.add_assoc]

/-- The delta from `old` to `new` has an exact size.  If they are equally long, not empty and fit into a block, it is one
difference block: three bytes, and three for every maximal run of equal values among the differences; its runs are those,
none of them empty and no two neighbours with the same value.  So it takes at most six bytes for every place at which the
two differ, and six.  If `old` is not empty, fits into a block and stands in the longer `new`, first at `p`, six bytes say
so, and the rest of `new` is literal.  Otherwise all of `new` is literal, and there is no difference block. -/
theorem length_encode (old new : Bytes) :
    (old.length = new.length → 1 ≤ old.length → old.length ≤ BlockBody.maxLength →
      ∃ runs, parse (encode old new) = .ok [⟨0, .difference old.length runs⟩] ∧
        encode old new = (BlockBody.difference old.length runs).bytes ∧
        Run.expand runs = List.zipWith (· - ·) old new ∧
        runs.IsChain (·.value ≠ ·.value) ∧ (∀ r ∈ runs, r.count ≠ 0) ∧
        (encode old new).length = 3 + 3 * ((List.zipWith (· - ·) old new).splitBy (· == ·)).length ∧
        (encode old new).length ≤ 6 * old.distance new + 6) ∧
    (∀ p, old ≠ [] → old.length ≤ BlockBody.maxLength → old.length < new.length →
      old <+: new.drop p → (∀ q < p, ¬ old <+: new.drop q) →
      (encode old new).length = literalSize p + 6 + literalSize (new.length - p - old.length)) ∧
    (¬ (old.length = new.length ∧ 1 ≤ old.length ∧ old.length ≤ BlockBody.maxLength) →
      ¬ (old ≠ [] ∧ old.length ≤ BlockBody.maxLength ∧ old.length < new.length ∧ old <:+: new) →
      (encode old new).length = literalSize new.length ∧
        ∃ bs, parse (encode old new) = .ok bs ∧ ∀ b ∈ bs, ¬ b.body.IsDifference) := by
  refine ⟨?_, ?_, ?_⟩
  · intro hlength hpos hmax
    have hne : old ≠ [] := List.length_pos_iff.mp hpos
    have hblocks := blocks_of_length_eq hne hmax hlength
    have hparse := parse_encode old new
    have hbytes : encode old new = (differenceBlock old new).bytes := by
      rw [encode, hblocks, List.flatMap_singleton]
    have hchain := Run.isChain_compress (length_zipWith_sub_le hlength hmax)
    rw [hblocks] at hparse
    refine ⟨_, hparse, hbytes, Run.expand_compress _, hchain, ?_, ?_, ?_⟩
    · intro r hr hzero
      have hcount := Run.count_pos_of_mem_compress hr
      rw [hzero] at hcount
      exact absurd hcount (by decide)
    · rw [hbytes]
      exact length_differenceBlock hlength hmax
    · rw [hbytes]
      exact length_differenceBlock_le hlength hmax
  · intro p hne hmax hlength hfound hfirst
    exact length_encode_of_search hne hmax hlength (search_eq_some_iff.mpr ⟨hfound, hfirst⟩)
  · intro hlevel hinside
    have hnot : ¬ Usable old new := by
      rintro ⟨hne, hmax, heq | hinfix⟩
      · exact hlevel ⟨heq, List.length_pos_iff.mpr hne, hmax⟩
      · by_cases heq : old.length = new.length
        · exact hlevel ⟨heq, List.length_pos_iff.mpr hne, hmax⟩
        · exact hinside ⟨hne, hmax, Nat.lt_of_le_of_ne hinfix.length_le heq, hinfix⟩
    have hblocks : blocks old new = literalBlocks new := by
      rcases blocks_cases old new with ⟨-, hblocks⟩ | ⟨husable, -⟩
      · exact hblocks
      · exact absurd husable hnot
    refine ⟨?_, _, parse_encode old new, ?_⟩
    · rw [encode, hblocks, length_literalBlocks]
    · intro b hb hdifference
      have hbody : b.body ∈ blocks old new := by
        rw [← Block.map_body_place 0 (blocks old new)]
        exact List.mem_map_of_mem hb
      exact hnot ((exists_isDifference_iff old new).mp ⟨b.body, hbody, hdifference⟩)

/-- One byte that differs between others costs as much as one byte can. -/
example : (encode [7, 7, 7] [7, 8, 7]).length = 6 * Bytes.distance [7, 7, 7] [7, 8, 7] + 6 := by decide

end Delta
end LevelLink
