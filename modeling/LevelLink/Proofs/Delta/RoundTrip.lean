import LevelLink.Delta.Codec
import LevelLink.Proofs.Delta.Grammar

/-!
# Deltas turn the old bytes into the new ones

`Delta.encode` writes blocks that can be read back, and applied to the same base they give the new bytes:
literal blocks give their bytes whatever the base is, and a difference block gives back what was subtracted.
Main statement: `decode_encode`, for byte strings of any length.
-/

namespace LevelLink

/-! ### Chunks -/

namespace Bytes

theorem flatten_chunksUpTo {n : Nat} (hn : 0 < n) {fuel : Nat} {bs : Bytes} (h : bs.length ≤ fuel)
    (done : List Bytes) : (chunksUpTo n fuel done bs).flatten = done.reverse.flatten ++ bs := by
  induction fuel generalizing bs done with
  | zero =>
    have : bs = [] := List.eq_nil_of_length_eq_zero (by omega)
    simp [chunksUpTo, this]
  | succ fuel ih =>
    cases bs with
    | nil => simp [chunksUpTo]
    | cons b bs =>
      have hdrop : ((b :: bs).drop n).length ≤ fuel := by
        simp only [List.length_drop, List.length_cons] at h ⊢
        omega
      rw [chunksUpTo, ih hdrop, List.reverse_cons, List.flatten_append, List.append_assoc,
        List.flatten_singleton, List.take_append_drop]
      simp

/-- Nothing is lost in cutting. -/
theorem flatten_chunks {n : Nat} (hn : 0 < n) (bs : Bytes) : (chunks n bs).flatten = bs :=
  flatten_chunksUpTo hn (Nat.le_refl _) []

theorem length_le_of_mem_chunksUpTo {n fuel : Nat} {bs piece : Bytes} {done : List Bytes}
    (hdone : ∀ p ∈ done, p.length ≤ n) (h : piece ∈ chunksUpTo n fuel done bs) : piece.length ≤ n := by
  induction fuel generalizing bs done with
  | zero => exact hdone piece (List.mem_reverse.mp h)
  | succ fuel ih =>
    cases bs with
    | nil => exact hdone piece (List.mem_reverse.mp h)
    | cons b bs =>
      refine ih (fun p hp => ?_) h
      rcases List.mem_cons.mp hp with rfl | hp
      · exact List.length_take_le _ _
      · exact hdone p hp

theorem length_le_of_mem_chunks {n : Nat} {bs piece : Bytes} (h : piece ∈ chunks n bs) : piece.length ≤ n :=
  length_le_of_mem_chunksUpTo (by simp) h

end Bytes
namespace Delta

/-! ### Searching -/

theorem prefix_of_firstOccurrenceFrom {needle hay : Bytes} {k j : Nat}
    (h : firstOccurrenceFrom needle k hay = some j) : ∃ i, j = k + i ∧ needle <+: hay.drop i := by
  induction hay generalizing k with
  | nil =>
    rw [firstOccurrenceFrom] at h
    split at h
    · next he =>
      obtain rfl := Option.some.inj h
      exact ⟨0, rfl, by simp [List.isEmpty_iff.mp he]⟩
    · cases h
  | cons b bs ih =>
    rw [firstOccurrenceFrom] at h
    split at h
    · next hp =>
      obtain rfl := Option.some.inj h
      exact ⟨0, rfl, List.isPrefixOf_iff_prefix.mp hp⟩
    · obtain ⟨i, rfl, hp⟩ := ih h
      exact ⟨i + 1, by omega, hp⟩

/-- What is found stands there. -/
theorem prefix_of_search {needle hay : Bytes} {k : Nat} (h : search needle hay = some k) :
    needle <+: hay.drop k := by
  rw [search_eq] at h
  obtain ⟨i, rfl, hp⟩ := prefix_of_firstOccurrenceFrom h
  rwa [Nat.zero_add]

/-- What stands at `k`, between what is in front of it and what is behind. -/
theorem take_append_of_prefix_drop {needle hay : Bytes} {k : Nat} (h : needle <+: hay.drop k) :
    hay.take k ++ (needle ++ hay.drop (k + needle.length)) = hay := by
  obtain ⟨rest, hrest⟩ := h
  rw [← List.drop_drop, ← hrest, List.drop_left, hrest, List.take_append_drop]

/-! ### What blocks produce -/

theorem sound_of_mem_literalBlocks {bs : Bytes} {b : BlockBody} (h : b ∈ literalBlocks bs) : b.Sound := by
  obtain ⟨piece, hp, rfl⟩ := List.mem_map.mp h
  exact Bytes.length_le_of_mem_chunks hp

theorem differenceBlock_sound {old new : Bytes} (hlen : old.length = new.length)
    (hmax : old.length ≤ BlockBody.maxLength) : (differenceBlock old new).Sound := by
  have h := Run.covers_compress (List.zipWith (· - ·) old new)
  rw [List.length_zipWith, ← hlen, Nat.min_self] at h
  exact ⟨hmax, h⟩

/-- Subtracting a difference gives back what was subtracted. -/
theorem zipWith_sub_zipWith_sub {old new : Bytes} (h : old.length = new.length) :
    List.zipWith (· - ·) old (List.zipWith (· - ·) old new) = new := by
  induction old generalizing new with
  | nil => simpa using h.symm
  | cons a old ih =>
    cases new with
    | nil => simp at h
    | cons b new =>
      have hb : a - (a - b) = b := by grind
      simp only [List.zipWith_cons_cons, hb, ih (Nat.succ.inj h)]

/-- The difference block to `new` produces `new`, if the base is not used up. -/
theorem applyBlock_differenceBlock {old new : Bytes} (hlen : old.length = new.length) :
    applyBlock old 0 (differenceBlock old new) = .ok (new, old.length) := by
  rw [differenceBlock, applyBlock, if_pos (Nat.sub_zero _).symm, Run.expand_compress, zipWith_sub_zipWith_sub hlen,
    Nat.zero_add]

/-- Literal blocks in front produce their bytes and use nothing up. -/
theorem applyBlocks_literalBlocks_append (old bs : Bytes) (used offset : Nat) (done : List Bytes)
    (more : List BlockBody) :
    ∃ (pieces : List Bytes) (offset' : Nat), pieces.flatten = bs ∧
      applyBlocks old used done (Block.place offset (literalBlocks bs ++ more)) =
        applyBlocks old used (pieces.reverse ++ done) (Block.place offset' more) := by
  have key : ∀ (pieces : List Bytes) (offset : Nat) (done : List Bytes),
      ∃ offset', applyBlocks old used done (Block.place offset (pieces.map .literal ++ more)) =
        applyBlocks old used (pieces.reverse ++ done) (Block.place offset' more) := by
    intro pieces
    induction pieces with
    | nil => exact fun offset done => ⟨offset, rfl⟩
    | cons piece pieces ih =>
      intro offset done
      obtain ⟨offset', h⟩ := ih (offset + piece.length) (piece :: done)
      refine ⟨offset', ?_⟩
      rw [List.reverse_cons, List.append_assoc, List.singleton_append]
      exact h
  obtain ⟨offset', h⟩ := key (bs.chunks BlockBody.maxLength) offset done
  exact ⟨_, offset', Bytes.flatten_chunks (by decide) bs, h⟩

theorem applyBlocks_literalBlocks (old bs : Bytes) (used offset : Nat) (done : List Bytes) :
    applyBlocks old used done (Block.place offset (literalBlocks bs)) = .ok (done.reverse.flatten ++ bs) := by
  obtain ⟨pieces, offset', rfl, h⟩ := applyBlocks_literalBlocks_append old bs used offset done []
  rw [List.append_nil] at h
  rw [h, Block.place, applyBlocks]
  simp

/-! ### The round trip -/

/-- The blocks from `old` to `new` can be written. -/
theorem sound_of_mem_blocks {old new : Bytes} {b : BlockBody} (h : b ∈ blocks old new) : b.Sound := by
  rw [blocks] at h
  split at h
  · exact sound_of_mem_literalBlocks h
  · next hfits =>
    have hmax : old.length ≤ BlockBody.maxLength :=
      Nat.le_of_not_lt fun hlong => hfits (Or.inr (Or.inr hlong))
    split at h
    · next hlen =>
      obtain rfl := List.mem_singleton.mp h
      exact differenceBlock_sound hlen hmax
    · split at h
      · next k hk =>
        have hwindow : old.length = ((new.drop k).take old.length).length := by
          rw [← List.prefix_iff_eq_take.mp (prefix_of_search hk)]
        rcases List.mem_append.mp h with h | h
        · exact sound_of_mem_literalBlocks h
        · rcases List.mem_cons.mp h with rfl | h
          · exact differenceBlock_sound hwindow hmax
          · exact sound_of_mem_literalBlocks h
      · exact sound_of_mem_literalBlocks h

/-- The blocks from `old` to `new` produce `new` from `old`. -/
theorem applyBlocks_blocks (old new : Bytes) :
    applyBlocks old 0 [] (Block.place 0 (blocks old new)) = .ok new := by
  have hliteral := applyBlocks_literalBlocks old new 0 0 []
  rw [blocks]
  split
  · exact hliteral
  · split
    · next hlen =>
      simp only [Block.place, applyBlocks, applyBlock_differenceBlock hlen, bind, Except.bind]
      simp
    · split
      · next k hk =>
        have hp := prefix_of_search hk
        have hwindow : (new.drop k).take old.length = old := (List.prefix_iff_eq_take.mp hp).symm
        obtain ⟨pieces, offset, hpieces, hfront⟩ := applyBlocks_literalBlocks_append old (new.take k) 0 0 []
          (differenceBlock old old :: literalBlocks (new.drop (k + old.length)))
        rw [hwindow, hfront, Block.place, applyBlocks, applyBlock_differenceBlock rfl]
        show applyBlocks old old.length (old :: (pieces.reverse ++ [])) (Block.place (offset + old.length) _) = _
        rw [applyBlocks_literalBlocks]
        simp [hpieces, take_append_of_prefix_drop hp]
      · exact hliteral

theorem parse_encode (old new : Bytes) : parse (encode old new) = .ok (Block.place 0 (blocks old new)) :=
  parse_bytes fun _ h => sound_of_mem_blocks h

/-- A delta from `old` to `new` turns `old` into `new`. -/
theorem decode_encode (old new : Bytes) : decode old (encode old new) = .ok new := by
  rw [decode, parse_encode]
  exact applyBlocks_blocks old new

example : encode [7, 8, 9] [1, 7, 8, 9, 2] = [0, 1, 0, 1] ++ [1, 3, 0, 0, 3, 0] ++ [0, 1, 0, 2] := by decide

end Delta
end LevelLink
