import Mathlib.Data.List.Infix
import LevelLink.Proofs.Delta.Parsing
import LevelLink.Proofs.Delta.RoundTrip

/-!
# Deltas applied to another base

A delta does not say which base it was made from.  The blocks from `old` to `new` have one of two shapes
(`blocks_cases`): literal blocks alone, which give `new` on every base, or a single difference block among literal
ones, which stands for as many bytes as `old` has.  On a base of another length the difference block is refused; on
one of the same length it gives a wrong byte exactly where the base has one.  Main statement (`decode_encode_on`):
when a delta has a difference block, and what it gives on any base.
-/

namespace LevelLink

/-! ### Distances -/

namespace Bytes

/-- At how many places two byte strings differ, as far as both go. -/
def distance (xs ys : Bytes) : Nat := (xs.zip ys).countP fun p => p.1 != p.2

@[simp] theorem distance_self (xs : Bytes) : distance xs xs = 0 := by
  induction xs with
  | nil => rfl
  | cons x xs ih => simpa [distance] using ih

theorem distance_cons (x y : UInt8) (xs ys : Bytes) :
    distance (x :: xs) (y :: ys) = distance xs ys + if x = y then 0 else 1 := by
  by_cases h : x = y <;> simp [distance, h]

theorem distance_append {xs ys : Bytes} (h : xs.length = ys.length) (xs' ys' : Bytes) :
    distance (xs ++ xs') (ys ++ ys') = distance xs ys + distance xs' ys' := by
  rw [distance, List.zip_append h, List.countP_append]
  rfl

/-- A byte of the base that is not the one subtracted from gives another byte. -/
theorem sub_sub_eq_iff (b o n : UInt8) : b - (o - n) = n ↔ b = o := by
  grind

/-- Subtracting the difference from another base is wrong where the base is. -/
theorem distance_zipWith_sub {base old new : Bytes} (hbase : base.length = old.length)
    (hnew : old.length = new.length) :
    distance (List.zipWith (· - ·) base (List.zipWith (· - ·) old new)) new = distance base old := by
  induction old generalizing base new with
  | nil =>
    obtain rfl := List.eq_nil_of_length_eq_zero hbase
    rfl
  | cons o old ih =>
    cases base with
    | nil => simp at hbase
    | cons b base =>
      cases new with
      | nil => simp at hnew
      | cons n new =>
        have htail := ih (Nat.succ.inj hbase) (Nat.succ.inj hnew)
        simp only [List.zipWith_cons_cons, distance_cons, sub_sub_eq_iff, htail]

end Bytes

/-- Whether a block is told by its differences to the base. -/
def BlockBody.IsDifference : BlockBody → Prop
  | literal _ => False
  | difference _ _ => True

namespace Delta

variable {old new base : Bytes}

/-! ### The shape of a delta -/

theorem firstOccurrenceFrom_eq_none_iff (needle hay : Bytes) (k : Nat) :
    firstOccurrenceFrom needle k hay = none ↔ ¬ needle <:+: hay := by
  induction hay generalizing k with
  | nil => simp [firstOccurrenceFrom]
  | cons b bs ih =>
    rw [firstOccurrenceFrom, List.infix_cons_iff, ← List.isPrefixOf_iff_prefix]
    by_cases hfront : needle.isPrefixOf (b :: bs)
    · simp [hfront]
    · simp [hfront, ih]

/-- The search finds something if there is something to be found. -/
theorem search_eq_none_iff : search old new = none ↔ ¬ old <:+: new := by
  rw [search_eq]
  exact firstOccurrenceFrom_eq_none_iff old new 0

/-- Whether a delta from `old` to `new` can use `old`: it fits into one block and is as long as `new` or occurs
in it. -/
def Usable (old new : Bytes) : Prop :=
  old ≠ [] ∧ old.length ≤ BlockBody.maxLength ∧ (old.length = new.length ∨ old <:+: new)

/-- A delta has literal blocks only, or a single difference block among them. -/
theorem blocks_cases (old new : Bytes) :
    (¬ Usable old new ∧ blocks old new = literalBlocks new) ∨
    (Usable old new ∧ ∃ front window back, window.length = old.length ∧ front ++ (window ++ back) = new ∧
      blocks old new = literalBlocks front ++ differenceBlock old window :: literalBlocks back) := by
  rw [blocks]
  split
  · next hunfit =>
    refine .inl ⟨?_, rfl⟩
    rintro ⟨hne, hmax, hfits⟩
    rcases hunfit with hempty | hshort | hlong
    · exact hne (List.isEmpty_iff.mp hempty)
    · rcases hfits with heq | hinfix
      · omega
      · have := hinfix.length_le
        omega
    · omega
  · next hfit =>
    obtain ⟨hne, -, hmax⟩ : ¬ old.isEmpty ∧ ¬ new.length < old.length ∧ ¬ BlockBody.maxLength < old.length := by
      simpa only [not_or] using hfit
    have hold : old ≠ [] := fun h => hne (List.isEmpty_iff.mpr h)
    split
    · next heq =>
      refine .inr ⟨⟨hold, by omega, .inl heq⟩, [], new, [], heq.symm, by simp, rfl⟩
    · next hlength =>
      split
      · next k hk =>
        have hprefix := prefix_of_search hk
        have hwindow : (new.drop k).take old.length = old := (List.prefix_iff_eq_take.mp hprefix).symm
        have hnew : new.take k ++ (old ++ new.drop (k + old.length)) = new := take_append_of_prefix_drop hprefix
        refine .inr ⟨⟨hold, by omega, .inr ⟨new.take k, new.drop (k + old.length), ?_⟩⟩, new.take k, old,
          new.drop (k + old.length), rfl, hnew, by rw [hwindow]⟩
        rw [List.append_assoc, hnew]
      · next hnone =>
        refine .inl ⟨?_, rfl⟩
        rintro ⟨-, -, heq | hinfix⟩
        · exact hlength heq
        · exact search_eq_none_iff.mp hnone hinfix

theorem not_isDifference_of_mem_literalBlocks {bs : Bytes} {b : BlockBody} (h : b ∈ literalBlocks bs) :
    ¬ b.IsDifference := by
  obtain ⟨piece, -, rfl⟩ := List.mem_map.mp h
  exact id

/-- A delta has a difference block if it can use the old bytes. -/
theorem exists_isDifference_iff (old new : Bytes) : (∃ b ∈ blocks old new, b.IsDifference) ↔ Usable old new := by
  rcases blocks_cases old new with ⟨hnot, hblocks⟩ | ⟨husable, front, window, back, -, -, hblocks⟩
  · refine iff_of_false ?_ hnot
    rintro ⟨b, hb, hdifference⟩
    rw [hblocks] at hb
    exact not_isDifference_of_mem_literalBlocks hb hdifference
  · refine iff_of_true ⟨differenceBlock old window, ?_, trivial⟩ husable
    rw [hblocks]
    exact List.mem_append_right _ List.mem_cons_self

/-! ### The bytes it gives -/

/-- A difference block on a base that it does not cover exactly. -/
theorem applyBlock_differenceBlock_of_length_ne (window : Bytes) (h : base.length ≠ old.length) :
    applyBlock base 0 (differenceBlock old window) = .error (.wrongLength base.length old.length) := by
  rw [differenceBlock, applyBlock, Nat.sub_zero, if_neg h.symm]

/-- A difference block on a base that is as long as the one it was made from. -/
theorem applyBlock_differenceBlock_of_length_eq (window : Bytes) (h : base.length = old.length) :
    applyBlock base 0 (differenceBlock old window) =
      .ok (List.zipWith (· - ·) base (List.zipWith (· - ·) old window), old.length) := by
  rw [differenceBlock, applyBlock, Nat.sub_zero, if_pos h.symm, Run.expand_compress, Nat.zero_add]

theorem decode_encode_eq (old new base : Bytes) :
    decode base (encode old new) = applyBlocks base 0 [] (Block.place 0 (blocks old new)) := by
  rw [decode, parse_encode]
  rfl

/-- Without a difference block the base does not matter. -/
theorem decode_encode_of_not_usable (base : Bytes) (h : ¬ Usable old new) :
    decode base (encode old new) = .ok new := by
  rcases blocks_cases old new with ⟨-, hblocks⟩ | ⟨husable, -⟩
  · rw [decode_encode_eq, hblocks, applyBlocks_literalBlocks]
    simp
  · exact absurd husable h

/-- A difference block refuses a base of another length. -/
theorem decode_encode_of_length_ne (h : Usable old new) (hlength : base.length ≠ old.length) :
    decode base (encode old new) = .error (.wrongLength base.length old.length) := by
  rcases blocks_cases old new with ⟨hnot, -⟩ | ⟨-, front, window, back, -, -, hblocks⟩
  · exact absurd h hnot
  · obtain ⟨pieces, offset, -, hfront⟩ := applyBlocks_literalBlocks_append base front 0 0 []
      (differenceBlock old window :: literalBlocks back)
    rw [decode_encode_eq, hblocks, hfront, Block.place, applyBlocks,
      applyBlock_differenceBlock_of_length_ne window hlength]
    rfl

/-- On a base of the same length a delta gives a byte string of the right length, which is wrong at as many places as
the base is. -/
theorem decode_encode_of_length_eq (h : Usable old new) (hlength : base.length = old.length) :
    ∃ got, decode base (encode old new) = .ok got ∧ got.length = new.length ∧
      got.distance new = base.distance old := by
  rcases blocks_cases old new with ⟨hnot, -⟩ | ⟨-, front, window, back, hwindow, rfl, hblocks⟩
  · exact absurd h hnot
  · obtain ⟨pieces, offset, rfl, hfront⟩ := applyBlocks_literalBlocks_append base front 0 0 []
      (differenceBlock old window :: literalBlocks back)
    let middle := List.zipWith (· - ·) base (List.zipWith (· - ·) old window)
    have hmiddle : middle.length = window.length := by simp [middle, hlength, hwindow]
    refine ⟨pieces.flatten ++ (middle ++ back), ?_, ?_, ?_⟩
    · rw [decode_encode_eq, hblocks, hfront, Block.place, applyBlocks,
        applyBlock_differenceBlock_of_length_eq window hlength]
      show applyBlocks base old.length (middle :: (pieces.reverse ++ [])) (Block.place (offset + old.length) _) = _
      rw [applyBlocks_literalBlocks]
      simp
    · simp [hmiddle]
    · rw [Bytes.distance_append rfl, Bytes.distance_append hmiddle, Bytes.distance_self, Bytes.distance_self,
        Bytes.distance_zipWith_sub hlength hwindow.symm, Nat.zero_add, Nat.add_zero]

/-- A delta from `old` to `new` is applied to any base.  It has a difference block if `old` is not empty, fits into a
block and is as long as `new` or occurs in it.  If it has one, a base of another length is refused with both lengths,
and a base of the same length gives as many bytes as `new` has, wrong at as many places as the base differs from
`old`.  If it has none, every base gives `new`. -/
theorem decode_encode_on (old new base : Bytes) :
    ∃ bs, parse (encode old new) = .ok bs ∧
      ((∃ b ∈ bs, b.body.IsDifference) ↔
        old ≠ [] ∧ old.length ≤ BlockBody.maxLength ∧ (old.length = new.length ∨ old <:+: new)) ∧
      ((∃ b ∈ bs, b.body.IsDifference) →
        (base.length ≠ old.length →
          decode base (encode old new) = .error (.wrongLength base.length old.length)) ∧
        (base.length = old.length →
          ∃ got, decode base (encode old new) = .ok got ∧ got.length = new.length ∧
            got.distance new = base.distance old)) ∧
      ((¬ ∃ b ∈ bs, b.body.IsDifference) → decode base (encode old new) = .ok new) := by
  have hdifference : (∃ b ∈ Block.place 0 (blocks old new), b.body.IsDifference) ↔ Usable old new := by
    have hbodies := exists_isDifference_iff old new
    rw [← Block.map_body_place 0 (blocks old new)] at hbodies
    simpa only [List.mem_map, exists_exists_and_eq_and] using hbodies
  refine ⟨Block.place 0 (blocks old new), parse_encode old new, hdifference, ?_, ?_⟩
  · intro hsome
    have husable := hdifference.mp hsome
    exact ⟨decode_encode_of_length_ne husable, decode_encode_of_length_eq husable⟩
  · intro hnone
    exact decode_encode_of_not_usable base fun husable => hnone (hdifference.mpr husable)

/-- A delta that changes one byte, on a base that has another one wrong. -/
example : decode [1, 2, 9] (encode [1, 2, 3] [1, 5, 3]) = .ok [1, 5, 9] := by decide

end Delta
end LevelLink
