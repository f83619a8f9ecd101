import Mathlib.Data.List.Basic
import LevelLink.Delta.Block

/-!
# The written form of a delta

Which blocks can be written: a literal block is no longer than its length field can say, and the runs of a
difference block cover its length exactly, the last of them being needed (`Run.Covers`).  Such blocks are read
back as they were written, each at the place where the ones before it end (`Delta.parse_bytes`).
-/

namespace LevelLink

/-! ### Runs -/

namespace Run

/-- The runs cover `n` bytes, and the runs before the last one fewer. -/
def Covers (n : Nat) (runs : List Run) : Prop :=
  total runs = n ∧ ∀ front, front <+: runs → front ≠ runs → total front < n

@[simp] theorem total_nil : total [] = 0 := rfl

@[simp] theorem total_cons (r : Run) (runs : List Run) :
    total (r :: runs) = r.count.toNat + total runs := rfl

theorem total_append (runs more : List Run) : total (runs ++ more) = total runs + total more := by
  induction runs with
  | nil => simp
  | cons r runs ih => simp [ih, Nat.add_assoc]

theorem Covers.pos {n : Nat} {r : Run} {runs : List Run} (h : Covers n (r :: runs)) : 0 < n :=
  h.2 [] List.nil_prefix (by simp)

/-- What is left to cover behind the first run. -/
theorem Covers.tail {n : Nat} {r : Run} {runs : List Run} (h : Covers n (r :: runs)) :
    Covers (n - r.count.toNat) runs := by
  obtain ⟨hn, hfront⟩ := h
  rw [total_cons] at hn
  refine ⟨by omega, ?_⟩
  intro front hp hne
  have := hfront (r :: front) (List.cons_prefix_cons.mpr ⟨rfl, hp⟩) (by simpa using hne)
  rw [total_cons] at this
  omega

/-- Runs of which none is empty are all needed. -/
theorem covers_total {runs : List Run} (h : ∀ r ∈ runs, 0 < r.count.toNat) : Covers (total runs) runs := by
  refine ⟨rfl, ?_⟩
  intro front hp hne
  obtain ⟨more, rfl⟩ := hp
  cases more with
  | nil => simp at hne
  | cons r more =>
    have := h r (by simp)
    rw [total_append, total_cons]
    omega

/-- A further byte makes a new run or adds to the last one. -/
theorem count_pos_of_mem_push {done : List Run} {b : UInt8} (h : ∀ r ∈ done, 0 < r.count.toNat) :
    ∀ r ∈ push done b, 0 < r.count.toNat := by
  cases done with
  | nil => simp [push]
  | cons last rest =>
    intro r hr
    rw [push] at hr
    split at hr
    · next hfit =>
      have hc : last.count.toNat < 65535 := UInt16.lt_iff_toNat_lt.mp hfit.2
      rcases List.mem_cons.mp hr with rfl | hr
      · rw [UInt16.toNat_add]
        simp
        omega
      · exact h r (List.mem_cons_of_mem _ hr)
    · rcases List.mem_cons.mp hr with rfl | hr
      · simp
      · exact h r hr

theorem count_pos_of_mem_compress {bs : Bytes} {r : Run} (hr : r ∈ compress bs) : 0 < r.count.toNat := by
  have key : ∀ (bs : Bytes) (done : List Run), (∀ r ∈ done, 0 < r.count.toNat) →
      ∀ r ∈ bs.foldl push done, 0 < r.count.toNat := by
    intro bs
    induction bs with
    | nil => exact fun done h => h
    | cons b bs ih => exact fun done h => ih _ (count_pos_of_mem_push h)
  exact key bs [] (by simp) r (List.mem_reverse.mp hr)

theorem covers_compress (bs : Bytes) : Covers bs.length (compress bs) := by
  have h : Covers (total (compress bs)) (compress bs) :=
    covers_total fun _ hr => count_pos_of_mem_compress hr
  rwa [← length_expand, expand_compress] at h

@[simp] theorem length_bytes (r : Run) : r.bytes.length = 3 := by simp [bytes]

end Run

/-! ### Blocks -/

/-- The blocks with these bodies, the first of them at `offset`. -/
def Block.place (offset : Nat) : List BlockBody → List Block
  | [] => []
  | b :: rest => ⟨offset, b⟩ :: place (offset + b.length) rest

namespace BlockBody

/-- Whether a block can be written. -/
def Sound : BlockBody → Prop
  | literal bs => bs.length ≤ maxLength
  | difference n runs => n ≤ maxLength ∧ Run.Covers n runs

theorem length_bytes_literal (bs : Bytes) : (literal bs).bytes.length = bs.length + 3 := by
  simp [bytes]
  omega

theorem length_bytes_difference (n : Nat) (runs : List Run) :
    (difference n runs).bytes.length = 3 + 3 * runs.length := by
  have hruns : (runs.flatMap Run.bytes).length = 3 * runs.length := by
    induction runs with
    | nil => rfl
    | cons r runs ih =>
      rw [List.flatMap_cons, List.length_append, Run.length_bytes, ih, List.length_cons]
      omega
  simp [bytes, hruns]
  omega

theorem length_bytes_pos (b : BlockBody) : 0 < b.bytes.length := by
  cases b with
  | literal bs =>
    rw [length_bytes_literal]
    omega
  | difference n runs =>
    rw [length_bytes_difference]
    omega

end BlockBody

namespace Delta

/-- A length field reads back as the length. -/
theorem toNat_lengthField {n : Nat} (h : n ≤ BlockBody.maxLength) :
    Bytes.toNat [UInt8.ofNat n, UInt8.ofNat (n / 256)] = n := by
  have hle : Bytes.toNat (Bytes.le 2 n) = n % Bytes.range 2 := Bytes.toNat_le 2 n
  have hr : Bytes.range 2 = 65536 := rfl
  have hn : n < 65536 := Nat.lt_succ_of_le h
  rwa [hr, Nat.mod_eq_of_lt hn] at hle

/-- Runs that cover what is left of their block are read back. -/
theorem readRuns_bytes (length : Nat) {runs : List Run} {covered : Nat} (hc : covered ≤ length)
    (h : Run.Covers (length - covered) runs) (done : List Run) (position : Nat) (rest : Bytes) :
    readRuns length covered done position (runs.flatMap Run.bytes ++ rest) =
      .ok (done.reverse ++ runs, length, ⟨rest, position + (runs.flatMap Run.bytes).length⟩) := by
  induction runs generalizing covered done position with
  | nil =>
    have hfull : length ≤ covered := by
      have := h.1
      rw [Run.total_nil] at this
      omega
    have : covered = length := by omega
    subst this
    rw [readRuns.eq_def, if_pos (Nat.le_refl _)]
    simp
  | cons r runs ih =>
    have hpos := h.pos
    have htotal := h.1
    rw [Run.total_cons] at htotal
    have hcount : UInt16.ofNat (Bytes.toNat [UInt8.ofNat r.count.toNat, UInt8.ofNat (r.count.toNat / 256)]) =
        r.count := by
      rw [toNat_lengthField (Nat.le_of_lt_succ r.count.toNat_lt), UInt16.ofNat_toNat]
    have hnext : Run.Covers (length - (covered + r.count.toNat)) runs := by
      rw [Nat.sub_add_eq]
      exact h.tail
    rw [readRuns.eq_def, if_neg (by omega)]
    show readRuns length (covered + (UInt16.ofNat _).toNat) (⟨r.value, UInt16.ofNat _⟩ :: done) (position + 3)
      (runs.flatMap Run.bytes ++ rest) = _
    rw [hcount, ih (by omega) hnext]
    simp [Nat.add_assoc]

/-- A block that can be written is read back. -/
theorem readBlock_bytes {b : BlockBody} (h : b.Sound) (position : Nat) (rest : Bytes) :
    readBlock ⟨b.bytes ++ rest, position⟩ = .ok (b, ⟨rest, position + b.bytes.length⟩) := by
  cases b with
  | literal bs =>
    show readBody BlockBody.literalFlag (Bytes.toNat [UInt8.ofNat bs.length, UInt8.ofNat (bs.length / 256)])
      ⟨bs ++ rest, position + 3⟩ = _
    rw [toNat_lengthField h, readBody, if_pos rfl]
    simp [BlockBody.bytes]
    omega
  | difference n runs =>
    obtain ⟨hn, hruns⟩ := h
    show readBody BlockBody.differenceFlag (Bytes.toNat [UInt8.ofNat n, UInt8.ofNat (n / 256)])
      ⟨runs.flatMap Run.bytes ++ rest, position + 3⟩ = _
    rw [toNat_lengthField hn, readBody, if_neg (by decide), if_pos rfl,
      readRuns_bytes n (Nat.zero_le n) (by simpa using hruns)]
    simp [bind, Except.bind, pure, Except.pure, BlockBody.bytes]
    omega

/-- Every block takes bytes, so there is fuel for all of them. -/
theorem readBlocks_bytes {bodies : List BlockBody} (h : ∀ b ∈ bodies, b.Sound) {fuel : Nat}
    (hfuel : (bodies.flatMap BlockBody.bytes).length ≤ fuel) (offset : Nat) (done : List Block)
    (position : Nat) :
    readBlocks fuel offset done ⟨bodies.flatMap BlockBody.bytes, position⟩ =
      .ok (done.reverse ++ Block.place offset bodies) := by
  induction bodies generalizing fuel offset done position with
  | nil => cases fuel <;> simp [readBlocks, Block.place]
  | cons b bodies ih =>
    have hb := b.length_bytes_pos
    rw [List.flatMap_cons, List.length_append] at hfuel
    obtain ⟨fuel, rfl⟩ : ∃ k, fuel = k + 1 := ⟨fuel - 1, by omega⟩
    have hne : (b.bytes ++ bodies.flatMap BlockBody.bytes).isEmpty = false := by
      rw [List.isEmpty_eq_false_iff_exists_mem]
      obtain ⟨x, hx⟩ := List.exists_mem_of_length_pos hb
      exact ⟨x, List.mem_append_left _ hx⟩
    have hshort : (bodies.flatMap BlockBody.bytes).length ≤ fuel := by omega
    have hrest := ih (fun c hc => h c (List.mem_cons_of_mem _ hc)) hshort
      (offset + b.length) (⟨offset, b⟩ :: done) (position + b.bytes.length)
    rw [List.flatMap_cons, readBlocks, hne, if_neg Bool.false_ne_true,
      readBlock_bytes (h b List.mem_cons_self)]
    simp only [bind, Except.bind]
    rw [hrest]
    simp [Block.place]

/-- Blocks that can be written are read back. -/
theorem parse_bytes {bodies : List BlockBody} (h : ∀ b ∈ bodies, b.Sound) :
    parse (bodies.flatMap BlockBody.bytes) = .ok (Block.place 0 bodies) :=
  readBlocks_bytes h (Nat.le_refl _) 0 [] 0

end Delta
end LevelLink
