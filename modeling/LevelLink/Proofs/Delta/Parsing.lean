import Mathlib.Algebra.Ring.Nat
import Mathlib.Data.List.Basic
import LevelLink.Proofs.Attempts
import LevelLink.Proofs.Delta.Grammar

/-!
# Which byte strings are deltas

`Delta.Written d blocks` says, without the parser, that `d` is the written form of these blocks.  Parsing accepts
exactly the written forms and gives back the blocks (`parse_accepts`), so a byte string is the written form of one
list of blocks at most.  Every block takes bytes, also one that produces none, and so does every run: the parser
comes to its end, and the bound on the number of blocks is never met.
-/

namespace LevelLink

/-- The length field of a block, read and written again. -/
theorem Bytes.le_toNat_pair (lo hi : UInt8) : Bytes.le 2 (Bytes.toNat [lo, hi]) = [lo, hi] :=
  Bytes.le_toNat [lo, hi]

theorem Bytes.toNat_pair_le (lo hi : UInt8) : Bytes.toNat [lo, hi] ≤ BlockBody.maxLength := by
  have hlt : Bytes.toNat [lo, hi] < Bytes.range 2 := Bytes.toNat_lt [lo, hi]
  have hrange : Bytes.range 2 = BlockBody.maxLength + 1 := rfl
  omega

/-- The run that is read off three bytes is written as these. -/
theorem Run.bytes_read (value lo hi : UInt8) :
    Run.bytes ⟨value, UInt16.ofNat (Bytes.toNat [lo, hi])⟩ = [value, lo, hi] := by
  have hfits : Bytes.toNat [lo, hi] < 65536 := Nat.lt_succ_of_le (Bytes.toNat_pair_le lo hi)
  rw [Run.bytes, Bytes.ofUInt16, UInt16.toNat_ofNat_of_lt' hfits, Bytes.le_toNat_pair]

namespace Block

variable {offset : Nat} {bodies : List BlockBody}

@[simp] theorem map_body_place (offset : Nat) (bodies : List BlockBody) :
    (place offset bodies).map Block.body = bodies := by
  induction bodies generalizing offset with
  | nil => rfl
  | cons b bodies ih => rw [place, List.map_cons, ih]

/-- Every block stands where the ones before it end. -/
def InPlace (offset : Nat) (blocks : List Block) : Prop :=
  ∀ front b back, blocks = front ++ b :: back → b.offset = offset + (front.map fun c => c.body.length).sum

theorem inPlace_place (offset : Nat) (bodies : List BlockBody) : InPlace offset (place offset bodies) := by
  induction bodies generalizing offset with
  | nil =>
    intro front b back h
    cases front <;> cases h
  | cons body bodies ih =>
    intro front b back h
    cases front with
    | nil =>
      obtain ⟨rfl, -⟩ := List.cons.inj h
      rfl
    | cons c front =>
      obtain ⟨rfl, htail⟩ := List.cons.inj h
      have hoffset := ih (offset + body.length) front b back htail
      rw [hoffset, List.map_cons, List.sum_cons, Nat.add_assoc]

theorem InPlace.tail {b : Block} {blocks : List Block} (h : InPlace offset (b :: blocks)) :
    InPlace (offset + b.body.length) blocks := by
  intro front c back htail
  have := h (b :: front) c back (by rw [htail, List.cons_append])
  rw [List.map_cons, List.sum_cons] at this
  omega

/-- The places say nothing beyond the bodies. -/
theorem InPlace.eq_place {blocks : List Block} (h : InPlace offset blocks) :
    blocks = place offset (blocks.map Block.body) := by
  induction blocks generalizing offset with
  | nil => rfl
  | cons b blocks ih =>
    have hoffset : b.offset = offset := h [] b blocks rfl
    rw [List.map_cons, place, ← ih h.tail, ← hoffset]

end Block

namespace Delta

/-! ### What was read -/

/-- Runs that were read cover what was left, the last of them being needed. -/
theorem readRuns_ok {length covered n : Nat} {done runs : List Run} {position : Nat} {bs : Bytes} {rest : Rest}
    (h : readRuns length covered done position bs = .ok (runs, n, rest)) :
    ∃ more : List Run, runs = done.reverse ++ more ∧ n = covered + Run.total more ∧
      bs = more.flatMap Run.bytes ++ rest.bytes ∧ length ≤ n ∧
      ∀ front, front <+: more → front ≠ more → covered + Run.total front < length := by
  fun_induction readRuns length covered done position bs with
  | case1 bs covered done position hfull =>
    obtain ⟨rfl, rfl, rfl⟩ : done.reverse = runs ∧ covered = n ∧ (⟨bs, position⟩ : Rest) = rest := by
      simpa using h
    refine ⟨[], by simp, by simp, by simp, hfull, ?_⟩
    intro front hfront hne
    exact absurd (List.prefix_nil.mp hfront) hne
  | case2 covered done position hnot value lo hi bs count ih =>
    obtain ⟨more, hruns, hn, hbs, hlength, hneeded⟩ := ih h
    refine ⟨⟨value, count⟩ :: more, ?_, ?_, ?_, hlength, ?_⟩
    · rw [hruns, List.reverse_cons, List.append_assoc, List.singleton_append]
    · rw [Run.total_cons, hn, Nat.add_assoc]
    · rw [List.flatMap_cons, Run.bytes_read, hbs]
      rfl
    · intro front hfront hne
      cases front with
      | nil =>
        rw [Run.total_nil]
        omega
      | cons r front =>
        obtain ⟨rfl, hprefix⟩ := List.cons_prefix_cons.mp hfront
        have hfront := hneeded front hprefix (fun heq => hne (by rw [heq]))
        rw [Run.total_cons, ← Nat.add_assoc]
        exact hfront
  | case3 => cases h
  | case4 => cases h

theorem readBody_ok {flag lo hi : UInt8} {rest rest' : Rest} {b : BlockBody}
    (h : readBody flag (Bytes.toNat [lo, hi]) rest = .ok (b, rest')) :
    b.Sound ∧ flag :: lo :: hi :: rest.bytes = b.bytes ++ rest'.bytes := by
  have hlength := Bytes.toNat_pair_le lo hi
  have hfield := Bytes.le_toNat_pair lo hi
  generalize Bytes.toNat [lo, hi] = length at h hlength hfield
  unfold readBody at h
  dsimp only at h
  split at h
  · next hflag =>
    split at h
    · next hlong =>
      obtain ⟨rfl, rfl⟩ := Prod.mk.inj (Except.ok.inj h)
      refine ⟨?_, ?_⟩
      · show (rest.bytes.take length).length ≤ BlockBody.maxLength
        omega
      · rw [BlockBody.bytes, hlong, hfield, hflag]
        simp
    · cases h
  · split at h
    · next hflag =>
      obtain ⟨⟨runs, covered, rest₁⟩, hruns, h⟩ := parts_of_bind_ok h
      obtain ⟨more, hmore, hcovered, hbytes, hfull, hneeded⟩ := readRuns_ok hruns
      obtain rfl : runs = more := hmore
      dsimp only at h
      split at h
      · cases h
      · next hexact =>
        obtain ⟨rfl, rfl⟩ := Prod.mk.inj (Except.ok.inj h)
        simp only [Nat.zero_add] at hcovered hneeded
        have htotal : Run.total runs = length := by omega
        refine ⟨⟨hlength, htotal, hneeded⟩, ?_⟩
        rw [BlockBody.bytes, hfield, hflag, hbytes]
        simp
    · cases h

/-- A block that was read could be written, and its written form was taken off. -/
theorem readBlock_ok {rest rest' : Rest} {b : BlockBody} (h : readBlock rest = .ok (b, rest')) :
    b.Sound ∧ rest.bytes = b.bytes ++ rest'.bytes := by
  unfold readBlock at h
  split at h
  · next flag lo hi bs hbytes =>
    rw [hbytes]
    exact readBody_ok h
  · cases h
  · cases h

/-- Every block takes bytes, also one that produces none. -/
theorem length_lt_of_readBlock {rest rest' : Rest} {b : BlockBody} (h : readBlock rest = .ok (b, rest')) :
    rest'.bytes.length < rest.bytes.length := by
  have hpos := b.length_bytes_pos
  rw [(readBlock_ok h).2, List.length_append]
  omega

theorem readBlocks_ok {fuel offset : Nat} {done blocks : List Block} {rest : Rest} (hfuel : rest.bytes.length ≤ fuel)
    (h : readBlocks fuel offset done rest = .ok blocks) :
    ∃ bodies : List BlockBody, (∀ b ∈ bodies, b.Sound) ∧ rest.bytes = bodies.flatMap BlockBody.bytes ∧
      blocks = done.reverse ++ Block.place offset bodies := by
  induction fuel generalizing offset done rest with
  | zero =>
    obtain rfl := Except.ok.inj h
    exact ⟨[], nofun, List.eq_nil_of_length_eq_zero (by omega), by simp [Block.place]⟩
  | succ fuel ih =>
    unfold readBlocks at h
    split at h
    · next hempty =>
      obtain rfl := Except.ok.inj h
      exact ⟨[], nofun, List.isEmpty_iff.mp hempty, by simp [Block.place]⟩
    · obtain ⟨⟨b, rest'⟩, hblock, h⟩ := parts_of_bind_ok h
      obtain ⟨hsound, hbytes⟩ := readBlock_ok hblock
      have hshorter := length_lt_of_readBlock hblock
      obtain ⟨bodies, hsounds, hrest, hblocks⟩ := ih (by omega) h
      refine ⟨b :: bodies, List.forall_mem_cons.mpr ⟨hsound, hsounds⟩, ?_, ?_⟩
      · rw [hbytes, hrest, List.flatMap_cons]
      · rw [hblocks, Block.place]
        simp

/-- The bound on the number of blocks is never met, so a larger one makes no difference. -/
theorem readBlocks_of_le {fuel fuel' offset : Nat} {done : List Block} {rest : Rest}
    (hfuel : rest.bytes.length ≤ fuel) (hmore : fuel ≤ fuel') :
    readBlocks fuel' offset done rest = readBlocks fuel offset done rest := by
  induction fuel generalizing fuel' offset done rest with
  | zero =>
    have hnil : rest.bytes = [] := List.eq_nil_of_length_eq_zero (by omega)
    cases fuel' with
    | zero => rfl
    | succ fuel' => simp [readBlocks, hnil]
  | succ fuel ih =>
    obtain ⟨fuel', rfl⟩ : ∃ k, fuel' = k + 1 := ⟨fuel' - 1, by omega⟩
    unfold readBlocks
    split
    · rfl
    · rcases hblock : readBlock rest with e | ⟨b, rest'⟩
      · rfl
      · have hshorter := length_lt_of_readBlock hblock
        exact ih (by omega) (by omega)

/-! ### Written forms -/

/-- The byte string is the written form of these blocks: each of them can be written, and they stand one behind the
other, in the byte string and in the result. -/
structure Written (d : Bytes) (blocks : List Block) : Prop where
  bytes : d = Delta.bytes blocks
  sound : ∀ b ∈ blocks, b.body.Sound
  inPlace : Block.InPlace 0 blocks

theorem bytes_eq_flatMap (blocks : List Block) : Delta.bytes blocks = (blocks.map Block.body).flatMap BlockBody.bytes := by
  rw [Delta.bytes, List.flatMap_map]

theorem written_place {bodies : List BlockBody} (h : ∀ b ∈ bodies, b.Sound) :
    Written (bodies.flatMap BlockBody.bytes) (Block.place 0 bodies) := by
  refine ⟨?_, ?_, Block.inPlace_place 0 bodies⟩
  · rw [bytes_eq_flatMap, Block.map_body_place]
  · intro b hb
    have hbody := List.mem_map_of_mem (f := Block.body) hb
    rw [Block.map_body_place] at hbody
    exact h b.body hbody

/-- A parse that succeeds has read a written form. -/
theorem written_of_parse {d : Bytes} {blocks : List Block} (h : parse d = .ok blocks) : Written d blocks := by
  have hfuel : (⟨d, 0⟩ : Rest).bytes.length ≤ d.length := Nat.le_refl _
  obtain ⟨bodies, hsound, hbytes, hblocks⟩ := readBlocks_ok hfuel h
  obtain rfl : d = bodies.flatMap BlockBody.bytes := hbytes
  obtain rfl : blocks = Block.place 0 bodies := hblocks
  exact written_place hsound

/-- A written form is parsed. -/
theorem Written.parse_eq {d : Bytes} {blocks : List Block} (h : Written d blocks) : parse d = .ok blocks := by
  have hbodies : ∀ b ∈ blocks.map Block.body, b.Sound := List.forall_mem_map.mpr h.sound
  have hparse := parse_bytes hbodies
  rw [← bytes_eq_flatMap, ← h.bytes, ← h.inPlace.eq_place] at hparse
  exact hparse

/-- Blocks have three bytes at least. -/
theorem three_mul_length_le (blocks : List Block) : 3 * blocks.length ≤ (Delta.bytes blocks).length := by
  induction blocks with
  | nil => exact Nat.le_refl _
  | cons b blocks ih =>
    have hheader : 3 ≤ b.body.bytes.length := by
      cases b.body <;> simp [BlockBody.bytes]
    rw [Delta.bytes, List.flatMap_cons, List.length_append, List.length_cons]
    rw [Delta.bytes] at ih
    omega

/-- Parsing accepts exactly the written forms and gives back the blocks.  A byte string is the written form of one
list of blocks at most, its blocks written again give the same bytes, and one that is no written form fails.  There
are never more blocks than the bytes have room for, whatever the bound on their number is. -/
theorem parse_accepts (d : Bytes) :
    (∀ blocks, parse d = .ok blocks ↔ Written d blocks) ∧
    (∀ blocks blocks', Written d blocks → Written d blocks' → blocks = blocks') ∧
    ((∃ e, parse d = .error e) ↔ ∀ blocks, ¬ Written d blocks) ∧
    (∀ blocks, parse d = .ok blocks → Delta.bytes blocks = d ∧ 3 * blocks.length ≤ d.length) ∧
    ∀ fuel, d.length ≤ fuel → readBlocks fuel 0 [] ⟨d, 0⟩ = parse d := by
  have haccepts : ∀ blocks, parse d = .ok blocks ↔ Written d blocks :=
    fun blocks => ⟨written_of_parse, Written.parse_eq⟩
  refine ⟨haccepts, ?_, ?_, ?_, ?_⟩
  · intro blocks blocks' h h'
    exact Except.ok.inj (h.parse_eq.symm.trans h'.parse_eq)
  · constructor
    · rintro ⟨e, he⟩ blocks h
      rw [h.parse_eq] at he
      cases he
    · intro h
      rcases hparse : parse d with e | blocks
      · exact ⟨e, rfl⟩
      · exact absurd ((haccepts blocks).mp hparse) (h blocks)
  · intro blocks hparse
    have hwritten := (haccepts blocks).mp hparse
    refine ⟨hwritten.bytes.symm, ?_⟩
    rw [hwritten.bytes]
    exact three_mul_length_le blocks
  · intro fuel hfuel
    exact readBlocks_of_le (Nat.le_refl _) hfuel

/-- Blocks and runs that produce nothing are read as well. -/
example : parse [0, 0, 0, 1, 0, 0, 1, 1, 0, 9, 0, 0, 5, 1, 0] =
    .ok [⟨0, .literal []⟩, ⟨0, .difference 0 []⟩, ⟨0, .difference 1 [⟨9, 0⟩, ⟨5, 1⟩]⟩] := by decide

end Delta
end LevelLink
