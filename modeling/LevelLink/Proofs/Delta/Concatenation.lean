import LevelLink.Proofs.Delta.Parsing

/-!
# Deltas one behind the other

What becomes of a parse when the payload goes on.  A payload that cannot be parsed consists of blocks and of bytes that
are no block (`Delta.parse_eq_error_iff`).  Either these bytes end too early, or their header and runs say what is
wrong, and then it does not matter what is behind them (`Delta.readBlock_error`).  Main statement (`parse_append`): a
payload in two parts is parsed part by part, and an error other than an early end is there to stay.
-/

namespace LevelLink

/-- What is wrong with a payload, if the payload stands behind `k` bytes. -/
def DeltaError.behind (k : Nat) : DeltaError → DeltaError
  | .truncated offset => .truncated (k + offset)
  | e => e

/-! ### Runs that cover too much -/

/-- If all runs before the last one are needed, the last one alone covers too much. -/
theorem Run.total_lt_of_needed {n : Nat} {runs : List Run} (hmore : n < total runs)
    (hneeded : ∀ front, front <+: runs → front ≠ runs → total front < n) : total runs < n + 65536 := by
  rcases List.eq_nil_or_concat runs with rfl | ⟨front, last, rfl⟩
  · simp at hmore
  · rw [List.concat_eq_append] at hneeded ⊢
    have hfront : total front < n := hneeded front (List.prefix_append front [last]) (by simp)
    have hlast : last.count.toNat < 65536 := last.count.toNat_lt
    rw [total_append, total_cons, total_nil]
    omega

namespace Block

/-- The block, if it stands behind blocks that produce `n` bytes. -/
def behind (n : Nat) (b : Block) : Block := { b with offset := n + b.offset }

theorem map_behind_place (n offset : Nat) (bodies : List BlockBody) :
    (place offset bodies).map (behind n) = place (n + offset) bodies := by
  induction bodies generalizing offset with
  | nil => rfl
  | cons b bodies ih => rw [place, List.map_cons, ih, place, behind, Nat.add_assoc]

theorem place_append (offset : Nat) (bodies more : List BlockBody) :
    place offset (bodies ++ more) =
      place offset bodies ++ place (offset + (bodies.map BlockBody.length).sum) more := by
  induction bodies generalizing offset with
  | nil => rfl
  | cons b bodies ih =>
    rw [List.cons_append, place, ih, place, List.cons_append, List.map_cons, List.sum_cons, Nat.add_assoc]

end Block

namespace Delta

variable {bs : Bytes} {position : Nat} {rest : Rest} {e : DeltaError}

/-! ### Readings that start later -/

/-- The rest, if the payload stands behind `k` bytes. -/
def Rest.behind (k : Nat) (rest : Rest) : Rest := { rest with position := k + rest.position }

/-- What comes of a reading, if the payload stands behind `k` bytes; `move` says what becomes of a result. -/
def behind {α : Type} (k : Nat) (move : α → α) : Except DeltaError α → Except DeltaError α
  | .ok a => .ok (move a)
  | .error e => .error (e.behind k)

theorem readRuns_behind (length covered : Nat) (done : List Run) (position : Nat) (bs : Bytes) (k : Nat) :
    readRuns length covered done (k + position) bs =
      behind k (fun r => (r.1, r.2.1, r.2.2.behind k)) (readRuns length covered done position bs) := by
  fun_induction readRuns length covered done position bs with
  | case1 bs covered done position hfull =>
    rw [readRuns.eq_def, if_pos hfull]
    rfl
  | case2 covered done position hnot value lo hi bs count ih =>
    rw [readRuns.eq_def, if_neg hnot]
    exact ih
  | case3 covered done position hnot =>
    rw [readRuns.eq_def, if_neg hnot]
    rfl
  | case4 covered done position hnot value bs hshort =>
    rw [readRuns.eq_def, if_neg hnot]
    rcases bs with _ | ⟨lo, _ | ⟨hi, bs⟩⟩
    · rfl
    · rfl
    · exact (hshort lo hi bs rfl).elim

theorem readBody_behind (flag : UInt8) (length : Nat) (rest : Rest) (k : Nat) :
    readBody flag length (rest.behind k) = behind k (fun r => (r.1, r.2.behind k)) (readBody flag length rest) := by
  unfold readBody
  split
  · dsimp only [Rest.behind]
    split
    · rw [Nat.add_assoc]
      rfl
    · rfl
  · split
    · dsimp only [Rest.behind]
      rw [readRuns_behind]
      rcases readRuns length 0 [] rest.position rest.bytes with e | ⟨runs, covered, rest'⟩
      · rfl
      · dsimp only [behind, bind, Except.bind]
        split
        · rfl
        · rfl
    · rfl

theorem readBlock_behind (rest : Rest) (k : Nat) :
    readBlock (rest.behind k) = behind k (fun r => (r.1, r.2.behind k)) (readBlock rest) := by
  obtain ⟨bs, position⟩ := rest
  rcases bs with _ | ⟨flag, _ | ⟨lo, _ | ⟨hi, bs⟩⟩⟩
  · rfl
  · rfl
  · rfl
  · exact readBody_behind flag (Bytes.toNat [lo, hi]) ⟨bs, position + 3⟩ k

/-! ### Readings that fail -/

/-- What a block with this header can have wrong that no further bytes set right. -/
inductive Fault (flag : UInt8) (length : Nat) : DeltaError → Prop
  | unknownBlock (hliteral : flag ≠ BlockBody.literalFlag) (hdifference : flag ≠ BlockBody.differenceFlag) :
      Fault flag length (.unknownBlock flag)
  | blockTooLong (covered : Nat) (hdifference : flag = BlockBody.differenceFlag) (hmore : length < covered)
      (hlast : covered < length + 65536) : Fault flag length (.blockTooLong covered)

/-- Runs are read to their end, or the bytes end too early. -/
theorem readRuns_error {length covered : Nat} {done : List Run}
    (h : readRuns length covered done position bs = .error e) :
    ∃ offset, e = .truncated offset ∧ offset ≤ position + bs.length := by
  fun_induction readRuns length covered done position bs with
  | case1 => cases h
  | case2 covered done position hnot value lo hi bs count ih =>
    obtain ⟨offset, he, hle⟩ := ih h
    refine ⟨offset, he, ?_⟩
    simp only [List.length_cons]
    omega
  | case3 covered done position =>
    cases h
    exact ⟨position, rfl, Nat.le_add_right _ _⟩
  | case4 covered done position =>
    cases h
    refine ⟨position + 1, rfl, ?_⟩
    rw [List.length_cons]
    omega

theorem readRuns_append {length covered n : Nat} {done runs : List Run}
    (h : readRuns length covered done position bs = .ok (runs, n, rest)) (more : Bytes) :
    readRuns length covered done position (bs ++ more) = .ok (runs, n, ⟨rest.bytes ++ more, rest.position⟩) := by
  fun_induction readRuns length covered done position bs with
  | case1 bs covered done position hfull =>
    obtain ⟨rfl, rfl, rfl⟩ : done.reverse = runs ∧ covered = n ∧ (⟨bs, position⟩ : Rest) = rest := by
      simpa using h
    rw [readRuns.eq_def, if_pos hfull]
  | case2 covered done position hnot value lo hi bs count ih =>
    rw [readRuns.eq_def, if_neg hnot]
    exact ih h
  | case3 => cases h
  | case4 => cases h

theorem readBody_error {flag : UInt8} {length : Nat} (h : readBody flag length rest = .error e) :
    (∃ offset, e = .truncated offset ∧ offset ≤ rest.position + rest.bytes.length) ∨
      Fault flag length e ∧ ∀ more, readBody flag length ⟨rest.bytes ++ more, rest.position⟩ = .error e := by
  unfold readBody at h ⊢
  split at h
  · dsimp only at h
    split at h
    · cases h
    · obtain rfl := Except.error.inj h
      exact .inl ⟨rest.position, rfl, Nat.le_add_right _ _⟩
  · next hliteral =>
    split at h
    · next hdifference =>
      rcases hruns : readRuns length 0 [] rest.position rest.bytes with e' | ⟨runs, covered, rest'⟩
      · rw [hruns] at h
        obtain rfl := Except.error.inj h
        exact .inl (readRuns_error hruns)
      · rw [hruns] at h
        dsimp only [bind, Except.bind] at h
        split at h
        · next hmore =>
          obtain rfl := Except.error.inj h
          obtain ⟨_, rfl, hcovered, -, -, hneeded⟩ := readRuns_ok hruns
          simp only [Nat.zero_add] at hcovered hneeded
          have hlast : covered < length + 65536 := by
            rw [hcovered] at hmore ⊢
            exact Run.total_lt_of_needed hmore hneeded
          refine .inr ⟨.blockTooLong covered hdifference hmore hlast, ?_⟩
          intro more
          rw [if_neg hliteral, if_pos hdifference, readRuns_append hruns more]
          dsimp only [bind, Except.bind]
          rw [if_pos hmore]
          rfl
        · cases h
    · next hdifference =>
      obtain rfl := Except.error.inj h
      refine .inr ⟨.unknownBlock hliteral hdifference, ?_⟩
      intro more
      rw [if_neg hliteral, if_neg hdifference]

/-- A block that cannot be read ends too early, or it has a fault that stays, whatever stands behind it. -/
theorem readBlock_error (h : readBlock ⟨bs, position⟩ = .error e) :
    (∃ offset, e = .truncated offset ∧ offset ≤ position + bs.length) ∨
      (∃ flag lo hi tail, bs = flag :: lo :: hi :: tail ∧ Fault flag (Bytes.toNat [lo, hi]) e) ∧
        ∀ more, readBlock ⟨bs ++ more, position⟩ = .error e := by
  rcases bs with _ | ⟨flag, _ | ⟨lo, _ | ⟨hi, bs⟩⟩⟩
  · obtain rfl := Except.error.inj h
    exact .inl ⟨position, rfl, Nat.le_add_right _ _⟩
  · obtain rfl := Except.error.inj h
    exact .inl ⟨position + 1, rfl, Nat.le_refl _⟩
  · obtain rfl := Except.error.inj h
    exact .inl ⟨position + 1, rfl, Nat.add_le_add_left (Nat.le_succ 1) _⟩
  · rcases readBody_error h with ⟨offset, he, hle⟩ | ⟨hfault, hstays⟩
    · refine .inl ⟨offset, he, ?_⟩
      change offset ≤ position + 3 + bs.length at hle
      simp only [List.length_cons]
      omega
    · exact .inr ⟨⟨flag, lo, hi, bs, rfl, hfault⟩, hstays⟩

/-! ### Payloads that cannot be parsed -/

/-- Blocks that can be read move the place of reading on by their length. -/
theorem readBlock_position {rest' : Rest} {b : BlockBody} (h : readBlock rest = .ok (b, rest')) :
    rest' = ⟨rest'.bytes, rest.position + b.bytes.length⟩ := by
  obtain ⟨hsound, hbytes⟩ := readBlock_ok h
  have hread := readBlock_bytes hsound rest.position rest'.bytes
  rw [← hbytes, h] at hread
  exact (Prod.mk.inj (Except.ok.inj hread)).2

theorem readBlocks_error {fuel offset : Nat} {done : List Block} (h : readBlocks fuel offset done rest = .error e) :
    ∃ (bodies : List BlockBody) (tail : Bytes), (∀ b ∈ bodies, b.Sound) ∧ tail ≠ [] ∧
      rest.bytes = bodies.flatMap BlockBody.bytes ++ tail ∧
      readBlock ⟨tail, rest.position + (bodies.flatMap BlockBody.bytes).length⟩ = .error e := by
  induction fuel generalizing offset done rest with
  | zero => cases h
  | succ fuel ih =>
    unfold readBlocks at h
    split at h
    · cases h
    · next hne =>
      rcases hblock : readBlock rest with e' | ⟨b, rest'⟩
      · rw [hblock] at h
        obtain rfl := Except.error.inj h
        refine ⟨[], rest.bytes, List.forall_mem_nil _, ?_, rfl, hblock⟩
        simpa using hne
      · rw [hblock] at h
        obtain ⟨bodies, tail, hsounds, htail, hrest, hlast⟩ := ih h
        obtain ⟨hsound, hbytes⟩ := readBlock_ok hblock
        refine ⟨b :: bodies, tail, List.forall_mem_cons.mpr ⟨hsound, hsounds⟩, htail, ?_, ?_⟩
        · rw [hbytes, hrest, List.flatMap_cons, List.append_assoc]
        · rw [readBlock_position hblock] at hlast
          rwa [List.flatMap_cons, List.length_append, ← Nat.add_assoc]

theorem readBlocks_of_error {bodies : List BlockBody} {tail : Bytes} (hsound : ∀ b ∈ bodies, b.Sound)
    (htail : tail ≠ []) {fuel : Nat} (hfuel : (bodies.flatMap BlockBody.bytes ++ tail).length ≤ fuel)
    (h : readBlock ⟨tail, position + (bodies.flatMap BlockBody.bytes).length⟩ = .error e) (offset : Nat)
    (done : List Block) :
    readBlocks fuel offset done ⟨bodies.flatMap BlockBody.bytes ++ tail, position⟩ = .error e := by
  have hpos : 0 < tail.length := List.length_pos_iff.mpr htail
  induction bodies generalizing fuel offset done position with
  | nil =>
    rw [List.flatMap_nil, List.nil_append] at hfuel ⊢
    obtain ⟨fuel, rfl⟩ : ∃ j, fuel = j + 1 := ⟨fuel - 1, by omega⟩
    have hne : tail.isEmpty = false := by simpa using htail
    rw [readBlocks, hne, if_neg Bool.false_ne_true]
    exact congrArg (· >>= _) h
  | cons b bodies ih =>
    obtain ⟨hb, hbodies⟩ := List.forall_mem_cons.mp hsound
    have hbpos := b.length_bytes_pos
    rw [List.flatMap_cons, List.append_assoc] at hfuel ⊢
    rw [List.flatMap_cons, List.length_append, ← Nat.add_assoc] at h
    rw [List.length_append] at hfuel
    obtain ⟨fuel, rfl⟩ : ∃ j, fuel = j + 1 := ⟨fuel - 1, by omega⟩
    have hne : (b.bytes ++ (bodies.flatMap BlockBody.bytes ++ tail)).isEmpty = false := by
      simp [htail]
    rw [readBlocks, hne, if_neg Bool.false_ne_true, readBlock_bytes hb]
    exact ih hbodies (by omega) h _ _

/-- What cannot be parsed consists of blocks and of bytes that cannot be read as a block. -/
theorem parse_eq_error_iff {d : Bytes} :
    parse d = .error e ↔ ∃ (bodies : List BlockBody) (tail : Bytes), (∀ b ∈ bodies, b.Sound) ∧ tail ≠ [] ∧
      d = bodies.flatMap BlockBody.bytes ++ tail ∧
      readBlock ⟨tail, (bodies.flatMap BlockBody.bytes).length⟩ = .error e := by
  constructor
  · intro h
    obtain ⟨bodies, tail, hsound, htail, hd, hlast⟩ := readBlocks_error h
    rw [Nat.zero_add] at hlast
    exact ⟨bodies, tail, hsound, htail, hd, hlast⟩
  · rintro ⟨bodies, tail, hsound, htail, rfl, hlast⟩
    refine readBlocks_of_error hsound htail (Nat.le_refl _) ?_ 0 []
    rwa [Nat.zero_add]

/-- A payload that cannot be parsed ends too early, or a block of it has a fault that stays, whatever stands behind. -/
theorem parse_error {d : Bytes} (h : parse d = .error e) :
    (∃ offset, e = .truncated offset ∧ offset ≤ d.length) ∨
      (∃ front flag lo hi tail blocks, d = front ++ flag :: lo :: hi :: tail ∧ parse front = .ok blocks ∧
        Fault flag (Bytes.toNat [lo, hi]) e) ∧
        ∀ more, parse (d ++ more) = .error e := by
  obtain ⟨bodies, tail, hsound, htail, rfl, hlast⟩ := parse_eq_error_iff.mp h
  rcases readBlock_error hlast with ⟨offset, he, hle⟩ | ⟨⟨flag, lo, hi, bs, rfl, hfault⟩, hstays⟩
  · rw [← List.length_append] at hle
    exact .inl ⟨offset, he, hle⟩
  · refine .inr ⟨⟨_, flag, lo, hi, bs, _, rfl, parse_bytes hsound, hfault⟩, ?_⟩
    intro more
    refine parse_eq_error_iff.mpr ⟨bodies, _, hsound, ?_, List.append_assoc .., hstays more⟩
    simp

/-- The bodies of a payload that was parsed. -/
theorem bodies_of_parse {d : Bytes} {blocks : List Block} (h : parse d = .ok blocks) :
    ∃ bodies : List BlockBody, (∀ b ∈ bodies, b.Sound) ∧ d = bodies.flatMap BlockBody.bytes ∧
      blocks = Block.place 0 bodies :=
  readBlocks_ok (Nat.le_refl (Rest.bytes ⟨d, 0⟩).length) h

theorem sum_lengths_place (offset : Nat) (bodies : List BlockBody) :
    ((Block.place offset bodies).map fun b => b.body.length).sum = (bodies.map BlockBody.length).sum := by
  induction bodies generalizing offset with
  | nil => rfl
  | cons b bodies ih => rw [Block.place, List.map_cons, List.sum_cons, ih, List.map_cons, List.sum_cons]

/-- What follows a payload that can be parsed is parsed as if it stood alone. -/
theorem parse_append_of_ok {p : Bytes} {blocks : List Block} (h : parse p = .ok blocks) (q : Bytes) :
    parse (p ++ q) = behind p.length
      (fun more => blocks ++ more.map (Block.behind (blocks.map fun b => b.body.length).sum)) (parse q) := by
  obtain ⟨bodies, hsound, rfl, rfl⟩ := bodies_of_parse h
  rcases hq : parse q with e | more
  · obtain ⟨front, tail, hfront, htail, rfl, hlast⟩ := parse_eq_error_iff.mp hq
    refine parse_eq_error_iff.mpr
      ⟨bodies ++ front, tail, List.forall_mem_append.mpr ⟨hsound, hfront⟩, htail, ?_, ?_⟩
    · rw [List.flatMap_append, List.append_assoc]
    · have hlater := readBlock_behind ⟨tail, (front.flatMap BlockBody.bytes).length⟩
        (bodies.flatMap BlockBody.bytes).length
      rw [hlast] at hlater
      rw [List.flatMap_append, List.length_append]
      exact hlater
  · obtain ⟨bodies', hsound', rfl, rfl⟩ := bodies_of_parse hq
    rw [← List.flatMap_append, parse_bytes (List.forall_mem_append.mpr ⟨hsound, hsound'⟩), behind,
      sum_lengths_place, Block.map_behind_place, Block.place_append, Nat.zero_add, Nat.add_zero]

/-- A payload in two parts is parsed part by part: if the first part can be parsed, its blocks come first, and then those
of the second part, each moved on by the bytes that the first part produces, or the error of the second part, with the
place of an early end moved on by the length of the first.  If a payload can be parsed, so can every front part of it,
with blocks that the whole begins with, unless it ends too early.  Every other error stays, whatever follows.  An early
end lies within the payload.  Runs that cover too much do so by less than 65536 bytes, the length being the one that the
header behind the last complete block says. -/
theorem parse_append (p q : Bytes) :
    (∀ blocks, parse p = .ok blocks → parse (p ++ q) = behind p.length
      (fun more => blocks ++ more.map (Block.behind (blocks.map fun b => b.body.length).sum)) (parse q)) ∧
    (∀ blocks, parse (p ++ q) = .ok blocks →
      (∃ front, parse p = .ok front ∧ front <+: blocks) ∨ ∃ offset, parse p = .error (.truncated offset)) ∧
    (∀ e, parse p = .error e → (∀ offset, e ≠ .truncated offset) → parse (p ++ q) = .error e) ∧
    (∀ offset, parse p = .error (.truncated offset) → offset ≤ p.length) ∧
    ∀ covered, parse p = .error (.blockTooLong covered) →
      ∃ front lo hi tail blocks, p = front ++ BlockBody.differenceFlag :: lo :: hi :: tail ∧
        parse front = .ok blocks ∧ Bytes.toNat [lo, hi] < covered ∧ covered < Bytes.toNat [lo, hi] + 65536 := by
  refine ⟨fun blocks hp => parse_append_of_ok hp q, ?_, ?_, ?_, ?_⟩
  · intro blocks hblocks
    rcases hp : parse p with e | front
    · rcases parse_error hp with ⟨offset, rfl, -⟩ | ⟨-, hstays⟩
      · exact .inr ⟨offset, rfl⟩
      · rw [hstays q] at hblocks
        cases hblocks
    · rw [parse_append_of_ok hp q] at hblocks
      rcases hq : parse q with e | more
      · rw [hq] at hblocks
        cases hblocks
      · rw [hq] at hblocks
        obtain rfl := Except.ok.inj hblocks
        exact .inl ⟨front, rfl, List.prefix_append _ _⟩
  · intro e hp hkind
    rcases parse_error hp with ⟨offset, he, -⟩ | ⟨-, hstays⟩
    · exact absurd he (hkind offset)
    · exact hstays q
  · intro offset hp
    rcases parse_error hp with ⟨offset', he, hle⟩ | ⟨⟨_, _, _, _, _, _, _, _, hfault⟩, -⟩
    · obtain rfl := DeltaError.truncated.inj he
      exact hle
    · cases hfault
  · intro covered hp
    rcases parse_error hp with ⟨offset, he, -⟩ | ⟨⟨front, flag, lo, hi, tail, blocks, hd, hfront, hfault⟩, -⟩
    · cases he
    · cases hfault with
      | blockTooLong _ hdifference hmore hlast =>
        subst hdifference
        exact ⟨front, lo, hi, tail, blocks, hd, hfront, hmore, hlast⟩

section Sample

/-- A literal block, and a difference block of two bytes with a run that covers five. -/
def sampleOvershoot : Bytes := [0, 1, 0, 42, 1, 2, 0, 9, 5, 0]

/-- The whole has a fault that stays, in a block that is two bytes long; its first block is parsed as it stands; cut inside
the run, it ends too early. -/
theorem parse_append_sampleOvershoot :
    parse sampleOvershoot = .error (.blockTooLong 5) ∧
    (∀ q, parse (sampleOvershoot ++ q) = .error (.blockTooLong 5)) ∧
    (∃ front lo hi tail blocks, sampleOvershoot = front ++ BlockBody.differenceFlag :: lo :: hi :: tail ∧
      parse front = .ok blocks ∧ Bytes.toNat [lo, hi] < 5 ∧ 5 < Bytes.toNat [lo, hi] + 65536) ∧
    parse [0, 1, 0, 42] = .ok [⟨0, .literal [42]⟩] ∧
    parse ([0, 1, 0, 42] ++ [0, 1, 0, 43]) = .ok [⟨0, .literal [42]⟩, ⟨1, .literal [43]⟩] ∧
    ((∃ front, parse [0, 1, 0, 42] = .ok front ∧ front <+: [⟨0, .literal [42]⟩, ⟨1, .literal [43]⟩]) ∨
      ∃ offset, parse [0, 1, 0, 42] = .error (.truncated offset)) ∧
    parse (sampleOvershoot.take 8) = .error (.truncated 8) ∧ 8 ≤ (sampleOvershoot.take 8).length := by
  have hwhole : parse sampleOvershoot = .error (.blockTooLong 5) := by decide
  have hfirst : parse [0, 1, 0, 42] = .ok [⟨0, .literal [42]⟩] := by decide
  have hboth : parse ([0, 1, 0, 42] ++ [0, 1, 0, 43]) = .ok [⟨0, .literal [42]⟩, ⟨1, .literal [43]⟩] :=
    (parse_append [0, 1, 0, 42] [0, 1, 0, 43]).1 _ hfirst
  have hcut : parse (sampleOvershoot.take 8) = .error (.truncated 8) := by decide
  refine ⟨hwhole, ?_, ?_, hfirst, hboth, ?_, hcut, ?_⟩
  · intro q
    exact (parse_append sampleOvershoot q).2.2.1 _ hwhole (by simp)
  · exact (parse_append sampleOvershoot []).2.2.2.2 5 hwhole
  · exact (parse_append [0, 1, 0, 42] [0, 1, 0, 43]).2.1 _ hboth
  · exact (parse_append (sampleOvershoot.take 8) []).2.2.2.1 8 hcut

end Sample

end Delta
end LevelLink
