import Mathlib.Data.List.Chain
import Mathlib.Data.List.TakeWhile
import LevelLink.Json.Token

/-!
# How JSON is spelled

A token can be spelled in more ways than one, and white space is free.  `JsonToken.Spelt` says which characters spell a
token, and `JsonToken.Spells` which texts consist of given tokens, both without the reader.  A number ends where
something stands that cannot belong to it; so a text is read as its tokens if there is a comma or a closing bracket
behind every number (`JsonToken.Separated`), as there is in a document.  Main statement: `JsonToken.readAll?_of_spells`.
-/

namespace LevelLink

open JsonToken (isDigit isBlank escape? unit?)

/-! ### Strings -/

/-- The characters that spell a piece of a string. -/
inductive JsonPiece.Spelt : JsonPiece → List Char → Prop where
  | raw {c : Char} (hquote : c ≠ '"') (hescape : c ≠ '\\') (hcontrol : 0x20 ≤ c.toNat) : Spelt (.char c) [c]
  | escape {letter c : Char} (h : escape? letter = some c) : Spelt (.char c) ['\\', letter]
  | unit {a b c d : Char} {p : JsonPiece} (h : unit? a b c d = some p) : Spelt p ['\\', 'u', a, b, c, d]

/-- The characters that spell a string, without its quotes. -/
inductive JsonText.Spelt : JsonText → List Char → Prop where
  | nil : Spelt [] []
  | cons {p : JsonPiece} {t : JsonText} {cs ds : List Char} (first : p.Spelt cs) (others : Spelt t ds) :
      Spelt (p :: t) (cs ++ ds)

/-! ### Numbers -/

/-- One decimal digit or more. -/
def IsDigits (ds : List Char) : Prop := ds ≠ [] ∧ ∀ c ∈ ds, isDigit c = true

/-- The digits of an integer, in which a zero in front stands alone. -/
def IsWhole (ds : List Char) : Prop := IsDigits ds ∧ (ds.head? = some '0' → ds = ['0'])

/-- A fraction, or nothing. -/
inductive IsFraction : List Char → Prop where
  | none : IsFraction []
  | digits {ds : List Char} (h : IsDigits ds) : IsFraction ('.' :: ds)

/-- An exponent, or nothing. -/
inductive IsExponent : List Char → Prop where
  | none : IsExponent []
  | digits {e : Char} {sign ds : List Char} (he : e = 'e' ∨ e = 'E') (hsign : sign ∈ [[], ['+'], ['-']])
      (h : IsDigits ds) : IsExponent (e :: (sign ++ ds))

/-- The sign of a number. -/
def signChars (negative : Bool) : List Char := if negative then ['-'] else []

/-- The characters that spell a number. -/
inductive JsonNumber.Spelt : JsonNumber → List Char → Prop where
  | integer {negative : Bool} {whole : List Char} (h : IsWhole whole) :
      Spelt (.integer negative whole) (signChars negative ++ whole)
  | decimal {negative : Bool} {whole fraction exponent : List Char} (h : IsWhole whole) (hf : IsFraction fraction)
      (he : IsExponent exponent) (hsome : fraction ++ exponent ≠ []) :
      Spelt (.decimal (signChars negative ++ whole ++ (fraction ++ exponent)))
        (signChars negative ++ whole ++ (fraction ++ exponent))

namespace JsonToken

variable {cs ds rest : List Char} {c : Char}

/-! ### Tokens and texts -/

/-- The characters that spell a token. -/
inductive Spelt : JsonToken → List Char → Prop where
  | openArray : Spelt .openArray ['[']
  | closeArray : Spelt .closeArray [']']
  | openObject : Spelt .openObject ['\x7b']
  | closeObject : Spelt .closeObject ['\x7d']
  | comma : Spelt .comma [',']
  | colon : Spelt .colon [':']
  | null : Spelt .null ['n', 'u', 'l', 'l']
  | bool (b : Bool) : Spelt (.bool b) (chars (.bool b))
  | number {n : JsonNumber} {cs : List Char} (h : n.Spelt cs) : Spelt (.number n) cs
  | string {t : JsonText} {cs : List Char} (h : t.Spelt cs) : Spelt (.string t) ('"' :: (cs ++ ['"']))

/-- The text consists of these tokens, with any white space before, between and behind them. -/
inductive Spells : List JsonToken → List Char → Prop where
  | nil {blanks : List Char} (h : ∀ c ∈ blanks, isBlank c = true) : Spells [] blanks
  | cons {t : JsonToken} {ts : List JsonToken} {blanks cs rest : List Char} (hblanks : ∀ c ∈ blanks, isBlank c = true)
      (first : t.Spelt cs) (others : Spells ts rest) : Spells (t :: ts) (blanks ++ (cs ++ rest))

/-- Whether the token can stand behind a number: a comma or a closing bracket. -/
def isEnd (t : JsonToken) : Bool := t = .comma || t = .closeArray || t = .closeObject

/-- Behind every number there is nothing, a comma or a closing bracket. -/
def Separated (ts : List JsonToken) : Prop := ts.IsChain fun t t' => (∃ n, t = .number n) → t'.isEnd = true

theorem Separated.cons {t : JsonToken} {ts : List JsonToken} (ht : ∀ n, t ≠ .number n) (hts : Separated ts) :
    Separated (t :: ts) :=
  List.isChain_cons.mpr ⟨fun _ _ ⟨n, hn⟩ => absurd hn (ht n), hts⟩

/-- Tokens can come behind any others if they begin with one that ends a number. -/
theorem Separated.append {ts : List JsonToken} {t : JsonToken} {ts' : List JsonToken} (hts : Separated ts)
    (ht : t.isEnd = true) (hts' : Separated (t :: ts')) : Separated (ts ++ t :: ts') :=
  List.isChain_append.mpr ⟨hts, hts', fun _ _ _ hmem _ => by cases hmem; exact ht⟩

/-! ### Reading digits -/

/-- No digit comes next. -/
def NoDigit (cs : List Char) : Prop := ∀ c ∈ cs.head?, isDigit c = false

/-- Nothing comes next that can belong to a number. -/
def EndsNumber (cs : List Char) : Prop :=
  ∀ c ∈ cs.head?, isDigit c = false ∧ c ≠ '.' ∧ c ≠ 'e' ∧ c ≠ 'E'

theorem EndsNumber.noDigit (h : EndsNumber rest) : NoDigit rest := fun c hc => (h c hc).1

/-- Digits are taken as far as they go. -/
theorem takeWhile_digits (hds : ∀ c ∈ ds, isDigit c = true) (hrest : NoDigit rest) :
    (ds ++ rest).takeWhile isDigit = ds ∧ (ds ++ rest).dropWhile isDigit = rest := by
  rw [List.takeWhile_append_of_pos hds, List.dropWhile_append_of_pos hds]
  cases rest with
  | nil => simp
  | cons c rest => simp [hrest c rfl]

/-- A digit is none of the characters that mean something else. -/
theorem ne_of_isDigit {x : Char} (hc : isDigit c = true) (hx : isDigit x = false) : c ≠ x := by
  rintro rfl
  rw [hc] at hx
  cases hx

/-- Digits begin with a digit. -/
theorem exists_cons_of_isDigits (h : IsDigits ds) : ∃ c ds', ds = c :: ds' ∧ isDigit c = true := by
  obtain ⟨hne, hall⟩ := h
  obtain ⟨c, ds', rfl⟩ := List.exists_cons_of_ne_nil hne
  exact ⟨c, ds', rfl, hall c List.mem_cons_self⟩

theorem noDigit_of_isFraction (h : IsFraction cs) (hrest : NoDigit rest) : NoDigit (cs ++ rest) := by
  cases h with
  | none => exact hrest
  | digits h => exact fun c hc => by cases hc; rfl

theorem noDigit_of_isExponent (h : IsExponent cs) (hrest : NoDigit rest) : NoDigit (cs ++ rest) := by
  cases h with
  | none => exact hrest
  | digits he =>
    intro c hc
    cases hc
    rcases he with rfl | rfl <;> rfl

theorem ends_of_isBlank (hc : isBlank c = true) : isDigit c = false ∧ c ≠ '.' ∧ c ≠ 'e' ∧ c ≠ 'E' := by
  simp only [isBlank, Bool.or_eq_true, beq_iff_eq] at hc
  rcases hc with ((rfl | rfl) | rfl) | rfl <;> decide

/-! ### Reading numbers -/

/-- An exponent is read, and what follows it is left. -/
theorem readTail?_exponent (h : IsExponent cs) (hrest : EndsNumber rest) : readTail? (cs ++ rest) = some (cs, rest) := by
  cases h with
  | none =>
    cases rest with
    | nil => rfl
    | cons c rest =>
      obtain ⟨-, hdot, he, hE⟩ := hrest c rfl
      simp [readTail?, hdot, he, hE]
  | digits he hsign h =>
    obtain ⟨c, ds, rfl, hc⟩ := exists_cons_of_isDigits h
    have hplus : c ≠ '+' := ne_of_isDigit hc rfl
    have hminus : c ≠ '-' := ne_of_isDigit hc rfl
    obtain ⟨htake, hdrop⟩ := takeWhile_digits h.2 hrest.noDigit
    rw [List.cons_append] at htake hdrop
    simp only [List.mem_cons, List.not_mem_nil, or_false] at hsign
    rcases he with rfl | rfl <;> rcases hsign with rfl | rfl | rfl <;>
      simp [readTail?, htake, hdrop, hc, hplus, hminus]

/-- A fraction is read first, and then what follows it. -/
theorem readTail?_fraction (h : IsFraction cs) (hdot : rest.head? ≠ some '.') (hrest : NoDigit rest) :
    readTail? (cs ++ rest) = (readTail? rest).map fun (tail, rest) => (cs ++ tail, rest) := by
  cases h with
  | none => simp
  | @digits ds h =>
    obtain ⟨htake, hdrop⟩ := takeWhile_digits h.2 hrest
    cases rest with
    | nil => simp [readTail?, htake, hdrop, h.1, -List.append_nil]
    | cons c rest =>
      have hc : c ≠ '.' := by simpa using hdot
      simp [readTail?, htake, hdrop, h.1, hc, apply_ite (Option.map _)]

theorem readTail?_append {fraction exponent : List Char} (hf : IsFraction fraction) (he : IsExponent exponent)
    (hrest : EndsNumber rest) :
    readTail? (fraction ++ exponent ++ rest) = some (fraction ++ exponent, rest) := by
  have hdot : (exponent ++ rest).head? ≠ some '.' := by
    cases he with
    | none => exact fun hc => (hrest '.' hc).2.1 rfl
    | digits he => rcases he with rfl | rfl <;> simp
  rw [List.append_assoc, readTail?_fraction hf hdot (noDigit_of_isExponent he hrest.noDigit),
    readTail?_exponent he hrest]
  rfl

/-- A number is read without its sign: an integer if it has no fraction and no exponent. -/
theorem readMagnitude?_append {whole fraction exponent : List Char} (negative : Bool) (h : IsWhole whole)
    (hf : IsFraction fraction) (he : IsExponent exponent) (hrest : EndsNumber rest) :
    readMagnitude? negative (whole ++ (fraction ++ exponent) ++ rest) =
      some (if fraction ++ exponent = [] then .integer negative whole
        else .decimal (signChars negative ++ whole ++ (fraction ++ exponent)), rest) := by
  have hnext : NoDigit (fraction ++ exponent ++ rest) := by
    rw [List.append_assoc]
    exact noDigit_of_isFraction hf (noDigit_of_isExponent he hrest.noDigit)
  have htail := readTail?_append hf he hrest
  rw [List.append_assoc whole]
  generalize fraction ++ exponent = tail at *
  generalize tail ++ rest = next at *
  obtain ⟨c, ds, rfl, hc⟩ := exists_cons_of_isDigits h.1
  by_cases hzero : c = '0'
  · subst hzero
    obtain rfl : ds = [] := by simpa using h.2 rfl
    by_cases hsome : tail = [] <;> simp [readMagnitude?, htail, signChars, hsome]
  · obtain ⟨htake, hdrop⟩ := takeWhile_digits h.1.2 hnext
    rw [List.cons_append] at htake hdrop ⊢
    by_cases hsome : tail = [] <;> simp [readMagnitude?, htake, hdrop, htail, hzero, signChars, hsome]

/-- A number is read to its end, behind a sign if there is one. -/
theorem readMagnitude?_of_spelt {n : JsonNumber} (h : n.Spelt cs) (hrest : EndsNumber rest) :
    ∃ negative c ds, cs = signChars negative ++ c :: ds ∧ isDigit c = true ∧
      readMagnitude? negative (c :: ds ++ rest) = some (n, rest) := by
  cases h with
  | @integer negative whole h =>
    obtain ⟨c, ds, rfl, hc⟩ := exists_cons_of_isDigits h.1
    refine ⟨negative, c, ds, rfl, hc, ?_⟩
    simpa using readMagnitude?_append negative h .none .none hrest
  | @decimal negative whole fraction exponent h hf he hsome =>
    obtain ⟨c, ds, rfl, hc⟩ := exists_cons_of_isDigits h.1
    refine ⟨negative, c, ds ++ (fraction ++ exponent), by simp, hc, ?_⟩
    have hread := readMagnitude?_append negative h hf he hrest
    rwa [if_neg hsome] at hread

/-! ### Reading strings -/

/-- A piece of a string is read, however it is spelled. -/
theorem readString?_piece {p : JsonPiece} (h : p.Spelt cs) (done : JsonText) (rest : List Char) :
    readString? done (cs ++ rest) = readString? (p :: done) rest := by
  cases h with
  | raw hquote hescape hcontrol => simp [readString?, hescape, Nat.not_lt.mpr hcontrol]
  | @escape letter c h =>
    have hunit : letter ≠ 'u' := by
      rintro rfl
      simp [escape?] at h
    simp [readString?, h, hunit]
  | unit h => simp [readString?, h]

theorem readString?_append {t : JsonText} (h : t.Spelt cs) (done : JsonText) (rest : List Char) :
    readString? done (cs ++ '"' :: rest) = some (done.reverse ++ t, rest) := by
  induction h generalizing done with
  | nil => simp [readString?]
  | cons first others ih => rw [List.append_assoc, readString?_piece first, ih]; simp

/-! ### Reading tokens -/

theorem read?_digit (hc : isDigit c = true) :
    read? (c :: cs) = (readMagnitude? false (c :: cs)).map fun (n, rest) => (.number n, rest) := by
  rw [read?.eq_def]
  split
  case h_12 => rw [Option.map_eq_bind]; rfl
  all_goals
    rename_i heq
    obtain ⟨rfl, -⟩ := List.cons.inj heq
    cases hc

/-- A token is read, however it is spelled; a number only if nothing follows that could belong to it. -/
theorem read?_append {t : JsonToken} (h : t.Spelt cs) (hend : (∃ n, t = .number n) → EndsNumber rest) :
    read? (cs ++ rest) = some (t, rest) := by
  cases h with
  | bool b => cases b <;> rfl
  | number h =>
    obtain ⟨negative, c, ds, rfl, hc, hread⟩ := readMagnitude?_of_spelt h (hend ⟨_, rfl⟩)
    rw [List.cons_append] at hread
    cases negative with
    | false => simp [signChars, read?_digit hc, hread]
    | true => simp [signChars, read?, hread]
  | string h => simp [read?, readString?_append h]
  | _ => rfl

/-- A spelling does not begin with white space. -/
theorem exists_cons_of_spelt {t : JsonToken} (h : t.Spelt cs) : ∃ c ds, cs = c :: ds ∧ isBlank c = false := by
  cases h with
  | bool b => cases b <;> exact ⟨_, _, rfl, rfl⟩
  | number h =>
    obtain ⟨negative, c, ds, rfl, hc, -⟩ := readMagnitude?_of_spelt h (show EndsNumber [] by simp [EndsNumber])
    cases negative with
    | false =>
      refine ⟨c, ds, rfl, Bool.eq_false_iff.mpr fun hblank => ?_⟩
      rw [(ends_of_isBlank hblank).1] at hc
      cases hc
    | true => exact ⟨_, _, rfl, rfl⟩
  | _ => exact ⟨_, _, rfl, rfl⟩

/-- Behind a number there is white space or the token that ends it, and neither can belong to it. -/
theorem endsNumber_of_spells {ts : List JsonToken} (h : Spells ts rest) (hts : ∀ t ∈ ts.head?, t.isEnd = true) :
    EndsNumber rest := by
  intro c hc
  cases h with
  | nil h => exact ends_of_isBlank (h c (List.mem_of_mem_head? hc))
  | @cons t ts blanks cs rest hblanks first others =>
    cases blanks with
    | cons b blanks =>
      obtain rfl : b = c := by simpa using hc
      exact ends_of_isBlank (hblanks b List.mem_cons_self)
    | nil =>
      have ht : t.isEnd = true := hts t rfl
      cases first <;> first | cases hc; decide | cases ht

/-- A text is read as its tokens. -/
theorem readUpTo?_of_spells {ts : List JsonToken} {fuel : Nat} (h : Spells ts cs) (hts : Separated ts)
    (hfuel : cs.length ≤ fuel) (done : List JsonToken) : readUpTo? fuel done cs = some (done.reverse ++ ts) := by
  induction h generalizing fuel done with
  | @nil blanks h =>
    have hdrop : blanks.dropWhile isBlank = [] := List.dropWhile_eq_nil_iff.mpr h
    unfold readUpTo?
    simp [hdrop]
  | @cons t ts blanks cs rest hblanks first others ih =>
    obtain ⟨hnext, hts⟩ := List.isChain_cons.mp hts
    have hread : read? (cs ++ rest) = some (t, rest) :=
      read?_append first fun hn => endsNumber_of_spells others fun t' ht' => hnext t' ht' hn
    obtain ⟨c, ds, rfl, hc⟩ := exists_cons_of_spelt first
    rw [List.cons_append] at hread hfuel ⊢
    have hdrop : (blanks ++ c :: (ds ++ rest)).dropWhile isBlank = c :: (ds ++ rest) := by
      rw [List.dropWhile_append_of_pos hblanks, List.dropWhile_cons_of_neg (by simp [hc])]
    -- The token takes a character, so the rest of the fuel is enough for the rest of the text.
    simp only [List.length_append, List.length_cons] at hfuel
    obtain ⟨left, rfl⟩ : ∃ left, fuel = left + 1 := ⟨fuel - 1, by omega⟩
    have hrest : readUpTo? left (t :: done) rest = some ((t :: done).reverse ++ ts) := ih hts (by omega) (t :: done)
    unfold readUpTo?
    simp [hdrop, hread, hrest]

/-- The text of tokens in which every number has an end is read as these tokens. -/
theorem readAll?_of_spells {ts : List JsonToken} (h : Spells ts cs) (hts : Separated ts) :
    readAll? cs = some ts :=
  readUpTo?_of_spells h hts (Nat.le_refl _) []

/-! ### Spellings that are written -/

theorem hexValue?_digitChar {k : Nat} (hk : k < 16) : hexValue? (Nat.digitChar k) = some k := by
  revert k
  decide

/-- The four digits of a number below 65536 stand for it. -/
theorem unit?_digitChar {n : Nat} (hn : n < 65536) :
    unit? (Nat.digitChar (n / 4096 % 16)) (Nat.digitChar (n / 256 % 16)) (Nat.digitChar (n / 16 % 16))
        (Nat.digitChar (n % 16)) =
      some (if 0xd800 ≤ n ∧ n < 0xe000 then .surrogate n else .char (Char.ofNat n)) := by
  have hvalue : ((n / 4096 % 16 * 16 + n / 256 % 16) * 16 + n / 16 % 16) * 16 + n % 16 = n := by omega
  have hdigit (k : Nat) : hexValue? (Nat.digitChar (k % 16)) = some (k % 16) :=
    hexValue?_digitChar (Nat.mod_lt k (by decide))
  simp [unit?, hdigit, hvalue]

end JsonToken

/-- A character is written so that it is read back. -/
theorem JsonPiece.spelt_char (c : Char) : JsonPiece.Spelt (.char c) (JsonToken.pieceChars (.char c)) := by
  unfold JsonToken.pieceChars
  split
  case h_8 c' hquote hescape _ _ _ _ _ heq =>
    obtain rfl : c = c' := JsonPiece.char.inj heq
    split
    case isTrue hcontrol =>
      refine .unit ?_
      rw [JsonToken.unit?_digitChar (by omega), if_neg (by omega), Char.ofNat_toNat]
    case isFalse hcontrol => exact .raw hquote hescape (Nat.le_of_not_lt hcontrol)
  case h_9 heq => cases heq
  all_goals
    rename_i heq
    cases heq
    exact .escape rfl

theorem JsonText.spelt_ofString (s : String) :
    JsonText.Spelt (JsonText.ofString s) ((JsonText.ofString s).flatMap JsonToken.pieceChars) := by
  rw [JsonText.ofString]
  induction s.toList with
  | nil => exact .nil
  | cons c cs ih => exact .cons (JsonPiece.spelt_char c) ih

/-- The decimal digits of a number have no zero in front, unless the number is zero. -/
theorem isWhole_toDigits (n : Nat) : IsWhole (Nat.toDigits 10 n) := by
  have hdigits (n : Nat) : IsDigits (Nat.toDigits 10 n) :=
    ⟨Nat.toDigits_ne_nil, fun c hc => by
      simpa [Char.isDigit, isDigit, Char.le_def] using Nat.isDigit_of_mem_toDigits (by decide) (by decide) hc⟩
  refine ⟨hdigits n, fun hzero => ?_⟩
  -- The first digit stays when the last is taken off, until one digit is left.
  induction n using Nat.strongRecOn with
  | ind n ih =>
    by_cases hn : n < 10
    · rw [Nat.toDigits_of_lt_base hn] at hzero ⊢
      simpa using hzero
    · rw [Nat.toDigits_of_base_le (by decide) (by omega), List.head?_append_of_ne_nil _ Nat.toDigits_ne_nil] at hzero
      have hvalue := Nat.ofDigitChars_ten_toDigits (n := n / 10)
      rw [ih (n / 10) (by omega) hzero] at hvalue
      have hnil : n / 10 = 0 := hvalue.symm
      omega

end LevelLink
