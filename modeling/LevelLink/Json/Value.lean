/-!
# JSON values

A string is kept as it was written, piece by piece: an escape may name half of a surrogate pair, and then
the string has no text unless the other half follows (`JsonText.text?`).  A number is kept by its spelling, and
the digits of an integer are read when its value is asked for (`JsonNumber.readBelow?`).
-/

namespace LevelLink

/-- A piece of a JSON string: a character, or an escape that names half of a surrogate pair. -/
inductive JsonPiece where
  | char (c : Char)
  | surrogate (unit : Nat)
  deriving DecidableEq, Repr

/-- A JSON string as it was written. -/
abbrev JsonText := List JsonPiece

namespace JsonText

/-- A text, every character for itself. -/
def ofString (s : String) : JsonText := s.toList.map .char

/-- The character that two surrogates stand for. -/
def join? (high low : Nat) : Option Char :=
  if 0xd800 ≤ high ∧ high < 0xdc00 ∧ 0xdc00 ≤ low ∧ low < 0xe000 then
    some (Char.ofNat (0x10000 + (high - 0xd800) * 0x400 + (low - 0xdc00)))
  else
    none

/-- The characters of a string in which every surrogate has its other half. -/
def chars? : JsonText → Option (List Char)
  | [] => some []
  | .char c :: rest => (chars? rest).map (c :: ·)
  | .surrogate high :: .surrogate low :: rest => do
    let c ← join? high low
    let cs ← chars? rest
    return c :: cs
  | .surrogate _ :: _ => none

/-- The text of a string in which every surrogate has its other half. -/
def text? (t : JsonText) : Option String := (chars? t).map String.ofList

@[simp] theorem text?_ofString (s : String) : text? (ofString s) = some s := by
  have key : ∀ cs : List Char, chars? (cs.map .char) = some cs := by
    intro cs
    induction cs with
    | nil => rfl
    | cons c cs ih => simp [chars?, ih]
  simp [text?, ofString, key]

end JsonText

/-! ### Numbers -/

/-- A JSON number as it is spelt. -/
inductive JsonNumber where
  | integer (negative : Bool) (digits : List Char)
  /-- A number with a fraction or an exponent. -/
  | decimal (spelling : List Char)
  deriving DecidableEq, Repr

namespace JsonNumber

/-- The number that has the digit `c` behind those of `n`. -/
def extend (n : Nat) (c : Char) : Nat := 10 * n + (c.toNat - '0'.toNat)

/-- The number that decimal digits spell. -/
def ofDigits (ds : List Char) : Nat := ds.foldl extend 0

/-- The number that has the digit `c` behind those of `n`, if it is below `limit`. -/
def extendBelow? (limit n : Nat) (c : Char) : Option Nat :=
  if extend n c < limit then some (extend n c) else none

/-- The number that decimal digits spell, if it is below `limit`.  Reading ends with the digit that passes the
limit. -/
def readBelow? (limit : Nat) (ds : List Char) : Option Nat := ds.foldlM (extendBelow? limit) 0

theorem le_foldl_extend (n : Nat) (ds : List Char) : n ≤ ds.foldl extend n := by
  induction ds generalizing n with
  | nil => exact Nat.le_refl n
  | cons c ds ih =>
    have := ih (extend n c)
    simp only [List.foldl_cons, extend] at *
    omega

theorem foldlM_extendBelow? {limit n : Nat} (h : n < limit) (ds : List Char) :
    ds.foldlM (extendBelow? limit) n =
      if ds.foldl extend n < limit then some (ds.foldl extend n) else none := by
  induction ds generalizing n with
  | nil => simp [h]
  | cons c ds ih =>
    by_cases hc : extend n c < limit
    · simp only [List.foldlM_cons, extendBelow?, if_pos hc]
      exact ih hc
    · have := le_foldl_extend (extend n c) ds
      have hd : ¬ ds.foldl extend (extend n c) < limit := by omega
      simp [extendBelow?, hc, hd]

theorem readBelow?_eq {limit : Nat} (h : 0 < limit) (ds : List Char) :
    readBelow? limit ds = if ofDigits ds < limit then some (ofDigits ds) else none :=
  foldlM_extendBelow? h ds

end JsonNumber

/-! ### Values -/

/-- A JSON value.  The members of an object keep their order and may repeat. -/
inductive JsonValue where
  | null
  | bool (value : Bool)
  | number (value : JsonNumber)
  | string (text : JsonText)
  | array (items : List JsonValue)
  | object (members : List (JsonText × JsonValue))
  deriving Repr

namespace JsonValue

/-- A text as a value. -/
def ofString (s : String) : JsonValue := string (JsonText.ofString s)

/-- A natural number as a value. -/
def ofNat (n : Nat) : JsonValue := number (.integer false (Nat.toDigits 10 n))

def text? : JsonValue → Option String
  | string t => t.text?
  | _ => none

/-- A natural number below `limit`. -/
def natBelow? (limit : Nat) : JsonValue → Option Nat
  | number (.integer false ds) => JsonNumber.readBelow? limit ds
  | _ => none

def bool? : JsonValue → Option Bool
  | bool b => some b
  | _ => none

end JsonValue
end LevelLink
