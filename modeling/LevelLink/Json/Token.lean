import LevelLink.Json.Value

/-!
# JSON tokens

The text of a document is cut into tokens; the white space between them is dropped.  `JsonToken.read?` reads
the token at the front of a text and `JsonToken.readAll?` all of them; `JsonToken.chars` spells a token.
-/

namespace LevelLink

/-- A token of a JSON document. -/
inductive JsonToken where
  | openArray | closeArray | openObject | closeObject | comma | colon
  | null
  | bool (value : Bool)
  | number (value : JsonNumber)
  | string (text : JsonText)
  deriving DecidableEq, Repr

namespace JsonToken

/-! ### Characters -/

/-- The white space of JSON. -/
def isBlank (c : Char) : Bool := c == ' ' || c == '\n' || c == '\t' || c == '\r'

def isDigit (c : Char) : Bool := '0' ≤ c && c ≤ '9'

def hexValue? (c : Char) : Option Nat :=
  if '0' ≤ c ∧ c ≤ '9' then some (c.toNat - '0'.toNat)
  else if 'a' ≤ c ∧ c ≤ 'f' then some (c.toNat - 'a'.toNat + 10)
  else if 'A' ≤ c ∧ c ≤ 'F' then some (c.toNat - 'A'.toNat + 10)
  else none

/-! ### Strings -/

/-- The character that a one-letter escape stands for. -/
def escape? : Char → Option Char
  | '"' => some '"'
  | '\\' => some '\\'
  | '/' => some '/'
  | 'b' => some '\x08'
  | 'f' => some '\x0c'
  | 'n' => some '\n'
  | 'r' => some '\r'
  | 't' => some '\t'
  | _ => none

/-- The piece that four hexadecimal digits stand for. -/
def unit? (a b c d : Char) : Option JsonPiece := do
  let n := (((← hexValue? a) * 16 + (← hexValue? b)) * 16 + (← hexValue? c)) * 16 + (← hexValue? d)
  return if 0xd800 ≤ n ∧ n < 0xe000 then .surrogate n else .char (Char.ofNat n)

/-- Reads a string after its opening quote; `done` are the pieces so far, the latest first. -/
def readString? (done : JsonText) : List Char → Option (JsonText × List Char)
  | '"' :: rest => some (done.reverse, rest)
  | '\\' :: 'u' :: a :: b :: c :: d :: rest => do readString? ((← unit? a b c d) :: done) rest
  | '\\' :: c :: rest => do readString? (.char (← escape? c) :: done) rest
  | c :: rest => if c == '\\' || c.toNat < 0x20 then none else readString? (.char c :: done) rest
  | [] => none

/-! ### Numbers -/

/-- Reads the fraction and the exponent that may follow the integer part.  Gives their spelling. -/
def readTail? (cs : List Char) : Option (List Char × List Char) := do
  let (fraction, cs) ←
    match cs with
    | '.' :: rest =>
      if (rest.takeWhile isDigit).isEmpty then none
      else some ('.' :: rest.takeWhile isDigit, rest.dropWhile isDigit)
    | cs => some ([], cs)
  match cs with
  | e :: rest =>
    if e == 'e' || e == 'E' then
      let (sign, rest) :=
        match rest with
        | '+' :: rest => (['+'], rest)
        | '-' :: rest => (['-'], rest)
        | rest => ([], rest)
      if (rest.takeWhile isDigit).isEmpty then none
      else some (fraction ++ e :: sign ++ rest.takeWhile isDigit, rest.dropWhile isDigit)
    else
      some (fraction, cs)
  | [] => some (fraction, [])

/-- Reads a number without its sign.  A zero in front stands alone. -/
def readMagnitude? (negative : Bool) (cs : List Char) : Option (JsonNumber × List Char) := do
  let (whole, cs) ←
    match cs with
    | '0' :: rest => some (['0'], rest)
    | cs =>
      if (cs.takeWhile isDigit).isEmpty then none
      else some (cs.takeWhile isDigit, cs.dropWhile isDigit)
  let (tail, cs) ← readTail? cs
  if tail.isEmpty then
    return (.integer negative whole, cs)
  else
    return (.decimal ((if negative then ['-'] else []) ++ whole ++ tail), cs)

/-! ### Tokens -/

/-- Reads the token at the front of a text without white space there. -/
def read? : List Char → Option (JsonToken × List Char)
  | '[' :: rest => some (openArray, rest)
  | ']' :: rest => some (closeArray, rest)
  | '\x7b' :: rest => some (openObject, rest)
  | '\x7d' :: rest => some (closeObject, rest)
  | ',' :: rest => some (comma, rest)
  | ':' :: rest => some (colon, rest)
  | 'n' :: 'u' :: 'l' :: 'l' :: rest => some (null, rest)
  | 't' :: 'r' :: 'u' :: 'e' :: rest => some (bool true, rest)
  | 'f' :: 'a' :: 'l' :: 's' :: 'e' :: rest => some (bool false, rest)
  | '"' :: rest => do
    let (t, rest) ← readString? [] rest
    return (string t, rest)
  | '-' :: rest => do
    let (n, rest) ← readMagnitude? true rest
    return (number n, rest)
  | cs => do
    let (n, rest) ← readMagnitude? false cs
    return (number n, rest)

/-- Reads at most `fuel` tokens, those of `done` being read. -/
def readUpTo? : (fuel : Nat) → (done : List JsonToken) → List Char → Option (List JsonToken)
  | fuel, done, cs =>
    match cs.dropWhile isBlank with
    | [] => some done.reverse
    | c :: rest =>
      match fuel with
      | 0 => none
      | fuel + 1 => do
        let (t, rest) ← read? (c :: rest)
        readUpTo? fuel (t :: done) rest

/-- The tokens of a text.  A token takes a character, so their number bounds the number of tokens. -/
def readAll? (cs : List Char) : Option (List JsonToken) := readUpTo? cs.length [] cs

/-! ### Spelling -/

/-- The last four hexadecimal digits of `n`. -/
def hex4 (n : Nat) : List Char :=
  [n / 4096, n / 256, n / 16, n].map fun k => Nat.digitChar (k % 16)

/-- The spelling of one piece of a string: what cannot stand for itself is escaped. -/
def pieceChars : JsonPiece → List Char
  | .char '"' => ['\\', '"']
  | .char '\\' => ['\\', '\\']
  | .char '\x08' => ['\\', 'b']
  | .char '\x0c' => ['\\', 'f']
  | .char '\n' => ['\\', 'n']
  | .char '\r' => ['\\', 'r']
  | .char '\t' => ['\\', 't']
  | .char c => if c.toNat < 0x20 then '\\' :: 'u' :: hex4 c.toNat else [c]
  | .surrogate n => '\\' :: 'u' :: hex4 n

def numberChars : JsonNumber → List Char
  | .integer negative digits => (if negative then ['-'] else []) ++ digits
  | .decimal spelling => spelling

/-- The spelling of a token. -/
def chars : JsonToken → List Char
  | openArray => ['[']
  | closeArray => [']']
  | openObject => ['\x7b']
  | closeObject => ['\x7d']
  | comma => [',']
  | colon => [':']
  | null => ['n', 'u', 'l', 'l']
  | bool true => ['t', 'r', 'u', 'e']
  | bool false => ['f', 'a', 'l', 's', 'e']
  | number n => numberChars n
  | string t => '"' :: t.flatMap pieceChars ++ ['"']

end JsonToken
end LevelLink
