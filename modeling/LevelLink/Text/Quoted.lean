import LevelLink.Text.Printed

/-!
# Quoted text

`Text.quoted s` is `s` between double quotes, fit for an error message: the quote, the backslash and the
common controls have short escapes, and every other character that does not print by itself is written by
its code point in braces.
-/

namespace LevelLink.Text

/-- The hexadecimal digits of `n`. -/
def hexDigits (n : Nat) : String := String.ofList (Nat.toDigits 16 n)

/-- The form of one character inside quotes. -/
def quotedChar (c : Char) : String :=
  match c with
  | '\x00' => "\\0"
  | '\t' => "\\t"
  | '\r' => "\\r"
  | '\n' => "\\n"
  | '"' => "\\\""
  | '\\' => "\\\\"
  | c => if standsAlone c then c.toString else "\\u\x7b" ++ hexDigits c.toNat ++ "\x7d"

/-- The text `s` between double quotes, every character in its quoted form. -/
def quoted (s : String) : String :=
  "\"" ++ String.join (s.toList.map quotedChar) ++ "\""

end LevelLink.Text
