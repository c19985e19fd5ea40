import DirtyRegion.Text.Unprintable

/-!
# Quoted texts — a text between quotation marks, fit to be read

`quoted` puts a text between double quotes and spells the characters that would not show: the quote
and the backslash with a backslash before them, four controls by a letter, and every other
unprintable character by its code point, as in `\u{200b}`.
-/

namespace DirtyRegion.Text

/-- The digits of `n` in base sixteen, in small letters. -/
def hexDigits (n : Nat) : String :=
  String.ofList (Nat.toDigits 16 n)

/-- How a character is spelled inside quotes. -/
def spelling (c : Char) : String :=
  match c with
  | '"' => "\\\""
  | '\\' => "\\\\"
  | '\x00' => "\\0"
  | '\t' => "\\t"
  | '\n' => "\\n"
  | '\r' => "\\r"
  | c => if isUnprintable c then "\\u\x7b" ++ hexDigits c.toNat ++ "\x7d" else c.toString

/-- The text between double quotes, each character in its spelling. -/
def quoted (s : String) : String :=
  "\"" ++ String.join (s.toList.map spelling) ++ "\""

example : quoted "a\"b\\\n'" = "\"a\\\"b\\\\\\n'\"" := by decide +kernel
example : quoted "\u200b\x07" = "\"\\u\x7b200b\x7d\\u\x7b7\x7d\"" := by decide +kernel

end DirtyRegion.Text
