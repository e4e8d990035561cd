import LanguageHub.Text.Letters
import LanguageHub.Text.Shapeless

/-!
# Quoted texts

A text between double quotes in which every character shows: the quote and the backslash are
escaped, and so is each character without a shape of its own.
-/

namespace LanguageHub.Text

/-- The hexadecimal digits of a number, small letters, without leading zeros. -/
def hexDigits (n : Nat) : List Char := Nat.toDigits 16 n

/-- A character as it stands inside a quoted text. -/
def escaped (c : Char) : List Char :=
  match c with
  | '\x00' => ['\\', '0']
  | '\t' => ['\\', 't']
  | '\n' => ['\\', 'n']
  | '\r' => ['\\', 'r']
  | '"' => ['\\', '"']
  | '\\' => ['\\', '\\']
  | c => if isShapeless c then "\\u\x7b".toList ++ hexDigits c.toNat ++ ['}'] else [c]

/-- The text between double quotes, with escapes. -/
def quoted (s : String) : String :=
  String.ofList ('"' :: (s.toList.flatMap escaped ++ ['"']))

end LanguageHub.Text
