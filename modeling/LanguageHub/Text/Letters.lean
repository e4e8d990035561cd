/-!
# Letter case

Case folding of the ASCII letters. Every other character stands for itself.
-/

namespace LanguageHub.Text

/-- The text with its ASCII capitals made small. -/
def lowercase (s : String) : String := String.ofList (s.toList.map Char.toLower)

/-- Whether two texts differ at most in the case of ASCII letters. -/
def sameLetters (s t : String) : Bool := lowercase s == lowercase t

/-- The characters of a lower-cased text. -/
theorem toList_lowercase (s : String) : (lowercase s).toList = s.toList.map Char.toLower := by
  simp [lowercase]

/-- An ASCII letter. -/
def isLetter (c : Char) : Bool := c.isAlpha

/-- A hexadecimal digit, in either case. -/
def isHexDigit (c : Char) : Bool :=
  c.isDigit || ('a' ≤ c && c ≤ 'f') || ('A' ≤ c && c ≤ 'F')

/-- The value of a hexadecimal digit, and `none` for any other character. -/
def hexValue? (c : Char) : Option Nat :=
  if c.isDigit then some (c.toNat - '0'.toNat)
  else if 'a' ≤ c && c ≤ 'f' then some (c.toNat - 'a'.toNat + 10)
  else if 'A' ≤ c && c ≤ 'F' then some (c.toNat - 'A'.toNat + 10)
  else none

/-- The digit of a value below sixteen; letters are capitals when `capital` holds. -/
def hexDigit (capital : Bool) (n : Nat) : Char :=
  if n < 10 then Char.ofNat ('0'.toNat + n)
  else Char.ofNat ((if capital then 'A' else 'a').toNat + (n - 10))

/-- The value of a decimal digit, and `none` for any other character. -/
def digitValue? (c : Char) : Option Nat :=
  if c.isDigit then some (c.toNat - '0'.toNat) else none

end LanguageHub.Text
