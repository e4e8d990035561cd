import LanguageHub.Text.Letters

/-!
# Decimal numerals

Reading an unsigned numeral of bounded value: an optional plus sign and one or more decimal
digits. The first fault from the left is reported.
-/

namespace LanguageHub.Text

/-- Why a text is no numeral of the wanted size. -/
inductive NumeralFault where
  /-- There is nothing to read. -/
  | empty
  /-- A character is no digit, or a sign has no digits after it. -/
  | invalidDigit
  /-- The value passes the greatest one allowed. -/
  | tooLarge
  deriving DecidableEq, Repr

/-- The wording of a fault. -/
def NumeralFault.message : NumeralFault → String
  | .empty => "cannot parse integer from empty string"
  | .invalidDigit => "invalid digit found in string"
  | .tooLarge => "number too large to fit in target type"

/-- Read digits into `value`, which stays at most `greatest`. -/
def readDigits (greatest : Nat) : Nat → List Char → Except NumeralFault Nat
  | value, [] => .ok value
  | value, c :: cs =>
    match digitValue? c with
    | none => .error .invalidDigit
    | some d =>
      let next := value * 10 + d
      if next ≤ greatest then readDigits greatest next cs else .error .tooLarge

/-- Read an unsigned numeral whose value is at most `greatest`. -/
def readNumeral (greatest : Nat) (cs : List Char) : Except NumeralFault Nat :=
  match cs with
  | [] => .error .empty
  | '+' :: ds => if ds.isEmpty then .error .invalidDigit else readDigits greatest 0 ds
  | _ => readDigits greatest 0 cs

/-- The greatest value of a 64-bit word. -/
def word64 : Nat := 0xFFFFFFFFFFFFFFFF

/-- The greatest value of a 32-bit word. -/
def word32 : Nat := 0xFFFFFFFF

end LanguageHub.Text
