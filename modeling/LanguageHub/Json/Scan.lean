import LanguageHub.Json.Fault
import LanguageHub.Json.Value
import LanguageHub.Text.Letters
import LanguageHub.Text.Numeral

/-!
# The lexical part of JSON

Blanks, literal names, strings and numbers. A reader takes the characters that remain and gives
what it read with those that remain after it.
-/

namespace LanguageHub.Json

/-- Reads something from the front of the remaining characters. -/
abbrev Reader (α : Type) := List Char → Except Fault (α × List Char)

/-- Fail with a syntax fault. -/
def failSyntax {α : Type} (f : SyntaxFault) : Except Fault α := .error (.syntaxFault f)

/-- White space between tokens. -/
def isSpace (c : Char) : Bool := c == ' ' || c == '\n' || c == '\t' || c == '\r'

/-- Drop white space. -/
def skipSpace (cs : List Char) : List Char := cs.dropWhile isSpace

/-- Read exactly the characters of `name`. -/
def scanName : List Char → Reader Unit
  | [], cs => .ok ((), cs)
  | _ :: _, [] => failSyntax .endInValue
  | n :: name, c :: cs => if n = c then scanName name cs else failSyntax .expectedIdent

/-! ### Strings -/

/-- Where the reading of a string stands. -/
inductive StringState where
  /-- Between characters. -/
  | plain
  /-- After a backslash. -/
  | escape
  /-- Inside a hexadecimal escape, after `count` digits of value `value`; `high` is the first
  half of a surrogate pair. -/
  | hex (count value : Nat) (high : Option Nat)
  /-- After the first half of a surrogate pair. -/
  | afterHigh (high : Nat)
  /-- After the first half of a surrogate pair and a backslash. -/
  | afterHighEscape (high : Nat)
  deriving DecidableEq, Repr

/-- The character that a short escape stands for. -/
def shortEscape? (c : Char) : Option Char :=
  match c with
  | '"' => some '"'
  | '\\' => some '\\'
  | '/' => some '/'
  | 'b' => some '\x08'
  | 'f' => some '\x0c'
  | 'n' => some '\n'
  | 'r' => some '\r'
  | 't' => some '\t'
  | _ => none

/-- The first half of a surrogate pair. -/
def isHighSurrogate (n : Nat) : Bool := 0xD800 ≤ n && n ≤ 0xDBFF

/-- The second half of a surrogate pair. -/
def isLowSurrogate (n : Nat) : Bool := 0xDC00 ≤ n && n ≤ 0xDFFF

/-- The number of bytes of a list of characters in UTF-8. -/
def utf8Size (cs : List Char) : Nat := cs.foldr (fun c size ↦ c.utf8Size + size) 0

/-- Read a string behind its opening quote. `read` holds the characters read so far, the last
one first. -/
def scanStringFrom : StringState → List Char → Reader String
  | _, _, [] => failSyntax .endInString
  | .plain, read, c :: cs =>
    if c = '"' then .ok (String.ofList read.reverse, cs)
    else if c = '\\' then scanStringFrom .escape read cs
    else if c.toNat < 0x20 then failSyntax .controlCharacter
    else scanStringFrom .plain (c :: read) cs
  | .escape, read, c :: cs =>
    match shortEscape? c with
    | some d => scanStringFrom .plain (d :: read) cs
    | none => if c = 'u' then scanStringFrom (.hex 0 0 none) read cs else failSyntax .invalidEscape
  | .hex count value high, read, c :: cs =>
    match Text.hexValue? c with
    | none =>
      let isWhole := 4 ≤ count + utf8Size ((c :: cs).take 4)
      failSyntax (if isWhole then .invalidEscape else .endInString)
    | some d =>
      let unit := value * 16 + d
      if count < 3 then scanStringFrom (.hex (count + 1) unit high) read cs
      else
        match high with
        | none =>
          if isLowSurrogate unit then failSyntax .loneSurrogate
          else if isHighSurrogate unit then scanStringFrom (.afterHigh unit) read cs
          else scanStringFrom .plain (Char.ofNat unit :: read) cs
        | some h =>
          if isLowSurrogate unit then
            let code := (h - 0xD800) * 0x400 + (unit - 0xDC00) + 0x10000
            scanStringFrom .plain (Char.ofNat code :: read) cs
          else failSyntax .loneSurrogate
  | .afterHigh high, read, c :: cs =>
    if c = '\\' then scanStringFrom (.afterHighEscape high) read cs
    else failSyntax .hexEscapeCutOff
  | .afterHighEscape high, read, c :: cs =>
    if c = 'u' then scanStringFrom (.hex 0 0 (some high)) read cs
    else failSyntax .hexEscapeCutOff

/-- Read a string behind its opening quote. -/
def scanString : Reader String := scanStringFrom .plain []

/-! ### Numbers -/

/-- The parts of a number as they are written. -/
structure NumberText where
  /-- The digits before the point. -/
  whole : List Char
  /-- The digits after the point, absent without a point. -/
  fraction : Option (List Char)
  /-- Whether the exponent is negative, and its digits; absent without a mark. -/
  exponent : Option (Bool × List Char)

/-- Read an exponent behind its mark. -/
def scanExponent (cs : List Char) : Except Fault ((Bool × List Char) × List Char) :=
  let (negative, rest) :=
    match cs with
    | '+' :: rest => (false, rest)
    | '-' :: rest => (true, rest)
    | _ => (false, cs)
  let (digits, after) := rest.span Char.isDigit
  if digits.isEmpty then failSyntax (if rest.isEmpty then .endInValue else .invalidNumber)
  else .ok ((negative, digits), after)

/-- Read an exponent, mark included, if one stands here. -/
def scanExponent? (cs : List Char) : Except Fault (Option (Bool × List Char) × List Char) :=
  match cs with
  | c :: rest =>
    if c = 'e' || c = 'E' then (scanExponent rest).map fun (e, after) ↦ (some e, after)
    else .ok (none, cs)
  | [] => .ok (none, cs)

/-- Read the parts of a number behind its sign. -/
def scanNumberText (cs : List Char) : Except Fault (NumberText × List Char) :=
  let (whole, rest) := cs.span Char.isDigit
  match whole with
  | [] => failSyntax (if cs.isEmpty then .endInValue else .invalidNumber)
  | '0' :: _ :: _ => failSyntax .invalidNumber
  | _ =>
    match rest with
    | '.' :: behind =>
      let (fraction, after) := behind.span Char.isDigit
      if fraction.isEmpty then failSyntax (if after.isEmpty then .endInValue else .invalidNumber)
      else (scanExponent? after).map fun (e, left) ↦ (⟨whole, some fraction, e⟩, left)
    | _ => (scanExponent? rest).map fun (e, left) ↦ (⟨whole, none, e⟩, left)

/-- Append digits to a significand as long as it fits a 64-bit word. Gives the significand and
the number of digits that were left over. -/
def significand : Nat → List Char → Nat × Nat
  | n, [] => (n, 0)
  | n, c :: cs =>
    let next := n * 10 + (c.toNat - '0'.toNat)
    if next ≤ Text.word64 then significand next cs else (n, cs.length + 1)

/-- The power of ten nearest to `10^k`, for `k` up to 308. -/
def powerOfTen (k : Nat) : Float := Float.ofScientific 1 false k

/-- `x · 10^exponent`, dividing by `10^308` until the exponent is in the range of the powers of
ten; `none` when the result is out of range. -/
def scaleFloat : (steps : Nat) → Float → Int → Option Float
  | 0, _, _ => some 0.0
  | steps + 1, x, exponent =>
    if exponent.natAbs ≤ 308 then
      if 0 ≤ exponent then
        let y := x * powerOfTen exponent.natAbs
        if y.isInf then none else some y
      else some (x / powerOfTen exponent.natAbs)
    else if x == 0.0 then some x
    else if 0 ≤ exponent then none
    else scaleFloat steps (x / powerOfTen 308) (exponent + 308)

/-- The value of a list of digits. -/
def digitsValue (ds : List Char) : Nat := ds.foldl (fun n c ↦ n * 10 + (c.toNat - '0'.toNat)) 0

/-- The number that the parts stand for. -/
def NumberText.value (t : NumberText) (negative : Bool) : Except Fault Number :=
  let (whole, excess) := significand 0 t.whole
  if t.fraction.isNone && t.exponent.isNone && excess == 0 &&
      (!negative || (0 < whole && whole ≤ 0x8000000000000000)) then
    .ok (.integer (if negative then -(whole : Int) else whole))
  else
    let fraction := t.fraction.getD []
    let (digits, unused) := significand whole fraction
    let written : Int :=
      match t.exponent with
      | none => 0
      | some (true, ds) => -(digitsValue ds : Int)
      | some (false, ds) => digitsValue ds
    let exponent : Int := (excess : Int) - ((fraction.length - unused : Nat) : Int) + written
    match scaleFloat 8 (Float.ofNat digits) exponent with
    | none => failSyntax .numberOutOfRange
    | some x => .ok (.float (if negative then -x else x))

/-- Read a number behind its sign. -/
def scanNumber (negative : Bool) (cs : List Char) : Except Fault (Number × List Char) := do
  let (t, rest) ← scanNumberText cs
  let n ← t.value negative
  return (n, rest)

end LanguageHub.Json
