import LanguageHub.Text.Letters
import LanguageHub.Toml.Value

/-!
# The small parts of a TOML document

Blanks, comments, strings, keys, numbers and times.
-/

namespace LanguageHub.Toml

/-- Reads a value from the front of a text and gives the characters behind it. -/
abbrev Reader (α : Type) := List Char → Option (α × List Char)

/-! ### Blanks -/

/-- A blank within a line. -/
def isBlank (c : Char) : Bool := c == ' ' || c == '\t'

/-- Pass over blanks. -/
def skipBlanks (cs : List Char) : List Char := cs.dropWhile isBlank

/-- Pass over the end of a line. -/
def newline? : List Char → Option (List Char)
  | '\n' :: cs => some cs
  | '\r' :: '\n' :: cs => some cs
  | _ => none

/-- Whether a character may stand in a line of text: a tab, or no control character. -/
def isPrintable (c : Char) : Bool := c == '\t' || (0x20 ≤ c.toNat && c.toNat ≠ 0x7F)

/-- Pass over a comment, if there is one. -/
def skipComment : List Char → List Char
  | '#' :: cs => cs.dropWhile isPrintable
  | cs => cs

/-- Pass over the end of a line or of the document. -/
def lineEnd? (cs : List Char) : Option (List Char) :=
  if cs.isEmpty then some [] else newline? cs

/-- Pass over what may stand behind a statement. -/
def finishLine? (cs : List Char) : Option (List Char) := lineEnd? (skipComment (skipBlanks cs))

/-- Pass over blanks, ends of lines and comments, at most `steps` lines. -/
def skipLinesUpTo : (steps : Nat) → List Char → List Char
  | 0, cs => cs
  | steps + 1, cs =>
    let cs := skipBlanks cs
    match newline? (skipComment cs) with
    | some rest => skipLinesUpTo steps rest
    | none => cs

/-- Pass over blanks, ends of lines and comments. -/
def skipLines (cs : List Char) : List Char := skipLinesUpTo (cs.length + 1) cs

/-! ### Strings -/

/-- The character that hexadecimal digits stand for. -/
def unicode? (digits : List Char) : Option Char :=
  match digits.mapM Text.hexValue? with
  | none => none
  | some values =>
    let n := values.foldl (fun n d ↦ n * 16 + d) 0
    if n.isValidChar then some (Char.ofNat n) else none

/-- The character of an escape, behind the backslash. -/
def readEscape : Reader Char
  | 'b' :: cs => some ('\x08', cs)
  | 't' :: cs => some ('\t', cs)
  | 'n' :: cs => some ('\n', cs)
  | 'f' :: cs => some ('\x0C', cs)
  | 'r' :: cs => some ('\r', cs)
  | '"' :: cs => some ('"', cs)
  | '\\' :: cs => some ('\\', cs)
  | 'u' :: a :: b :: c :: d :: cs => (unicode? [a, b, c, d]).map fun x ↦ (x, cs)
  | 'U' :: a :: b :: c :: d :: e :: f :: g :: h :: cs =>
    (unicode? [a, b, c, d, e, f, g, h]).map fun x ↦ (x, cs)
  | _ => none

/-- The rest of a string on one line that ends with `quote`; a backslash begins an escape unless
the string is literal. -/
def readLineString (quote : Char) (literal : Bool) : (steps : Nat) → Reader (List Char)
  | 0, _ => none
  | _, [] => none
  | steps + 1, c :: cs =>
    if c == quote then some ([], cs)
    else if c == '\\' && !literal then do
      let (x, rest) ← readEscape cs
      let (body, rest) ← readLineString quote literal steps rest
      return (x :: body, rest)
    else if isPrintable c then do
      let (body, rest) ← readLineString quote literal steps cs
      return (c :: body, rest)
    else none

/-- Pass over blanks and ends of lines. -/
def skipBlankLines : (steps : Nat) → List Char → List Char
  | 0, cs => cs
  | steps + 1, cs =>
    let cs := skipBlanks cs
    match newline? cs with
    | some rest => skipBlankLines steps rest
    | none => cs

/-- What stands behind a backslash at the end of a line: the blanks and the ends of lines behind
it do not count. -/
def joinedLine? (cs : List Char) : Option (List Char) :=
  (newline? (skipBlanks cs)).map fun rest ↦ skipBlankLines (rest.length + 1) rest

/-- The rest of a string over several lines that ends with three times `quote`. Up to two quotes
may stand before these. -/
def readLongString (quote : Char) (literal : Bool) : (steps : Nat) → Reader (List Char)
  | 0, _ => none
  | _, [] => none
  | steps + 1, c :: cs =>
    let go (front : List Char) (rest : List Char) : Option (List Char × List Char) := do
      let (body, rest) ← readLongString quote literal steps rest
      return (front ++ body, rest)
    if c == quote then
      let quotes := (c :: cs).takeWhile (· == quote)
      let rest := (c :: cs).dropWhile (· == quote)
      if quotes.length < 3 then go quotes rest
      else if quotes.length ≤ 5 then some (quotes.drop 3, rest)
      else none
    else if c == '\\' && !literal then
      match joinedLine? cs with
      | some rest => go [] rest
      | none => do
        let (x, rest) ← readEscape cs
        go [x] rest
    else
      match newline? (c :: cs) with
      | some rest => go ['\n'] rest
      | none => if isPrintable c then go [c] cs else none

/-- A string in one of the four notations. -/
def readString (cs : List Char) : Option (String × List Char) :=
  let long (quote : Char) (literal : Bool) (rest : List Char) : Option (String × List Char) := do
    let body := (newline? rest).getD rest
    let (s, rest) ← readLongString quote literal (body.length + 1) body
    return (String.ofList s, rest)
  let short (quote : Char) (literal : Bool) (rest : List Char) : Option (String × List Char) := do
    let (s, rest) ← readLineString quote literal (rest.length + 1) rest
    return (String.ofList s, rest)
  match cs with
  | '"' :: '"' :: '"' :: rest => long '"' false rest
  | '"' :: rest => short '"' false rest
  | '\'' :: '\'' :: '\'' :: rest => long '\'' true rest
  | '\'' :: rest => short '\'' true rest
  | _ => none

/-! ### Keys -/

/-- A character of a key without quotes. -/
def isBare (c : Char) : Bool := c.isAlphanum || c == '-' || c == '_'

/-- One part of a key. -/
def readKeyPart (cs : List Char) : Option (String × List Char) :=
  match cs with
  | '"' :: rest => (readLineString '"' false (rest.length + 1) rest).map
      fun (s, r) ↦ (String.ofList s, r)
  | '\'' :: rest => (readLineString '\'' true (rest.length + 1) rest).map
      fun (s, r) ↦ (String.ofList s, r)
  | _ =>
    let (name, rest) := cs.span isBare
    if name.isEmpty then none else some (String.ofList name, rest)

/-- The parts of a key from here on, with the blanks around them. -/
def readKeyParts : (steps : Nat) → Reader (List String)
  | 0, _ => none
  | steps + 1, cs => do
    let (part, rest) ← readKeyPart (skipBlanks cs)
    match skipBlanks rest with
    | '.' :: rest =>
      let (parts, rest) ← readKeyParts steps rest
      return (part :: parts, rest)
    | rest => return ([part], rest)

/-- One more than the number of parts that a key may have, and than the depth of arrays and
tables in a value. -/
def depthLimit : Nat := 80

/-- A key. -/
def readKey (cs : List Char) : Option (List String × List Char) := do
  let (parts, rest) ← readKeyParts (cs.length + 1) cs
  if parts.length < depthLimit then return (parts, rest) else none

/-! ### Numbers -/

/-- The digits at the front; an underscore may stand between two of them. -/
def takeDigits (isDigit : Char → Bool) : List Char → List Char × List Char
  | '_' :: c :: cs =>
    if isDigit c then
      let (ds, rest) := takeDigits isDigit cs
      (c :: ds, rest)
    else ([], '_' :: c :: cs)
  | c :: cs =>
    if isDigit c then
      let (ds, rest) := takeDigits isDigit cs
      (c :: ds, rest)
    else ([], c :: cs)
  | [] => ([], [])

/-- Digits of which the first is no underscore. -/
def readDigits (isDigit : Char → Bool) (cs : List Char) : Option (List Char × List Char) :=
  match cs with
  | [] => none
  | c :: _ => if isDigit c then some (takeDigits isDigit cs) else none

/-- A sign, true for minus. -/
def takeSign : List Char → Bool × List Char
  | '-' :: cs => (true, cs)
  | '+' :: cs => (false, cs)
  | cs => (false, cs)

/-- The value of digits in a base. -/
def digitsValue (base : Nat) (ds : List Char) : Nat :=
  ds.foldl (fun n c ↦ n * base + (Text.hexValue? c).getD 0) 0

/-- Decimal digits without a zero in front of others. -/
def readDecimalDigits (cs : List Char) : Option (List Char × List Char) :=
  match cs with
  | '0' :: rest => some (['0'], rest)
  | _ => readDigits Char.isDigit cs

/-- An integer of a signed 64-bit word. -/
def signedWord? (n : Int) : Option Int :=
  if -0x8000000000000000 ≤ n ∧ n < 0x8000000000000000 then some n else none

/-- An integer. -/
def readInteger (cs : List Char) : Option (Int × List Char) :=
  let based (base : Nat) (isDigit : Char → Bool) (rest : List Char) : Option (Int × List Char) := do
    let (ds, rest) ← readDigits isDigit rest
    return (← signedWord? (digitsValue base ds), rest)
  match cs with
  | '0' :: 'x' :: rest => based 16 Text.isHexDigit rest
  | '0' :: 'o' :: rest => based 8 (fun c ↦ '0' ≤ c && c ≤ '7') rest
  | '0' :: 'b' :: rest => based 2 (fun c ↦ c == '0' || c == '1') rest
  | _ => do
    let (negative, rest) := takeSign cs
    let (ds, rest) ← readDecimalDigits rest
    let n : Int := digitsValue 10 ds
    return (← signedWord? (if negative then -n else n), rest)

/-- The binary64 value nearest to a decimal, infinite if it is too great. -/
def nearestFloat (digits : Nat) (digitCount : Nat) (exponent : Int) : Float :=
  let top := exponent + digitCount
  if digits = 0 || top < -400 then 0
  else if 400 < top then 1 / 0
  else if exponent < 0 then Float.ofScientific digits true exponent.natAbs
  else Float.ofScientific digits false exponent.toNat

/-- The exponent of a floating-point number. -/
def readExponent (cs : List Char) : Option (Int × List Char) :=
  match cs with
  | 'e' :: rest | 'E' :: rest => do
    let (negative, rest) := takeSign rest
    let (ds, rest) ← readDigits Char.isDigit rest
    let n : Int := digitsValue 10 ds
    return (if negative then -n else n, rest)
  | _ => none

/-- The fraction of a floating-point number. -/
def readFraction (cs : List Char) : Option (List Char × List Char) :=
  match cs with
  | '.' :: rest => readDigits Char.isDigit rest
  | _ => none

/-- A floating-point number: it has a fraction or an exponent. It must not pass the greatest
finite value upwards. -/
def readFloat (cs : List Char) : Option (Float × List Char) := do
  let (negative, rest) := takeSign cs
  let (whole, rest) ← readDecimalDigits rest
  let (fraction, exponent, rest) ←
    match readFraction rest with
    | some (fraction, rest) =>
      match readExponent rest with
      | some (e, rest) => some (fraction, e, rest)
      | none => some (fraction, 0, rest)
    | none => (readExponent rest).map fun (e, rest) ↦ ([], e, rest)
  let digits := whole ++ fraction
  let count := (digits.dropWhile (· == '0')).length
  let x := nearestFloat (digitsValue 10 digits) count (exponent - fraction.length)
  if x == 1 / 0 && !negative then none
  return (if negative then -x else x, rest)

/-- A floating-point number that is not finite. -/
def readSpecialFloat (cs : List Char) : Option (Float × List Char) :=
  let (negative, rest) := takeSign cs
  match rest with
  | 'i' :: 'n' :: 'f' :: rest => some (if negative then -(1 / 0) else 1 / 0, rest)
  | 'n' :: 'a' :: 'n' :: rest => some (0 / 0, rest)
  | _ => none

/-! ### Times -/

/-- A number of `width` digits that lies between the bounds. -/
def readFixed (width least greatest : Nat) (cs : List Char) : Option (Nat × List Char) :=
  let ds := cs.take width
  let n := digitsValue 10 ds
  if ds.length = width && ds.all Char.isDigit && least ≤ n && n ≤ greatest then
    some (n, cs.drop width)
  else none

/-- Pass over a character. -/
def expect (c : Char) : List Char → Option (List Char)
  | d :: cs => if c == d then some cs else none
  | [] => none

/-- The number of days of a month. -/
def daysOf (year month : Nat) : Nat :=
  let leap := year % 4 == 0 && (year % 100 != 0 || year % 400 == 0)
  if month = 2 then if leap then 29 else 28
  else if [4, 6, 9, 11].contains month then 30
  else 31

/-- A day of the calendar. -/
def readDate (cs : List Char) : Option (Date × List Char) := do
  let (year, rest) ← readFixed 4 0 9999 cs
  let (month, rest) ← readFixed 2 1 12 (← expect '-' rest)
  let (day, rest) ← readFixed 2 1 (daysOf year month) (← expect '-' rest)
  return (⟨year, month, day⟩, rest)

/-- The nanoseconds that the digits of a fraction of a second stand for; digits beyond the ninth
do not count. -/
def nanosOf (ds : List Char) : Nat :=
  let used := ds.take 9
  digitsValue 10 used * Nat.pow 10 (9 - used.length)

/-- A time of day. -/
def readTime (cs : List Char) : Option (Time × List Char) := do
  let (hour, rest) ← readFixed 2 0 23 cs
  let (minute, rest) ← readFixed 2 0 59 (← expect ':' rest)
  let (second, rest) ← readFixed 2 0 60 (← expect ':' rest)
  match rest with
  | '.' :: more =>
    let (ds, rest) := more.span Char.isDigit
    if ds.isEmpty then none
    return (⟨hour, minute, second, nanosOf ds⟩, rest)
  | _ => return (⟨hour, minute, second, 0⟩, rest)

/-- An offset from universal time. -/
def readOffset (cs : List Char) : Option (Offset × List Char) :=
  match cs with
  | 'Z' :: rest | 'z' :: rest => some (.zulu, rest)
  | c :: rest =>
    if c == '+' || c == '-' then do
      let (hour, rest) ← readFixed 2 0 23 rest
      let (minute, rest) ← readFixed 2 0 59 (← expect ':' rest)
      let n : Int := hour * 60 + minute
      return (.minutes (if c == '-' then -n else n), rest)
    else none
  | [] => none

/-- A day, a time of day, or both. -/
def readDateTime (cs : List Char) : Option (DateTime × List Char) :=
  match readDate cs with
  | none => (readTime cs).map fun (t, rest) ↦ (⟨none, some t, none⟩, rest)
  | some (date, rest) =>
    let time := match rest with
      | c :: more => if c == 'T' || c == 't' || c == ' ' then readTime more else none
      | [] => none
    match time with
    | none => some (⟨some date, none, none⟩, rest)
    | some (t, rest) =>
      match readOffset rest with
      | some (o, rest) => some (⟨some date, some t, some o⟩, rest)
      | none => some (⟨some date, some t, none⟩, rest)

end LanguageHub.Toml
