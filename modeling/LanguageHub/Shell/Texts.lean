import LanguageHub.Text.Utf8
import LanguageHub.Text.Blank

/-!
# What simple commands write

The texts that `printf` and `echo` make of their arguments, and the fields of a line that is read.
-/

namespace LanguageHub.Shell

/-- The text of bytes. Bytes that are not UTF-8 stand for the characters with their numbers. -/
def textOf (bytes : Bytes) : String :=
  match Utf8.decode? bytes with
  | some s => s
  | none => String.ofList (bytes.map fun b ↦ Char.ofNat b.toNat)

/-- The byte that a character behind a backslash stands for. -/
def escapedByte? : Char → Option UInt8
  | 'a' => some 7
  | 'b' => some 8
  | 't' => some 9
  | 'n' => some 10
  | 'v' => some 11
  | 'f' => some 12
  | 'r' => some 13
  | '\\' => some 92
  | _ => none

/-- The value of octal digits. -/
def octalValue (digits : List Char) : UInt8 :=
  .ofNat (digits.foldl (fun n d ↦ n * 8 + (d.toNat - '0'.toNat)) 0)

/-- Whether a character is an octal digit. -/
def isOctal (c : Char) : Bool := '0' ≤ c && c ≤ '7'

/-- The bytes of a text in which a backslash begins an escape, at most `steps` characters. -/
def unescape : (steps : Nat) → List Char → Bytes
  | 0, _ | _, [] => []
  | n + 1, '\\' :: cs =>
    match cs with
    | [] => [92]
    | c :: rest =>
      match escapedByte? c with
      | some b => b :: unescape n rest
      | none =>
        if isOctal c then
          let digits := (cs.take 3).takeWhile isOctal
          octalValue digits :: unescape n (cs.drop digits.length)
        else 92 :: (Utf8.encode (String.ofList [c]) ++ unescape n rest)
  | n + 1, c :: cs => Utf8.encode (String.ofList [c]) ++ unescape n cs

/-- A conversion of a format. -/
structure Conversion where
  isLeft : Bool
  isZero : Bool
  width : Nat
  precision : Option Nat
  letter : Char
  deriving DecidableEq, Repr

/-- The number that digits stand for. -/
def numberOf (digits : List Char) : Nat :=
  digits.foldl (fun n d ↦ n * 10 + (d.toNat - '0'.toNat)) 0

/-- The conversion behind a percent sign. -/
def readConversion (cs : List Char) : Option (Conversion × List Char) :=
  let isFlag (c : Char) : Bool := "-0 +#".toList.contains c
  let flags := cs.takeWhile isFlag
  let cs := cs.dropWhile isFlag
  let width := cs.takeWhile Char.isDigit
  let cs := cs.dropWhile Char.isDigit
  let (precision, cs) := match cs with
    | '.' :: rest =>
      (some (numberOf (rest.takeWhile Char.isDigit)), rest.dropWhile Char.isDigit)
    | _ => (none, cs)
  match cs with
  | [] => none
  | letter :: rest =>
    some (⟨flags.contains '-', flags.contains '0', numberOf width, precision, letter⟩, rest)

/-- The whole number that an argument stands for. -/
def integerOf (s : String) : Int :=
  match s.toList.dropWhile Text.isBlank with
  | '-' :: cs => -Int.ofNat (numberOf (cs.takeWhile Char.isDigit))
  | '+' :: cs => Int.ofNat (numberOf (cs.takeWhile Char.isDigit))
  | '\'' :: c :: _ | '"' :: c :: _ => Int.ofNat c.toNat
  | cs => Int.ofNat (numberOf (cs.takeWhile Char.isDigit))

/-- An argument in the form that a conversion asks for. -/
def Conversion.apply (k : Conversion) (argument : String) : Bytes :=
  let body := match k.letter with
    | 'd' | 'i' | 'u' => Utf8.encode (toString (integerOf argument))
    | 'x' => Utf8.encode (String.ofList (Nat.toDigits 16 (integerOf argument).toNat))
    | 'o' => Utf8.encode (String.ofList (Nat.toDigits 8 (integerOf argument).toNat))
    | 'c' => (Utf8.encode argument).take 1
    | 'b' => unescape argument.length argument.toList
    | _ =>
      let bytes := Utf8.encode argument
      match k.precision with
      | some n => bytes.take n
      | none => bytes
  let missing := k.width - body.length
  if k.isLeft then body ++ List.replicate missing 32
  else List.replicate missing (if k.isZero && k.letter != 's' then 48 else 32) ++ body

/-- The bytes of a format, the arguments that are left, and whether any was used; at most `steps`
characters. -/
def formatOnce : (steps : Nat) → List Char → List String → Bytes × List String × Bool
  | 0, _, arguments | _, [], arguments => ([], arguments, false)
  | n + 1, '%' :: '%' :: cs, arguments =>
    let (bytes, left, used) := formatOnce n cs arguments
    (37 :: bytes, left, used)
  | n + 1, '%' :: cs, arguments =>
    match readConversion cs with
    | none => ([37], arguments, false)
    | some (k, cs) =>
      let (bytes, left, _) := formatOnce n cs arguments.tail
      (k.apply (arguments.headD "") ++ bytes, left, true)
  | n + 1, '\\' :: cs, arguments =>
    let digits := (cs.take 3).takeWhile isOctal
    let length := if digits.isEmpty then 1 else digits.length
    let (bytes, left, used) := formatOnce n (cs.drop length) arguments
    (unescape 1 ('\\' :: cs.take length) ++ bytes, left, used)
  | n + 1, c :: cs, arguments =>
    let (bytes, left, used) := formatOnce n cs arguments
    (Utf8.encode (String.ofList [c]) ++ bytes, left, used)

/-- The bytes of a format that is used until no argument is left, at most `times`. -/
def formatUpTo (format : List Char) : (times : Nat) → List String → Bytes
  | 0, _ => []
  | times + 1, arguments =>
    let (bytes, left, used) := formatOnce (format.length + 1) format arguments
    if used && !left.isEmpty then bytes ++ formatUpTo format times left else bytes

/-- What `printf` writes. -/
def formatted (format : String) (arguments : List String) : Bytes :=
  formatUpTo format.toList (arguments.length + 1) arguments

/-- What `echo` writes. -/
def echoed : List String → Bytes
  | "-n" :: words => line words
  | words => line words ++ [10]
where
  /-- The words with a blank between them. -/
  line (words : List String) : Bytes :=
    let text := " ".intercalate words
    unescape text.length text.toList

/-- Whether a character separates the fields of a line. -/
def separatesFields (c : Char) : Bool := c == ' ' || c == '\t' || c == '\n'

/-- Drop the characters that separate fields from both ends. -/
def trimFields (cs : List Char) : List Char :=
  ((cs.dropWhile separatesFields).reverse.dropWhile separatesFields).reverse

/-- The values that a line gives to so many variables: a field to each and the rest to the
last. -/
def fieldsOf : (count : Nat) → List Char → List String
  | 0, _ => []
  | 1, cs => [String.ofList (trimFields cs)]
  | count + 1, cs =>
    let cs := cs.dropWhile separatesFields
    String.ofList (cs.takeWhile (!separatesFields ·)) ::
      fieldsOf count (cs.dropWhile (!separatesFields ·))

/-- The text of a command's output: line feeds at its end do not count. -/
def outputText (bytes : Bytes) : String :=
  textOf (bytes.reverse.dropWhile (· == 10)).reverse

end LanguageHub.Shell
