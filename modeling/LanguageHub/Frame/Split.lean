import LanguageHub.Frame.Basic

/-!
# The frames in a byte sequence

The other way round from `Frame.encode`: the bodies of the frames that a byte sequence begins
with, as far as the frames are complete, and the bytes behind them.
-/

namespace LanguageHub.Frame

/-- What stands in front of the length of a body. -/
def announcement : Bytes := Utf8.encode "Content-Length: "

/-- What stands between the length of a body and the body. -/
def headerEnd : Bytes := Utf8.encode "\r\n\r\n"

/-- The bytes behind a given beginning. -/
def behind? (start : Bytes) (bytes : Bytes) : Option Bytes :=
  if bytes.take start.length == start then some (bytes.drop start.length) else none

/-- Whether a byte is a decimal digit. -/
def isDigitByte (b : UInt8) : Bool := 0x30 ≤ b && b ≤ 0x39

/-- The number that digits stand for. -/
def digitsValue (digits : Bytes) : Nat := digits.foldl (fun n b ↦ n * 10 + (b.toNat - 0x30)) 0

/-- The body of the frame that bytes begin with and the bytes behind it, if the frame is
complete. -/
def first? (bytes : Bytes) : Option (Bytes × Bytes) := do
  let afterName ← behind? announcement bytes
  let digits := afterName.takeWhile isDigitByte
  if digits.isEmpty then none
  let rest ← behind? headerEnd (afterName.drop digits.length)
  let length := digitsValue digits
  if (rest.take length).length < length then none
  return (rest.take length, rest.drop length)

/-- The bodies of at most `count` frames that bytes begin with, and the bytes behind them. -/
def splitUpTo : (count : Nat) → Bytes → List Bytes × Bytes
  | 0, bytes => ([], bytes)
  | count + 1, bytes =>
    match first? bytes with
    | none => ([], bytes)
    | some (body, rest) =>
      let (bodies, left) := splitUpTo count rest
      (body :: bodies, left)

/-- The bodies of the frames that bytes begin with, and the bytes behind the last one. -/
def split (bytes : Bytes) : List Bytes × Bytes := splitUpTo bytes.length bytes

end LanguageHub.Frame
