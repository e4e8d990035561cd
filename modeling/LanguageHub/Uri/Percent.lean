import LanguageHub.Text.Letters
import LanguageHub.Text.Utf8

/-!
# Percent-encoding

A byte of a URI path may be written as a percent sign and two hexadecimal digits.
-/

namespace LanguageHub.Uri

/-- The value of a byte that is a hexadecimal digit in ASCII. -/
def hexByte? (b : UInt8) : Option Nat := Text.hexValue? (Char.ofNat b.toNat)

/-- Replace each percent sign with two hexadecimal digits behind it by the byte that they
stand for. -/
def percentDecode : Bytes → Bytes
  | [] => []
  | 0x25 :: h :: l :: rest =>
    match hexByte? h, hexByte? l with
    | some x, some y => UInt8.ofNat (x * 16 + y) :: percentDecode rest
    | _, _ => 0x25 :: percentDecode (h :: l :: rest)
  | b :: bs => b :: percentDecode bs
termination_by bs => bs.length

/-- The ASCII characters that are escaped in a component of a path, besides the control
characters. -/
def escapedInComponent : List Char :=
  [' ', '"', '#', '%', '/', '<', '>', '?', '\\', '`', '\x7b', '\x7d']

/-- Whether a byte stands for itself in a component of a path. -/
def isPlainByte (b : UInt8) : Bool :=
  0x20 ≤ b && b < 0x7F && !escapedInComponent.contains (Char.ofNat b.toNat)

/-- A byte as it is written in a component of a path. -/
def encodeByte (b : UInt8) : List Char :=
  if isPlainByte b then [Char.ofNat b.toNat]
  else ['%', Text.hexDigit true (b.toNat / 16), Text.hexDigit true (b.toNat % 16)]

/-- A component of a path as it is written in a URI. -/
def encodeComponent (bs : Bytes) : List Char := bs.flatMap encodeByte

end LanguageHub.Uri
