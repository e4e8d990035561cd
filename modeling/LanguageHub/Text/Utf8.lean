/-!
# UTF-8

Texts and their bytes. `decode` reads exactly the byte sequences that `encode` writes
(`decode_encode`), and says of any other where it stops being UTF-8.
-/

namespace LanguageHub

/-- A sequence of bytes. -/
abbrev Bytes := List UInt8

namespace Utf8

/-- Where a byte sequence stops being UTF-8: after `index` good bytes stand `length` bad ones,
or, when `length` is absent, the beginning of a character that the end cuts off. -/
structure Fault where
  index : Nat
  length : Option Nat
  deriving DecidableEq, Repr

/-- The wording of a fault. -/
def Fault.message (f : Fault) : String :=
  match f.length with
  | some n => s!"invalid utf-8 sequence of {n} bytes from index {f.index}"
  | none => s!"incomplete utf-8 byte sequence from index {f.index}"

/-- The bytes of a text. -/
def encode (s : String) : Bytes := s.toByteArray.data.toList

private def within (low high : UInt8) (b : UInt8) : Bool := low ≤ b && b ≤ high

/-- A byte that continues a character. -/
def isTail (b : UInt8) : Bool := within 0x80 0xBF b

/-- How many bytes a character has that begins with `b`, and the least and the greatest byte
that may come second; `none` if no character begins with `b`. -/
def lead? (b : UInt8) : Option (Nat × UInt8 × UInt8) :=
  if b < 0x80 then some (1, 0, 0)
  else if within 0xC2 0xDF b then some (2, 0x80, 0xBF)
  else if b == 0xE0 then some (3, 0xA0, 0xBF)
  else if b == 0xED then some (3, 0x80, 0x9F)
  else if within 0xE1 0xEF b then some (3, 0x80, 0xBF)
  else if b == 0xF0 then some (4, 0x90, 0xBF)
  else if within 0xF1 0xF3 b then some (4, 0x80, 0xBF)
  else if b == 0xF4 then some (4, 0x80, 0x8F)
  else none

/-- The first fault of a byte sequence that stands after `index` good bytes. -/
def faultFrom (index : Nat) : Bytes → Option Fault
  | [] => none
  | b :: bs =>
    match lead? b with
    | none => some ⟨index, some 1⟩
    | some (1, _, _) => faultFrom (index + 1) bs
    | some (n, low, high) =>
      match bs with
      | [] => some ⟨index, none⟩
      | c :: cs =>
        if !within low high c then some ⟨index, some 1⟩
        else if n == 2 then faultFrom (index + 2) cs
        else
          match cs with
          | [] => some ⟨index, none⟩
          | d :: ds =>
            if !isTail d then some ⟨index, some 2⟩
            else if n == 3 then faultFrom (index + 3) ds
            else
              match ds with
              | [] => some ⟨index, none⟩
              | e :: es => if !isTail e then some ⟨index, some 3⟩ else faultFrom (index + 4) es

/-- The text that a byte sequence encodes, if there is one. -/
def decode? (bs : Bytes) : Option String := String.fromUTF8? bs.toByteArray

/-- The text that a byte sequence encodes, or where it stops being UTF-8. -/
def decode (bs : Bytes) : Except Fault String :=
  match decode? bs with
  | some s => .ok s
  | none => .error ((faultFrom 0 bs).getD ⟨0, none⟩)

private theorem toByteArray_toList (b : ByteArray) : b.data.toList.toByteArray = b := by
  apply ByteArray.ext; simp

/-- Decoding undoes encoding. -/
theorem decode?_encode (s : String) : decode? (encode s) = some s := by
  rw [decode?, encode, toByteArray_toList, String.fromUTF8?, dif_pos s.isValidUTF8]
  rfl

/-- A byte sequence that decodes is the encoding of its text. -/
theorem encode_of_decode? {bs : Bytes} {s : String} (h : decode? bs = some s) :
    encode s = bs := by
  simp only [decode?, String.fromUTF8?] at h
  split at h
  · cases h
    change bs.toByteArray.data.toList = bs
    simp
  · cases h

/-- Decoding undoes encoding. -/
theorem decode_encode (s : String) : decode (encode s) = .ok s := by
  simp [decode, decode?_encode]

end Utf8

end LanguageHub
