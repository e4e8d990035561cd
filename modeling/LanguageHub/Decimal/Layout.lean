import LanguageHub.Decimal.Shortest

/-!
# Writing a binary64 value

Positional notation for middling sizes and scientific notation for the others, always so that
the text shows the value is no whole number type.
-/

namespace LanguageHub.Decimal

/-- The choices that fix how a decimal is written: the decimal exponents of the first digit from
`leastPositional` to `greatestPositional` are written positionally, the others with a mark and
an exponent. -/
structure Layout where
  leastPositional : Int
  greatestPositional : Int
  mark : Char
  deriving Repr

/-- Fifteen zeros in front of the point at most, four after it, and a small `e`. -/
def Layout.plain : Layout := ⟨-5, 15, 'e'⟩

/-- No exponent at all: every binary64 value lies between these powers of ten. -/
def Layout.positional : Layout := ⟨-400, 400, 'e'⟩

private def zeros (n : Nat) : List Char := List.replicate n '0'

/-- Write a positive decimal in the given layout. -/
def Layout.write (l : Layout) (d : Digits) : List Char :=
  let digits := Nat.toDigits 10 d.digits
  let count := digits.length
  let first : Int := d.exponent + count - 1
  if l.leastPositional ≤ first ∧ first ≤ l.greatestPositional then
    if 0 ≤ d.exponent then digits ++ zeros d.exponent.toNat ++ ['.', '0']
    else if 0 ≤ first then
      digits.take (first.toNat + 1) ++ '.' :: digits.drop (first.toNat + 1)
    else '0' :: '.' :: (zeros (-first - 1).toNat ++ digits)
  else
    let power :=
      if first < 0 then '-' :: Nat.toDigits 10 (-first).toNat
      else '+' :: Nat.toDigits 10 first.toNat
    match digits with
    | [] => []
    | [c] => c :: l.mark :: power
    | c :: cs => c :: '.' :: (cs ++ l.mark :: power)

/-- Drop the zeros at the end of a decimal, counting them in its exponent. -/
def Digits.stripZeros (d : Digits) : Digits :=
  go d.digits d.exponent 20
where
  /-- Drop at most `steps` zeros. -/
  go (n : Nat) (e : Int) : Nat → Digits
    | 0 => ⟨n, e⟩
    | steps + 1 => if n % 10 == 0 && 0 < n then go (n / 10) (e + 1) steps else ⟨n, e⟩

/-- The text of the finite binary64 value with the given bits, in a layout. -/
def Layout.writeBits (l : Layout) (bits : Nat) : List Char :=
  let size := Binary.ofBits bits
  let body :=
    if size.mantissa == 0 then ['0', '.', '0'] else l.write (shortest size).stripZeros
  if 0x8000000000000000 ≤ bits then '-' :: body else body

/-- The text of the finite binary64 value with the given bits. -/
def writeBits (bits : Nat) : List Char := Layout.plain.writeBits bits

/-- The text of a finite floating-point number. -/
def write (x : Float) : List Char := writeBits x.toBits.toNat

end LanguageHub.Decimal
