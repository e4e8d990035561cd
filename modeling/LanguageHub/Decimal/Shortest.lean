/-!
# The shortest decimal of a binary fraction

A finite binary64 value is `m · 2^q` for natural `m` and integer `q`. Among the decimals
`d · 10^k` that are nearer to it than to any other binary64 value, `shortest` gives one with the
fewest digits, and of those the nearest. All arithmetic is on natural numbers.
-/

namespace LanguageHub.Decimal

/-- The size of a finite binary64 value, `mantissa · 2^exponent`; `atPower` says that the value
below it is only half as far away as the one above. -/
structure Binary where
  mantissa : Nat
  exponent : Int
  atPower : Bool
  deriving DecidableEq, Repr

/-- The size of the finite binary64 value with the given bits, its sign left aside. -/
def Binary.ofBits (bits : Nat) : Binary :=
  let fraction : Nat := bits % 0x10000000000000
  let biased : Nat := bits / 0x10000000000000 % 0x800
  if biased == 0 then ⟨fraction, -1074, false⟩
  else ⟨fraction + 0x10000000000000, (biased : Int) - 1075, fraction == 0 && biased != 1⟩

/-- A decimal `digits · 10^exponent`. -/
structure Digits where
  digits : Nat
  exponent : Int
  deriving DecidableEq, Repr

/-- The ratio of two natural numbers, `numerator / denominator`. -/
structure Ratio where
  numerator : Nat
  denominator : Nat

/-- `n · base^e` as a ratio. -/
def Ratio.scaled (n base : Nat) (e : Int) : Ratio :=
  match e with
  | .ofNat k => ⟨n * base.pow k, 1⟩
  | .negSucc k => ⟨n, base.pow (k + 1)⟩

/-- Whether `a < b`. -/
def Ratio.lt (a b : Ratio) : Bool := a.numerator * b.denominator < b.numerator * a.denominator

/-- Whether `a ≤ b`. -/
def Ratio.le (a b : Ratio) : Bool := a.numerator * b.denominator ≤ b.numerator * a.denominator

/-- Whether the decimal `d · 10^k` reads back as `b`: it lies between the two points half way to
the neighbouring values, which belong to the interval when the mantissa is even. -/
def readsBack (b : Binary) (d : Nat) (k : Int) : Bool :=
  let value := Ratio.scaled d 10 k
  let upper := Ratio.scaled (2 * b.mantissa + 1) 2 (b.exponent - 1)
  let lower :=
    if b.atPower then Ratio.scaled (4 * b.mantissa - 1) 2 (b.exponent - 2)
    else Ratio.scaled (2 * b.mantissa - 1) 2 (b.exponent - 1)
  if b.mantissa % 2 == 0 then lower.le value && value.le upper
  else lower.lt value && value.lt upper

/-- The greatest multiple of `10^k` that is at most the value, divided by `10^k`, and twice the
remainder compared with `10^k`. -/
def gridBelow (b : Binary) (k : Int) : Nat × Ordering :=
  let value := Ratio.scaled b.mantissa 2 b.exponent
  let unit := Ratio.scaled 1 10 k
  let top := value.numerator * unit.denominator
  let bottom := value.denominator * unit.numerator
  (top / bottom, compare (2 * (top % bottom)) bottom)

/-- The decimal on the grid of `10^k` that reads back as `b` and is nearest to it, if the grid
has one. A tie goes to the even neighbour. -/
def onGrid (b : Binary) (k : Int) : Option Nat :=
  let (below, side) := gridBelow b k
  let first := match side with
    | .lt => below
    | .gt => below + 1
    | .eq => if below % 2 == 0 then below else below + 1
  let second := if first == below then below + 1 else below
  if 0 < first && readsBack b first k then some first
  else if 0 < second && readsBack b second k then some second
  else none

/-- Search the grids from `10^k` down to `10^(k - steps)` for the first with a decimal that
reads back. -/
def searchGrids (b : Binary) : Nat → Int → Option Digits
  | 0, _ => none
  | steps + 1, k =>
    match onGrid b k with
    | some d => some ⟨d, k⟩
    | none => searchGrids b steps (k - 1)

/-- An upper bound for the decimal exponent of `m · 2^q`: no multiple of a greater power of ten
is near the value. -/
def topExponent (b : Binary) : Int :=
  let bitLength : Int := (Nat.log2 b.mantissa : Int) + 1 + b.exponent
  if 0 ≤ bitLength then bitLength * 30103 / 100000 + 1 else bitLength * 30103 / 100000 + 2

/-- The shortest decimal that reads back as the value; zero for zero. -/
def shortest (b : Binary) : Digits :=
  if b.mantissa == 0 then ⟨0, 0⟩
  else (searchGrids b 25 (topExponent b)).getD ⟨0, 0⟩

end LanguageHub.Decimal
