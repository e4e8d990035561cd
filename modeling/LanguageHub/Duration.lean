/-!
# Durations

Lengths of time in whole nanoseconds, and how a message shows one: in the greatest unit of which
it holds at least one, with the fraction that remains and no trailing zero.
-/

namespace LanguageHub

/-- A length of time in nanoseconds. -/
structure Duration where
  nanos : Nat
  deriving DecidableEq, Repr

namespace Duration

/-- So many milliseconds. -/
def ofMillis (n : Nat) : Duration := ⟨n * 1000000⟩

/-- So many seconds. -/
def ofSeconds (n : Nat) : Duration := ⟨n * 1000000000⟩

/-- The digits of `part / whole` after the point, `whole` being a power of ten above `part`,
without trailing zeros. -/
def fractionDigits (part whole : Nat) : List Char :=
  let digits := Nat.toDigits 10 (whole + part)
  ((digits.drop 1).reverse.dropWhile (· == '0')).reverse

/-- `nanos` in units of `unit` nanoseconds, followed by the unit's name. -/
def inUnit (nanos unit : Nat) (name : String) : String :=
  let fraction := fractionDigits (nanos % unit) unit
  let whole := toString (nanos / unit)
  if fraction.isEmpty then whole ++ name else whole ++ "." ++ String.ofList fraction ++ name

/-- A duration as messages show it. -/
def describe (d : Duration) : String :=
  if 1000000000 ≤ d.nanos then inUnit d.nanos 1000000000 "s"
  else if 1000000 ≤ d.nanos then inUnit d.nanos 1000000 "ms"
  else if 1000 ≤ d.nanos then inUnit d.nanos 1000 "µs"
  else inUnit d.nanos 1 "ns"

end Duration

end LanguageHub
