/-!
# Patterns

Patterns in which a star stands for any characters, a question mark for one, and brackets for one
of several. A quoted character stands for itself.
-/

namespace LanguageHub.Shell

/-- A character of a pattern, and whether it stands for itself. -/
abbrev PatternChar := Char × Bool

/-- Whether a character is among those between brackets. -/
def isAmong (c : Char) : List PatternChar → Bool
  | (low, _) :: ('-', false) :: (high, _) :: rest => (low ≤ c && c ≤ high) || isAmong c rest
  | (d, _) :: rest => c == d || isAmong c rest
  | [] => false

/-- The characters between brackets and the pattern behind them. -/
def splitBrackets : List PatternChar → Option (List PatternChar × List PatternChar)
  | [] => none
  | (']', false) :: rest => some ([], rest)
  | p :: rest => (splitBrackets rest).map fun (inner, behind) ↦ (p :: inner, behind)

/-- Whether a pattern stands for a text; `steps` is at least the sum of their lengths. -/
def isMatchUpTo : (steps : Nat) → List PatternChar → List Char → Bool
  | 0, ps, cs => ps.isEmpty && cs.isEmpty
  | _ + 1, [], cs => cs.isEmpty
  | n + 1, ('*', false) :: ps, cs =>
    isMatchUpTo n ps cs ||
      match cs with
      | [] => false
      | _ :: rest => isMatchUpTo n (('*', false) :: ps) rest
  | _ + 1, _ :: _, [] => false
  | n + 1, ('?', false) :: ps, _ :: cs => isMatchUpTo n ps cs
  | n + 1, ('[', false) :: ps, c :: cs =>
    match splitBrackets ps with
    | none => c == '[' && isMatchUpTo n ps cs
    | some (('!', false) :: inner, behind) => !isAmong c inner && isMatchUpTo n behind cs
    | some (inner, behind) => isAmong c inner && isMatchUpTo n behind cs
  | n + 1, (p, _) :: ps, c :: cs => p == c && isMatchUpTo n ps cs

/-- Whether a pattern stands for a text. -/
def isMatch (p : List PatternChar) (cs : List Char) : Bool :=
  isMatchUpTo (p.length + cs.length + 1) p cs

/-- The text without the shortest or longest beginning that matches a pattern. -/
def dropMatch (isLongest : Bool) (p : List PatternChar) (cs : List Char) : List Char :=
  let lengths := List.range (cs.length + 1)
  let lengths := if isLongest then lengths.reverse else lengths
  match lengths.find? fun n ↦ isMatch p (cs.take n) with
  | some n => cs.drop n
  | none => cs

/-- The text without the shortest or longest end that matches a pattern. -/
def dropMatchAtEnd (isLongest : Bool) (p : List PatternChar) (cs : List Char) : List Char :=
  let lengths := List.range (cs.length + 1)
  let lengths := if isLongest then lengths else lengths.reverse
  match lengths.find? fun n ↦ isMatch p (cs.drop n) with
  | some n => cs.take n
  | none => cs

end LanguageHub.Shell
