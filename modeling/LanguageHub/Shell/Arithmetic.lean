import LanguageHub.Shell.Parser

/-!
# Arithmetic expressions

Whole numbers, parameters and the usual operators. A comparison has the value one or zero.
-/

namespace LanguageHub.Shell

/-- A token of an expression. -/
inductive Token where
  | number (value : Int)
  | name (name : String)
  | sign (text : String)
  deriving DecidableEq, Repr

/-- The operators of two operands by rank, the ones that bind loosest first. -/
def operators : List (List String) :=
  [["||"], ["&&"], ["==", "!="], ["<=", ">=", "<", ">"], ["+", "-"], ["*", "/", "%"]]

/-- The value of a numeral. -/
def numeralValue (digits : List Char) : Int :=
  digits.foldl (fun n d ↦ n * 10 + Int.ofNat (d.toNat - '0'.toNat)) 0

/-- The tokens of an expression, at most `steps`. -/
def tokens : (steps : Nat) → List Char → List Token
  | 0, _ | _, [] => []
  | n + 1, c :: cs =>
    if c == ' ' || c == '\t' || c == '\n' || c == '$' then tokens n cs
    else if c.isDigit then
      .number (numeralValue ((c :: cs).takeWhile Char.isDigit)) ::
        tokens n ((c :: cs).dropWhile Char.isDigit)
    else if c.isAlpha || c == '_' then
      .name (String.ofList ((c :: cs).takeWhile isNameChar)) ::
        tokens n ((c :: cs).dropWhile isNameChar)
    else
      match cs with
      | d :: rest =>
        let pair := String.ofList [c, d]
        if operators.any (·.contains pair) then .sign pair :: tokens n rest
        else .sign (String.ofList [c]) :: tokens n cs
      | [] => [.sign (String.ofList [c])]

/-- The value of two operands. -/
def operate (operator : String) (a b : Int) : Int :=
  let truth (p : Bool) : Int := if p then 1 else 0
  match operator with
  | "||" => truth (a != 0 || b != 0)
  | "&&" => truth (a != 0 && b != 0)
  | "==" => truth (a == b)
  | "!=" => truth (a != b)
  | "<=" => truth (a ≤ b)
  | ">=" => truth (b ≤ a)
  | "<" => truth (a < b)
  | ">" => truth (b < a)
  | "+" => a + b
  | "-" => a - b
  | "*" => a * b
  | "/" => a.tdiv b
  | _ => a.tmod b

mutual

/-- The value of the operands of the operators in `ranks` from here on. -/
def readOperand (value : String → Int) : (steps : Nat) → (ranks : List (List String)) →
    List Token → Int × List Token
  | 0, _, ts => (0, ts)
  | n + 1, rank :: ranks, ts =>
    let (a, ts) := readOperand value n ranks ts
    readOperands value n rank ranks a ts
  | n + 1, [], ts =>
    match ts with
    | .number k :: ts => (k, ts)
    | .name x :: ts => (value x, ts)
    | .sign "-" :: ts => let (a, ts) := readOperand value n [] ts; (-a, ts)
    | .sign "+" :: ts => readOperand value n [] ts
    | .sign "!" :: ts => let (a, ts) := readOperand value n [] ts; (if a = 0 then 1 else 0, ts)
    | .sign "(" :: ts =>
      let (a, ts) := readOperand value n operators ts
      (a, ts.drop 1)
    | ts => (0, ts)

/-- The value of the operators of one rank from here on, `a` being the first operand. -/
def readOperands (value : String → Int) : (steps : Nat) → (rank : List String) →
    (ranks : List (List String)) → (a : Int) → List Token → Int × List Token
  | 0, _, _, a, ts => (a, ts)
  | n + 1, rank, ranks, a, ts =>
    match ts with
    | .sign s :: rest =>
      if rank.contains s then
        let (b, rest) := readOperand value n ranks rest
        readOperands value n rank ranks (operate s a b) rest
      else (a, ts)
    | _ => (a, ts)

end

/-- The value of an expression, in which `value` gives the values of parameters. -/
def evaluate (value : String → Int) (expression : String) : Int :=
  let cs := expression.toList
  (readOperand value (20 * cs.length + 20) operators (tokens (cs.length + 1) cs)).1

end LanguageHub.Shell
