import LanguageHub.Toml.Scan
import LanguageHub.Toml.Table

/-!
# Reading TOML documents

A document is a list of statements: a key with a value, or the header of a table.
-/

namespace LanguageHub.Toml

/-- The items of an array from here on, its closing bracket included. -/
def readItems (value : Reader Toml) : (steps : Nat) → Reader (List Toml)
  | 0, _ => none
  | steps + 1, cs =>
    match skipLines cs with
    | ']' :: rest => some ([], rest)
    | cs => do
      let (v, rest) ← value cs
      match skipLines rest with
      | ',' :: rest =>
        let (vs, rest) ← readItems value steps rest
        return (v :: vs, rest)
      | ']' :: rest => return ([v], rest)
      | _ => none

/-- A key, an equals sign and a value, with the blanks behind it. -/
def readPair (value : Reader Toml) : Reader (List String × Toml) := fun cs ↦ do
  let (path, rest) ← readKey cs
  let (v, rest) ← value (skipBlanks (← expect '=' rest))
  return ((path, v), skipBlanks rest)

/-- The pairs of a table in braces from here on, its closing brace included. -/
def readPairs (value : Reader Toml) : (steps : Nat) → Reader (List (List String × Toml))
  | 0, _ => none
  | steps + 1, cs => do
    let (pair, rest) ← readPair value cs
    match rest with
    | ',' :: rest =>
      let (pairs, rest) ← readPairs value steps rest
      return (pair :: pairs, rest)
    | '\x7d' :: rest => return ([pair], rest)
    | _ => none

/-- A value that is neither an array nor a table. -/
def readScalar (cs : List Char) : Option (Toml × List Char) :=
  match cs with
  | '"' :: _ | '\'' :: _ => (readString cs).map fun (s, rest) ↦ (.text s, rest)
  | 't' :: 'r' :: 'u' :: 'e' :: rest => some (.boolean true, rest)
  | 'f' :: 'a' :: 'l' :: 's' :: 'e' :: rest => some (.boolean false, rest)
  | _ =>
    match readDateTime cs with
    | some (d, rest) => some (.dateTime d, rest)
    | none =>
      match readFloat cs <|> readSpecialFloat cs with
      | some (x, rest) => some (.float x, rest)
      | none => (readInteger cs).map fun (n, rest) ↦ (.integer n, rest)

/-- A value in which arrays and tables are nested at most `depth` deep. -/
def readValue : (depth : Nat) → Reader Toml
  | 0, cs =>
    match cs with
    | '[' :: _ | '\x7b' :: _ => none
    | _ => readScalar cs
  | depth + 1, cs =>
    match cs with
    | '[' :: rest => do
      let (items, rest) ← readItems (readValue depth) (rest.length + 1) rest
      return (.array items, rest)
    | '\x7b' :: rest =>
      match skipBlanks rest with
      | '\x7d' :: rest => some (.table [], rest)
      | rest => do
        let (pairs, rest) ← readPairs (readValue depth) (rest.length + 1) rest
        return (← tableOfPairs pairs, rest)
    | _ => readScalar cs

/-- A statement, with the rest of its line. -/
def readStatement (cs : List Char) : Option (Statement × List Char) := do
  match cs with
  | '[' :: '[' :: rest =>
    let (path, rest) ← readKey rest
    let rest ← expect ']' (← expect ']' rest)
    return (.openElement path, ← finishLine? rest)
  | '[' :: rest =>
    let (path, rest) ← readKey rest
    return (.openTable path, ← finishLine? (← expect ']' rest))
  | _ =>
    let ((path, value), rest) ← readPair (readValue (depthLimit - 1)) cs
    return (.assign path value, ← finishLine? rest)

/-- The statements of a document from here on. -/
def readStatements : (steps : Nat) → List Char → Option (List Statement)
  | 0, _ => none
  | steps + 1, cs =>
    match skipLines cs with
    | [] => some []
    | '#' :: rest => if (rest.dropWhile isPrintable).isEmpty then some [] else none
    | cs => do
      let (s, rest) ← readStatement cs
      return s :: (← readStatements steps rest)

/-- A mark that may stand at the beginning of a document. -/
def dropMark : List Char → List Char
  | '\uFEFF' :: cs => cs
  | cs => cs

/-- Read a document. -/
def parse (document : String) : Option Toml := do
  let cs := dropMark document.toList
  let statements ← readStatements (cs.length + 1) cs
  return .table (entriesToToml (← execute [] [] statements))

end LanguageHub.Toml
