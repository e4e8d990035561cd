import LanguageHub.Shell.Command

/-!
# Reading shell scripts

A script is read from left to right. Each function gives what it has read and the characters
behind it, and nothing when the script does not continue in its way.
-/

namespace LanguageHub.Shell

/-- Reads from the front of a script. -/
abbrev Reader (α : Type) := List Char → Option (α × List Char)

/-- Whether a character ends a word that is not quoted. -/
def endsWord (c : Char) : Bool := " \t\n;&|<>()".toList.contains c

/-- Whether a character may stand in the name of a parameter. -/
def isNameChar (c : Char) : Bool := c.isAlphanum || c == '_'

/-- Whether a text can name a parameter. -/
def isName (s : List Char) : Bool :=
  match s with
  | [] => false
  | c :: cs => !c.isDigit && (c :: cs).all isNameChar

/-- Pass over blanks, a remark and an escaped end of line. -/
def skipBlanks (cs : List Char) : List Char := go (cs.length + 1) cs
where
  /-- At most `steps` times. -/
  go : Nat → List Char → List Char
    | 0, cs => cs
    | steps + 1, ' ' :: cs => go steps cs
    | steps + 1, '\t' :: cs => go steps cs
    | steps + 1, '\\' :: '\n' :: cs => go steps cs
    | steps + 1, '#' :: cs => go steps (cs.dropWhile (· != '\n'))
    | _, cs => cs

/-- Pass over blanks and ends of lines. -/
def skipLines (cs : List Char) : List Char := go (cs.length + 1) cs
where
  /-- At most `steps` times. -/
  go : Nat → List Char → List Char
    | 0, cs => cs
    | steps + 1, cs =>
      match skipBlanks cs with
      | '\n' :: rest => go steps rest
      | rest => rest

/-- The characters up to the brackets that close an arithmetic expression, and those behind. -/
def readExpression : (depth : Nat) → List Char → Option (List Char × List Char)
  | _, [] => none
  | 0, ')' :: ')' :: cs => some ([], cs)
  | depth, '(' :: cs => (readExpression (depth + 1) cs).map fun (e, rest) ↦ ('(' :: e, rest)
  | depth, ')' :: cs => (readExpression (depth - 1) cs).map fun (e, rest) ↦ (')' :: e, rest)
  | depth, c :: cs => (readExpression depth cs).map fun (e, rest) ↦ (c :: e, rest)

/-- The name of a parameter: a name, a digit or a special character. -/
def readParameterName : Reader String
  | [] => none
  | c :: cs =>
    if c.isDigit || "#?@*$!".toList.contains c then some (String.ofList [c], cs)
    else if c.isAlpha || c == '_' then
      some (String.ofList ((c :: cs).takeWhile isNameChar), (c :: cs).dropWhile isNameChar)
    else none

/-- What is cut from a parameter, by the characters behind its name. -/
def readCut : List Char → Option (Cut × List Char)
  | ':' :: '-' :: cs => some (.default true, cs)
  | '-' :: cs => some (.default false, cs)
  | '#' :: '#' :: cs => some (.match_ true true, cs)
  | '#' :: cs => some (.match_ true false, cs)
  | '%' :: '%' :: cs => some (.match_ false true, cs)
  | '%' :: cs => some (.match_ false false, cs)
  | _ => none

/-- The word with which a list of commands ends, if the script goes on with it. -/
def reserved? (words : List String) (cs : List Char) : Option (String × List Char) :=
  words.findSome? fun w ↦
    let rest := cs.drop w.length
    let isWhole := match rest with
      | [] => true
      | c :: _ => endsWord c
    if w.toList.isPrefixOf cs && isWhole then some (w, rest) else none

/-- Add a character that stands for itself to a word. -/
def addPlain (c : Char) : Word → Word
  | .plain s :: rest => .plain (String.ofList (c :: s.toList)) :: rest
  | w => .plain (String.ofList [c]) :: w

/-- Add a quoted character to a word. -/
def addQuoted (c : Char) : Word → Word
  | .quoted s :: rest => .quoted (String.ofList (c :: s.toList)) :: rest
  | w => .quoted (String.ofList [c]) :: w

/-- The words that end or divide a compound command. -/
def closers : List String :=
  ["then", "elif", "else", "fi", "do", "done", "esac", "\x7d"]

/-- Whether a list of commands ends here. -/
def isListEnd (cs : List Char) : Bool :=
  match cs with
  | [] | ')' :: _ | ';' :: ';' :: _ => true
  | _ => (reserved? closers cs).isSome

/-- A descriptor in front of a redirection, and the redirection. -/
def readDirection (cs : List Char) : Option (Nat × Direction × List Char) :=
  let digits := cs.takeWhile Char.isDigit
  let rest := cs.dropWhile Char.isDigit
  let given (default : Nat) :=
    if digits.isEmpty then default
    else digits.foldl (fun n d ↦ n * 10 + (d.toNat - '0'.toNat)) 0
  match rest with
  | '>' :: '>' :: r => some (given 1, .append, r)
  | '>' :: '&' :: r => some (given 1, .duplicate, r)
  | '>' :: '|' :: r => some (given 1, .output, r)
  | '>' :: r => some (given 1, .output, r)
  | '<' :: '&' :: r => some (given 0, .duplicate, r)
  | '<' :: r => some (given 0, .input, r)
  | _ => none

/-- An assignment at the front: the name and the characters of the value. -/
def readAssignment (cs : List Char) : Option (String × List Char) :=
  let name := cs.takeWhile isNameChar
  match cs.dropWhile isNameChar with
  | '=' :: rest => if isName name then some (String.ofList name, rest) else none
  | _ => none

mutual

/-- A part of a word behind a dollar sign. -/
def readDollar : (steps : Nat) → (isQuoted : Bool) → Reader Part
  | 0, _, _ => none
  | n + 1, isQuoted, cs =>
    match cs with
    | '(' :: '(' :: rest =>
      (readExpression 0 rest).map fun (e, rest) ↦ (.arithmetic (String.ofList e), rest)
    | '(' :: rest => do
      let (c, rest) ← readList n rest
      match skipLines rest with
      | ')' :: rest => return (.output c isQuoted, rest)
      | _ => none
    | '\x7b' :: '#' :: '\x7d' :: rest => some (.parameter "#" .nothing [] isQuoted, rest)
    | '\x7b' :: '#' :: rest => do
      let (name, rest) ← readParameterName rest
      match rest with
      | '\x7d' :: rest => return (.length name, rest)
      | _ => none
    | '\x7b' :: rest => do
      let (name, rest) ← readParameterName rest
      match rest with
      | '\x7d' :: rest => return (.parameter name .nothing [] isQuoted, rest)
      | rest =>
        let (cut, rest) ← readCut rest
        let (word, rest) ← readUntilBrace n rest
        return (.parameter name cut word isQuoted, rest)
    | _ =>
      match readParameterName cs with
      | some (name, rest) => some (.parameter name .nothing [] isQuoted, rest)
      | none => some (if isQuoted then .quoted "$" else .plain "$", cs)

/-- The parts of a word up to a closing brace. -/
def readUntilBrace : (steps : Nat) → Reader Word
  | 0, _ => none
  | n + 1, cs =>
    match cs with
    | [] => none
    | '\x7d' :: rest => some ([], rest)
    | '\'' :: rest =>
      match rest.dropWhile (· != '\'') with
      | _ :: more => (readUntilBrace n more).map fun (w, rest') ↦
        (.quoted (String.ofList (rest.takeWhile (· != '\''))) :: w, rest')
      | [] => none
    | '"' :: rest => do
      let (inner, rest) ← readQuotes n rest
      let (w, rest) ← readUntilBrace n rest
      return (inner ++ w, rest)
    | '\\' :: c :: rest => (readUntilBrace n rest).map fun (w, rest) ↦ (addQuoted c w, rest)
    | '$' :: rest => do
      let (p, rest) ← readDollar n false rest
      let (w, rest) ← readUntilBrace n rest
      return (p :: w, rest)
    | c :: rest => (readUntilBrace n rest).map fun (w, rest) ↦ (addPlain c w, rest)

/-- The parts between double quotes, from behind the first. -/
def readQuotes : (steps : Nat) → Reader Word
  | 0, _ => none
  | n + 1, cs =>
    match cs with
    | [] => none
    | '"' :: rest => some ([.quoted ""], rest)
    | '\\' :: '\n' :: rest => readQuotes n rest
    | '\\' :: c :: rest =>
      (readQuotes n rest).map fun (w, rest) ↦
        if "$`\"\\".toList.contains c then (addQuoted c w, rest)
        else (addQuoted '\\' (addQuoted c w), rest)
    | '$' :: rest => do
      let (p, rest) ← readDollar n true rest
      let (w, rest) ← readQuotes n rest
      return (p :: w, rest)
    | '\x60' :: rest => do
      let (p, rest) ← readBackquotes n true rest
      let (w, rest) ← readQuotes n rest
      return (p :: w, rest)
    | c :: rest => (readQuotes n rest).map fun (w, rest) ↦ (addQuoted c w, rest)

/-- The command between backquotes, from behind the first. -/
def readBackquotes : (steps : Nat) → (isQuoted : Bool) → Reader Part
  | 0, _, _ => none
  | n + 1, isQuoted, cs =>
    match cs.dropWhile (· != '\x60') with
    | _ :: rest => do
      let (c, _) ← readList n (cs.takeWhile (· != '\x60'))
      return (.output c isQuoted, rest)
    | [] => none

/-- A word, which may have no parts. -/
def readWord : (steps : Nat) → Reader Word
  | 0, _ => none
  | n + 1, cs =>
    match cs with
    | [] => some ([], [])
    | '\'' :: rest =>
      match rest.dropWhile (· != '\'') with
      | _ :: more => (readWord n more).map fun (w, rest') ↦
        (.quoted (String.ofList (rest.takeWhile (· != '\''))) :: w, rest')
      | [] => none
    | '"' :: rest => do
      let (inner, rest) ← readQuotes n rest
      let (w, rest) ← readWord n rest
      return (inner ++ w, rest)
    | '\\' :: '\n' :: rest => readWord n rest
    | '\\' :: c :: rest => (readWord n rest).map fun (w, rest) ↦
      (.quoted (String.ofList [c]) :: w, rest)
    | '$' :: rest => do
      let (p, rest) ← readDollar n false rest
      let (w, rest) ← readWord n rest
      return (p :: w, rest)
    | '\x60' :: rest => do
      let (p, rest) ← readBackquotes n false rest
      let (w, rest) ← readWord n rest
      return (p :: w, rest)
    | c :: rest =>
      if endsWord c then some ([], cs)
      else (readWord n rest).map fun (w, rest) ↦ (addPlain c w, rest)

/-- Words up to the end of a command. -/
def readWords : (steps : Nat) → Reader (List Word)
  | 0, _ => none
  | n + 1, cs => do
    let (w, rest) ← readWord n (skipBlanks cs)
    if w.isEmpty then return ([], rest)
    let (ws, rest) ← readWords n rest
    return (w :: ws, rest)

/-- The redirections from here on. -/
def readRedirects : (steps : Nat) → Reader (List Redirect)
  | 0, _ => none
  | n + 1, cs =>
    match readDirection (skipBlanks cs) with
    | none => some ([], cs)
    | some (descriptor, direction, rest) => do
      let (w, rest) ← readWord n (skipBlanks rest)
      let (rs, rest) ← readRedirects n rest
      return (.mk descriptor direction w :: rs, rest)

/-- The assignments, words and redirections of a simple command. -/
def readSimple : (steps : Nat) → (hasWords : Bool) →
    Reader (List (String × Word) × List Word × List Redirect)
  | 0, _, _ => none
  | n + 1, hasWords, cs =>
    let cs := skipBlanks cs
    match readDirection cs with
    | some (descriptor, direction, rest) => do
      let (w, rest) ← readWord n (skipBlanks rest)
      let ((assignments, words, redirects), rest) ← readSimple n hasWords rest
      return ((assignments, words, .mk descriptor direction w :: redirects), rest)
    | none =>
      match if hasWords then none else readAssignment cs with
      | some (name, rest) => do
        let (w, rest) ← readWord n rest
        let ((assignments, words, redirects), rest) ← readSimple n hasWords rest
        return (((name, w) :: assignments, words, redirects), rest)
      | none => do
        let (w, rest) ← readWord n cs
        if w.isEmpty then return (([], [], []), cs)
        let ((assignments, words, redirects), rest) ← readSimple n true rest
        return ((assignments, w :: words, redirects), rest)

/-- The rest of a conditional command, behind the word that opens it. -/
def readConditional : (steps : Nat) → Reader Command
  | 0, _ => none
  | n + 1, cs => do
    let (test, rest) ← readList n cs
    let (_, rest) ← reserved? ["then"] (skipLines rest)
    let (yes, rest) ← readList n rest
    match ← reserved? ["elif", "else", "fi"] (skipLines rest) with
    | ("elif", rest) =>
      let (no, rest) ← readConditional n rest
      return (.conditional test yes no, rest)
    | ("else", rest) =>
      let (no, rest) ← readList n rest
      let (_, rest) ← reserved? ["fi"] (skipLines rest)
      return (.conditional test yes no, rest)
    | (_, rest) => return (.conditional test yes .nothing, rest)

/-- The body of a loop, with the words around it. -/
def readBody : (steps : Nat) → Reader Command
  | 0, _ => none
  | n + 1, cs => do
    let (_, rest) ← reserved? ["do"] (skipLines cs)
    let (body, rest) ← readList n rest
    let (_, rest) ← reserved? ["done"] (skipLines rest)
    return (body, rest)

/-- The patterns of a branch, up to the bracket behind them. -/
def readPatterns : (steps : Nat) → Reader (List Word)
  | 0, _ => none
  | n + 1, cs => do
    let (w, rest) ← readWord n (skipBlanks cs)
    match skipBlanks rest with
    | '|' :: rest =>
      let (ws, rest) ← readPatterns n rest
      return (w :: ws, rest)
    | ')' :: rest => return ([w], rest)
    | _ => none

/-- The branches of a choice, up to its end. -/
def readBranches : (steps : Nat) → Reader (List (List Word × Command))
  | 0, _ => none
  | n + 1, cs =>
    let cs := skipLines cs
    match reserved? ["esac"] cs with
    | some (_, rest) => some ([], rest)
    | none => do
      let opened := match cs with
        | '(' :: rest => rest
        | _ => cs
      let (patterns, rest) ← readPatterns n opened
      let (body, rest) ← readList n rest
      let rest := match skipLines rest with
        | ';' :: ';' :: rest => rest
        | rest => rest
      let (branches, rest) ← readBranches n rest
      return ((patterns, body) :: branches, rest)

/-- A command without a bar. -/
def readCommand : (steps : Nat) → Reader Command
  | 0, _ => none
  | n + 1, cs => do
    let cs := skipBlanks cs
    let compound (read : Option (Command × List Char)) : Option (Command × List Char) := do
      let (c, rest) ← read
      let (redirects, rest) ← readRedirects n rest
      return (if redirects.isEmpty then c else .redirected c redirects, rest)
    match reserved? ["if", "while", "until", "for", "case", "\x7b", "!"] cs with
    | some ("if", rest) => compound (readConditional n rest)
    | some ("while", rest) => compound do
      let (test, rest) ← readList n rest
      let (body, rest) ← readBody n rest
      return (.loop false test body, rest)
    | some ("until", rest) => compound do
      let (test, rest) ← readList n rest
      let (body, rest) ← readBody n rest
      return (.loop true test body, rest)
    | some ("for", rest) => compound do
      let (name, rest) ← readParameterName (skipBlanks rest)
      let rest := skipLines rest
      match reserved? ["in"] rest with
      | some (_, rest) =>
        let (words, rest) ← readWords n rest
        let rest := match skipBlanks rest with
          | ';' :: rest => rest
          | rest => rest
        let (body, rest) ← readBody n rest
        return (.each name words body, rest)
      | none =>
        let rest := match rest with
          | ';' :: rest => rest
          | rest => rest
        let (body, rest) ← readBody n rest
        return (.each name [[.parameter "@" .nothing [] true]] body, rest)
    | some ("case", rest) => compound do
      let (word, rest) ← readWord n (skipBlanks rest)
      let (_, rest) ← reserved? ["in"] (skipLines rest)
      let (branches, rest) ← readBranches n rest
      return (.choice word branches, rest)
    | some ("!", rest) =>
      let (c, rest) ← readPipeline n rest
      return (.negated c, rest)
    | some (_, rest) => compound do
      let (c, rest) ← readList n rest
      let (_, rest) ← reserved? ["\x7d"] (skipLines rest)
      return (c, rest)
    | none =>
      match cs with
      | '(' :: rest => compound do
        let (c, rest) ← readList n rest
        match skipLines rest with
        | ')' :: rest => return (.subshell c, rest)
        | _ => none
      | _ =>
        let name := cs.takeWhile isNameChar
        match skipBlanks (cs.dropWhile isNameChar) with
        | '(' :: rest =>
          match skipBlanks rest with
          | ')' :: rest =>
            if isName name then
              let (body, rest) ← readCommand n (skipLines rest)
              return (.define (String.ofList name) body, rest)
            else none
          | _ => none
        | _ =>
          let ((assignments, words, redirects), rest) ← readSimple n false cs
          if assignments.isEmpty && words.isEmpty && redirects.isEmpty then none
          else return (.simple assignments words redirects, rest)

/-- Commands with bars between them. -/
def readPipeline : (steps : Nat) → Reader Command
  | 0, _ => none
  | n + 1, cs => do
    let (c, rest) ← readCommand n cs
    match skipBlanks rest with
    | '|' :: '|' :: _ => return (c, rest)
    | '|' :: rest =>
      let (next, rest) ← readPipeline n (skipLines rest)
      match next with
      | .pipeline cs => return (.pipeline (c :: cs), rest)
      | next => return (.pipeline [c, next], rest)
    | _ => return (c, rest)

/-- Pipelines of which each depends on how the one before has ended, put behind `first`. -/
def readChain : (steps : Nat) → (first : Command) → Reader Command
  | 0, _, _ => none
  | n + 1, first, cs =>
    match skipBlanks cs with
    | '&' :: '&' :: rest => do
      let (next, rest) ← readPipeline n (skipLines rest)
      readChain n (.both first next) rest
    | '|' :: '|' :: rest => do
      let (next, rest) ← readPipeline n (skipLines rest)
      readChain n (.either first next) rest
    | rest => some (first, rest)

/-- A list of commands, up to what ends it. -/
def readCommands : (steps : Nat) → Reader (List Command)
  | 0, _ => none
  | n + 1, cs => do
    let cs := skipLines cs
    if isListEnd cs then return ([], cs)
    let (first, rest) ← readPipeline n cs
    let (c, rest) ← readChain n first rest
    match skipBlanks rest with
    | ';' :: ';' :: _ => return ([c], skipBlanks rest)
    | ';' :: rest | '\n' :: rest =>
      let (cs, rest) ← readCommands n rest
      return (c :: cs, rest)
    | '&' :: rest =>
      let (cs, rest) ← readCommands n rest
      return (.background c :: cs, rest)
    | rest => return ([c], rest)

/-- A list of commands as one command. -/
def readList : (steps : Nat) → Reader Command
  | 0, _ => none
  | n + 1, cs => do
    let (commands, rest) ← readCommands n cs
    return (.sequence commands, rest)

end

/-- Read a script. -/
def parse (script : String) : Option Command := do
  let cs := script.toList
  let (c, rest) ← readList (10 * cs.length + 100) cs
  if (skipLines rest).isEmpty then some c else none

end LanguageHub.Shell
