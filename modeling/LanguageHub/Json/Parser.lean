import LanguageHub.Json.Scan

/-!
# Reading JSON values

Values nest at most `maxDepth` containers deep. The loops over the items of a list and over the
members of an object are shared with the readers of records (`readItems`, `readMembers`): they
thread a state through a reader of one item or member.
-/

namespace LanguageHub.Json

/-- One more than the number of containers that may enclose a value. -/
def maxDepth : Nat := 128

/-- Read a comma or the end of a list, behind an item. Says whether an item follows. -/
def nextItem (isFirst : Bool) (cs : List Char) : Except Fault (Bool × List Char) :=
  match skipSpace cs with
  | [] => failSyntax .endInList
  | c :: rest =>
    if c = ']' then .ok (false, rest)
    else if isFirst then .ok (true, c :: rest)
    else if c = ',' then
      match skipSpace rest with
      | [] => failSyntax .endInValue
      | d :: after => if d = ']' then failSyntax .trailingComma else .ok (true, d :: after)
    else failSyntax .expectedListEnd

/-- Read a comma or the end of an object, behind a member. Says whether a member follows; its
name then stands behind the quote that was read. -/
def nextMember (isFirst : Bool) (cs : List Char) : Except Fault (Bool × List Char) :=
  match skipSpace cs with
  | [] => failSyntax .endInObject
  | c :: rest =>
    if c = '\x7d' then .ok (false, rest)
    else if isFirst then
      if c = '"' then .ok (true, rest) else failSyntax .keyNotString
    else if c = ',' then
      match skipSpace rest with
      | [] => failSyntax .endInValue
      | d :: after =>
        if d = '"' then .ok (true, after)
        else if d = '\x7d' then failSyntax .trailingComma
        else failSyntax .keyNotString
    else failSyntax .expectedObjectEnd

/-- Read the colon behind a member's name. -/
def readColon (cs : List Char) : Except Fault (List Char) :=
  match skipSpace cs with
  | [] => failSyntax .endInObject
  | c :: rest => if c = ':' then .ok rest else failSyntax .expectedColon

/-- Read the items of a list behind its opening bracket, threading a state through `item`. -/
def readItems {σ : Type} (item : σ → Reader σ) : (steps : Nat) → (isFirst : Bool) → σ → Reader σ
  | 0, _, _, _ => failSyntax .endInList
  | steps + 1, isFirst, s, cs => do
    let (more, rest) ← nextItem isFirst cs
    if more then
      let (t, after) ← item s rest
      readItems item steps false t after
    else return (s, rest)

/-- Read the members of an object behind its opening brace, threading a state through
`member`, which reads the colon and the value behind the given name. -/
def readMembers {σ : Type} (member : String → σ → Reader σ) :
    (steps : Nat) → (isFirst : Bool) → σ → Reader σ
  | 0, _, _, _ => failSyntax .endInObject
  | steps + 1, isFirst, s, cs => do
    let (more, rest) ← nextMember isFirst cs
    if more then
      let (name, behindName) ← scanString rest
      let (t, after) ← member name s behindName
      readMembers member steps false t after
    else return (s, rest)

/-- Read a value that may hold `depth - 1` levels of containers. -/
def readValue : (depth : Nat) → Reader Json
  | depth, cs =>
    match skipSpace cs with
    | [] => failSyntax .endInValue
    | c :: rest =>
      if c = 'n' then (scanName ['u', 'l', 'l'] rest).map fun (_, r) ↦ (.null, r)
      else if c = 't' then (scanName ['r', 'u', 'e'] rest).map fun (_, r) ↦ (.bool true, r)
      else if c = 'f' then (scanName ['a', 'l', 's', 'e'] rest).map fun (_, r) ↦ (.bool false, r)
      else if c = '-' then (scanNumber true rest).map fun (n, r) ↦ (.number n, r)
      else if c.isDigit then (scanNumber false (c :: rest)).map fun (n, r) ↦ (.number n, r)
      else if c = '"' then (scanString rest).map fun (s, r) ↦ (.text s, r)
      else if c = '[' then
        match depth with
        | 0 => failSyntax .tooDeep
        | 1 => failSyntax .tooDeep
        | inner + 1 =>
          (readItems (fun items cs ↦ (readValue inner cs).map fun (v, r) ↦ (v :: items, r))
            (rest.length + 1) true [] rest).map fun (items, r) ↦ (.array items.reverse, r)
      else if c = '\x7b' then
        match depth with
        | 0 => failSyntax .tooDeep
        | 1 => failSyntax .tooDeep
        | inner + 1 =>
          (readMembers
            (fun name members cs ↦ do
              let (v, r) ← readValue inner (← readColon cs)
              return ((name, v) :: members, r))
            (rest.length + 1) true [] rest).map
              fun (members, r) ↦ (ofMembers members.reverse, r)
      else failSyntax .expectedValue

/-- Require that nothing but white space remains. -/
def readEnd (cs : List Char) : Except Fault Unit :=
  if (skipSpace cs).isEmpty then .ok () else failSyntax .trailingCharacters

/-- Read the whole of a text with `reader`. -/
def readWhole {α : Type} (reader : Reader α) (text : String) : Except Fault α := do
  let (a, rest) ← reader text.toList
  readEnd rest
  return a

/-- The value that a text stands for. -/
def parse (text : String) : Except Fault Json := readWhole (readValue maxDepth) text

end LanguageHub.Json
