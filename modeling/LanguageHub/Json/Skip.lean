import LanguageHub.Json.Parser

/-!
# Passing over JSON values

A value that nobody asks for is passed over without being built. It must be well formed, but it
may be nested to any depth, its escapes may name lone surrogates and its numbers may be out of
range.
-/

namespace LanguageHub.Json

/-- Where the passing over a string stands. -/
inductive SkipState where
  | plain
  | escape
  | hex (count : Nat)
  deriving DecidableEq, Repr

/-- Pass over a string behind its opening quote. -/
def skipStringFrom : SkipState → Reader Unit
  | _, [] => failSyntax .endInString
  | .plain, c :: cs =>
    if c = '"' then .ok ((), cs)
    else if c = '\\' then skipStringFrom .escape cs
    else if c.toNat < 0x20 then failSyntax .controlCharacter
    else skipStringFrom .plain cs
  | .escape, c :: cs =>
    if (shortEscape? c).isSome then skipStringFrom .plain cs
    else if c = 'u' then skipStringFrom (.hex 0) cs
    else failSyntax .invalidEscape
  | .hex count, c :: cs =>
    if (Text.hexValue? c).isSome then
      skipStringFrom (if count < 3 then .hex (count + 1) else .plain) cs
    else
      failSyntax (if 4 ≤ count + utf8Size ((c :: cs).take 4) then .invalidEscape else .endInString)

/-- Pass over a string behind its opening quote. -/
def skipString : Reader Unit := skipStringFrom .plain

/-- Pass over an exponent, if one stands here. -/
def skipExponent (cs : List Char) : Except Fault (List Char) :=
  match cs with
  | c :: rest =>
    if c = 'e' || c = 'E' then
      let behindSign :=
        match rest with
        | d :: more => if d = '+' || d = '-' then more else rest
        | [] => rest
      let (digits, after) := behindSign.span Char.isDigit
      if digits.isEmpty then failSyntax .invalidNumber else .ok after
    else .ok cs
  | [] => .ok cs

/-- Pass over a number behind its sign. -/
def skipNumber (cs : List Char) : Except Fault (List Char) :=
  let (whole, rest) := cs.span Char.isDigit
  match whole with
  | [] => failSyntax .invalidNumber
  | '0' :: _ :: _ => failSyntax .invalidNumber
  | _ =>
    match rest with
    | '.' :: behind =>
      let (fraction, after) := behind.span Char.isDigit
      if fraction.isEmpty then failSyntax .invalidNumber else skipExponent after
    | _ => skipExponent rest

/-- A container that is being passed over. -/
inductive Container where
  | list
  | object
  deriving DecidableEq, Repr

/-- Pass over the name and the colon of a member. -/
def skipName (cs : List Char) : Except Fault (List Char) :=
  match skipSpace cs with
  | [] => failSyntax .endInObject
  | c :: rest =>
    if c = '"' then do
      let (_, after) ← skipString rest
      readColon after
    else failSyntax .keyNotString

/-- Pass over the scalar or the opening bracket that stands here. Gives the container that was
opened, if one was. -/
def skipOpening (cs : List Char) : Except Fault (Option Container × List Char) :=
  match skipSpace cs with
  | [] => failSyntax .endInValue
  | c :: rest =>
    if c = 'n' then (scanName ['u', 'l', 'l'] rest).map fun (_, r) ↦ (none, r)
    else if c = 't' then (scanName ['r', 'u', 'e'] rest).map fun (_, r) ↦ (none, r)
    else if c = 'f' then (scanName ['a', 'l', 's', 'e'] rest).map fun (_, r) ↦ (none, r)
    else if c = '-' then (skipNumber rest).map fun r ↦ (none, r)
    else if c.isDigit then (skipNumber (c :: rest)).map fun r ↦ (none, r)
    else if c = '"' then (skipString rest).map fun (_, r) ↦ (none, r)
    else if c = '[' then .ok (some .list, rest)
    else if c = '\x7b' then .ok (some .object, rest)
    else failSyntax .expectedValue

/-- What stands behind a value inside `open` containers: their closing brackets and, unless all
are closed, the comma before the next value. A container that was just opened may close or go
on without a comma. Gives the containers that remain open. -/
def skipClosings : (steps : Nat) → (justOpened : Bool) → List Container → List Char →
    Except Fault (List Container × List Char)
  | 0, _, _, _ => failSyntax .endInValue
  | _ + 1, _, [], cs => .ok ([], cs)
  | steps + 1, justOpened, container :: outer, cs =>
    match skipSpace cs with
    | [] => failSyntax (if container = .list then .endInList else .endInObject)
    | c :: rest =>
      if c = ',' && !justOpened then .ok (container :: outer, rest)
      else if c = (if container = .list then ']' else '\x7d') then
        skipClosings steps false outer rest
      else if justOpened then .ok (container :: outer, c :: rest)
      else failSyntax (if container = .list then .expectedListEnd else .expectedObjectEnd)

/-- Pass over values until every container in `open` is closed. -/
def skipFrom : (steps : Nat) → List Container → Reader Unit
  | 0, _, _ => failSyntax .endInValue
  | steps + 1, containers, cs => do
    let (opened, rest) ← skipOpening cs
    let inside := opened.toList ++ containers
    let (left, after) ← skipClosings (inside.length + 1) opened.isSome inside rest
    match left with
    | [] => return ((), after)
    | .list :: _ => skipFrom steps left after
    | .object :: _ => skipFrom steps left (← skipName after)

/-- Pass over one value. -/
def skipValue (cs : List Char) : Except Fault (Unit × List Char) := skipFrom (cs.length + 1) [] cs

end LanguageHub.Json
