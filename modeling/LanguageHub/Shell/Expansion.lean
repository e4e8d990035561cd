import LanguageHub.Shell.Arithmetic
import LanguageHub.Shell.Host
import LanguageHub.Shell.Pattern
import LanguageHub.Shell.Texts

/-!
# Words when a command is run

The text of a word, its fields and the pattern it stands for, when the output of the commands in it
is known.
-/

namespace LanguageHub.Shell

/-- A piece of a word: a character, or a place that matters for the fields of the word. -/
inductive Glyph where
  /-- A character of the script that is not quoted. -/
  | plain (char : Char)
  | quoted (char : Char)
  /-- A character of a value that is not quoted; blanks separate fields. -/
  | value (char : Char)
  /-- A field begins at the latest here. -/
  | mark
  /-- One field ends and another begins. -/
  | boundary
  deriving DecidableEq, Repr

/-- The character of a glyph, if it is one. -/
def Glyph.char? : Glyph → Option Char
  | plain c | quoted c | value c => some c
  | mark | boundary => none

/-- The text of glyphs. -/
def textOfGlyphs (gs : List Glyph) : String := String.ofList (gs.filterMap Glyph.char?)

/-- The pattern that glyphs stand for. -/
def patternOfGlyphs (gs : List Glyph) : List PatternChar := gs.filterMap fun
  | .plain c | .value c => some (c, false)
  | .quoted c => some (c, true)
  | _ => none

/-- The fields of glyphs, behind a field that has begun. -/
def fieldsOfGlyphs : (current : Option (List Char)) → List Glyph → List String
  | current, [] => (current.map String.ofList).toList
  | current, .mark :: gs => fieldsOfGlyphs (some (current.getD [])) gs
  | current, .boundary :: gs =>
    String.ofList (current.getD []) :: fieldsOfGlyphs (some []) gs
  | current, .value c :: gs =>
    if separatesFields c then (current.map String.ofList).toList ++ fieldsOfGlyphs none gs
    else fieldsOfGlyphs (some (current.getD [] ++ [c])) gs
  | current, .plain c :: gs | current, .quoted c :: gs =>
    fieldsOfGlyphs (some (current.getD [] ++ [c])) gs

/-- The glyphs of a value. -/
def glyphsOf (isQuoted : Bool) (s : String) : List Glyph :=
  if isQuoted then .mark :: s.toList.map .quoted else s.toList.map .value

namespace Process

/-- The value of a parameter, if it is set. -/
def parameter? (p : Process) (name : String) : Option String :=
  match name with
  | "#" => some (toString p.parameters.length)
  | "?" => some (toString p.status)
  | "$" => some (toString p.ownNumber)
  | "!" => p.background.map toString
  | "0" => some p.name
  | "@" | "*" => if p.parameters.isEmpty then none else some (" ".intercalate p.parameters)
  | _ =>
    if name.toList.all Char.isDigit then p.parameters[numberOf name.toList - 1]?
    else p.bindings.get? name

/-- The value of a parameter, empty if it is not set. -/
def parameter (p : Process) (name : String) : String := (p.parameter? name).getD ""

/-- The glyphs of a word; `outputs` holds what the commands in it have written. The outputs that
are left over belong to the words behind. -/
def expand (p : Process) : (steps : Nat) → (outputs : List String) → Word →
    List Glyph × List String
  | 0, outputs, _ | _, outputs, [] => ([], outputs)
  | n + 1, outputs, part :: rest =>
    let (glyphs, outputs) : List Glyph × List String :=
      match part with
      | .quoted s => (.mark :: s.toList.map .quoted, outputs)
      | .plain s => (s.toList.map .plain, outputs)
      | .length name => (glyphsOf true (toString (p.parameter name).utf8ByteSize), outputs)
      | .arithmetic e =>
        (glyphsOf true (toString (evaluate (fun x ↦ integerOf (p.parameter x)) e)), outputs)
      | .output _ isQuoted => (glyphsOf isQuoted (outputs.headD ""), outputs.tail)
      | .parameter "@" .nothing _ true =>
        (List.intercalate [.boundary] (p.parameters.map (glyphsOf true)), outputs)
      | .parameter name cut word isQuoted =>
        let value := p.parameter? name
        match cut with
        | .nothing => (glyphsOf isQuoted (value.getD ""), outputs)
        | .default orEmpty =>
          let isMissing := value.isNone || (orEmpty && value == some "")
          if isMissing then ((expand p n [] word).1, outputs)
          else (glyphsOf isQuoted (value.getD ""), outputs)
        | .match_ atStart isLongest =>
          let pattern := patternOfGlyphs (expand p n [] word).1
          let cs := (value.getD "").toList
          let left :=
            if atStart then dropMatch isLongest pattern cs else dropMatchAtEnd isLongest pattern cs
          (glyphsOf isQuoted (String.ofList left), outputs)
    let (more, outputs) := expand p n outputs rest
    (glyphs ++ more, outputs)

/-- How deep words are followed into words. -/
def expansionLimit : Nat := 1000

/-- The text of a word. -/
def text (p : Process) (outputs : List String) (w : Word) : String × List String :=
  let (gs, outputs) := p.expand expansionLimit outputs w
  (textOfGlyphs gs, outputs)

/-- The pattern that a word stands for. -/
def pattern (p : Process) (w : Word) : List PatternChar :=
  patternOfGlyphs (p.expand expansionLimit [] w).1

/-- The fields of words. -/
def fields (p : Process) : (outputs : List String) → List Word → List String × List String
  | outputs, [] => ([], outputs)
  | outputs, w :: ws =>
    let (gs, outputs) := p.expand expansionLimit outputs w
    let (more, outputs) := fields p outputs ws
    (fieldsOfGlyphs none gs ++ more, outputs)

end Process

end LanguageHub.Shell
