/-!
# Shell commands

The part of the language of shell scripts in which small servers are written: simple commands with
redirections, pipelines, lists, conditions, loops, choices, functions and subshells. A word is a
list of parts, some of which stand for text that is known only when the command is run.
-/

namespace LanguageHub.Shell

/-- What is taken from the value of a parameter. -/
inductive Cut where
  /-- All of it. -/
  | nothing
  /-- The text of a word in place of a value that is missing or, with `orEmpty`, empty. -/
  | default (orEmpty : Bool)
  /-- All but the shortest or longest beginning, or end, that matches a pattern. -/
  | match_ (atStart isLongest : Bool)
  deriving DecidableEq, Repr

/-- What a redirection does. -/
inductive Direction where
  | input
  | output
  | append
  /-- The target names another descriptor, or a dash to close this one. -/
  | duplicate
  deriving DecidableEq, Repr

mutual

/-- A part of a word. -/
inductive Part where
  /-- Characters that stand for themselves. -/
  | quoted (text : String)
  /-- Characters among which those of patterns have their meaning. -/
  | plain (text : String)
  /-- The value of a parameter, or what is cut from it. -/
  | parameter (name : String) (cut : Cut) (word : List Part) (isQuoted : Bool)
  /-- The number of bytes in the value of a parameter. -/
  | length (name : String)
  /-- The value of an arithmetic expression. -/
  | arithmetic (expression : String)
  /-- What a command writes. -/
  | output (command : Command) (isQuoted : Bool)

/-- A redirection of a descriptor. -/
inductive Redirect where
  | mk (descriptor : Nat) (direction : Direction) (target : List Part)

/-- A command. -/
inductive Command where
  | simple (assignments : List (String × List Part)) (words : List (List Part))
      (redirects : List Redirect)
  | pipeline (commands : List Command)
  | negated (command : Command)
  | both (first second : Command)
  | either (first second : Command)
  | sequence (commands : List Command)
  | background (command : Command)
  | subshell (command : Command)
  | redirected (command : Command) (redirects : List Redirect)
  | conditional (test yes no : Command)
  | loop (isUntil : Bool) (test body : Command)
  | each (name : String) (words : List (List Part)) (body : Command)
  | choice (word : List Part) (branches : List (List (List Part) × Command))
  | define (name : String) (body : Command)

end

/-- A word of a command. -/
abbrev Word := List Part

instance : Inhabited Command := ⟨.sequence []⟩

/-- The command that does nothing. -/
def Command.nothing : Command := .sequence []

/-- The commands whose output is a part of a word, in order. -/
def Word.outputs (w : Word) : List Command := w.filterMap fun
  | .output command _ => some command
  | _ => none

/-- The target of a redirection. -/
def Redirect.target : Redirect → Word
  | .mk _ _ target => target

/-- The commands whose output has to be known before a command itself can be run. -/
def Command.outputs : Command → List Command
  | .simple assignments words redirects =>
    (assignments.map (·.2) ++ words ++ redirects.map Redirect.target).flatMap Word.outputs
  | .redirected _ redirects => redirects.flatMap fun r ↦ Word.outputs r.target
  | .each _ words _ => words.flatMap Word.outputs
  | .choice word _ => Word.outputs word
  | _ => []

end LanguageHub.Shell
