import LanguageHub.Text.Numeral

/-!
# The command line

What the arguments of the program ask for. Options may stand anywhere between the other
arguments, and each takes the argument behind it as its value, whatever that is.
-/

namespace LanguageHub.Program

/-- What the program is asked to do. -/
inductive Command where
  /-- Print the diagnostics that a server publishes for a file, waiting so many milliseconds. -/
  | check (file language : String) (waitMillis : Nat)
  /-- Print the completions at a position of a file. -/
  | complete (file language : String) (line column : Nat)
  /-- Print the known servers. -/
  | servers
  /-- Print how the program is used. -/
  | help
  deriving DecidableEq, Repr

/-- What the command line says. -/
structure CommandLine where
  command : Command
  /-- The configuration file that is read in place of the usual ones. -/
  config : Option String
  /-- Whether the log is written to the standard error stream. -/
  logToStderr : Bool
  deriving DecidableEq, Repr

/-- Why arguments are refused. -/
inductive CommandLineFault where
  | valueMissing (option : String)
  | waitNotNumeral (value : String) (fault : Text.NumeralFault)
  | unknownOption (option : String)
  | unknownCommand (command : String)
  | fileMissing (command : String)
  | numberMissing (place : String)
  | notNumeral (place value : String) (fault : Text.NumeralFault)
  | unexpectedArgument (argument : String)
  deriving DecidableEq, Repr

/-- The wording of a fault, with its cause behind it. -/
def CommandLineFault.message : CommandLineFault → String
  | valueMissing option => s!"{option} requires a value"
  | waitNotNumeral value fault => s!"invalid --wait-ms value: {value}: {fault.message}"
  | unknownOption option => s!"unknown option: {option}"
  | unknownCommand command => s!"unknown command: {command}"
  | fileMissing command => s!"{command}: missing <file>"
  | numberMissing place => s!"complete: missing <{place}>"
  | notNumeral place value fault => s!"invalid <{place}>: {value}: {fault.message}"
  | unexpectedArgument argument => s!"unexpected argument: {argument}"

namespace CommandLine

/-- How long `check` waits for diagnostics when nothing else is asked for, in milliseconds. -/
def defaultWait : Nat := 5000

/-- How the program is used. -/
def usage : String := String.intercalate "\n" [
  "usage: polyglot [--config <file>] [--log-stderr] <command>",
  "",
  "commands:",
  "  check <file> [--lang <id>] [--wait-ms <n>]   print diagnostics for a file",
  "  complete <file> <line> <col> [--lang <id>]   print completion labels (zero-based position)",
  "  servers                                      list configured language servers",
  "  help                                         show this message",
  ""]

/-- The options and the other arguments of a command line. -/
structure Options where
  config : Option String := none
  logToStderr : Bool := false
  help : Bool := false
  language : String := ""
  waitMillis : Nat := defaultWait
  /-- The arguments that are no options, in order. -/
  positional : List String := []
  deriving DecidableEq, Repr

/-- Sort the arguments into options and others. Of an option that is given twice the last value
stands. -/
def readOptions (o : Options) : List String → Except CommandLineFault Options
  | [] => .ok o
  | "--config" :: rest =>
    match rest with
    | [] => .error (.valueMissing "--config")
    | value :: more => readOptions { o with config := some value } more
  | "--lang" :: rest =>
    match rest with
    | [] => .error (.valueMissing "--lang")
    | value :: more => readOptions { o with language := value } more
  | "--wait-ms" :: rest =>
    match rest with
    | [] => .error (.valueMissing "--wait-ms")
    | value :: more =>
      match Text.readNumeral Text.word64 value.toList with
      | .ok n => readOptions { o with waitMillis := n } more
      | .error fault => .error (.waitNotNumeral value fault)
  | "--log-stderr" :: rest => readOptions { o with logToStderr := true } rest
  | "-h" :: rest => readOptions { o with help := true } rest
  | "--help" :: rest => readOptions { o with help := true } rest
  | arg :: rest =>
    if arg.startsWith "--" then .error (.unknownOption arg)
    else readOptions { o with positional := o.positional ++ [arg] } rest

/-- A number that stands as an argument. -/
def readNumber (place value : String) : Except CommandLineFault Nat :=
  (Text.readNumeral Text.word32 value.toList).mapError (.notNumeral place value)

/-- The command that the arguments other than options name, and the arguments behind it. -/
def readCommand (o : Options) : Except CommandLineFault (Command × List String) :=
  match o.positional with
  | [] => .ok (.help, [])
  | "help" :: rest => .ok (.help, rest)
  | "servers" :: rest => .ok (.servers, rest)
  | ["check"] => .error (.fileMissing "check")
  | "check" :: file :: rest => .ok (.check file o.language o.waitMillis, rest)
  | ["complete"] => .error (.fileMissing "complete")
  | ["complete", _] => .error (.numberMissing "line")
  | ["complete", _, line] => do
    let _ ← readNumber "line" line
    .error (.numberMissing "col")
  | "complete" :: file :: line :: column :: rest => do
    let l ← readNumber "line" line
    let c ← readNumber "col" column
    return (.complete file o.language l c, rest)
  | other :: _ => .error (.unknownCommand other)

/-- The command that the options and the other arguments stand for. A call for help stands
before everything else. -/
def ofOptions (o : Options) : Except CommandLineFault CommandLine :=
  if o.help then .ok ⟨.help, o.config, o.logToStderr⟩
  else do
    let (command, rest) ← readCommand o
    match rest with
    | [] => return ⟨command, o.config, o.logToStderr⟩
    | extra :: _ => .error (.unexpectedArgument extra)

/-- Read the arguments of the program. -/
def parse (arguments : List String) : Except CommandLineFault CommandLine := do
  ofOptions (← readOptions {} arguments)

end CommandLine

end LanguageHub.Program
