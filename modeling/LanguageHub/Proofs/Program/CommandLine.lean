import LanguageHub.Program.CommandLine
import LanguageHub.Proofs.Text

/-!
# The order of arguments

The arguments of the program are whole arguments one after another: options, each with its value if
it takes one, and other arguments. An option may be moved past whole arguments as long as it passes
no occurrence of itself, and what is written for a command line is read back from it
(`parse_in_any_order`).
-/

namespace LanguageHub.Program

/-! ### Whole arguments -/

/-- An option as it is given, with its value if it takes one. -/
inductive GivenOption where
  | config (file : String)
  | language (id : String)
  | wait (value : String)
  | logToStderr
  | shortHelp
  | longHelp
  deriving DecidableEq, Repr

namespace GivenOption

/-- The argument that names an option. -/
def name : GivenOption → String
  | config _ => "--config"
  | language _ => "--lang"
  | wait _ => "--wait-ms"
  | logToStderr => "--log-stderr"
  | shortHelp => "-h"
  | longHelp => "--help"

/-- The value of an option that takes one. -/
def value? : GivenOption → Option String
  | config value | language value | wait value => some value
  | logToStderr | shortHelp | longHelp => none

end GivenOption

/-- The options that take the argument behind them as their value. -/
def valueOptions : List String := ["--config", "--lang", "--wait-ms"]

/-- The options that stand alone. -/
def loneOptions : List String := ["--log-stderr", "-h", "--help"]

/-- A whole argument: an option with its value, or an argument that names no option. -/
inductive Argument where
  | option (given : GivenOption)
  | other (text : String) (noOption : text ∉ valueOptions ++ loneOptions)

namespace Argument

/-- A whole argument as it is given. -/
def words : Argument → List String
  | option given => given.name :: given.value?.toList
  | other text _ => [text]

/-- Whether a whole argument can be taken, whatever stands before it. -/
def isSound : Argument → Bool
  | option (.wait value) => (Text.readNumeral Text.word64 value.toList).isOk
  | option _ => true
  | other text _ => !text.startsWith "--"

/-- What a sound argument changes in the options that were read before it. -/
def change (o : CommandLine.Options) : Argument → CommandLine.Options
  | option (.config file) => { o with config := some file }
  | option (.language id) => { o with language := id }
  | option (.wait value) =>
    match Text.readNumeral Text.word64 value.toList with
    | .ok n => { o with waitMillis := n }
    | .error _ => o
  | option .logToStderr => { o with logToStderr := true }
  | option .shortHelp | option .longHelp => { o with help := true }
  | other text _ => { o with positional := o.positional ++ [text] }

end Argument

/-- Whole arguments as they are given. -/
def spell (as : List Argument) : List String := as.flatMap Argument.words

/-- Every option that takes a value is followed by it. A value may look like an option. -/
def Complete : List String → Prop
  | [] => True
  | [arg] => arg ∉ valueOptions
  | arg :: value :: rest =>
    if arg ∈ valueOptions then Complete rest else Complete (value :: rest)

/-- An option was moved to another place between whole arguments, past no occurrence of itself. -/
inductive Moved : List Argument → List Argument → Prop where
  | later {before between after : List Argument} {given : GivenOption}
      (passes : ∀ g, .option g ∈ between → g.name ≠ given.name) :
      Moved (before ++ .option given :: (between ++ after))
        (before ++ (between ++ .option given :: after))
  | earlier {before between after : List Argument} {given : GivenOption}
      (passes : ∀ g, .option g ∈ between → g.name ≠ given.name) :
      Moved (before ++ (between ++ .option given :: after))
        (before ++ .option given :: (between ++ after))

theorem spell_cons (a : Argument) (as : List Argument) : spell (a :: as) = a.words ++ spell as :=
  List.flatMap_cons

/-- Arguments in which no option lacks its value are whole arguments. -/
theorem exists_spell {args : List String} (complete : Complete args) :
    ∃ as, spell as = args := by
  have lone {arg : String} (h : arg ∉ valueOptions) : ∃ a : Argument, a.words = [arg] := by
    by_cases hlone : arg ∈ loneOptions
    · simp only [loneOptions, List.mem_cons, List.not_mem_nil, or_false] at hlone
      rcases hlone with rfl | rfl | rfl
      · exact ⟨.option .logToStderr, rfl⟩
      · exact ⟨.option .shortHelp, rfl⟩
      · exact ⟨.option .longHelp, rfl⟩
    · exact ⟨.other arg (by simp [h, hlone]), rfl⟩
  induction args using Complete.induct with
  | case1 => exact ⟨[], rfl⟩
  | case2 arg =>
    obtain ⟨a, ha⟩ := lone complete
    exact ⟨[a], by simp [spell, ha]⟩
  | case3 arg value rest taking ih =>
    rw [Complete, if_pos taking] at complete
    obtain ⟨as, hrest⟩ := ih complete
    simp only [valueOptions, List.mem_cons, List.not_mem_nil, or_false] at taking
    rcases taking with rfl | rfl | rfl
    · exact ⟨.option (.config value) :: as, by rw [spell_cons, hrest]; rfl⟩
    · exact ⟨.option (.language value) :: as, by rw [spell_cons, hrest]; rfl⟩
    · exact ⟨.option (.wait value) :: as, by rw [spell_cons, hrest]; rfl⟩
  | case4 arg value rest alone ih =>
    rw [Complete, if_neg alone] at complete
    obtain ⟨as, hrest⟩ := ih complete
    obtain ⟨a, ha⟩ := lone alone
    exact ⟨a :: as, by rw [spell_cons, hrest, ha]; rfl⟩

/-- In whole arguments every option that takes a value is followed by it. -/
theorem complete_spell (as : List Argument) : Complete (spell as) := by
  induction as with
  | nil => trivial
  | cons a as ih =>
    rw [spell_cons]
    have behind {arg : String} (h : arg ∉ valueOptions) : Complete ([arg] ++ spell as) := by
      cases hrest : spell as with
      | nil => exact h
      | cons value rest =>
        rw [List.singleton_append, Complete, if_neg h, ← hrest]
        exact ih
    cases a with
    | other text noOption => exact behind fun h ↦ noOption (List.mem_append_left _ h)
    | option given =>
      cases given with
      | config | language | wait => exact ih
      | logToStderr | shortHelp | longHelp => exact behind (by decide)

/-! ### Reading whole arguments -/

/-- An argument that names no option stands for itself, unless it begins like an option. -/
theorem readOptions_other {text : String} (noOption : text ∉ valueOptions ++ loneOptions)
    (o : CommandLine.Options) (rest : List String) :
    CommandLine.readOptions o (text :: rest) =
      if text.startsWith "--" then .error (.unknownOption text)
      else CommandLine.readOptions { o with positional := o.positional ++ [text] } rest := by
  simp only [valueOptions, loneOptions, List.cons_append, List.nil_append, List.mem_cons,
    List.not_mem_nil, or_false, not_or] at noOption
  obtain ⟨config, language, wait, log, short, long⟩ := noOption
  rw [CommandLine.readOptions] <;> assumption

/-- A sound argument is taken before what stands behind it is read. -/
theorem toOption_readOptions_words (a : Argument) (o : CommandLine.Options)
    (rest : List String) :
    (CommandLine.readOptions o (a.words ++ rest)).toOption =
      if a.isSound then (CommandLine.readOptions (a.change o) rest).toOption else none := by
  cases a with
  | other text noOption =>
    rw [Argument.words, List.singleton_append, readOptions_other noOption, Argument.isSound,
      Argument.change]
    cases text.startsWith "--" <;> rfl
  | option given =>
    cases given with
    | wait value =>
      change (CommandLine.readOptions o ("--wait-ms" :: value :: rest)).toOption = _
      rw [CommandLine.readOptions, Argument.isSound, Argument.change]
      cases Text.readNumeral Text.word64 value.toList <;> rfl
    | config | language | logToStderr | shortHelp | longHelp => rfl

/-- Whole arguments are read if each of them is sound, and then they are taken one after another. -/
theorem toOption_readOptions_spell (as : List Argument) (o : CommandLine.Options) :
    (CommandLine.readOptions o (spell as)).toOption =
      if as.all Argument.isSound then some (as.foldl Argument.change o) else none := by
  induction as generalizing o with
  | nil => rfl
  | cons a as ih =>
    rw [spell_cons, toOption_readOptions_words, ih, List.all_cons, List.foldl_cons]
    cases a.isSound <;> rfl

/-- What whole arguments stand for. -/
theorem toOption_parse_spell (as : List Argument) :
    (CommandLine.parse (spell as)).toOption =
      if as.all Argument.isSound then
        (CommandLine.ofOptions (as.foldl Argument.change {})).toOption
      else none := by
  have bind {ε α β : Type} (x : Except ε α) (f : α → Except ε β) :
      (x >>= f).toOption = x.toOption.bind fun a ↦ (f a).toOption := by
    cases x <;> rfl
  rw [CommandLine.parse, bind, toOption_readOptions_spell]
  split <;> rfl

/-! ### Moving options -/

/-- An option and an argument that is no occurrence of it can be taken in either order. -/
theorem change_comm {given : GivenOption} {a : Argument}
    (other : ∀ g, a = .option g → g.name ≠ given.name) (o : CommandLine.Options) :
    a.change (Argument.change o (.option given)) =
      Argument.change (a.change o) (.option given) := by
  cases a with
  | other text noOption =>
    cases given with
    | wait value =>
      simp only [Argument.change]
      cases Text.readNumeral Text.word64 value.toList <;> rfl
    | config | language | logToStderr | shortHelp | longHelp => rfl
  | option g =>
    have differ := other g rfl
    -- Options of two names set two fields, except for the two names of the call for help.
    cases g <;> cases given <;> first
      | exact absurd rfl differ
      | simp only [Argument.change]; split <;> rfl
      | rfl

/-- An option is taken behind other arguments as in front of them. -/
theorem foldl_change_option {given : GivenOption} {as : List Argument}
    (passes : ∀ g, .option g ∈ as → g.name ≠ given.name) (o : CommandLine.Options) :
    as.foldl Argument.change (Argument.change o (.option given)) =
      Argument.change (as.foldl Argument.change o) (.option given) := by
  induction as generalizing o with
  | nil => rfl
  | cons a as ih =>
    have first : ∀ g, a = .option g → g.name ≠ given.name := fun g h ↦
      passes g (h ▸ List.mem_cons_self)
    have others : ∀ g, .option g ∈ as → g.name ≠ given.name := fun g h ↦
      passes g (List.mem_cons_of_mem a h)
    rw [List.foldl_cons, List.foldl_cons, change_comm first, ih others]

/-- To move an option changes neither whether the arguments can be read nor what they stand for. -/
theorem Moved.toOption_parse {as as' : List Argument} (moved : Moved as as') :
    (CommandLine.parse (spell as)).toOption = (CommandLine.parse (spell as')).toOption := by
  have key {before between after : List Argument} {given : GivenOption}
      (passes : ∀ g, .option g ∈ between → g.name ≠ given.name) :
      (CommandLine.parse (spell (before ++ .option given :: (between ++ after)))).toOption =
        (CommandLine.parse (spell (before ++ (between ++ .option given :: after)))).toOption := by
    have sound : (before ++ .option given :: (between ++ after)).all Argument.isSound =
        (before ++ (between ++ .option given :: after)).all Argument.isSound :=
      (List.perm_middle.symm.append_left before).all_eq
    have taken : (before ++ .option given :: (between ++ after)).foldl Argument.change {} =
        (before ++ (between ++ .option given :: after)).foldl Argument.change {} := by
      rw [List.foldl_append, List.foldl_cons, List.foldl_append, foldl_change_option passes,
        List.foldl_append, List.foldl_append, List.foldl_cons]
    rw [toOption_parse_spell, toOption_parse_spell, sound, taken]
  cases moved with
  | later passes => exact key passes
  | earlier passes => exact (key passes).symm

/-! ### Arguments that are written -/

namespace Command

/-- The arguments that make a command. -/
def arguments : Command → List String
  | check file language waitMillis =>
    ["check", file, "--lang", language, "--wait-ms", toString waitMillis]
  | complete file language line column =>
    ["complete", file, toString line, toString column, "--lang", language]
  | servers => ["servers"]
  | help => ["help"]

/-- A file is not taken for an option. -/
def IsFile (file : String) : Prop := file ≠ "-h" ∧ file.startsWith "--" = false

/-- The file of a command is not taken for an option, and its numbers fit the words in which they
are kept. -/
def Fits : Command → Prop
  | check file _ waitMillis => IsFile file ∧ waitMillis ≤ Text.word64
  | complete file _ line column => IsFile file ∧ line ≤ Text.word32 ∧ column ≤ Text.word32
  | servers | help => True

end Command

/-- The arguments that make a command line. -/
def CommandLine.arguments (c : CommandLine) : List String :=
  (match c.config with
    | some file => ["--config", file]
    | none => []) ++
  (if c.logToStderr then ["--log-stderr"] else []) ++ c.command.arguments

/-- An argument that is not taken for an option stands for itself. -/
theorem readOptions_file {file : String} (isFile : Command.IsFile file) (o : CommandLine.Options)
    (rest : List String) : CommandLine.readOptions o (file :: rest) =
      CommandLine.readOptions { o with positional := o.positional ++ [file] } rest := by
  have noOption : file ∉ valueOptions ++ loneOptions := by
    intro mem
    obtain ⟨notShort, plain⟩ := isFile
    have dashed : ∀ name ∈ valueOptions ++ loneOptions, name ≠ "-h" →
        "--".toList <+: name.toList := by decide
    exact String.startsWith_string_eq_false_iff.mp plain (dashed file mem notShort)
  rw [readOptions_other noOption, isFile.2]
  rfl

/-- A numeral is not taken for an option. -/
theorem isFile_toString (n : Nat) : Command.IsFile (toString n) := by
  have digits : (toString n).toList = Nat.toDigits 10 n := by
    rw [Nat.toString_eq_ofList_toDigits, String.toList_ofList]
  have isDigit : ∀ c ∈ (toString n).toList, c.isDigit = true := fun c hc ↦
    Nat.isDigit_of_mem_toDigits (by decide) (by decide) (digits ▸ hc)
  constructor
  · intro h
    rw [h] at isDigit
    exact absurd (isDigit '-' (by decide)) (by decide)
  · rw [String.startsWith_string_eq_false_iff]
    intro dashed
    exact absurd (isDigit '-' (dashed.subset (by decide))) (by decide)

theorem readNumeral_toString {greatest n : Nat} (fits : n ≤ greatest) :
    Text.readNumeral greatest (toString n).toList = .ok n := by
  rw [Nat.toString_eq_ofList_toDigits, String.toList_ofList]
  exact Text.readNumeral_toDigits fits

/-- The options that are written in front of a command are read. -/
private theorem readOptions_front (config : Option String) (logToStderr : Bool)
    (rest : List String) :
    CommandLine.readOptions {} ((match config with
        | some file => ["--config", file]
        | none => []) ++ (if logToStderr then ["--log-stderr"] else []) ++ rest) =
      CommandLine.readOptions { config := config, logToStderr := logToStderr } rest := by
  cases config <;> cases logToStderr <;> rfl

/-- What is written for a command line is read back. -/
theorem CommandLine.parse_arguments {c : CommandLine} (fits : c.command.Fits) :
    parse c.arguments = .ok c := by
  obtain ⟨command, config, logToStderr⟩ := c
  have isName {name : String} (h : ¬ "--".toList <+: name.toList) (notShort : name ≠ "-h") :
      Command.IsFile name := ⟨notShort, String.startsWith_string_eq_false_iff.mpr h⟩
  rw [parse, arguments, readOptions_front]
  cases command with
  | check file language waitMillis =>
    obtain ⟨isFile, wait⟩ := fits
    rw [Command.arguments, readOptions_file (isName (by decide) (by decide)),
      readOptions_file isFile]
    simp only [readOptions, readNumeral_toString wait]
    rfl
  | complete file language line column =>
    obtain ⟨isFile, lineFits, columnFits⟩ := fits
    rw [Command.arguments, readOptions_file (isName (by decide) (by decide)),
      readOptions_file isFile, readOptions_file (isFile_toString line),
      readOptions_file (isFile_toString column)]
    change ofOptions {
      config := config
      logToStderr := logToStderr
      language := language
      positional := ["complete", file, toString line, toString column] } = _
    simp only [ofOptions, readCommand, readNumber, readNumeral_toString lineFits,
      readNumeral_toString columnFits]
    rfl
  | servers =>
    rw [Command.arguments, readOptions_file (isName (by decide) (by decide))]
    rfl
  | help =>
    rw [Command.arguments, readOptions_file (isName (by decide) (by decide))]
    rfl

/-! ### Arguments in any order -/

/-- Arguments are whole arguments if no option lacks its value, and only then. To move an option of
them changes neither whether they can be read nor what they stand for, and what is written for a
command line is read back. -/
theorem parse_in_any_order :
    (∀ args, Complete args ↔ ∃ as, spell as = args) ∧
    (∀ as as', Moved as as' →
      (CommandLine.parse (spell as)).toOption = (CommandLine.parse (spell as')).toOption) ∧
    ∀ c : CommandLine, c.command.Fits → CommandLine.parse c.arguments = .ok c := by
  refine ⟨fun args ↦ ⟨exists_spell, ?_⟩, fun as as' moved ↦ moved.toOption_parse,
    fun c fits ↦ CommandLine.parse_arguments fits⟩
  rintro ⟨as, rfl⟩
  exact complete_spell as

/-- A language that looks like an option is moved behind the waiting time, and a command line whose
configuration file looks like an option is read back. -/
theorem parse_dashed_values :
    (CommandLine.parse ["check", "--lang", "--wait-ms", "a.py", "--wait-ms", "250"]).toOption =
      (CommandLine.parse ["check", "a.py", "--wait-ms", "250", "--lang", "--wait-ms"]).toOption ∧
    CommandLine.parse ["--config", "--lang", "--log-stderr", "complete", "-x", "0", "4294967295",
      "--lang", ""] = .ok ⟨.complete "-x" "" 0 4294967295, some "--lang", true⟩ := by
  have moved : Moved
      [.other "check" (by decide), .option (.language "--wait-ms"), .other "a.py" (by decide),
        .option (.wait "250")]
      [.other "check" (by decide), .other "a.py" (by decide), .option (.wait "250"),
        .option (.language "--wait-ms")] :=
    @Moved.later [.other "check" (by decide)] [.other "a.py" (by decide), .option (.wait "250")] []
      (.language "--wait-ms") (by simp [GivenOption.name])
  have isFile : Command.IsFile "-x" :=
    ⟨by decide, String.startsWith_string_eq_false_iff.mpr (by decide)⟩
  exact ⟨parse_in_any_order.2.1 _ _ moved,
    parse_in_any_order.2.2 ⟨.complete "-x" "" 0 4294967295, some "--lang", true⟩
      ⟨isFile, by decide, by decide⟩⟩

end LanguageHub.Program
