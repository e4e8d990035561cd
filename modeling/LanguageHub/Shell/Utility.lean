import LanguageHub.Shell.Expansion
import LanguageHub.Shell.Parser

/-!
# Commands by name

What the commands do that a process finds by their names: those of the shell itself, and the
utilities for copying, counting and waiting.
-/

namespace LanguageHub.Shell

/-- The utilities that are found without a path. -/
def utilities : List String :=
  ["sh", "dash", "bash", "cat", "head", "tee", "wc", "sleep", "true", "false", "printf", "echo",
    "test", "[", "rm", "touch", "mkdir", "kill", "env"]

/-- The directories in which utilities are found. -/
def binaryDirectories : List Location := [["bin"], ["usr", "bin"]]

/-- The name of the utility at a path, if there is one. -/
def utilityName? (program : String) : Option String :=
  if program.toList.contains '/' then
    let parts := Path.parts program
    if Path.isAbsolute program && binaryDirectories.contains parts.dropLast then
      utilities.find? fun u ↦ parts.getLast? == some u
    else none
  else utilities.find? (· == program)

/-- The system's own files, of which none is a program. -/
def systemFiles : List Location := [["etc", "passwd"], ["etc", "hosts"], ["etc", "group"]]

/-- Why a program cannot be started, if it cannot. -/
def refusal (files : FileTree) (command : List String) : Option String :=
  match command with
  | [] => some FileFault.notFound.message
  | program :: _ =>
    if command.any (·.toList.contains '\x00') then some "nul byte found in provided data"
    else if (utilityName? program).isSome then none
    else if program.toList.contains '/' then
      if systemFiles.contains (Path.parts program) then some FileFault.permissionDenied.message
      else
        match files.find program with
        | .ok _ => some FileFault.permissionDenied.message
        | .error fault => some fault.message
    else some FileFault.notFound.message

/-- Whether the test of a list of words holds. -/
def holds (files : FileTree) : (steps : Nat) → List String → Bool
  | 0, _ | _, [] => false
  | _ + 1, [s] => s != ""
  | n + 1, "!" :: rest => !holds files n rest
  | _ + 1, ["-n", s] => s != ""
  | _ + 1, ["-z", s] => s == ""
  | _ + 1, ["-e", path] => files.contains path
  | _ + 1, ["-f", path] => files.isFile path
  | _ + 1, ["-d", path] => files.isDirectory path
  | _ + 1, ["-s", path] => ((files.sizeOf path).toOption.getD 0) != 0
  | _ + 1, ["-r", path] => files.contains path
  | n + 1, [a, operator, b] =>
    let x := integerOf a
    let y := integerOf b
    match operator with
    | "=" | "==" => a == b
    | "!=" => a != b
    | "-eq" => x == y
    | "-ne" => x != y
    | "-lt" => x < y
    | "-le" => x ≤ y
    | "-gt" => y < x
    | "-ge" => y ≤ x
    | "-a" => holds files n [a] && holds files n [b]
    | "-o" => holds files n [a] || holds files n [b]
    | _ => false
  | _, _ => false

/-- The nanoseconds of a number of seconds, which may have a fraction. -/
def nanosOf (s : String) : Nat :=
  let cs := s.toList
  let whole := numberOf (cs.takeWhile Char.isDigit)
  let fraction := match cs.dropWhile Char.isDigit with
    | '.' :: rest => (rest.takeWhile Char.isDigit).take 9
    | _ => []
  whole * 1000000000 + numberOf fraction * Nat.pow 10 (9 - fraction.length)

/-- Give values to variables, the last of which gets the rest of a line. -/
def Process.assign (p : Process) (names values : List String) : Process :=
  let pairs := names.zip (values ++ names.map fun _ ↦ "")
  { p with bindings := pairs.foldl (fun d e ↦ d.insert e.1 e.2) p.bindings }

/-- Assignments that stand as words. -/
def Process.assignWords (p : Process) (words : List String) : Process :=
  words.foldl (fun p w ↦
    match readAssignment w.toList with
    | some (name, value) => p.assign [name] [String.ofList value]
    | none => p) p

/-- A process that runs a script with parameters. -/
def Process.runScript (p : Process) (script name : String) (parameters : List String) : Process :=
  match parse script with
  | some c => { p with name, parameters, functions := [], frames := [.run c, .exit] }
  | none => p.finish 2

/-- Where `cat` and its like copy from. -/
def originsOf (files : FileTree) (paths : List String) : List Origin :=
  if paths.isEmpty then [.descriptor 0]
  else paths.map fun path ↦
    if path == "-" then .descriptor 0
    else .bytes (((files.read path).toOption.map (·.toList)).getD [])

/-- The number behind an option such as `-c 5` or `-c5`, and the words behind. -/
def countOption? (option : String) (words : List String) : Option (Nat × List String) :=
  match words with
  | w :: rest =>
    if w == option then
      match rest with
      | k :: rest => some (numberOf k.toList, rest)
      | [] => none
    else if option.toList.isPrefixOf w.toList then
      some (numberOf (w.toList.drop option.length), rest)
    else none
  | [] => none

/-- Leave what a process does up to the innermost loop, which it leaves as well or, with
`goesOn`, goes on with. -/
def Process.leaveLoop (p : Process) (goesOn : Bool) : Process :=
  match go p.frames with
  | some (frames, descriptors) =>
    { p with frames, status := 0, descriptors := descriptors.getD p.descriptors }
  | none => p.ended 0
where
  /-- What is left to do, and the descriptors that redirections on the way had replaced. -/
  go : List Frame → Option (List Frame × Option (List (Nat × Handle)))
    | [] => none
    | .loopDone u t b :: rest => some (if goesOn then .loopDone u t b :: rest else rest, none)
    | .loopTested u t b s :: rest =>
      some (if goesOn then .loopDone u t b :: rest else .succeed s :: rest, none)
    | .each x vs b :: rest => some (if goesOn then .each x vs b :: rest else rest, none)
    | .restore descriptors :: rest => (go rest).map fun (frames, outer) ↦
      (frames, some (outer.getD descriptors))
    | _ :: rest => go rest

/-- Leave what a process does up to the end of the innermost function. -/
def Process.leaveFunction (p : Process) (status : Nat) : Process :=
  match go p.frames with
  | some (frames, descriptors) =>
    { p with frames, status, descriptors := descriptors.getD p.descriptors }
  | none => p.finish status
where
  /-- What is left to do, and the descriptors that redirections on the way had replaced. -/
  go : List Frame → Option (List Frame × Option (List (Nat × Handle)))
    | [] => none
    | .return_ parameters :: rest => some (.return_ parameters :: rest, none)
    | .restore descriptors :: rest => (go rest).map fun (frames, outer) ↦
      (frames, some (outer.getD descriptors))
    | _ :: rest => go rest

/-- Write bytes to a descriptor and end with a status. -/
def Process.say (p : Process) (descriptor : Nat) (bytes : Bytes) (status : Nat) : Process :=
  p.next [.write descriptor bytes, .succeed status]

/-- Run a utility in the process with the number `n`; absent if there is none with that name. -/
def runUtility? (h : Host) (n : Nat) (p : Process) (name : String) (arguments : List String) :
    Option (Process × Host) :=
  match name with
  | "true" | ":" => some (p.ended 0, h)
  | "false" => some (p.ended 1, h)
  | "echo" => some (p.say 1 (echoed arguments) 0, h)
  | "printf" =>
    match arguments with
    | [] => some (p.ended 2, h)
    | format :: rest => some (p.say 1 (formatted format rest) 0, h)
  | "test" => some (p.ended (if holds h.files 100 arguments then 0 else 1), h)
  | "[" => some (p.ended (if holds h.files 100 arguments.dropLast then 0 else 1), h)
  | "cat" =>
    let paths := arguments.filter (· != "-u")
    match paths.find? fun path ↦ path != "-" && !h.files.isFile path with
    | some path =>
      some (p.say 2 (Utf8.encode s!"cat: {path}: No such file or directory\n") 1, h)
    | none => some (p.next [.copy (originsOf h.files paths) none [1], .succeed 0], h)
  | "head" =>
    match countOption? "-c" arguments with
    | some (count, paths) =>
      some (p.next [.copy (originsOf h.files paths) (some count) [1], .succeed 0], h)
    | none => some (p.next [.copy (originsOf h.files arguments) none [1], .succeed 0], h)
  | "tee" =>
    let isAppending := arguments.head? == some "-a"
    let paths := if isAppending then arguments.tail else arguments
    let step := fun (acc : Process × Host × List Nat) (path : String) ↦
      let (p, h, targets) := acc
      let changed := if isAppending then h.files.append path .empty else h.files.write path .empty
      match changed, h.files.locate path with
      | .ok files, .ok l =>
        let d := 100 + targets.length
        (p.setHandle d (some (.file l)), { h with files }, targets ++ [d])
      | _, _ => (p, h, targets)
    let (p, h, targets) := paths.foldl step (p, h, [1])
    some (p.next [.copy [.descriptor 0] none targets, .succeed 0], h)
  | "wc" => some (p.next [.countUp (arguments.contains "-l") 0, .succeed 0], h)
  | "sleep" => some (p.next [.sleep (h.now + nanosOf (arguments.headD "0")), .succeed 0], h)
  | "touch" =>
    let files := arguments.foldl (fun t path ↦ (t.append path .empty).toOption.getD t) h.files
    some (p.ended 0, { h with files })
  | "rm" =>
    let paths := arguments.filter fun w ↦ !"-".toList.isPrefixOf w.toList
    let files := paths.foldl (fun t path ↦ (t.removeFile path).toOption.getD t) h.files
    some (p.ended 0, { h with files })
  | "mkdir" =>
    let paths := arguments.filter fun w ↦ !"-".toList.isPrefixOf w.toList
    let files := paths.foldl (fun t path ↦ (t.createDirectories path).2) h.files
    some (p.ended 0, { h with files })
  | "kill" =>
    let numbers := (arguments.filter fun w ↦ !"-".toList.isPrefixOf w.toList).map fun w ↦
      numberOf w.toList - 1
    let h := (numbers.filter (· != n)).foldl Host.kill h
    some (if numbers.contains n then p.finish 137 else p.ended 0, h)
  | _ => none

/-- Run a command of the shell itself; absent if there is none with that name. -/
def runBuiltin? (h : Host) (p : Process) (name : String) (arguments : List String) :
    Option (Process × Host) :=
  match name with
  | "read" =>
    let names := arguments.filter fun w ↦ !"-".toList.isPrefixOf w.toList
    some (p.next [.readLine (if names.isEmpty then ["REPLY"] else names) []], h)
  | "exit" => some (p.finish ((arguments.head?.map (numberOf ·.toList)).getD p.status), h)
  | "return" =>
    some (p.leaveFunction ((arguments.head?.map (numberOf ·.toList)).getD p.status), h)
  | "break" => some (p.leaveLoop false, h)
  | "continue" => some (p.leaveLoop true, h)
  | "shift" =>
    let count := (arguments.head?.map (numberOf ·.toList)).getD 1
    some ({ p with parameters := p.parameters.drop count }.ended 0, h)
  | "export" | "local" | "readonly" => some ((p.assignWords arguments).ended 0, h)
  | "unset" =>
    some ({ p with bindings := arguments.foldl Dictionary.erase p.bindings }.ended 0, h)
  | "set" =>
    match arguments with
    | "--" :: parameters => some ({ p with parameters }.ended 0, h)
    | word :: _ =>
      let isOption := "-".toList.isPrefixOf word.toList || "+".toList.isPrefixOf word.toList
      some ((if isOption then p else { p with parameters := arguments }).ended 0, h)
    | [] => some (p.ended 0, h)
  | "trap" | "umask" | "ulimit" | "cd" => some (p.ended 0, h)
  | "wait" =>
    match arguments with
    | [] => some (p.next [.await (p.background.toList.map (· - 1)), .succeed 0], h)
    | numbers => some (p.next [.await (numbers.map fun w ↦ numberOf w.toList - 1)], h)
  | _ => none

end LanguageHub.Shell
