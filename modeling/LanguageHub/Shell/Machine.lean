import LanguageHub.Shell.Utility
import LanguageHub.Tasks

/-!
# Running processes

A process takes one step at a time: it runs the first of its frames, which may put others in its
place. A process that waits for bytes, for room in a pipe, for the clock or for another process
takes no step.
-/

namespace LanguageHub.Shell

/-- Start a process that has all that another one has, to do something else. -/
def fork (h : Host) (p : Process) (frames : List Frame)
    (change : Process → Process) : Nat × Host :=
  h.add (change { p with frames := frames ++ [.exit], background := none })

/-- Open the file of a redirection. -/
def openFile (h : Host) (direction : Direction) (path : String) :
    Except String (Handle × Host) :=
  if path == "/dev/null" then .ok (.null, h)
  else
    match direction with
    | .input =>
      match h.files.read path with
      | .ok bytes => .ok (.content bytes.toList, h)
      | .error _ => .error s!"cannot open {path}: No such file"
    | _ =>
      let changed :=
        if direction = .append then h.files.append path .empty else h.files.write path .empty
      match changed, h.files.locate path with
      | .ok files, .ok l => .ok (.file l, { h with files })
      | _, _ => .error s!"cannot create {path}: Directory nonexistent"

/-- Apply redirections from left to right. -/
def redirect (outputs : List String) :
    List Redirect → Process → Host → Except String (Process × Host)
  | [], p, h => .ok (p, h)
  | .mk descriptor direction target :: rest, p, h => do
    let (path, outputs) := p.text outputs target
    if direction = .duplicate then
      if path == "-" then redirect outputs rest (p.setHandle descriptor none) h
      else
        match p.handle? (numberOf path.toList) with
        | some handle => redirect outputs rest (p.setHandle descriptor (some handle)) h
        | none => .error s!"{path}: Bad file descriptor"
    else
      let (handle, h) ← openFile h direction path
      redirect outputs rest (p.setHandle descriptor (some handle)) h

/-- A message of the shell, and a status. -/
def complain (p : Process) (reason : String) (status : Nat) : Process :=
  p.say 2 (Utf8.encode s!"{p.name}: 1: {reason}\n") status

/-- A process in which a shell with the given arguments runs. -/
def enterShell (h : Host) (p : Process) (name : String) (arguments : List String) : Process :=
  match arguments with
  | "-c" :: script :: name :: parameters => p.runScript script name parameters
  | ["-c", script] => p.runScript script name []
  | path :: parameters =>
    match h.files.readText path with
    | .ok script => p.runScript script path parameters
    | .error _ => p.finish 127
  | [] => p.finish 0

/-- Run the program with a name before the process goes on. A shell runs in a process of its own
or, if the process gives itself up, in its place. -/
def runProgram (h : Host) (n : Nat) (p : Process) (name : String) (arguments : List String)
    (isReplacing : Bool) : Process × Host :=
  match utilityName? name with
  | none => (complain p s!"{name}: not found" 127, h)
  | some utility =>
    match runUtility? h n p utility arguments with
    | some r => r
    | none =>
      if isReplacing then (enterShell h p utility arguments, h)
      else
        let (child, h) := fork h p [] fun q ↦ enterShell h q utility arguments
        (p.next [.await [child]], h)

/-- Run the function, the command of the shell or the program with a name. -/
def runNamed (h : Host) (n : Nat) (p : Process) (name : String) (arguments : List String)
    (restore : List Frame) : Process × Host :=
  match p.functions.lookup name with
  | some body =>
    ({ p with
      parameters := arguments
      frames := .run body :: .return_ p.parameters :: (restore ++ p.frames) }, h)
  | none =>
    let q := p.next restore
    match runBuiltin? h q name arguments with
    | some r => r
    | none => runProgram h n q name arguments false

/-- Run a simple command whose words and redirections are expanded. The redirections end with the
command, unless they are those of the process itself. -/
def runFields (h : Host) (n : Nat) (p : Process) (restore : List Frame) (status : Nat)
    (fields : List String) : Process × Host :=
  match fields with
  | [] => ((p.next restore).ended status, h)
  | ["exec"] => (p.ended 0, h)
  | "exec" :: name :: arguments =>
    runProgram h n { p with frames := [.exit] } name arguments true
  | name :: arguments => runNamed h n p name arguments restore

/-- Run a simple command. -/
def runSimple (h : Host) (n : Nat) (p : Process) (assignments : List (String × Word))
    (words : List Word) (redirects : List Redirect) (outputs : List String) : Process × Host :=
  let status := if outputs.isEmpty then 0 else p.status
  let step := fun (acc : List (String × String) × List String × Process) (e : String × Word) ↦
    let (value, outputs) := acc.2.2.text acc.2.1 e.2
    (acc.1 ++ [(e.1, value)], outputs, acc.2.2.assign [e.1] [value])
  let (assigned, outputs, _) := assignments.foldl step ([], outputs, p)
  let (fields, outputs) := p.fields outputs words
  match redirect outputs redirects p h with
  | .error reason => (complain p reason 2, h)
  | .ok (q, h) =>
    let q := q.assign (assigned.map (·.1)) (assigned.map (·.2))
    runFields h n q [.restore p.descriptors] status fields

/-- Connect the commands of a pipeline and start them. -/
def runPipeline (p : Process) : List Command → (input : Option Handle) → (children : List Nat) →
    Host → List Nat × Host
  | [], _, children, h => (children, h)
  | c :: rest, input, children, h =>
    let (pipe, h) := h.newPipe
    let isLast := rest.isEmpty
    let (child, h) := fork h p [.run c] fun q ↦
      let q := if input.isSome then q.setHandle 0 input else q
      if isLast then q else q.setHandle 1 (some (.sink pipe))
    runPipeline p rest (some (.source pipe)) (children ++ [child]) h

/-- Run a command; `outputs` holds what the commands in its words have written. -/
def runCommand (h : Host) (n : Nat) (p : Process) (c : Command) (outputs : List String) :
    Process × Host :=
  match c with
  | .simple assignments words redirects =>
    runSimple h n p assignments words redirects outputs
  | .pipeline commands =>
    let (children, h) := runPipeline p commands none [] h
    (p.next [.await children], h)
  | .negated c => (p.next [.run c, .invert], h)
  | .both a b => (p.next [.run a, .both b], h)
  | .either a b => (p.next [.run a, .either b], h)
  | .sequence [] => (p.ended 0, h)
  | .sequence (c :: rest) => (p.next [.run c, .sequence rest], h)
  | .background c =>
    let (child, h) := fork h p [.run c] (·.setHandle 0 (some .null))
    ({ p with background := some (child + 1) }.ended 0, h)
  | .subshell c =>
    let (child, h) := fork h p [.run c] id
    (p.next [.await [child]], h)
  | .redirected c redirects =>
    match redirect outputs redirects p h with
    | .error reason => (complain p reason 2, h)
    | .ok (q, h) => (q.next [.run c, .restore p.descriptors], h)
  | .conditional test yes no => (p.next [.run test, .tested yes no], h)
  | .loop isUntil test body => (p.next [.run test, .loopTested isUntil test body 0], h)
  | .each name words body => (p.next [.each name (p.fields outputs words).1 body], h)
  | .choice word branches =>
    let text := (p.text outputs word).1.toList
    match branches.find? fun b ↦ b.1.any fun w ↦ isMatch (p.pattern w) text with
    | some (_, body) => (p.next [.run body], h)
    | none => (p.ended 0, h)
  | .define name body => ({ p with functions := (name, body) :: p.functions }.ended 0, h)

/-- Write bytes to a descriptor, as many as there is room for; absent if there is no room. -/
def write? (h : Host) (p : Process) (descriptor : Nat) (bytes : Bytes) :
    Option (Process × Host) :=
  match p.handle? descriptor with
  | none => some (p.ended 1, h)
  | some .null | some (.source _) | some (.content _) => some (p, h)
  | some .console => some (p, { h with console := h.console ++ bytes })
  | some (.file l) =>
    let (old, isExecutable) : ByteArray × Bool := match h.files.get? l with
      | some (.file content isExecutable) => (content, isExecutable)
      | _ => (.empty, false)
    some (p, { h with files := h.files.put l (.file (old ++ ⟨bytes.toArray⟩) isExecutable) })
  | some (.sink pipe) =>
    if h.hasReader pipe then
      let before := h.inPipe pipe
      let room := Pipe.capacity - before.length
      if room = 0 then none
      else
        let left := bytes.drop room
        let p := if left.isEmpty then p else p.next [.write descriptor left]
        some (p, h.setPipe pipe (before ++ bytes.take room))
    else some (p.finish 141, h)

/-- How many bytes are copied at once. -/
def copySize : Nat := 65536

/-- One step of a frame, which is already taken from the process; absent if it has to wait. -/
def stepFrame? (h : Host) (n : Nat) (p : Process) (f : Frame) : Option (Process × Host) :=
  match f with
  | .run c =>
    match c.outputs with
    | [] => some (runCommand h n p c [])
    | pending => some (p.next [.expand c pending []], h)
  | .expand c [] outputs => some (runCommand h n p c outputs)
  | .expand c (o :: pending) outputs =>
    let (pipe, h) := h.newPipe
    let (child, h) := fork h p [.run o] (·.setHandle 1 (some (.sink pipe)))
    some (p.next [.collect c pending outputs pipe child []], h)
  | .collect c pending outputs pipe child taken =>
    match h.inPipe pipe with
    | [] =>
      match h.exited? child with
      | some status =>
        if h.hasWriter pipe then none
        else some (p.next [.expand c pending (outputs ++ [outputText taken])] |>.ended status, h)
      | none => none
    | bytes =>
      some (p.next [.collect c pending outputs pipe child (taken ++ bytes)], h.setPipe pipe [])
  | .sequence rest => some (p.next (if rest.isEmpty then [] else [.run (.sequence rest)]), h)
  | .both second => some (if p.status = 0 then p.next [.run second] else p, h)
  | .either second => some (if p.status = 0 then p else p.next [.run second], h)
  | .invert => some (p.ended (if p.status = 0 then 1 else 0), h)
  | .tested yes no => some (p.next [.run (if p.status = 0 then yes else no)], h)
  | .loopTested isUntil test body status =>
    if (p.status == 0) != isUntil then
      some (p.next [.run body, .loopDone isUntil test body], h)
    else some (p.ended status, h)
  | .loopDone isUntil test body =>
    some (p.next [.run test, .loopTested isUntil test body p.status], h)
  | .each _ [] _ => some (p, h)
  | .each name (v :: values) body =>
    some ((p.assign [name] [v]).next [.run body, .each name values body], h)
  | .return_ parameters => some ({ p with parameters }, h)
  | .restore descriptors => some ({ p with descriptors }, h)
  | .await [] => some (p, h)
  | .await (c :: children) =>
    match h.exited? c with
    | some status => some ((p.ended status).next [.await children], h)
    | none => if (h.process? c).isSome then none else some (p.next [.await children], h)
  | .readLine names taken =>
    match h.take? p 0 1 with
    | none => none
    | some ([], p, h) =>
      some ((p.assign names (fieldsOf names.length (textOf taken).toList)).ended 1, h)
    | some (b :: _, p, h) =>
      if b = 10 then
        some ((p.assign names (fieldsOf names.length (textOf taken).toList)).ended 0, h)
      else some (p.next [.readLine names (taken ++ [b])], h)
  | .write descriptor bytes => if bytes.isEmpty then some (p, h) else write? h p descriptor bytes
  | .copy [] _ _ => some (p, h)
  | .copy _ (some 0) _ => some (p, h)
  | .copy (.bytes bytes :: rest) limit targets =>
    let bytes := match limit with
      | some k => bytes.take k
      | none => bytes
    let left := limit.map (· - bytes.length)
    some (p.next (targets.map (.write · bytes) ++ [.copy rest left targets]), h)
  | .copy (.descriptor d :: rest) limit targets =>
    match h.take? p d (min copySize (limit.getD copySize)) with
    | none => none
    | some ([], p, h) => some (p.next [.copy rest limit targets], h)
    | some (bytes, p, h) =>
      let left := limit.map (· - bytes.length)
      some (p.next (targets.map (.write · bytes) ++ [.copy (.descriptor d :: rest) left targets]),
        h)
  | .countUp linesOnly count =>
    match h.take? p 0 copySize with
    | none => none
    | some ([], p, h) => some (p.next [.write 1 (Utf8.encode s!"{count}\n")], h)
    | some (bytes, p, h) =>
      let more := if linesOnly then bytes.count 10 else bytes.length
      some (p.next [.countUp linesOnly (count + more)], h)
  | .sleep until_ => if until_ ≤ h.now then some (p, h) else none
  | .succeed status => some (p.ended status, h)
  | .exit => some (p.finish p.status, h)

namespace Host

/-- The process with a number takes a step, if it can. -/
def advance? (h : Host) (n : Nat) : Option Host := do
  let p ← h.process? n
  match p.frames with
  | [] => none
  | f :: rest =>
    let (q, h) ← stepFrame? h n { p with frames := rest } f
    return h.setProcess n q

/-- Some process takes a step, if one can: the oldest comes first. -/
def advanceAny? (h : Host) : Option Host := (List.range h.processes.length).findSome? h.advance?

/-- How many steps are taken at most before the others are heard. -/
def patience : Nat := 100000

/-- The processes go on until none can, or for very long. -/
def settled (h : Host) : Host := settle advanceAny? patience h

/-- The next time at which a process goes on by itself. -/
def nextDue? (h : Host) : Option Nat :=
  (h.processes.filterMap fun p ↦ match p.frames with
    | .sleep until_ :: _ => some until_
    | _ => none).min?

/-- Start a program as the server with a number; its number among the processes is given. -/
def startServer (h : Host) (number : Nat) (command : List String) : Nat × Host :=
  let descriptors := [(0, .source (.toServer number)), (1, .sink (.fromServer number)),
    (2, .console)]
  let p : Process := { ownNumber := h.processes.length + 1, descriptors, frames := [.exit] }
  match command with
  | [] => h.add (p.finish 127)
  | program :: arguments =>
    let (n, h) := h.add p
    let (p, h) := runProgram h n p program arguments true
    (n, h.setProcess n p)

end Host

end LanguageHub.Shell
