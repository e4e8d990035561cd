import LanguageHub.Dictionary
import LanguageHub.FileTree.Change
import LanguageHub.Shell.Command
import LanguageHub.Text.Utf8

/-!
# Processes and pipes

Processes that run shell commands side by side, the pipes between them, and the files they share.
Two pipes lead to each server and from it; the other ends of these are outside.
-/

namespace LanguageHub.Shell

/-- A pipe. -/
inductive Pipe where
  /-- The pipe to the server with a number. -/
  | toServer (number : Nat)
  /-- The pipe from the server with a number. -/
  | fromServer (number : Nat)
  /-- A pipe between processes. -/
  | inner (number : Nat)
  deriving DecidableEq, Repr

/-- How many bytes a pipe holds. -/
def Pipe.capacity : Nat := 65536

/-- What a descriptor stands for. -/
inductive Handle where
  /-- Nothing is read from it, and what is written is lost. -/
  | null
  /-- The end of a pipe that is read. -/
  | source (pipe : Pipe)
  /-- The end of a pipe that is written. -/
  | sink (pipe : Pipe)
  /-- Bytes of a file that are not read yet. -/
  | content (rest : Bytes)
  /-- The end of a file. -/
  | file (location : Location)
  /-- Where messages go that nobody has redirected. -/
  | console
  deriving DecidableEq, Repr

/-- Where bytes are copied from. -/
inductive Origin where
  | descriptor (number : Nat)
  | bytes (bytes : Bytes)
  deriving DecidableEq, Repr

/-- What a process has still to do. -/
inductive Frame where
  /-- Run a command. -/
  | run (command : Command)
  /-- Run a command when the output of others is known. -/
  | expand (command : Command) (pending : List Command) (outputs : List String)
  /-- Wait for the output of another command first. -/
  | collect (command : Command) (pending : List Command) (outputs : List String) (pipe : Pipe)
      (child : Nat) (taken : Bytes)
  | sequence (rest : List Command)
  | both (second : Command)
  | either (second : Command)
  | invert
  | tested (yes no : Command)
  | loopTested (isUntil : Bool) (test body : Command) (status : Nat)
  | loopDone (isUntil : Bool) (test body : Command)
  | each (name : String) (values : List String) (body : Command)
  /-- The end of a function. -/
  | return_ (parameters : List String)
  /-- The end of redirections. -/
  | restore (descriptors : List (Nat × Handle))
  /-- Wait for processes to end. -/
  | await (children : List Nat)
  | readLine (names : List String) (taken : Bytes)
  | write (descriptor : Nat) (bytes : Bytes)
  | copy (origins : List Origin) (limit : Option Nat) (targets : List Nat)
  | countUp (linesOnly : Bool) (count : Nat)
  | sleep (until_ : Nat)
  | succeed (status : Nat)
  | exit

/-- A process. -/
structure Process where
  name : String := "sh"
  /-- The number by which scripts know the process, or the one that it was forked from: one more
  than its place among the processes. -/
  ownNumber : Nat
  descriptors : List (Nat × Handle)
  bindings : Dictionary String := .empty
  functions : List (String × Command) := []
  parameters : List String := []
  status : Nat := 0
  /-- The number of the last process that was started in the background. -/
  background : Option Nat := none
  frames : List Frame
  /-- The status with which the process has ended. -/
  exited : Option Nat := none

namespace Process

/-- What a descriptor of a process stands for. -/
def handle? (p : Process) (descriptor : Nat) : Option Handle := p.descriptors.lookup descriptor

/-- Let a descriptor stand for something, or for nothing. -/
def setHandle (p : Process) (descriptor : Nat) (h : Option Handle) : Process :=
  let others := p.descriptors.filter (·.1 ≠ descriptor)
  { p with descriptors := (h.map fun h ↦ (descriptor, h)).toList ++ others }

/-- The process ends. -/
def finish (p : Process) (status : Nat) : Process :=
  { p with exited := some status, frames := [], descriptors := [] }

/-- Put frames in front of what the process has still to do. -/
def next (p : Process) (frames : List Frame) : Process := { p with frames := frames ++ p.frames }

/-- A command ends with a status. -/
def ended (p : Process) (status : Nat) : Process := { p with status }

/-- Whether a process reads from a pipe. -/
def reads (p : Process) (pipe : Pipe) : Bool :=
  p.descriptors.any (·.2 == .source pipe) || p.frames.any fun
    | .collect _ _ _ q _ _ => q == pipe
    | _ => false

/-- Whether a process writes to a pipe. -/
def writes (p : Process) (pipe : Pipe) : Bool := p.descriptors.any (·.2 == .sink pipe)

end Process

/-- Processes, pipes and files. -/
structure Host where
  files : FileTree
  /-- The time in nanoseconds. -/
  now : Nat := 0
  processes : List Process := []
  /-- The bytes in the pipes. -/
  pipes : List (Pipe × Bytes) := []
  /-- How many pipes between processes were made. -/
  innerPipes : Nat := 0
  /-- The pipes to servers into which nothing more will come from outside. -/
  finished : List Nat := []
  /-- The pipes from servers that nobody outside reads any more. -/
  abandoned : List Nat := []
  /-- What was written to the console. -/
  console : Bytes := []

namespace Host

/-- The bytes in a pipe. -/
def inPipe (h : Host) (pipe : Pipe) : Bytes := (h.pipes.lookup pipe).getD []

/-- Change the bytes in a pipe. -/
def setPipe (h : Host) (pipe : Pipe) (bytes : Bytes) : Host :=
  { h with pipes := (pipe, bytes) :: h.pipes.filter (·.1 ≠ pipe) }

/-- Whether more may come into a pipe. -/
def hasWriter (h : Host) (pipe : Pipe) : Bool :=
  h.processes.any (·.writes pipe) || match pipe with
    | .toServer i => !h.finished.contains i
    | _ => false

/-- Whether a pipe is read. -/
def hasReader (h : Host) (pipe : Pipe) : Bool :=
  h.processes.any (·.reads pipe) || match pipe with
    | .fromServer i => !h.abandoned.contains i
    | _ => false

/-- The process with a number. -/
def process? (h : Host) (n : Nat) : Option Process := h.processes[n]?

/-- Change the process with a number. -/
def setProcess (h : Host) (n : Nat) (p : Process) : Host :=
  { h with processes := h.processes.set n p }

/-- A further process, with its number. -/
def add (h : Host) (p : Process) : Nat × Host :=
  (h.processes.length, { h with processes := h.processes ++ [p] })

/-- A new pipe between processes. -/
def newPipe (h : Host) : Pipe × Host :=
  (.inner h.innerPipes, { h with innerPipes := h.innerPipes + 1 })

/-- The process with a number is killed. -/
def kill (h : Host) (n : Nat) : Host :=
  match h.process? n with
  | some p => if p.exited.isSome then h else h.setProcess n (p.finish 137)
  | none => h

/-- The status with which the process with a number has ended. -/
def exited? (h : Host) (n : Nat) : Option Nat := (h.process? n).bind (·.exited)

/-- Read at most so many bytes from a descriptor of a process. No bytes are given at the end;
the answer is absent as long as there is nothing to read. -/
def take? (h : Host) (p : Process) (descriptor limit : Nat) : Option (Bytes × Process × Host) :=
  match p.handle? descriptor with
  | some (.source pipe) =>
    match h.inPipe pipe with
    | [] => if h.hasWriter pipe then none else some ([], p, h)
    | bytes => some (bytes.take limit, p, h.setPipe pipe (bytes.drop limit))
  | some (.content rest) =>
    some (rest.take limit, p.setHandle descriptor (some (.content (rest.drop limit))), h)
  | _ => some ([], p, h)

end Host

end LanguageHub.Shell
