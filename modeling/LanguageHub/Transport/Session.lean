import LanguageHub.Frame.Reading
import LanguageHub.Tasks

/-!
# Operations on one transport

Any number of reads, writes and closings of one transport, side by side. `Step` says what may
happen next: an operation starts, one that is going on takes a step, or bytes move on the other
side.
-/

namespace LanguageHub

/-- An operation on a transport. -/
inductive TransportRequest where
  | read (limit : Nat)
  /-- Read a line behind a text. -/
  | readLine (before : String)
  | readExactly (count : Nat)
  | readFrame
  | write (data : Bytes)
  | close

/-- An operation that is going on. -/
inductive TransportTask where
  | read (call : ReadCall)
  | readLine (before : String) (call : ReadCall)
  | readFrame (call : FrameCall)
  | write (call : WriteCall)

/-- The answer of an operation. -/
inductive TransportAnswer where
  | bytes (answer : Except Failure Bytes)
  /-- The number of bytes of a line and the text with the line behind it. -/
  | line (answer : Except Failure (Nat × String))
  | frame (answer : FrameAnswer)
  | done (answer : Except Failure Unit)

/-- A transport and the operations on it. -/
structure TransportSession where
  transport : Transport
  tasks : Tasks TransportTask TransportAnswer := {}

namespace TransportSession

/-- The text that ends in a line which was read behind `before`. A fault is placed by counting
from the beginning of that text. -/
def lineBehind (before : String) (line : Bytes) : Except Failure (Nat × String) :=
  match Utf8.decode (Utf8.encode before ++ line) with
  | .ok text => .ok (line.length, text)
  | .error fault => .error (.transport fault.message)

/-- Start an operation under a number. -/
def start (s : TransportSession) (n : Nat) (r : TransportRequest) : TransportSession :=
  let a := Agent.operation n
  let go (task : TransportTask) (transport : Transport) : TransportSession :=
    { transport, tasks := s.tasks.start n task }
  match r with
  | .read limit => let (c, t) := ReadCall.start a (.upTo limit) s.transport; go (.read c) t
  | .readLine before =>
    let (c, t) := ReadCall.start a (.line []) s.transport; go (.readLine before c) t
  | .readExactly count =>
    let (c, t) := ReadCall.start a (.exactly count []) s.transport; go (.read c) t
  | .readFrame => let (c, t) := FrameCall.start a s.transport; go (.readFrame c) t
  | .write data => let (c, t) := WriteCall.start a data s.transport; go (.write c) t
  | .close =>
    let (answer, transport) := s.transport.close
    { transport, tasks := s.tasks.finish n (.done answer) }

/-- One step of a task on a transport. -/
def stepTask (a : Agent) (task : TransportTask) (t : Transport) :
    Option (Progress TransportTask TransportAnswer × Transport) :=
  match task with
  | .read c =>
    (c.step? a t).map fun
      | (.running c, t) => (.running (.read c), t)
      | (.finished answer, t) => (.finished (.bytes answer), t)
  | .readLine before c =>
    (c.step? a t).map fun
      | (.running c, t) => (.running (.readLine before c), t)
      | (.finished answer, t) => (.finished (.line (answer.bind (lineBehind before))), t)
  | .readFrame c =>
    (c.step? a t).map fun
      | (.running c, t) => (.running (.readFrame c), t)
      | (.finished answer, t) => (.finished (.frame answer), t)
  | .write c =>
    (c.step? a t).map fun
      | (.running c, t) => (.running (.write c), t)
      | (.finished answer, t) => (.finished (.done answer), t)

/-- The operation with the given number takes a step, if it can. -/
def advance? (s : TransportSession) (n : Nat) : Option TransportSession := do
  let task ← s.tasks.state? n
  let (progress, transport) ← stepTask (.operation n) task s.transport
  return match progress with
    | .running task => { transport, tasks := s.tasks.update n task }
    | .finished answer => { transport, tasks := s.tasks.finish n answer }

/-- Some operation takes a step, if one can. -/
def advanceAny? (s : TransportSession) : Option TransportSession :=
  s.tasks.numbers.findSome? s.advance?

/-- What may happen next. -/
inductive Step : TransportSession → TransportSession → Prop where
  | start (s : TransportSession) (n : Nat) (r : TransportRequest)
      (fresh : n ∉ s.tasks.numbers ++ s.tasks.answers.map (·.1)) : Step s (s.start n r)
  | advance {s t : TransportSession} (n : Nat) (h : s.advance? n = some t) : Step s t
  | arrive (s : TransportSession) (piece : Bytes) :
      Step s { s with transport.source.inflow := s.transport.source.inflow.push piece }
  | deliver (s : TransportSession) (count : Nat) :
      Step s { s with transport.sink := s.transport.sink.deliver count }

/-- How many bytes a task has to write. -/
def toWrite : TransportTask → Nat
  | .write call => call.left
  | _ => 0

/-- More steps than the operations that are going on can take before they wait. -/
def stepBound (s : TransportSession) : Nat :=
  let size := s.transport.source.toBytes.length + 1
  8 * s.tasks.running.foldr (fun e n ↦ toWrite e.2 + 1 + n) size

/-- Everything goes on until nothing can. -/
def settled (s : TransportSession) : TransportSession := settle advanceAny? s.stepBound s

/-- Do one operation and wait for its answer. -/
def perform (s : TransportSession) (n : Nat) (r : TransportRequest) :
    TransportSession × Option TransportAnswer :=
  let t := (s.start n r).settled
  (t, t.tasks.answer? n)

/-- Read frames until the stream ends or fails in a way that no later frame can mend, `fuel` at
most. The frames are numbered from `n`. -/
def readFrames : (fuel : Nat) → Nat → TransportSession → TransportSession × List FrameAnswer
  | 0, _, s => (s, [])
  | fuel + 1, n, s =>
    match s.perform n .readFrame with
    | (t, some (.frame answer)) =>
      let goesOn := match answer with
        | .ok body => body.isSome
        | .error f => f.isProtocol
      if goesOn then
        let (u, answers) := readFrames fuel (n + 1) t
        (u, answer :: answers)
      else (t, [answer])
    | (t, _) => (t, [])

/-- Read all frames: each takes at least one byte. -/
def readAllFrames (s : TransportSession) (n : Nat) : TransportSession × List FrameAnswer :=
  readFrames (s.transport.source.toBytes.length + 1) n s

end TransportSession

end LanguageHub
