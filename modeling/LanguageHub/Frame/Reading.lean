import LanguageHub.Frame.Basic
import LanguageHub.Transport.Basic

/-!
# Reading frames

A frame is read line by line up to the blank line behind its header, and then by the length that
the header announces. Blank lines in front of a header are passed over.
-/

namespace LanguageHub

/-- A frame that is being read. -/
inductive FrameCall where
  /-- The lines of the header so far, and the read of the next one. -/
  | inHeader (header : String) (call : ReadCall)
  /-- The read of the body. -/
  | inBody (call : ReadCall)
  deriving DecidableEq, Repr

/-- What a read of a frame gives: the body, or nothing if the stream ends between frames. -/
abbrev FrameAnswer := Except Failure (Option String)

namespace FrameCall

/-- What follows from a line that was read behind the lines of a header. -/
inductive AfterLine where
  /-- The next line is read behind this header. -/
  | header (header : String)
  /-- The header is complete. -/
  | body (length : Nat)
  /-- The frame ends here. -/
  | done (answer : FrameAnswer)

/-- The length of the body that a complete header announces, if it is not too great. -/
def afterHeader (header : String) : AfterLine :=
  match Frame.contentLength header with
  | .error f => .done (.error f)
  | .ok n =>
    if Frame.greatestBody < n then
      .done (.error (.transport
        s!"frame of {n} bytes exceeds the {Frame.greatestBody} byte limit"))
    else .body n

/-- What follows from the bytes of a line behind a header. -/
def afterLine (header : String) (bytes : Bytes) : AfterLine :=
  match Utf8.decode bytes with
  | .error fault => .done (.error (.transport fault.message))
  | .ok line =>
    if line.isEmpty then
      .done (if header.isEmpty then .ok none
        else .error (.transport "stream ended inside a frame header"))
    else if Text.allBlank line then
      if header.isEmpty then .header "" else afterHeader header
    else .header (header ++ line)

/-- The body that bytes encode. -/
def bodyOf (bytes : Bytes) : FrameAnswer :=
  match Utf8.decode bytes with
  | .ok body => .ok (some body)
  | .error fault => .error (.protocol s!"frame body is not UTF-8: {fault.message}")

/-- Begin to read the next line of a header. -/
def readLine (a : Agent) (header : String) (t : Transport) : FrameCall × Transport :=
  let (call, t) := ReadCall.start a (.line []) t
  (.inHeader header call, t)

/-- Begin to read a frame. -/
def start (a : Agent) (t : Transport) : FrameCall × Transport := readLine a "" t

/-- One step of the reading of a frame. -/
def step? (a : Agent) (c : FrameCall) (t : Transport) :
    Option (Progress FrameCall FrameAnswer × Transport) :=
  match c with
  | inHeader header call =>
    match call.step? a t with
    | none => none
    | some (.running call, t) => some (.running (.inHeader header call), t)
    | some (.finished (.error f), t) => some (.finished (.error f), t)
    | some (.finished (.ok bytes), t) =>
      match afterLine header bytes with
      | .header header =>
        let (c, t) := readLine a header t
        some (.running c, t)
      | .body n =>
        let (call, t) := ReadCall.start a (.exactly n []) t
        some (.running (.inBody call), t)
      | .done answer => some (.finished answer, t)
  | inBody call =>
    match call.step? a t with
    | none => none
    | some (.running call, t) => some (.running (.inBody call), t)
    | some (.finished (.error f), t) => some (.finished (.error f), t)
    | some (.finished (.ok bytes), t) => some (.finished (bodyOf bytes), t)

end FrameCall

end LanguageHub
