import LanguageHub.Failure
import LanguageHub.Text.Blank
import LanguageHub.Text.Lines
import LanguageHub.Text.Numeral
import LanguageHub.Text.Utf8

/-!
# Frames

On the wire a message body stands behind a header, a few lines of text with a blank line after
them. The header gives the length of the body in bytes.
-/

namespace LanguageHub.Frame

/-- The greatest body that is read, in bytes. -/
def greatestBody : Nat := 64 * 1024 * 1024

/-- A body with its header in front. -/
def encode (body : String) : Bytes :=
  Utf8.encode s!"Content-Length: {body.utf8ByteSize}\r\n\r\n" ++ Utf8.encode body

/-- Whether the text before a colon announces the length of the body. -/
def announcesLength (name : List Char) : Bool :=
  (Text.trimList name).map Char.toLower == "content-length".toList

/-- What the first header line that announces a length has behind its colon, without the blanks
around it. -/
def lengthText? : List (List Char) → Option (List Char)
  | [] => none
  | line :: rest =>
    match Text.splitAtFirst ':' line with
    | none => lengthText? rest
    | some (name, value) =>
      if announcesLength name then some (Text.trimList value) else lengthText? rest

/-- The length of the body that a header announces. -/
def contentLength (header : String) : Except Failure Nat :=
  match lengthText? (Text.lines header.toList) with
  | none => .error (.protocol "missing Content-Length header")
  | some value =>
    match Text.readNumeral Text.word64 value with
    | .ok n => .ok n
    | .error _ => .error (.protocol s!"invalid Content-Length: {String.ofList value}")

end LanguageHub.Frame
