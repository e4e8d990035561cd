import LanguageHub.Duration
import LanguageHub.Text.Quoted

/-!
# Failures of an operation

Why an operation on a language server fails, with the wording of each cause in one place.
-/

namespace LanguageHub

/-- Why an operation on a language server failed. -/
inductive Failure where
  /-- The server process could not be started. -/
  | launch (command reason : String)
  /-- The server did not complete the handshake. -/
  | handshake (reason : String)
  /-- No server command is known for the language. -/
  | unknownLanguage (language : String)
  /-- The byte streams to the server are closed or broken. -/
  | transport (reason : String)
  /-- A message does not have the form it should have. -/
  | protocol (reason : String)
  /-- A notification whose method is not handled. -/
  | unsupportedMethod (method : String)
  /-- The server answered a call with an error. -/
  | rpc (code : Int) (message : String)
  /-- No answer came within the time allowed. -/
  | timeout (limit : Duration)
  /-- An input or output error outside the connection. -/
  | io (reason : String)
  deriving DecidableEq, Repr

namespace Failure

/-- The wording of a failure. -/
def message : Failure → String
  | launch command reason => s!"failed to launch `{command}`: {reason}"
  | handshake reason => s!"handshake failed: {reason}"
  | unknownLanguage language => s!"unknown language: {Text.quoted language}"
  | transport reason => s!"transport error: {reason}"
  | protocol reason => s!"protocol error: {reason}"
  | unsupportedMethod method => s!"unsupported method: {method}"
  | rpc code message => s!"JSON-RPC error {code}: {message}"
  | timeout limit => s!"request timed out after {limit.describe}"
  | io reason => s!"I/O error: {reason}"

/-- Whether the failure is about the form of a single message, so that the stream of messages
can go on after it. -/
def isProtocol : Failure → Bool
  | protocol _ => true
  | unsupportedMethod _ => true
  | _ => false

end Failure

end LanguageHub
