import LanguageHub.Client.Basic
import LanguageHub.Language.CommandTable

/-!
# Managers of clients

A manager owns at most one registered client for each language. It starts the client at the first
operation for the language, one start at a time: whoever wants to start a client first passes the
gate of the language.
-/

namespace LanguageHub

/-- A client that was started, with the command that was run for it. -/
structure StartedClient where
  command : List String
  client : Client

/-- A manager. -/
structure Manager where
  commands : Language.CommandTable
  resolver : Language.Resolver := .builtin
  /-- The directory that servers are told to work in. -/
  root : String
  /-- The directory in which relative paths begin. -/
  directory : String := "/"
  /-- The time that each request is given. -/
  limit : Option Duration := none
  /-- How many bytes the pipe to a server holds. -/
  capacity : Nat := 65536
  /-- All clients that were started, by number. -/
  clients : List StartedClient := []
  /-- The numbers of the registered clients, by normalized language. -/
  registry : Dictionary Nat := .empty
  /-- The gates of the languages. -/
  gates : Dictionary Lock := .empty

/-- Says why a command cannot be run; absent if it can. -/
abbrev Refusal := List String → Option String

namespace Manager

/-- The client with a number. -/
def client? (m : Manager) (i : Nat) : Option Client := m.clients[i]?.map (·.client)

/-- Change the client with a number. -/
def setClient (m : Manager) (i : Nat) (c : Client) : Manager :=
  { m with clients := m.clients.modify i fun s ↦ { s with client := c } }

/-- The gate of a language. -/
def gate (m : Manager) (language : String) : Lock := (m.gates.get? language).getD {}

/-- Join the line at the gate of a language. -/
def joinGate (m : Manager) (language : String) (a : Agent) : Manager :=
  { m with gates := m.gates.insert language ((m.gate language).request a) }

/-- Leave the gate of a language to the next in the line. -/
def leaveGate (m : Manager) (language : String) (a : Agent) : Manager :=
  { m with gates := m.gates.insert language ((m.gate language).leave a) }

/-- Start a client of a language: its connection is opened and its number is given. -/
def launch (m : Manager) (language : String) (command : List String) (limit : Option Duration) :
    Nat × Manager :=
  let client : Client := {
    language, limit
    connection := .ofTransport { sink.capacity := some m.capacity } false
    child := some .running }
  (m.clients.length, { m with clients := m.clients ++ [⟨command, client⟩] })

/-- The languages with a registered client, in order. -/
def activeLanguages (m : Manager) : List String := m.registry.keys

/-- Whether a client is registered for a language. -/
def hasClient (m : Manager) (language : String) : Bool :=
  m.registry.contains (Language.normalize language)

/-- The URI of the document at a path. -/
def uriOf (m : Manager) (path : String) : String := Uri.pathToUri m.directory path

/-- The language of a document. -/
def route (m : Manager) (language path : String) : Except Failure String :=
  match m.resolver.resolve? language path with
  | some resolved => .ok (Language.normalize resolved)
  | none => .error (.unknownLanguage (Text.trim language))

/-- The diagnostics that the registered client of a document's language keeps for it. -/
def diagnostics (m : Manager) (language path : String) : List Diagnostic :=
  let found := do
    let resolved ← m.resolver.resolve? language path
    let c ← m.client? (← m.registry.get? resolved)
    return c.diagnosticsOf (m.uriOf path)
  found.getD []

end Manager

end LanguageHub
