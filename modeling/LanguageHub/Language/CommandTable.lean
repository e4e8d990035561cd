import LanguageHub.Language.Resolver

/-!
# Which command serves a language

A table from normalized language ids to the command line of a server. No command line in the
table is empty: inserting an empty one takes the language out.
-/

namespace LanguageHub.Language

/-- The command line of the server for a language. -/
structure ServerSpec where
  language : String
  command : List String
  deriving Repr, DecidableEq

namespace ServerSpec

/-- The server of a language, whose id is normalized. -/
def make (language : String) (command : List String) : ServerSpec := ⟨normalize language, command⟩

/-- The program that is started. -/
def program? (s : ServerSpec) : Option String := s.command.head?

/-- The arguments of the program. -/
def arguments (s : ServerSpec) : List String := s.command.tail

end ServerSpec

/-- The command lines of servers by language. -/
structure CommandTable where
  servers : Dictionary (List String)
  deriving Repr, DecidableEq

namespace CommandTable

/-- No servers. -/
def empty : CommandTable := ⟨.empty⟩

/-- The servers that are known without configuration. -/
def builtinServers : List (String × List String) := [
  ("go", ["gopls"]),
  ("rust", ["rust-analyzer"]),
  ("python", ["pylsp"]),
  ("java", ["jdtls"]),
  ("c", ["clangd"]),
  ("cpp", ["clangd"]),
  ("javascript", ["typescript-language-server", "--stdio"]),
  ("typescript", ["typescript-language-server", "--stdio"]),
  ("html", ["vscode-html-language-server", "--stdio"]),
  ("css", ["vscode-css-language-server", "--stdio"]),
  ("json", ["vscode-json-language-server", "--stdio"]),
  ("xml", ["lemminx"]),
  ("markdown", ["marksman", "server"])]

/-- The table of the servers that are known without configuration. -/
def builtin : CommandTable := ⟨.ofList builtinServers⟩

/-- Enter a server in place of the one for the same language; an empty command line takes the
language out. -/
def insert (t : CommandTable) (s : ServerSpec) : CommandTable :=
  if s.command.isEmpty then ⟨t.servers.erase s.language⟩
  else ⟨t.servers.insert s.language s.command⟩

/-- The command line for a language, empty if there is none. -/
def commandFor (t : CommandTable) (language : String) : List String :=
  (t.servers.get? (normalize language)).getD []

/-- The server of a language. -/
def specFor? (t : CommandTable) (language : String) : Option ServerSpec :=
  (t.servers.get? (normalize language)).map fun command ↦ ⟨normalize language, command⟩

/-- Whether there is a server for a language. -/
def supports (t : CommandTable) (language : String) : Bool := !(t.commandFor language).isEmpty

/-- The languages with a server, in order. -/
def languages (t : CommandTable) : List String := t.servers.keys

/-- The number of languages with a server. -/
def size (t : CommandTable) : Nat := t.servers.size

end CommandTable

end LanguageHub.Language
