import LanguageHub.Config.Basic
import LanguageHub.Language.CommandTable

/-!
# The configured servers

The configured servers stand beside those that are known without configuration, and before them.
-/

namespace LanguageHub

namespace Config

/-- The commands that serve the languages. -/
def commandTable (c : Config) : Language.CommandTable :=
  c.lsp.servers.entries.foldl
    (fun t (language, e) ↦ t.insert (.make language e.commandLine)) .builtin

/-- Finds the languages of documents. -/
def resolver (c : Config) : Language.Resolver :=
  c.lsp.servers.entries.foldl
    (fun r (language, e) ↦ e.extensions.foldl (fun r x ↦ r.addExtension x language) r) .builtin

end Config

/-- A line for each language with the command that serves it. -/
def Language.CommandTable.listing (t : Language.CommandTable) : String :=
  String.join (t.languages.map fun l ↦ l ++ "\t" ++ " ".intercalate (t.commandFor l) ++ "\n")

end LanguageHub
