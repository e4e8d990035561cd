import LanguageHub.Config.Basic
import LanguageHub.Config.Fault
import LanguageHub.Text.Blank
import LanguageHub.Text.Quoted

/-!
# Settings that can be used

A configuration whose settings have the right types may still hold some that cannot be used. The
violations are listed in the order of the settings, and the first one is reported.
-/

namespace LanguageHub

/-- What is wrong with an extension. -/
def extensionFault? (extension : String) : Option String :=
  if extension.isEmpty then some "must not contain empty entries"
  else if extension.toList.head? = some '.' then
    some s!"write {Text.quoted extension} without the leading dot"
  else none

namespace ServerEntry

/-- The violations in the entry of a language. -/
def violations (language : String) (e : ServerEntry) : List ConfigFault :=
  let key := s!"lsp.servers.{language}"
  let blankId :=
    if Text.allBlank language then
      [.invalid "lsp.servers" "language id must not be empty"]
    else []
  let blankCommand :=
    if Text.allBlank e.command then [.invalid s!"{key}.command" "must not be empty"] else []
  let extensions :=
    (e.extensions.filterMap extensionFault?).map fun reason ↦
      .invalid s!"{key}.extensions" reason
  blankId ++ blankCommand ++ extensions

end ServerEntry

namespace Config

/-- The violations in a configuration, in the order of its settings. -/
def violations (c : Config) : List ConfigFault :=
  let file := if c.log.file = some "" then [.invalid "log.file" "must not be empty"] else []
  file ++ c.lsp.servers.entries.flatMap fun (language, e) ↦ e.violations language

/-- A configuration without violations, else the first of them. -/
def validated (c : Config) : Except ConfigFault Config :=
  match c.violations with
  | [] => .ok c
  | fault :: _ => .error fault

end Config

end LanguageHub
