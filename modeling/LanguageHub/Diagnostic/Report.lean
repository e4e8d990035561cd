import LanguageHub.Diagnostic

/-!
# Diagnostics on a line

How a diagnostic is shown to the user: the path, the line and the column counted from one, the
severity, the message, and the source in brackets.
-/

namespace LanguageHub.Diagnostic

/-- The line that shows a diagnostic of the file at `path`. -/
def report (path : String) (d : Diagnostic) : String :=
  let severity := (d.severity.map Severity.word).getD "diagnostic"
  let line := d.range.start.line.toNat + 1
  let column := d.range.start.character.toNat + 1
  let source := (d.source.map fun s ↦ s!" [{s}]").getD ""
  s!"{path}:{line}:{column}: {severity}: {d.message}{source}"

end LanguageHub.Diagnostic
