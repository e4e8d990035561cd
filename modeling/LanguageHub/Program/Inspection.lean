import LanguageHub.Config.Servers
import LanguageHub.Diagnostic.Report
import LanguageHub.Manager.Hosted

/-!
# Asking servers about one file

What the program prints when it checks a file or completes at a position in it.
-/

namespace LanguageHub.Program

/-- What the program prints, or why it fails. -/
abbrev Printout := Except String String

/-- The manager for a configuration in a directory. -/
def managerOf (c : Config) (directory : String) : Manager :=
  { commands := c.commandTable
    resolver := c.resolver
    root := directory
    directory
    limit := c.lsp.requestTimeout? }

/-- The text of the file at a path, if servers may be started. -/
def readSource (c : Config) (files : FileTree) (path : String) : Printout :=
  if c.lsp.enabled then
    (files.readText path).mapError fun fault ↦ s!"failed to read {path}: {fault.message}"
  else .error "language servers are disabled (lsp.enabled = false)"

/-- The numbers of the operations of a run. -/
inductive Stage where
  | opening
  | asking
  | ending
  deriving DecidableEq, Repr

/-- The number of an operation. -/
def Stage.number : Stage → Nat
  | opening => 0
  | asking => 1
  | ending => 2

/-- Perform one operation. -/
def perform (h : HostedManager) (s : Stage) (r : ManagerRequest) :
    Option ManagerAnswer × HostedManager :=
  let h := h.perform s.number [r]
  (h.answer? s.number, h)

/-- Show a file to the server of its language. -/
def openFile (h : HostedManager) (language path text : String) :
    Except String Unit × HostedManager :=
  match perform h .opening (.opened language path text) with
  | (some (.done (.error f)), h) => (.error s!"failed to open {path}: {f.message}", h)
  | (_, h) => (.ok (), h)

/-- A line for each diagnostic of a file. -/
def reportLines (path : String) (ds : List Diagnostic) : String :=
  String.join (ds.map fun d ↦ d.report path ++ "\n")

/-- A line for each completion. -/
def completionLines (items : List CompletionItem) : String :=
  String.join (items.map fun i ↦
    i.label ++ ((i.detail.map ("\t" ++ ·)).getD "") ++ "\n")

/-- Show a file to the server of its language, wait until it has published diagnostics for the
file, and print them. -/
def check (h : HostedManager) (language path text : String) (wait : Duration) :
    Printout × HostedManager :=
  let mark := "check"
  let watching := { h with session := h.session.happen (.setCallback (some mark)) }
  match openFile watching language path text with
  | (.error reason, h) => (.error reason, h)
  | (.ok (), h) =>
    let uri := h.session.manager.uriOf path
    let isPublished (h : HostedManager) : Bool := h.session.callbacks.any (·.uri == uri)
    let h := h.until_ isPublished (some (h.session.now + wait.nanos))
    (.ok (reportLines path (h.session.manager.diagnostics language path)), h)

/-- Show a file to the server of its language, ask it for completions, and print them. -/
def complete (h : HostedManager) (language path text : String) (p : Position) :
    Printout × HostedManager :=
  match openFile h language path text with
  | (.error reason, h) => (.error reason, h)
  | (.ok (), h) =>
    match perform h .asking (.completion language path p) with
    | (some (.items (.ok items)), h) => (.ok (completionLines items), h)
    | (some (.items (.error f)), h) => (.error s!"completion request failed: {f.message}", h)
    | (_, h) => (.ok "", h)

end LanguageHub.Program
