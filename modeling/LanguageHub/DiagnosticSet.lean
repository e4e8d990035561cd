import LanguageHub.Diagnostic
import LanguageHub.Dictionary

/-!
# The diagnostics known of each document

Every publication replaces what was known of its document before.
-/

namespace LanguageHub

/-- The diagnostics last published for each URI. -/
structure DiagnosticSet where
  store : Dictionary (List Diagnostic) := .empty
  deriving DecidableEq, Repr

namespace DiagnosticSet

/-- Replace the diagnostics of a document. -/
def publish (s : DiagnosticSet) (uri : String) (diagnostics : List Diagnostic) : DiagnosticSet :=
  ⟨s.store.insert uri diagnostics⟩

/-- The diagnostics of a document, none if there never was a publication. -/
def get (s : DiagnosticSet) (uri : String) : List Diagnostic := (s.store.get? uri).getD []

/-- Whether there was a publication for a document. -/
def contains (s : DiagnosticSet) (uri : String) : Bool := s.store.contains uri

/-- Forget a document. -/
def clear (s : DiagnosticSet) (uri : String) : DiagnosticSet := ⟨s.store.erase uri⟩

/-- The documents with a publication, in the order of their URIs. -/
def uris (s : DiagnosticSet) : List String := s.store.keys

/-- How many documents have a publication. -/
def fileCount (s : DiagnosticSet) : Nat := s.store.size

/-- How many diagnostics there are in all. -/
def totalCount (s : DiagnosticSet) : Nat :=
  s.store.entries.foldr (fun e count ↦ e.2.length + count) 0

end DiagnosticSet

end LanguageHub
