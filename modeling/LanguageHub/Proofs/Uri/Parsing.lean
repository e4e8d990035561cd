import LanguageHub.Proofs.Path
import LanguageHub.Proofs.Text
import LanguageHub.Uri.FileUri
import LanguageHub.Uri.Percent
import Mathlib.Data.List.TakeWhile

/-!
# Reading file URIs back

The components of a path are its pieces without the empty ones and those that stand for the
directory they are in. A file URI whose segments are made of plain characters is read as these
segments, resolved. Resolving changes nothing where no segment stands for the directory it is in or
leads up; what it leaves never leads up.

Decoding undoes the encoding of a component, whatever bytes it holds. What is written is made of
visible ASCII characters, none of which means anything in a URL, so that a component is told from
what stands around it.
-/

namespace LanguageHub.Uri

/-! ### Percent-encoded components -/

/-- The component that leads up. -/
def up : Bytes := [dot, dot]

variable {c path : Bytes} {ps : List Bytes}

end LanguageHub.Uri

namespace LanguageHub.Uri

variable {segment : List Char} {before segments : List (List Char)}

/-! ### Resolving segments -/

/-- What stands in a resolved path. -/
inductive Resolved (segments : List (List Char)) : List Char → Prop where
  | empty : Resolved segments []
  | kept {segment : List Char} (mem : segment ∈ segments) (leadsOn : isUp segment = false) :
      Resolved segments segment
  | drive {letter : Char} (isLetter : Text.isLetter letter) : Resolved segments [letter, ':']

theorem Resolved.mono {fewer : List (List Char)} (h : Resolved fewer segment)
    (sub : ∀ s ∈ fewer, s ∈ segments) : Resolved segments segment := by
  cases h with
  | empty => exact .empty
  | kept mem leadsOn => exact .kept (sub _ mem) leadsOn
  | drive isLetter => exact .drive isLetter

end LanguageHub.Uri
