import LanguageHub.Language.Resolver
import Mathlib.Data.List.DropRight

/-!
# Normalized languages

Normalizing a language id that is normalized changes nothing, so that ids with one normalized form
are spellings of one language. The languages that are found for documents are normalized.
-/

namespace LanguageHub

namespace Text

/-- The code of a character in lower case. -/
theorem toNat_toLower (c : Char) : c.toLower.toNat =
    if 65 ≤ c.toNat ∧ c.toNat ≤ 90 then c.toNat + 32 else c.toNat := by
  have capital : (c.val ≥ 'A'.val ∧ c.val ≤ 'Z'.val) ↔ 65 ≤ c.toNat ∧ c.toNat ≤ 90 := by
    simp [UInt32.le_iff_toNat_le]
  unfold Char.toLower
  split
  · next h =>
    have bounds := capital.mp h
    rw [if_pos bounds]
    have between : ('a'.val - 'A'.val).toNat = 32 := rfl
    change (c.val + ('a'.val - 'A'.val)).toNat = c.toNat + 32
    rw [UInt32.toNat_add, Char.toNat_val, between]
    exact Nat.mod_eq_of_lt (by omega)
  · next h => rw [if_neg (mt capital.mpr h)]

/-- What is in lower case stays as it is. -/
theorem toLower_toLower (c : Char) : c.toLower.toLower = c.toLower := by
  apply Char.toNat_inj.mp
  rw [toNat_toLower, toNat_toLower]
  split
  · rw [if_neg (by omega)]
  · rfl

/-- Making letters small neither makes nor removes dots. -/
theorem toLower_eq_iff {c d : Char} (small : ¬ (65 ≤ d.toNat ∧ d.toNat ≤ 90))
    (other : ¬ (97 ≤ d.toNat ∧ d.toNat ≤ 122)) : c.toLower = d ↔ c = d := by
  rw [← Char.toNat_inj, ← Char.toNat_inj, toNat_toLower]
  split <;> omega

/-- A character that is no letter is in a text in small letters if it is in the text. -/
theorem mem_toList_lowercase {s : String} {d : Char} (small : ¬ (65 ≤ d.toNat ∧ d.toNat ≤ 90))
    (other : ¬ (97 ≤ d.toNat ∧ d.toNat ≤ 122)) : d ∈ (lowercase s).toList ↔ d ∈ s.toList := by
  simp only [toList_lowercase, List.mem_map, toLower_eq_iff small other, exists_eq_right]

/-- A character in lower case is blank if the character is. -/
theorem isBlank_toLower (c : Char) : isBlank c.toLower = isBlank c := by
  simp only [isBlank, toNat_toLower]
  split
  · next letter =>
    rw [Bool.eq_iff_iff]
    simp
    omega
  · rfl

/-- Blanks are dropped at both ends of a text in lower case as they are in the text. -/
theorem trimList_map_toLower (cs : List Char) :
    trimList (cs.map Char.toLower) = (trimList cs).map Char.toLower := by
  have same : isBlank ∘ Char.toLower = isBlank := funext isBlank_toLower
  simp only [trimList, List.dropWhile_map, ← List.map_reverse, same]

/-- There is nothing to drop at the ends of what was trimmed. -/
theorem trimList_trimList (cs : List Char) : trimList (trimList cs) = trimList cs := by
  have ends (l : List Char) : trimList l = (l.dropWhile isBlank).rdropWhile isBlank := rfl
  have head : (trimList cs).dropWhile isBlank = trimList cs := by
    rw [List.dropWhile_eq_self_iff]
    intro nonempty
    have kept : trimList cs <+: cs.dropWhile isBlank := List.rdropWhile_prefix isBlank _
    rw [kept.getElem]
    exact List.dropWhile_eq_self_iff.mp (List.dropWhile_idempotent isBlank cs) _
  rw [ends (trimList cs), head, ends cs, List.rdropWhile_idempotent]

end Text

namespace Language

/-- What is normalized is its own normalized form. -/
theorem normalize_normalize (language : String) :
    normalize (normalize language) = normalize language := by
  have lower : Char.toLower ∘ Char.toLower = Char.toLower := funext Text.toLower_toLower
  simp only [normalize, Text.lowercase, Text.trim, String.toList_ofList,
    Text.trimList_map_toLower, Text.trimList_trimList, List.map_map, lower]

/-- A language id is blank if its normalized form is empty. -/
theorem trim_eq_of_normalize_eq {language : String} (blank : normalize language = "") :
    Text.trim language = "" := by
  have none := congrArg String.toList blank
  rw [normalize, Text.toList_lowercase] at none
  exact String.toList_inj.mp (List.map_eq_nil_iff.mp none)

namespace Resolver

/-- A resolver that was put together from extensions. -/
inductive Made : Resolver → Prop where
  | builtin : Made builtin
  | adds {r : Resolver} (before : Made r) (extension language : String) :
      Made (r.addExtension extension language)

variable {r : Resolver} {explicit path language : String}

/-- The languages of extensions are normalized. -/
theorem Made.normalize_of_get? (made : r.Made) {extension : String}
    (found : r.extensions.get? extension = some language) : normalize language = language := by
  induction made with
  | builtin => cases found
  | @adds r _ e l ih =>
    simp only [addExtension] at found
    split at found
    · exact ih found
    · rw [Dictionary.get?_insert] at found
      split at found
      · obtain rfl := Option.some.inj found
        exact normalize_normalize l
      · exact ih found

/-- What is found under an extension after extensions were added one by one is the language of the
last one that was added for it. -/
theorem get?_foldl_addExtension {α : Type} (extension language : α → String) (added : List α)
    (r : Resolver) (key : String) :
    (added.foldl (fun r a ↦ r.addExtension (extension a) (language a)) r).extensions.get? key =
      ((added.filter fun a ↦ key ≠ "" ∧ normalizeExtension (extension a) = key).getLast?.map
        fun a ↦ normalize (language a)).or (r.extensions.get? key) := by
  induction added generalizing r with
  | nil => rfl
  | cons a rest ih =>
    rw [List.foldl_cons, ih]
    by_cases same : key ≠ "" ∧ normalizeExtension (extension a) = key
    · have found : (r.addExtension (extension a) (language a)).extensions.get? key =
          some (normalize (language a)) := by
        rw [addExtension, if_neg (same.2 ▸ same.1), Dictionary.get?_insert, if_pos same.2.symm]
      rw [List.filter_cons_of_pos (by simpa using same), found, List.getLast?_cons]
      cases (rest.filter fun a ↦
        key ≠ "" ∧ normalizeExtension (extension a) = key).getLast? <;> rfl
    · have kept : (r.addExtension (extension a) (language a)).extensions.get? key =
          r.extensions.get? key := by
        rw [addExtension]
        split
        · rfl
        · next proper =>
          rw [Dictionary.get?_insert, if_neg]
          rintro rfl
          exact same ⟨proper, rfl⟩
      rw [List.filter_cons_of_neg (by simpa using same), kept]

/-- The built-in languages are normalized. -/
private theorem normalize_of_ofExtension? {extension : String}
    (found : ofExtension? extension = some language) : normalize language = language := by
  have all : ∀ b ∈ builtinExtensions, normalize b.1 = b.1 := by decide +kernel
  obtain ⟨b, hb, rfl⟩ := Option.map_eq_some_iff.mp found
  exact all b (List.mem_of_find?_eq_some hb)

/-- The language of a document is normalized, wherever it comes from. -/
theorem Made.normalize_of_resolve? (made : r.Made)
    (resolved : r.resolve? explicit path = some language) : normalize language = language := by
  unfold resolve? at resolved
  simp only at resolved
  split at resolved
  · unfold languageForPath? at resolved
    split at resolved
    · cases resolved
    · split at resolved
      · next found =>
        obtain rfl := Option.some.inj resolved
        exact made.normalize_of_get? found
      · exact normalize_of_ofExtension? resolved
  · obtain rfl := Option.some.inj resolved
    exact normalize_normalize explicit

/-- The language of a document depends on the normalized form of the given id alone. -/
theorem resolve?_eq_of_normalize_eq (r : Resolver) {other : String}
    (same : normalize explicit = normalize other) (path : String) :
    r.resolve? explicit path = r.resolve? other path := by
  simp only [resolve?, same]

/-- If there is no language for a document, the given id is blank. -/
theorem trim_eq_of_resolve?_eq_none (unresolved : r.resolve? explicit path = none) :
    Text.trim explicit = "" := by
  simp only [resolve?] at unresolved
  split at unresolved
  · next blank => exact trim_eq_of_normalize_eq blank
  · cases unresolved

end Resolver

end Language

end LanguageHub
