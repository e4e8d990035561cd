import LanguageHub.Config.Servers
import LanguageHub.Config.Validation
import LanguageHub.Proofs.Language
import LanguageHub.Proofs.Path

/-!
# Extensions of configured servers

The paths that end in a configured extension are documents of a language that lists the extension,
and the last one that does is theirs. This is so if the extension is one that a path can have. The
check of the configuration lets others pass, with a dot or a slash in them, and no path is ever
found by these.
-/

namespace LanguageHub

/-- A text can be an extension of a path if it can in small letters. -/
theorem Path.isExtension_lowercase {x : String} :
    IsExtension (Text.lowercase x) ↔ IsExtension x := by
  have dot := Text.mem_toList_lowercase (s := x) (d := '.') (by decide) (by decide)
  have slash := Text.mem_toList_lowercase (s := x) (d := '/') (by decide) (by decide)
  exact ⟨fun h ↦ ⟨mt dot.mpr h.undotted, mt slash.mpr h.inside⟩,
    fun h ↦ ⟨mt dot.mp h.undotted, mt slash.mp h.inside⟩⟩

namespace Config

open Language (Resolver)

variable {c : Config} {language x : String} {e : ServerEntry}

/-- The extensions of a configuration with their languages, in the order in which they are
listed. -/
def listings (c : Config) : List (String × String) :=
  c.lsp.servers.entries.flatMap fun s ↦ s.2.extensions.map (s.1, ·)

theorem mem_listings : (language, x) ∈ c.listings ↔
    ∃ e, (language, e) ∈ c.lsp.servers.entries ∧ x ∈ e.extensions := by
  simp only [listings, List.mem_flatMap, List.mem_map, Prod.mk.injEq, Prod.exists]
  constructor
  · rintro ⟨l, e, mem, y, hy, rfl, rfl⟩
    exact ⟨e, mem, hy⟩
  · rintro ⟨e, mem, hx⟩
    exact ⟨language, e, mem, x, hx, rfl, rfl⟩

/-- Languages are found by the extensions in the order in which these are listed. -/
theorem resolver_eq_foldl (c : Config) :
    c.resolver = c.listings.foldl (fun r l ↦ r.addExtension l.2 l.1) .builtin := by
  rw [resolver, listings, List.foldl_flatMap]
  simp only [List.foldl_map]

/-- The languages of a configuration are found as by any resolver that was put together from
extensions. -/
theorem made_resolver (c : Config) : c.resolver.Made := by
  have folded (listed : List (String × String)) {r : Resolver} (made : r.Made) :
      (listed.foldl (fun r l ↦ r.addExtension l.2 l.1) r).Made := by
    induction listed generalizing r with
    | nil => exact made
    | cons l rest ih =>
      rw [List.foldl_cons]
      exact ih (made.adds l.2 l.1)
  rw [resolver_eq_foldl]
  exact folded c.listings .builtin

/-- The extensions that stand for a text, which must not be empty. -/
def listingsOf (c : Config) (key : String) : List (String × String) :=
  c.listings.filter fun l ↦ key ≠ "" ∧ Resolver.normalizeExtension l.2 = key

/-- An extension stands for the language that lists it last. -/
theorem get?_resolver (c : Config) (key : String) :
    c.resolver.extensions.get? key = (c.listingsOf key).getLast?.map (Language.normalize ·.1) := by
  rw [resolver_eq_foldl, listingsOf]
  exact (Resolver.get?_foldl_addExtension Prod.snd Prod.fst c.listings .builtin key).trans
    Option.or_none

/-- An extension that is listed stands for a language that lists it. -/
theorem exists_get?_resolver {key : String} (listed : c.listingsOf key ≠ []) :
    ∃ l ∈ c.listings, Resolver.normalizeExtension l.2 = key ∧
      c.resolver.extensions.get? key = some (Language.normalize l.1) := by
  obtain ⟨l, last⟩ := Option.isSome_iff_exists.mp (List.getLast?_isSome.mpr listed)
  obtain ⟨mem, same⟩ := List.mem_filter.mp (List.mem_of_getLast? last)
  refine ⟨l, mem, (of_decide_eq_true same).2, ?_⟩
  rw [get?_resolver, last, Option.map_some]

/-- A configuration that was accepted has no violations. -/
theorem violations_eq_nil (valid : c.validated = .ok c) : c.violations = [] := by
  unfold validated at valid
  split at valid
  · next none => exact none
  · cases valid

/-- The extensions of an accepted configuration are not empty and begin with no dot. -/
theorem extensionFault?_eq_none (valid : c.validated = .ok c) (listed : (language, x) ∈ c.listings) :
    extensionFault? x = none := by
  obtain ⟨e, mem, hx⟩ := mem_listings.mp listed
  have none := violations_eq_nil valid
  simp only [violations, List.append_eq_nil_iff, List.flatMap_eq_nil_iff] at none
  have entry := none.2 _ mem
  simp only [ServerEntry.violations, List.append_eq_nil_iff, List.map_eq_nil_iff,
    List.filterMap_eq_nil_iff] at entry
  exact entry.2 x hx

/-- Only the case of letters is changed in an extension that is neither empty nor begins with a
dot. -/
theorem normalizeExtension_eq (sound : extensionFault? x = none) :
    x ≠ "" ∧ Resolver.normalizeExtension x = Text.lowercase x := by
  unfold extensionFault? at sound
  split at sound
  · cases sound
  · next proper =>
    split at sound
    · cases sound
    · next undotted =>
      have nonempty : x ≠ "" := fun h ↦ proper (String.isEmpty_iff.mpr h)
      refine ⟨nonempty, ?_⟩
      have kept : x.toList.dropWhile (· == '.') = x.toList := by
        cases h : x.toList with
        | nil => rfl
        | cons a rest =>
          rw [h, List.head?_cons, Option.some.injEq] at undotted
          exact List.dropWhile_cons_of_neg (by simpa using undotted)
      rw [Resolver.normalizeExtension, kept, String.ofList_toList]

/-- The language of a path with an extension that is configured. -/
theorem resolve?_of_extension? {path language : String} (ends : Path.extension? path = some x)
    (found : c.resolver.extensions.get? (Text.lowercase x) = some language) :
    c.resolver.resolve? "" path = some language := by
  have blank : Language.normalize "" = "" := rfl
  rw [Resolver.resolve?, blank, if_pos rfl, Resolver.languageForPath?, ends]
  dsimp only
  rw [found]

/-- The configuration without one of its extensions. -/
def withoutExtension (c : Config) (x : String) : Config :=
  { c with lsp := { c.lsp with servers := ⟨c.lsp.servers.entries.map fun s ↦
    (s.1, { s.2 with extensions := s.2.extensions.filter (· ≠ x) })⟩ } }

theorem listings_withoutExtension (c : Config) (x : String) :
    (c.withoutExtension x).listings = c.listings.filter (·.2 ≠ x) := by
  simp only [listings, withoutExtension, List.flatMap_map, List.filter_flatMap, List.filter_map,
    Function.comp_def]

/-- Languages are found as they are without an extension under which none is looked up. -/
theorem resolve?_withoutExtension (unused : ¬ Path.IsExtension (Resolver.normalizeExtension x))
    (explicit path : String) :
    (c.withoutExtension x).resolver.resolve? explicit path =
      c.resolver.resolve? explicit path := by
  have same {key : String} (h : Path.IsExtension key) :
      (c.withoutExtension x).resolver.extensions.get? key = c.resolver.extensions.get? key := by
    have none : ∀ l : String × String, l.2 = x → Resolver.normalizeExtension l.2 ≠ key := by
      rintro l rfl rfl
      exact unused h
    rw [get?_resolver, get?_resolver, listingsOf, listingsOf, listings_withoutExtension,
      List.filter_filter]
    congr 2
    refine List.filter_congr fun l _ ↦ ?_
    rw [Bool.eq_iff_iff]
    simp only [Bool.and_eq_true, decide_eq_true_eq]
    exact ⟨And.left, fun stands ↦ ⟨stands, fun same ↦ none l same stands.2⟩⟩
  have byPath : (c.withoutExtension x).resolver.languageForPath? path =
      c.resolver.languageForPath? path := by
    unfold Resolver.languageForPath?
    split
    · rfl
    · next y ends =>
      rw [same (Path.isExtension_lowercase.mpr (Path.isExtension_of_extension? ends))]
  rw [Resolver.resolve?, Resolver.resolve?, byPath]

/-- In an accepted configuration an extension that a path can have is effective: every path that
ends in it is a document of a server that lists it, whatever the case of its letters. Any other
extension is without effect, as if it were not listed. -/
theorem resolve?_of_validated (valid : c.validated = .ok c)
    (mem : (language, e) ∈ c.lsp.servers.entries) (listed : x ∈ e.extensions) :
    (Path.IsExtension x → ∀ directory stem, stem ≠ "" → '/' ∉ stem.toList →
      ∃ s ∈ c.lsp.servers.entries, (∃ y ∈ s.2.extensions, Text.sameLetters y x) ∧
        c.resolver.resolve? "" (directory ++ "/" ++ stem ++ "." ++ x) =
          some (Language.normalize s.1)) ∧
    (¬ Path.IsExtension x → ∀ explicit path,
      c.resolver.resolve? explicit path =
        (c.withoutExtension x).resolver.resolve? explicit path) := by
  have here : (language, x) ∈ c.listings := mem_listings.mpr ⟨e, mem, listed⟩
  obtain ⟨proper, normal⟩ := normalizeExtension_eq (extensionFault?_eq_none valid here)
  constructor
  · intro plain directory stem nonempty inside
    have ends := Path.extension?_append directory plain proper nonempty inside
    have own : (language, x) ∈ c.listingsOf (Text.lowercase x) := by
      have small : Text.lowercase x ≠ "" := by
        intro h
        have none := congrArg String.toList h
        rw [Text.toList_lowercase] at none
        exact proper (String.toList_inj.mp (List.map_eq_nil_iff.mp none))
      exact List.mem_filter.mpr ⟨here, by simpa using ⟨small, normal⟩⟩
    obtain ⟨⟨l, y⟩, hl, same, found⟩ := exists_get?_resolver (List.ne_nil_of_mem own)
    obtain ⟨s, hs, hy⟩ := mem_listings.mp hl
    have letters : Text.sameLetters y x := by
      rw [(normalizeExtension_eq (extensionFault?_eq_none valid hl)).2] at same
      exact beq_iff_eq.mpr same
    exact ⟨(l, s), hs, ⟨y, hy, letters⟩, resolve?_of_extension? ends found⟩
  · intro compound explicit path
    rw [resolve?_withoutExtension]
    rwa [normal, Path.isExtension_lowercase]

/-- A server for documents with an extension in capitals and for others, named by the part of a
name behind its first dot. -/
def capitals : Config :=
  { lsp := { servers :=
    ⟨[("Zig", { command := "zls", extensions := ["ZIG", "zig.zon"] })]⟩ } }

/-- Documents are found by an extension in capitals, and the part of a name behind its first dot
can be left out. -/
theorem resolve?_capitals :
    (capitals.validated = .ok capitals ∧ Path.IsExtension "ZIG" ∧
      ¬ Path.IsExtension "zig.zon") ∧
    (∃ s ∈ capitals.lsp.servers.entries, (∃ y ∈ s.2.extensions, Text.sameLetters y "ZIG") ∧
      capitals.resolver.resolve? "" ("/work/src" ++ "/" ++ "main" ++ "." ++ "ZIG") =
        some (Language.normalize s.1)) ∧
    ∀ explicit path, capitals.resolver.resolve? explicit path =
      (capitals.withoutExtension "zig.zon").resolver.resolve? explicit path := by
  have valid : capitals.validated = .ok capitals := by decide +kernel
  have simple : Path.IsExtension "ZIG" := by decide +kernel
  have compound : ¬ Path.IsExtension "zig.zon" := by decide +kernel
  exact ⟨⟨valid, simple, compound⟩,
    (resolve?_of_validated valid List.mem_cons_self List.mem_cons_self).1 simple "/work/src" "main"
      (by decide) (by decide),
    (resolve?_of_validated valid List.mem_cons_self (by decide)).2 compound⟩

/-- A server for the documents that declare types. -/
def declarations : Config :=
  { lsp := { servers := ⟨[("dts", { command := "dts", extensions := ["d.ts"] })]⟩ } }

/-- An extension with a dot in it is accepted, and a path that ends in it belongs to a language
that does not list it. -/
theorem exists_extension_without_effect :
    declarations.validated = .ok declarations ∧
    (∃ s ∈ declarations.lsp.servers.entries, "d.ts" ∈ s.2.extensions) ∧
    declarations.resolver.resolve? "" ("/work" ++ "/" ++ "x" ++ "." ++ "d.ts") =
      some "typescript" ∧
    ∀ s ∈ declarations.lsp.servers.entries,
      declarations.resolver.resolve? "" ("/work" ++ "/" ++ "x" ++ "." ++ "d.ts") ≠
        some (Language.normalize s.1) := by
  decide +kernel

end Config

end LanguageHub
