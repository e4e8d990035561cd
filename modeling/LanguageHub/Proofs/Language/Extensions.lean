import LanguageHub.Proofs.Language
import LanguageHub.Proofs.Path

/-!
# Languages by extension

The language of a path is that of the last extension that was added and is the extension of the
path, or else the built-in one (`Resolver.languageForPath?_ofAdditions`). Neither blanks around the
given id nor the case of letters in it or in the path have a part in the language of a document
(`Resolver.ofAdditions_resolves`).
-/

namespace LanguageHub

namespace Text

variable {s t front back : String}

theorem lowercase_lowercase (s : String) : lowercase (lowercase s) = lowercase s := by
  have lower : Char.toLower ∘ Char.toLower = Char.toLower := funext toLower_toLower
  rw [lowercase, toList_lowercase, List.map_map, lower, lowercase]

theorem sameLetters_iff : sameLetters s t ↔ lowercase s = lowercase t := beq_iff_eq

/-- A text without letters is what a text becomes in small letters only if it is that text. -/
theorem lowercase_eq_iff (plain : ∀ c ∈ t.toList, ∀ d : Char, d.toLower = c ↔ d = c) :
    lowercase s = t ↔ s = t := by
  rw [← String.toList_inj, ← String.toList_inj, toList_lowercase]
  generalize s.toList = cs
  generalize t.toList = ds at plain ⊢
  induction ds generalizing cs with
  | nil => exact List.map_eq_nil_iff
  | cons d ds ih =>
    rw [List.forall_mem_cons] at plain
    cases cs with
    | nil => simp
    | cons c cs => rw [List.map_cons, List.cons.injEq, List.cons.injEq, plain.1, ih _ plain.2]

/-- Blanks around a text are trimmed. -/
theorem trim_append_append (hfront : allBlank front) (hback : allBlank back) :
    trim (front ++ s ++ back) = trim s := by
  have ends (l : List Char) : trimList l = (l.dropWhile isBlank).rdropWhile isBlank := rfl
  have last (l : List Char) : (l ++ back.toList).rdropWhile isBlank = l.rdropWhile isBlank := by
    rw [List.rdropWhile, List.rdropWhile, List.reverse_append, List.dropWhile_append_of_pos]
    exact fun c hc ↦ List.all_eq_true.mp hback c (List.mem_reverse.mp hc)
  rw [trim, trim, String.toList_append, String.toList_append, ends, ends, List.append_assoc,
    List.dropWhile_append_of_pos (List.all_eq_true.mp hfront), List.dropWhile_append]
  split
  · next blank =>
    rw [List.isEmpty_iff.mp blank, List.dropWhile_eq_nil_iff.mpr (List.all_eq_true.mp hback)]
  · rw [last]

end Text

/-! ### The case of letters in paths -/

namespace Path

theorem toLower_eq_slash_iff (c : Char) : c.toLower = '/' ↔ c = '/' :=
  Text.toLower_eq_iff (by decide) (by decide)

theorem toLower_eq_dot_iff (c : Char) : c.toLower = '.' ↔ c = '.' :=
  Text.toLower_eq_iff (by decide) (by decide)

/-- A path in small letters falls into the pieces of the path in small letters. -/
theorem splitOn_map_toLower (cs : List Char) :
    (cs.map Char.toLower).splitOn '/' = (cs.splitOn '/').map (List.map Char.toLower) := by
  induction cs with
  | nil => rfl
  | cons c cs ih =>
    obtain ⟨p, ps, pieces⟩ := List.exists_cons_of_ne_nil (List.splitOn_ne_nil '/' cs)
    rw [List.map_cons, splitOn_cons, splitOn_cons, ih, pieces]
    simp only [toLower_eq_slash_iff]
    split <;> rfl

theorem isPart_map_toLower (p : List Char) : isPart (p.map Char.toLower) = isPart p := by
  have here : p.map Char.toLower = ['.'] ↔ p = ['.'] := by
    simp only [List.map_eq_singleton_iff, toLower_eq_dot_iff, exists_eq_right]
  simp only [isPart, ne_eq, List.map_eq_nil_iff, here]

theorem parts_lowercase (path : String) :
    parts (Text.lowercase path) = (parts path).map Text.lowercase := by
  have same : isPart ∘ List.map Char.toLower = isPart := funext isPart_map_toLower
  have text : Text.lowercase ∘ String.ofList = String.ofList ∘ List.map Char.toLower := by
    funext cs
    simp only [Function.comp_apply, Text.lowercase, String.toList_ofList]
  rw [parts_eq, parts_eq, Text.toList_lowercase, splitOn_map_toLower, List.filter_map, same,
    List.map_map, List.map_map, text]

theorem fileName?_lowercase (path : String) :
    fileName? (Text.lowercase path) = (fileName? path).map Text.lowercase := by
  have up (name : String) : Text.lowercase name = ".." ↔ name = ".." :=
    Text.lowercase_eq_iff (by simp [toLower_eq_dot_iff])
  rw [fileName?, fileName?, parts_lowercase, List.getLast?_map]
  cases (parts path).getLast? with
  | none => rfl
  | some name =>
    simp only [Option.map_some, up]
    split <;> rfl

theorem extensionOfName?_map_toLower (name : List Char) :
    extensionOfName? (name.map Char.toLower) =
      (extensionOfName? name).map (List.map Char.toLower) := by
  have same : (fun c : Char ↦ decide (c ≠ '.')) ∘ Char.toLower = fun c ↦ decide (c ≠ '.') := by
    funext c
    simp only [Function.comp_apply, ne_eq, toLower_eq_dot_iff]
  simp only [extensionOfName?, ← List.map_reverse, List.takeWhile_map, same, List.length_map]
  split <;> rfl

/-- The extension of a path in small letters is its extension in small letters. -/
theorem extension?_lowercase (path : String) :
    extension? (Text.lowercase path) = (extension? path).map Text.lowercase := by
  rw [extension?, extension?, fileName?_lowercase]
  cases fileName? path with
  | none => rfl
  | some name =>
    simp only [Option.map_some, Option.bind_some, Text.toList_lowercase,
      extensionOfName?_map_toLower, Option.map_map]
    congr 1
    funext cs
    simp only [Function.comp_apply, Text.lowercase, String.toList_ofList]

end Path

namespace Language.Resolver

variable {r : Resolver} {path respelled explicit : String}

/-! ### Extensions that were added -/

/-- The resolver to which pairs of an extension and a language were added, one by one. -/
def ofAdditions (additions : List (String × String)) : Resolver :=
  additions.foldl (fun r a ↦ r.addExtension a.1 a.2) .builtin

/-- An extension without the dots in front. -/
def withoutDots (extension : String) : String :=
  String.ofList (extension.toList.dropWhile (· == '.'))

/-- Whether an added extension without its dots is the extension of a path, whatever the case of
letters. Nothing is left of an extension of dots, and it is no one's. -/
def concerns (path : String) (addition : String × String) : Bool :=
  (Path.extension? path).any fun x ↦
    withoutDots addition.1 ≠ "" && Text.sameLetters (withoutDots addition.1) x

theorem normalizeExtension_eq_lowercase (extension : String) :
    normalizeExtension extension = Text.lowercase (withoutDots extension) := rfl

theorem lowercase_eq_empty_iff (s : String) : Text.lowercase s = "" ↔ s = "" :=
  Text.lowercase_eq_iff (by simp)

/-- The language of a path is that of the last addition that concerns the path, or the built-in one
if none does. -/
theorem languageForPath?_ofAdditions (additions : List (String × String)) (path : String) :
    (ofAdditions additions).languageForPath? path =
      ((additions.filter (concerns path)).getLast?.map fun a ↦ normalize a.2).or
        (ofPath? path) := by
  cases ends : Path.extension? path with
  | none =>
    have none : concerns path = fun _ ↦ false := by
      funext a
      rw [concerns, ends]
      rfl
    rw [languageForPath?, ofPath?, ends, none, List.filter_false]
    rfl
  | some x =>
    have same (a : String × String) : concerns path a = decide
        (Text.lowercase x ≠ "" ∧ normalizeExtension a.1 = Text.lowercase x) := by
      rw [concerns, ends, Option.any_some, Bool.eq_iff_iff, Bool.and_eq_true, decide_eq_true_eq,
        decide_eq_true_eq, Text.sameLetters_iff, normalizeExtension_eq_lowercase,
        and_congr_left_iff]
      intro letters
      rw [← letters, Ne, Ne, lowercase_eq_empty_iff]
    have found := get?_foldl_addExtension Prod.fst Prod.snd additions .builtin (Text.lowercase x)
    rw [languageForPath?, ofPath?, ends, Option.bind_some, funext same]
    dsimp only
    rw [ofAdditions, found]
    cases (additions.filter fun a ↦ Text.lowercase x ≠ "" ∧
      normalizeExtension a.1 = Text.lowercase x).getLast? <;> rfl

/-! ### Spellings -/

/-- The case of letters in a path has no part in its language. -/
theorem languageForPath?_lowercase (r : Resolver) (path : String) :
    r.languageForPath? (Text.lowercase path) = r.languageForPath? path := by
  rw [languageForPath?, languageForPath?, Path.extension?_lowercase]
  cases Path.extension? path with
  | none => rfl
  | some x => simp only [Option.map_some, ofExtension?, Text.lowercase_lowercase]

/-- A language id in small letters has the same normalized form. -/
theorem normalize_lowercase (language : String) :
    normalize (Text.lowercase language) = normalize language := by
  have lower : Char.toLower ∘ Char.toLower = Char.toLower := funext Text.toLower_toLower
  simp only [normalize, Text.lowercase, Text.trim, String.toList_ofList,
    Text.trimList_map_toLower, List.map_map, lower]

/-- Blanks around a language id and the case of its letters make no difference. -/
theorem normalize_respelled {front back : String} (hfront : Text.allBlank front)
    (hback : Text.allBlank back) (letters : Text.sameLetters explicit respelled) :
    normalize (front ++ respelled ++ back) = normalize explicit := by
  have trimmed : normalize (front ++ respelled ++ back) = normalize respelled :=
    congrArg Text.lowercase (Text.trim_append_append hfront hback)
  rw [trimmed, ← normalize_lowercase, ← Text.sameLetters_iff.mp letters, normalize_lowercase]

/-- After additions, the language of a path is that of the last addition that concerns the path, or
the built-in one if none does. The language of a document is the given id in its normalized form, or
that of its path if the id is blank. Blanks around the given id, the case of its letters and that of
the letters in the path make no difference. -/
theorem ofAdditions_resolves (additions : List (String × String)) (explicit path : String) :
    (ofAdditions additions).languageForPath? path =
        ((additions.filter (concerns path)).getLast?.map fun a ↦ normalize a.2).or
          (ofPath? path) ∧
      (ofAdditions additions).resolve? explicit path =
        (if normalize explicit = "" then (ofAdditions additions).languageForPath? path
          else some (normalize explicit)) ∧
      ∀ front back respelled recased, Text.allBlank front → Text.allBlank back →
        Text.sameLetters explicit respelled → Text.sameLetters path recased →
        (ofAdditions additions).resolve? (front ++ respelled ++ back) recased =
          (ofAdditions additions).resolve? explicit path := by
  refine ⟨languageForPath?_ofAdditions additions path, rfl, ?_⟩
  intro front back respelled recased hfront hback letters recasing
  have same : (ofAdditions additions).languageForPath? recased =
      (ofAdditions additions).languageForPath? path := by
    rw [← languageForPath?_lowercase, ← Text.sameLetters_iff.mp recasing,
      languageForPath?_lowercase]
  rw [resolve?, resolve?, normalize_respelled hfront hback letters, same]

/-- Additions that are spelled in different ways, one of dots only among them. -/
def spelledAdditions : List (String × String) :=
  [("h", "c"), ("..H", " CPP "), (".", "text"), ("zig", "Zig")]

/-- The last addition for an extension counts, in whatever way it is spelled, and a path that ends
in a dot is no one's. -/
theorem spelledAdditions_resolve :
    (ofAdditions spelledAdditions).languageForPath? "/work/a.h" = some "cpp" ∧
      (ofAdditions spelledAdditions).resolve? "" "/work/a." = none ∧
      Text.allBlank "\t" ∧ Text.allBlank " " ∧ Text.sameLetters "" "" ∧
      Text.sameLetters "/work/a.h" "/work/a.H" ∧
      (ofAdditions spelledAdditions).resolve? ("\t" ++ "" ++ " ") "/work/a.H" =
        (ofAdditions spelledAdditions).resolve? "" "/work/a.h" :=
  ⟨by decide +kernel, by decide +kernel, by decide, by decide, by decide, by decide +kernel,
    (ofAdditions_resolves spelledAdditions "" "/work/a.h").2.2 "\t" " " "" "/work/a.H" (by decide)
      (by decide) (by decide) (by decide +kernel)⟩

end Language.Resolver

end LanguageHub
