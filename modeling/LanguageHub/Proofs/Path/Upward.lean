import LanguageHub.Proofs.Path

/-!
# Paths upward

The paths from a path upwards, each the parent of the one before it. They are beginnings of the
path, and the parts that they have are the first parts of the path, any number of them
(`Upward.parts_prefix`, `exists_upward`). Of those with a property the nearest one is the one that
all others are above of (`Nearest`).
-/

namespace LanguageHub.Path

variable {path above start directory other file base : String} {first : List Char}
  {kept : List (List Char)}

/-! ### The parent of a path -/

/-- Pieces with slashes between them. -/
theorem intercalate_eq (first : List Char) (rest : List (List Char)) :
    List.intercalate ['/'] (first :: rest) = first ++ rest.flatMap ('/' :: ·) := by
  induction rest generalizing first with
  | nil => simp [List.intercalate]
  | cons p rest ih =>
    rw [List.intercalate_cons_cons, ih, List.flatMap_cons, List.append_assoc]
    rfl

theorem toList_eq {rest : List (List Char)} (pieces : path.toList.splitOn '/' = first :: rest) :
    path.toList = first ++ rest.flatMap ('/' :: ·) := by
  rw [← intercalate_eq, ← pieces, List.intercalate_splitOn]

theorem slash_notMem_of_mem_splitOn {p : List Char} (hp : p ∈ path.toList.splitOn '/') :
    '/' ∉ p := fun slash ↦ by
  simpa using eq_false_of_mem_splitOnP p hp '/' slash

/-- The parts of a path that is put together from pieces. -/
theorem parts_ofPieces (whole : ∀ p ∈ first :: kept, '/' ∉ p) :
    parts (ofPieces (first :: kept)) = ((first :: kept).filter isPart).map String.ofList := by
  by_cases root : first = [] ∧ kept = []
  · rw [root.1, root.2]
    rfl
  · rw [parts_eq, ofPieces_eq root, String.toList_ofList,
      List.splitOn_intercalate '/' whole (List.cons_ne_nil _ _)]

/-- A path that is put together from pieces is absolute if the first one is empty. -/
theorem isAbsolute_ofPieces (whole : ∀ p ∈ first :: kept, '/' ∉ p) :
    isAbsolute (ofPieces (first :: kept)) = decide (first = []) := by
  by_cases root : first = [] ∧ kept = []
  · rw [root.1, root.2]
    rfl
  · have pieces : (ofPieces (first :: kept)).toList.splitOn '/' = first :: kept := by
      rw [ofPieces_eq root, String.toList_ofList,
        List.splitOn_intercalate '/' whole (List.cons_ne_nil _ _)]
    rw [isAbsolute_eq pieces, decide_eq_decide, and_iff_left_iff_imp]
    exact fun empty none ↦ root ⟨empty, none⟩

/-- The characters of a path that is put together from pieces. -/
theorem toList_ofPieces (first : List Char) (kept : List (List Char)) :
    (ofPieces (first :: kept)).toList =
      if first = [] ∧ kept = [] then ['/'] else first ++ kept.flatMap ('/' :: ·) := by
  split
  · next root =>
    rw [root.1, root.2]
    rfl
  · next proper => rw [ofPieces_eq proper, String.toList_ofList, intercalate_eq]

/-- The parent of a path is empty, or the path is cut in front of its last part. What is cut off
begins with a slash and does not end there. -/
private theorem parent?_cases (found : parent? path = some above) :
    (above = "" ∧ path ≠ "" ∧ isAbsolute path = false ∧ (parts path).length ≤ 1) ∨
      ∃ first inner last tail, above = ofPieces (first :: inner) ∧
        (∀ p ∈ first :: inner, '/' ∉ p) ∧ isAbsolute path = decide (first = []) ∧
        path.toList = first ++ inner.flatMap ('/' :: ·) ++ '/' :: tail ∧ 0 < tail.length ∧
        parts path = ((first :: inner).filter isPart ++ [last]).map String.ofList := by
  obtain ⟨first, rest, pieces⟩ := List.exists_cons_of_ne_nil (List.splitOn_ne_nil '/' path.toList)
  obtain ⟨kept, trimmed, ⟨more, rfl⟩, same, ends⟩ := exists_trimPieces first rest
  have text := toList_eq pieces
  have partsPath : parts path = ((first :: kept).filter isPart).map String.ofList := by
    rw [parts_eq, pieces, List.filter_cons, List.filter_cons, same]
  obtain rfl | ⟨front, last, rfl, part⟩ := ends
  · -- the first piece is all that is left, and above it is the empty path
    rw [parent?, pieces, trimmed] at found
    cases first with
    | nil => cases found
    | cons c cs =>
      cases found
      refine .inl ⟨rfl, ?_, ?_, ?_⟩
      · rintro rfl
        cases text
      · simp [isAbsolute_eq pieces]
      · rw [partsPath, List.length_map]
        exact List.length_filter_le ..
  · -- the piece `last` goes, and those before it that lead nowhere
    rw [parent?_of_trimPieces (pieces ▸ trimmed)] at found
    obtain ⟨inner, trimmedAgain, ⟨between, rfl⟩, sameFront, -⟩ := exists_trimPieces first front
    rw [trimmedAgain] at found
    cases found
    have nonempty : last ≠ [] := by
      rintro rfl
      simp [isPart] at part
    have long := List.length_pos_iff.mpr nonempty
    have cut : ∃ tail, path.toList = first ++ inner.flatMap ('/' :: ·) ++ '/' :: tail ∧
        0 < tail.length := by
      rw [text]
      cases between with
      | nil =>
        refine ⟨last ++ more.flatMap ('/' :: ·), by simp, ?_⟩
        rw [List.length_append]
        omega
      | cons p ps =>
        refine ⟨p ++ ps.flatMap ('/' :: ·) ++ '/' :: last ++ more.flatMap ('/' :: ·), by simp, ?_⟩
        simp only [List.length_append, List.length_cons]
        omega
    obtain ⟨tail, cut, further⟩ := cut
    refine .inr ⟨first, inner, last, tail, rfl, fun p hp ↦ ?_, ?_, cut, further, ?_⟩
    · have mem : p ∈ path.toList.splitOn '/' := by
        rw [pieces]
        simp only [List.mem_cons, List.mem_append] at hp ⊢
        tauto
      exact slash_notMem_of_mem_splitOn mem
    · simp [isAbsolute_eq pieces]
    · rw [partsPath, ← List.cons_append, List.filter_append, List.filter_cons_of_pos part,
        List.filter_nil, List.filter_cons, List.filter_cons, sameFront]

/-- What a path is to the path that it is the parent of. -/
structure IsParent (path above : String) : Prop where
  fewer : parts above = (parts path).dropLast
  absolute : isAbsolute above = isAbsolute path
  start : above.toList <+: path.toList
  shorter : above.length < path.length
  /-- A parent that is not empty leads to the directory of the last part. -/
  last : above = "" ∨ ∃ name, parts path = parts above ++ [name]

/-- The parent of a path is the beginning of the path that lacks the last part. -/
theorem isParent_of_parent? (found : parent? path = some above) : IsParent path above := by
  obtain ⟨rfl, nonempty, relative, few⟩ | ⟨first, inner, last, tail, rfl, whole, absolute, cut,
    further, partsPath⟩ := parent?_cases found
  · refine ⟨?_, relative.symm, List.nil_prefix, ?_, .inl rfl⟩
    · refine (List.length_eq_zero_iff.mp ?_).symm
      rw [List.length_dropLast]
      omega
    · rw [← String.length_toList, ← String.length_toList]
      exact List.length_pos_iff.mpr (mt String.toList_eq_nil_iff.mp nonempty)
  · have text := toList_ofPieces first inner
    have partsAbove := parts_ofPieces whole
    refine ⟨?_, (isAbsolute_ofPieces whole).trans absolute.symm, ?_, ?_, .inr ⟨.ofList last, ?_⟩⟩
    · rw [partsAbove, partsPath, ← List.map_dropLast, List.dropLast_concat]
    · rw [text, cut]
      split
      · next root =>
        rw [root.1, root.2]
        exact ⟨_, rfl⟩
      · exact ⟨_, rfl⟩
    · rw [← String.length_toList, ← String.length_toList, text, cut]
      split
      · simp
        omega
      · simp
    · rw [partsPath, partsAbove, List.map_append, List.map_singleton]

/-- The empty path has no parent. -/
theorem ne_empty_of_parent? (found : parent? path = some above) : path ≠ "" := by
  rintro rfl
  cases found

/-- A path with parts has a parent. -/
theorem parts_eq_nil_of_parent? (last : parent? path = none) : parts path = [] := by
  obtain ⟨first, rest, pieces⟩ := List.exists_cons_of_ne_nil (List.splitOn_ne_nil '/' path.toList)
  obtain ⟨kept, trimmed, -, same, ends⟩ := exists_trimPieces first rest
  obtain rfl | ⟨front, q, rfl, -⟩ := ends
  · rw [parent?, pieces, trimmed] at last
    cases first with
    | nil => rw [parts_eq, pieces, List.filter_cons, ← same]; rfl
    | cons c cs => cases last
  · rw [parent?_of_trimPieces (pieces ▸ trimmed)] at last
    cases last

/-! ### Upward -/

/-- The paths from a path upwards: the path itself, its parent, the parent of that, and so on. -/
inductive Upward (start : String) : String → Prop
  | here : Upward start start
  | above {directory above : String} (below : Upward start directory)
      (parent : parent? directory = some above) : Upward start above

theorem Upward.trans (below : Upward start directory) (further : Upward directory other) :
    Upward start other := by
  induction further with
  | here => exact below
  | above _ parent ih => exact ih.above parent

/-- The first step upwards. -/
theorem upward_iff : Upward start directory ↔
    directory = start ∨ ∃ above, parent? start = some above ∧ Upward above directory := by
  constructor
  · intro upward
    induction upward with
    | here => exact .inl rfl
    | above _ parent ih =>
      obtain rfl | ⟨above, first, onward⟩ := ih
      · exact .inr ⟨_, parent, .here⟩
      · exact .inr ⟨above, first, onward.above parent⟩
  · rintro (rfl | ⟨above, first, onward⟩)
    · exact .here
    · exact (Upward.here.above first).trans onward

/-- Upwards the paths get shorter. -/
theorem Upward.length_lt (upward : Upward start directory) :
    directory = start ∨ directory.length < start.length := by
  induction upward with
  | here => exact .inl rfl
  | above _ parent ih =>
    have := (isParent_of_parent? parent).shorter
    obtain rfl | shorter := ih
    · exact .inr this
    · exact .inr (this.trans shorter)

/-- No path is both above and below another one. -/
theorem Upward.antisymm (upward : Upward start directory) (downward : Upward directory start) :
    directory = start := by
  obtain same | shorter := upward.length_lt
  · exact same
  · obtain same | longer := downward.length_lt
    · exact same.symm
    · omega

/-- Upwards a path has the first parts of the path that it is above of. -/
theorem Upward.parts_prefix (upward : Upward start directory) :
    parts directory <+: parts start ∧ isAbsolute directory = isAbsolute start := by
  induction upward with
  | here => exact ⟨List.prefix_rfl, rfl⟩
  | above _ parent ih =>
    obtain ⟨fewer, absolute, -, -, -⟩ := isParent_of_parent? parent
    exact ⟨fewer ▸ (List.dropLast_prefix _).trans ih.1, absolute.trans ih.2⟩

/-- Any number of first parts of a path are the parts of a path above it. -/
theorem exists_upward {names : List String} (first : names <+: parts start) :
    ∃ directory, Upward start directory ∧ parts directory = names := by
  obtain ⟨more, whole⟩ := first
  induction more using List.reverseRecOn generalizing start with
  | nil => exact ⟨start, .here, by rw [← whole, List.append_nil]⟩
  | append_singleton front name ih =>
    cases parent : parent? start with
    | none =>
      rw [parts_eq_nil_of_parent? parent] at whole
      simp at whole
    | some above =>
      have fewer := (isParent_of_parent? parent).fewer
      rw [← whole, ← List.append_assoc, List.dropLast_concat] at fewer
      obtain ⟨directory, upward, same⟩ := ih fewer.symm
      exact ⟨directory, upward_iff.mpr (.inr ⟨above, parent, upward⟩), same⟩

/-! ### The nearest path upwards -/

/-- The first of the paths from a path upwards that has a property: all others that have it are
further up. -/
structure Nearest (P : String → Prop) (start directory : String) : Prop where
  upward : Upward start directory
  holds : P directory
  deepest : ∀ other, Upward start other → P other → Upward directory other

variable {P Q : String → Prop}

/-- A path that has the property is the nearest one itself. -/
theorem nearest_iff_of_holds (here : P start) : Nearest P start directory ↔ directory = start := by
  constructor
  · exact fun nearest ↦ nearest.upward.antisymm (nearest.deepest start .here here)
  · rintro rfl
    exact ⟨.here, here, fun _ upward _ ↦ upward⟩

/-- From a path that has not the property, the nearest one is that of its parent. -/
theorem nearest_iff_of_not (elsewhere : ¬ P start) : Nearest P start directory ↔
    ∃ above, parent? start = some above ∧ Nearest P above directory := by
  constructor
  · rintro ⟨upward, holds, deepest⟩
    obtain rfl | ⟨above, first, onward⟩ := upward_iff.mp upward
    · exact absurd holds elsewhere
    · exact ⟨above, first, onward, holds, fun other further ↦
        deepest other (upward_iff.mpr (.inr ⟨above, first, further⟩))⟩
  · rintro ⟨above, first, upward, holds, deepest⟩
    refine ⟨upward_iff.mpr (.inr ⟨above, first, upward⟩), holds, fun other further hother ↦ ?_⟩
    obtain rfl | ⟨above', first', further⟩ := upward_iff.mp further
    · exact absurd hother elsewhere
    · cases first.symm.trans first'
      exact deepest other further hother

/-- If any path upwards has the property, one of them is the nearest. -/
theorem exists_nearest (upward : Upward start directory) (holds : P directory) :
    ∃ nearest, Nearest P start nearest := by
  induction h : start.length using Nat.strong_induction_on generalizing start with
  | _ n ih =>
    by_cases here : P start
    · exact ⟨start, (nearest_iff_of_holds here).mpr rfl⟩
    · obtain rfl | ⟨above, first, onward⟩ := upward_iff.mp upward
      · exact absurd holds here
      · have shorter := (isParent_of_parent? first).shorter
        obtain ⟨nearest, further⟩ := ih above.length (by omega) onward rfl
        exact ⟨nearest, (nearest_iff_of_not here).mpr ⟨above, first, further⟩⟩

/-- The nearest path depends on what the paths upwards have alone. -/
theorem nearest_congr (same : ∀ other, Upward start other → (P other ↔ Q other)) :
    Nearest P start directory ↔ Nearest Q start directory := by
  constructor
  · rintro ⟨upward, holds, deepest⟩
    exact ⟨upward, (same _ upward).mp holds,
      fun other further hother ↦ deepest other further ((same _ further).mpr hother)⟩
  · rintro ⟨upward, holds, deepest⟩
    exact ⟨upward, (same _ upward).mpr holds,
      fun other further hother ↦ deepest other further ((same _ further).mp hother)⟩

/-! ### Names below a path -/

/-- A name below a path stands behind the path and a slash, unless the path is empty or ends in a
slash. -/
theorem join_cases (base : String) (inside : '/' ∉ file.toList) :
    base = "" ∧ join base file = file ∨
      (∃ front : List Char, base.toList = front ++ ['/'] ∧
        (join base file).toList = front ++ '/' :: file.toList) ∨
      base ≠ "" ∧ (join base file).toList = base.toList ++ '/' :: file.toList := by
  rw [join, isAbsolute_of_slash_notMem inside, if_neg Bool.false_ne_true]
  obtain rfl | nonempty := eq_or_ne base ""
  · exact .inl ⟨rfl, by simp⟩
  · refine .inr ?_
    by_cases closed : base.toList.getLast? = some '/'
    · obtain ⟨front, ends⟩ := List.getLast?_eq_some_iff.mp closed
      rw [if_pos (by simp [closed])]
      exact .inl ⟨front, ends, by rw [String.toList_append, ends, List.append_assoc]; rfl⟩
    · have other : ¬ (base.toList.getLast? == some '/' || base.isEmpty) = true := by
        simpa [closed] using nonempty
      rw [if_neg other]
      exact .inr ⟨nonempty, by simp⟩

/-- A name below a path is its last part. -/
theorem parts_join (base : String) (part : isPart file.toList) (inside : '/' ∉ file.toList) :
    parts (join base file) = parts base ++ [file] := by
  have last (front : List Char) (whole : (join base file).toList = front ++ '/' :: file.toList) :
      parts (join base file) =
        ((front.splitOn '/').filter isPart).map String.ofList ++ [file] := by
    rw [parts_eq, whole, splitOn_append_slash front inside, List.filter_append,
      List.filter_cons_of_pos part, List.filter_nil, List.map_append, List.map_singleton,
      String.ofList_toList]
  obtain ⟨rfl, whole⟩ | ⟨front, ends, whole⟩ | ⟨-, whole⟩ := join_cases base inside
  · rw [whole, parts_of_slash_notMem part inside]
    rfl
  · have none : '/' ∉ "".toList := by simp
    have pieces : base.toList.splitOn '/' = front.splitOn '/' ++ [[]] :=
      ends ▸ splitOn_append_slash front none
    rw [last front whole, parts_eq, pieces, List.filter_append]
    simp [isPart]
  · exact last base.toList whole

/-- A path below an absolute path is absolute. -/
theorem isAbsolute_join (base : String) (inside : '/' ∉ file.toList) :
    isAbsolute (join base file) = isAbsolute base := by
  obtain ⟨rfl, whole⟩ | ⟨front, ends, whole⟩ | ⟨nonempty, whole⟩ := join_cases base inside
  · rw [whole, isAbsolute_of_slash_notMem inside]
    rfl
  · rw [isAbsolute, isAbsolute, whole, ends]
    cases front <;> rfl
  · obtain ⟨c, cs, text⟩ := List.exists_cons_of_ne_nil (mt String.toList_eq_nil_iff.mp nonempty)
    rw [isAbsolute, isAbsolute, whole, text]
    rfl

/-- A path below another one ends in the name below it. -/
theorem getLast?_splitOn_join (base : String) (inside : '/' ∉ file.toList) :
    ((join base file).toList.splitOn '/').getLast? = some file.toList := by
  obtain ⟨-, whole⟩ | ⟨front, -, whole⟩ | ⟨-, whole⟩ := join_cases base inside
  · rw [whole, splitOn_of_slash_notMem inside]
    rfl
  all_goals rw [whole, splitOn_append_slash _ inside, List.getLast?_concat]

end LanguageHub.Path
