import LanguageHub.Path
import Mathlib.Data.List.DropRight
import Mathlib.Data.List.TakeWhile

/-!
# Pieces, extensions and siblings of paths

A path that is put together from pieces falls into these pieces again. The extension of a path is
what stands behind the last dot of its last part. So an extension holds neither dots nor slashes,
and each nonempty text without them is the extension of the paths that end in it. The path of
another name in the directory of a path leads the same way as the path does, up to the last part
of it (`isSibling_join_parent`).
-/

namespace LanguageHub.Path

section Pieces

variable {α : Type}

/-- No piece between separators holds a separator. -/
theorem eq_false_of_mem_splitOnP {p : α → Bool} {xs : List α} :
    ∀ s ∈ xs.splitOnP p, ∀ c ∈ s, p c = false := by
  induction xs with
  | nil => simp [List.splitOnP_nil]
  | cons x xs ih =>
    rw [List.splitOnP_cons_eq_if_modifyHead]
    split
    · exact List.forall_mem_cons.mpr ⟨nofun, ih⟩
    · next inside =>
      cases hsplit : xs.splitOnP p with
      | nil => simp [List.modifyHead]
      | cons s ss =>
        rw [hsplit, List.forall_mem_cons] at ih
        rw [List.modifyHead, List.forall_mem_cons]
        exact ⟨List.forall_mem_cons.mpr ⟨Bool.eq_false_iff.mpr inside, ih.1⟩, ih.2⟩

end Pieces

/-! ### Parts -/

variable {path name x file base : String}

/-- Whether a piece of a path is one of its parts. -/
def isPart (p : List Char) : Bool := p ≠ [] ∧ p ≠ ['.']

theorem parts_eq (path : String) :
    parts path = ((path.toList.splitOn '/').filter isPart).map String.ofList := rfl

theorem splitOn_of_slash_notMem (inside : '/' ∉ file.toList) :
    file.toList.splitOn '/' = [file.toList] :=
  List.splitOnP_eq_singleton fun _ hc ↦ beq_false_of_ne fun slash ↦ inside (slash ▸ hc)

theorem splitOn_append_slash (front : List Char) (inside : '/' ∉ file.toList) :
    (front ++ '/' :: file.toList).splitOn '/' = front.splitOn '/' ++ [file.toList] := by
  rw [← splitOn_of_slash_notMem inside]
  exact List.splitOnP_append_cons _ _ (beq_self_eq_true '/')

theorem fileName?_eq_some_iff :
    fileName? path = some name ↔ (parts path).getLast? = some name ∧ name ≠ ".." := by
  cases last : (parts path).getLast? with
  | none => simp [fileName?, last]
  | some part =>
    simp only [fileName?, last, Option.some.injEq]
    split
    · next up =>
      simp only [reduceCtorEq, false_iff, not_and, not_not]
      exact fun same ↦ same ▸ up
    · next other =>
      rw [Option.some.injEq]
      exact ⟨fun same ↦ ⟨same, same ▸ other⟩, And.left⟩

/-! ### Extensions -/

/-- A text that has neither a dot nor a slash in it, as the extension of a path has none. -/
structure IsExtension (x : String) : Prop where
  undotted : '.' ∉ x.toList
  inside : '/' ∉ x.toList

instance (x : String) : Decidable (IsExtension x) :=
  decidable_of_iff ('.' ∉ x.toList ∧ '/' ∉ x.toList) ⟨fun h ↦ ⟨h.1, h.2⟩, fun h ↦ ⟨h.1, h.2⟩⟩

/-- The last part of a path in a directory is the name behind the last slash. -/
theorem getLast?_parts_append (directory : String) (empty : name ≠ "") (here : name ≠ ".")
    (inside : '/' ∉ name.toList) :
    (parts (directory ++ "/" ++ name)).getLast? = some name := by
  have cut : (directory ++ "/" ++ name).toList =
      directory.toList ++ '/' :: name.toList := by simp
  have part : isPart name.toList := by
    rw [isPart, decide_eq_true_eq]
    exact ⟨fun h ↦ empty (String.toList_inj.mp h), fun h ↦ here (String.toList_inj.mp h)⟩
  rw [parts_eq, cut, splitOn_append_slash _ inside, List.filter_append,
    List.filter_cons_of_pos part, List.filter_nil, List.map_append, List.map_singleton,
    List.getLast?_concat, String.ofList_toList]

/-- A name ends in its extension. -/
theorem extensionOfName?_append {stem extension : List Char} (nonempty : stem ≠ [])
    (undotted : '.' ∉ extension) :
    extensionOfName? (stem ++ '.' :: extension) = some extension := by
  have back : (stem ++ '.' :: extension).reverse = extension.reverse ++ '.' :: stem.reverse := by
    simp
  have after : (stem ++ '.' :: extension).reverse.takeWhile (· ≠ '.') = extension.reverse := by
    rw [back, List.takeWhile_append_of_pos, List.takeWhile_cons_of_neg (by simp),
      List.append_nil]
    intro c hc
    have other : c ≠ '.' := fun dot ↦ undotted (dot ▸ List.mem_reverse.mp hc)
    simpa using other
  have long : ¬ (stem ++ '.' :: extension).length ≤ extension.reverse.length + 1 := by
    have := List.length_pos_iff.mpr nonempty
    rw [List.length_append, List.length_cons, List.length_reverse]
    omega
  rw [extensionOfName?, after, if_neg long, List.reverse_reverse]

/-- A path whose name is a stem, a dot and a text that can be an extension has that extension. -/
theorem extension?_append (directory : String) {stem : String} (h : IsExtension x)
    (proper : x ≠ "") (nonempty : stem ≠ "") (inside : '/' ∉ stem.toList) :
    extension? (directory ++ "/" ++ stem ++ "." ++ x) = some x := by
  have named : (stem ++ "." ++ x).toList = stem.toList ++ '.' :: x.toList := by simp
  have first : stem.toList ≠ [] := fun h ↦ nonempty (String.toList_inj.mp h)
  have found := extensionOfName?_append first h.undotted
  have last : (parts (directory ++ "/" ++ (stem ++ "." ++ x))).getLast? =
      some (stem ++ "." ++ x) := by
    refine getLast?_parts_append directory (fun none ↦ ?_) (fun here ↦ ?_) ?_
    · rw [none] at named
      simp at named
    · rw [here] at named
      obtain ⟨c, cs, hstem⟩ := List.exists_cons_of_ne_nil first
      rw [hstem] at named
      simp at named
    · rw [named]
      simpa using ⟨inside, h.inside⟩
  have leadsOn : stem ++ "." ++ x ≠ ".." := by
    intro up
    have bare : extensionOfName? "..".toList = some [] := by decide
    rw [← named, up, bare] at found
    exact proper (String.toList_inj.mp (Option.some.inj found).symm)
  have assoc : directory ++ "/" ++ stem ++ "." ++ x =
      directory ++ "/" ++ (stem ++ "." ++ x) := by
    simp only [String.append_assoc]
  rw [extension?, assoc, fileName?_eq_some_iff.mpr ⟨last, leadsOn⟩, Option.bind_some, named, found,
    Option.map_some, String.ofList_toList]

/-- No part of a path has a slash in it. -/
theorem slash_notMem_of_mem_parts (h : name ∈ parts path) : '/' ∉ name.toList := by
  obtain ⟨p, hp, rfl⟩ := List.mem_map.mp h
  have piece : p ∈ path.toList.splitOn '/' := (List.mem_filter.mp hp).1
  rw [String.toList_ofList]
  intro slash
  have other := eq_false_of_mem_splitOnP p piece '/' slash
  simp at other

/-- The extension of a name comes from the name and has no dot in it. -/
theorem mem_of_extensionOfName? {whole extension : List Char}
    (found : extensionOfName? whole = some extension) :
    '.' ∉ extension ∧ ∀ c ∈ extension, c ∈ whole := by
  simp only [extensionOfName?] at found
  split at found
  · cases found
  · cases found
    refine ⟨fun dot ↦ ?_, fun c hc ↦ ?_⟩
    · have other := List.mem_takeWhile_imp (List.mem_reverse.mp dot)
      simp at other
    · exact List.mem_reverse.mp ((List.takeWhile_subset _) (List.mem_reverse.mp hc))

/-- The extension of a path has neither dots nor slashes in it. -/
theorem isExtension_of_extension? (found : extension? path = some x) : IsExtension x := by
  obtain ⟨name, named, cut⟩ := Option.bind_eq_some_iff.mp found
  obtain ⟨extension, ends, rfl⟩ := Option.map_eq_some_iff.mp cut
  obtain ⟨undotted, within⟩ := mem_of_extensionOfName? ends
  have part := List.mem_of_getLast? (fileName?_eq_some_iff.mp named).1
  refine ⟨by rwa [String.toList_ofList], ?_⟩
  rw [String.toList_ofList]
  exact fun slash ↦ slash_notMem_of_mem_parts part (within _ slash)

/-! ### Siblings -/

/-- A path that leads the way of another path, except that it ends in `file`. -/
structure IsSibling (path file sibling : String) : Prop where
  parts : parts sibling = (parts path).dropLast ++ [file]
  absolute : isAbsolute sibling = isAbsolute path
  ends : (sibling.toList.splitOn '/').getLast? = some file.toList
  characters : ∀ c ∈ sibling.toList, c = '/' ∨ c ∈ path.toList ∨ c ∈ file.toList

theorem splitOn_cons (c : Char) (cs : List Char) : (c :: cs).splitOn '/' =
    if c = '/' then [] :: cs.splitOn '/' else (cs.splitOn '/').modifyHead (c :: ·) := by
  rw [List.splitOn, List.splitOnP_cons_eq_if_modifyHead]
  simp only [beq_iff_eq, List.splitOn]

/-- Between the slashes the characters of a path are those of its pieces. -/
theorem exists_piece_iff {c : Char} (other : c ≠ '/') (cs : List Char) :
    (∃ p ∈ cs.splitOn '/', c ∈ p) ↔ c ∈ cs := by
  induction cs with
  | nil => simp [List.splitOn, List.splitOnP_nil]
  | cons d ds ih =>
    obtain ⟨p, ps, pieces⟩ := List.exists_cons_of_ne_nil (List.splitOn_ne_nil '/' ds)
    simp only [pieces, List.mem_cons, exists_eq_or_imp] at ih
    rw [splitOn_cons, pieces, List.mem_cons, ← ih]
    split
    · next slash => simp [slash, other]
    · simp [or_assoc]

/-- A path is absolute if an empty piece begins it and another piece follows. -/
theorem isAbsolute_eq {first : List Char} {rest : List (List Char)}
    (pieces : path.toList.splitOn '/' = first :: rest) :
    isAbsolute path = decide (first = [] ∧ rest ≠ []) := by
  rw [isAbsolute, beq_eq_decide, decide_eq_decide]
  cases h : path.toList with
  | nil =>
    rw [h, List.splitOn, List.splitOnP_nil] at pieces
    cases pieces
    simp
  | cons c cs =>
    rw [h, splitOn_cons] at pieces
    split at pieces
    · next slash =>
      cases pieces
      simp [slash, List.splitOn_ne_nil]
    · next other =>
      obtain ⟨p, ps, further⟩ := List.exists_cons_of_ne_nil (List.splitOn_ne_nil '/' cs)
      rw [further, List.modifyHead] at pieces
      cases pieces
      simp [other]

theorem isAbsolute_of_slash_notMem (inside : '/' ∉ file.toList) : isAbsolute file = false := by
  simp [isAbsolute_eq (splitOn_of_slash_notMem inside)]

/-- A name below a path that does not end in a slash is a piece of its own. -/
theorem splitOn_join (ends : (base.toList.splitOn '/').getLast? ≠ some [])
    (inside : '/' ∉ file.toList) :
    (join base file).toList.splitOn '/' = base.toList.splitOn '/' ++ [file.toList] := by
  have unclosed : (base.toList.getLast? == some '/') = false := by
    rw [beq_eq_false_iff_ne]
    intro slash
    obtain ⟨front, cut⟩ := List.getLast?_eq_some_iff.mp slash
    have pieces : base.toList.splitOn '/' = front.splitOn '/' ++ [[]] :=
      cut ▸ List.splitOnP_append_cons front [] (beq_self_eq_true '/')
    rw [pieces] at ends
    simp at ends
  have nonempty : base.isEmpty = false := by
    rw [Bool.eq_false_iff]
    intro empty
    rw [String.isEmpty_iff.mp empty] at ends
    exact ends rfl
  rw [join, isAbsolute_of_slash_notMem inside, if_neg Bool.false_ne_true, unclosed, nonempty,
    if_neg (by simp), ← splitOn_append_slash _ inside]
  simp

theorem join_empty (inside : '/' ∉ file.toList) : join "" file = file := by
  rw [join, isAbsolute_of_slash_notMem inside]
  simp

theorem splitOn_join_root (inside : '/' ∉ file.toList) :
    (join "/" file).toList.splitOn '/' = [[], file.toList] := by
  have joined : (join "/" file).toList = [] ++ '/' :: file.toList := by
    rw [join, isAbsolute_of_slash_notMem inside]
    simp
  rw [joined, splitOn_append_slash [] inside]
  rfl

/-- The pieces that are left of those behind the first one, up to the last part. -/
theorem exists_trimPieces (first : List Char) (rest : List (List Char)) :
    ∃ kept, trimPieces (first :: rest) = first :: kept ∧ kept <+: rest ∧
      kept.filter isPart = rest.filter isPart ∧
      (kept = [] ∨ ∃ front last, kept = front ++ [last] ∧ isPart last) := by
  let leadsNowhere : List Char → Bool := fun p ↦ p = [] ∨ p = ['.']
  have part_iff (p : List Char) : isPart p = !leadsNowhere p := by
    rw [Bool.eq_iff_iff]
    simp [isPart, leadsNowhere]
  have dropped : (rest.rtakeWhile leadsNowhere).filter isPart = [] := by
    refine List.filter_eq_nil_iff.mpr fun p hp ↦ ?_
    rw [part_iff, List.mem_rtakeWhile_imp hp]
    simp
  refine ⟨rest.rdropWhile leadsNowhere, rfl, List.rdropWhile_prefix _ _, ?_, ?_⟩
  · conv_rhs => rw [← List.rdropWhile_append_rtakeWhile (p := leadsNowhere) (l := rest)]
    rw [List.filter_append, dropped, List.append_nil]
  · by_cases empty : rest.rdropWhile leadsNowhere = []
    · exact .inl empty
    · refine .inr ⟨_, _, (List.dropLast_concat_getLast empty).symm, ?_⟩
      rw [part_iff, Bool.eq_false_iff.mpr (List.rdropWhile_last_not _ _ empty)]
      rfl

/-- Pieces other than those of the root stand between slashes in their path. -/
theorem ofPieces_eq {first : List Char} {kept : List (List Char)}
    (proper : ¬ (first = [] ∧ kept = [])) :
    ofPieces (first :: kept) = String.ofList (List.intercalate ['/'] (first :: kept)) := by
  unfold ofPieces
  split
  · next root =>
    cases root
    exact absurd ⟨rfl, rfl⟩ proper
  · rfl

/-- A name below pieces of a path that end in a part. -/
theorem splitOn_join_ofPieces {first : List Char} {kept : List (List Char)}
    (whole : ∀ p ∈ first :: kept, '/' ∉ p)
    (ends : kept = [] ∨ ∃ front last, kept = front ++ [last] ∧ isPart last)
    (inside : '/' ∉ file.toList) :
    (join (ofPieces (first :: kept)) file).toList.splitOn '/' = first :: kept ++ [file.toList] := by
  by_cases root : first = [] ∧ kept = []
  · rw [root.1, root.2]
    exact splitOn_join_root inside
  · have text := ofPieces_eq root
    have pieces : (ofPieces (first :: kept)).toList.splitOn '/' = first :: kept := by
      rw [text, String.toList_ofList, List.splitOn_intercalate '/' whole (List.cons_ne_nil _ _)]
    have unclosed : ((ofPieces (first :: kept)).toList.splitOn '/').getLast? ≠ some [] := by
      rw [pieces]
      obtain rfl | ⟨front, last, rfl, part⟩ := ends
      · simpa using root
      · rw [← List.cons_append, List.getLast?_concat]
        rintro ⟨⟩
        simp [isPart] at part
    rw [splitOn_join unclosed inside, pieces]

theorem isPart_of_length {p : List Char} (long : 1 < p.length) : isPart p := by
  have nonempty : p ≠ [] := by
    rintro rfl
    simp at long
  have further : p ≠ ['.'] := by
    rintro rfl
    simp at long
  simp [isPart, nonempty, further]

/-- A name by itself is the only part of its path. -/
theorem parts_of_slash_notMem (part : isPart file.toList) (inside : '/' ∉ file.toList) :
    parts file = [file] := by
  rw [parts_eq, splitOn_of_slash_notMem inside, List.filter_cons_of_pos part, List.filter_nil,
    List.map_singleton, String.ofList_toList]

/-- The name in which a path ends is one of its pieces. -/
theorem mem_pieces_of_fileName? (named : fileName? path = some name) :
    name.toList ∈ (path.toList.splitOn '/').filter isPart := by
  obtain ⟨p, hp, rfl⟩ := List.mem_map.mp
    (List.mem_of_getLast? (fileName?_eq_some_iff.mp named).1)
  rwa [String.toList_ofList]

/-- The parent of a path that is trimmed to several pieces. -/
theorem parent?_of_trimPieces {first last : List Char} {front : List (List Char)}
    (trimmed : trimPieces (path.toList.splitOn '/') = first :: (front ++ [last])) :
    parent? path = some (ofPieces (trimPieces (first :: front))) := by
  have above : (first :: (front ++ [last])).dropLast = first :: front := by
    rw [← List.cons_append, List.dropLast_concat]
  rw [parent?, trimmed]
  split
  · next h => simp at h
  · next h => simp at h
  · next h => simp at h
  · rw [above]

/-- The paths in the directory of a path have the pieces in common that the path has before its
last part, less some that lead nowhere. -/
theorem exists_front (named : fileName? path = some name) :
    ∃ front, (path.toList.splitOn '/').filter isPart = front.filter isPart ++ [name.toList] ∧
      (∀ p ∈ front, p ∈ path.toList.splitOn '/') ∧
      ∀ file : String, '/' ∉ file.toList →
        (join ((parent? path).getD ".") file).toList.splitOn '/' = front ++ [file.toList] ∧
        isAbsolute (join ((parent? path).getD ".") file) = isAbsolute path := by
  have whole : ∀ p ∈ path.toList.splitOn '/', '/' ∉ p := fun p hp slash ↦ by
    simpa using eq_false_of_mem_splitOnP p hp '/' slash
  have last := (fileName?_eq_some_iff.mp named).1
  obtain ⟨first, rest, pieces⟩ := List.exists_cons_of_ne_nil (List.splitOn_ne_nil '/' path.toList)
  obtain ⟨kept, trimmed, within, same, ends⟩ := exists_trimPieces first rest
  have same : (first :: rest).filter isPart = (first :: kept).filter isPart := by
    simp only [List.filter_cons, same]
  rw [parts_eq, pieces, same] at last
  rw [pieces, same]
  obtain rfl | ⟨front, q, rfl, part⟩ := ends
  · -- the first piece is the only part
    have part : isPart first := by
      by_contra none
      rw [List.filter_cons_of_neg none] at last
      simp at last
    rw [List.filter_cons_of_pos part] at last ⊢
    have above : parent? path = some "" := by
      rw [parent?, pieces, trimmed]
      cases first with
      | nil => simp [isPart] at part
      | cons c cs => rfl
    have named : first = name.toList := by
      simpa [← String.toList_inj] using last
    refine ⟨[], by rw [named]; rfl, nofun, fun file inside ↦ ?_⟩
    have relative : isAbsolute path = false := by
      rw [isAbsolute_eq pieces, decide_eq_false_iff_not]
      rintro ⟨rfl, -⟩
      simp [isPart] at part
    rw [above, Option.getD_some, join_empty inside, isAbsolute_of_slash_notMem inside, relative]
    exact ⟨splitOn_of_slash_notMem inside, rfl⟩
  · -- the last part is `q`, and the pieces before it are trimmed once more
    obtain ⟨kept, trimmedAgain, withinFront, sameFront, endsFront⟩ := exists_trimPieces first front
    rw [← List.cons_append, List.filter_append, List.filter_cons_of_pos part,
      List.filter_nil] at last ⊢
    have named : q = name.toList := by
      simpa [← String.toList_inj] using last
    have subset : ∀ p ∈ first :: kept, p ∈ first :: rest :=
      List.cons_subset_cons first fun p hp ↦
        within.subset (List.mem_append_left _ (withinFront.subset hp))
    rw [parent?_of_trimPieces (pieces ▸ trimmed), trimmedAgain, Option.getD_some]
    refine ⟨first :: kept, ?_, subset, fun file inside ↦ ?_⟩
    · simp only [named, List.filter_cons, sameFront]
    · have below := splitOn_join_ofPieces (fun p hp ↦ whole p (pieces ▸ subset p hp)) endsFront
        inside
      have deep : rest ≠ [] := by
        rintro rfl
        simp at within
      refine ⟨below, ?_⟩
      rw [isAbsolute_eq below, isAbsolute_eq pieces]
      simp [deep]

/-- The path of a name in the directory of a path leads the way of the path up to its last part. -/
theorem isSibling_join_parent (named : fileName? path = some name) (part : isPart file.toList)
    (inside : '/' ∉ file.toList) : IsSibling path file (join ((parent? path).getD ".") file) := by
  obtain ⟨front, sameParts, within, below⟩ := exists_front named
  obtain ⟨pieces, absolute⟩ := below file inside
  refine ⟨?_, absolute, by rw [pieces, List.getLast?_concat], fun c hc ↦ ?_⟩
  · rw [parts_eq, parts_eq, pieces, sameParts, List.filter_append, List.filter_cons_of_pos part,
      List.filter_nil, List.map_append, List.map_append, List.map_singleton, List.map_singleton,
      List.dropLast_concat, String.ofList_toList]
  · by_cases slash : c = '/'
    · exact .inl slash
    · obtain ⟨p, hp, hc⟩ := (exists_piece_iff slash _).mpr hc
      rw [pieces] at hp
      obtain hp | hp := List.mem_append.mp hp
      · exact .inr (.inl ((exists_piece_iff slash _).mp ⟨p, within p hp, hc⟩))
      · rw [List.mem_singleton.mp hp] at hc
        exact .inr (.inr hc)

end LanguageHub.Path
