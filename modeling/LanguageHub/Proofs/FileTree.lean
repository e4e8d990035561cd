import LanguageHub.FileTree.Change
import LanguageHub.Proofs.Path
import LanguageHub.Proofs.Results
import Mathlib.Data.List.Find

/-!
# Files that move

What the entries of a tree are after a file is put, removed or given another path, and where the
siblings of a path lead. As files come and go, the paths lead where they led as long as the
directories stay (`SameDirectories.locate_eq_ok_iff`).
-/

namespace LanguageHub.FileTree

variable {t u : FileTree} {path source target name : String} {l s : Location} {e : FileEntry}
  {content : ByteArray} {isExecutable : Bool}

/-- What a path leads to. -/
def at? (t : FileTree) (path : String) : Option FileEntry := (t.find path).toOption.map (·.2)

/-- Every entry is in a directory. -/
def Coherent (t : FileTree) : Prop :=
  ∀ l name e, t.get? (l ++ [name]) = some e → t.get? l = some .directory

/-- Two trees that differ in files only. -/
structure SameDirectories (t u : FileTree) : Prop where
  current : u.current = t.current
  directory_iff : ∀ l, u.get? l = some .directory ↔ t.get? l = some .directory

/-- A path that is not too long and whose last part is not too long. -/
def Fits (path : String) : Prop :=
  path.utf8ByteSize < pathLimit ∧
    ∀ name ∈ Path.fileName? path, name.utf8ByteSize ≤ longestName

instance (path : String) : Decidable (Fits path) := inferInstanceAs (Decidable (_ ∧ _))

/-! ### Entries -/

@[simp] theorem get?_nil (t : FileTree) : t.get? [] = some .directory := rfl

theorem get?_of_ne_nil (t : FileTree) (below : l ≠ []) :
    t.get? l = (t.entries.find? (·.1 = l)).map (·.2) := if_neg below

theorem ne_nil_of_get? (found : t.get? l ≠ some .directory) : l ≠ [] :=
  fun root ↦ found (root ▸ t.get?_nil)

theorem ne_nil_of_get?_eq_none (missing : t.get? l = none) : l ≠ [] :=
  ne_nil_of_get? (missing.trans_ne nofun)

theorem hasDirectory_iff : t.hasDirectory l ↔ t.get? l = some .directory := by
  unfold hasDirectory
  split <;> simp_all

/-- The entries of a tree whose listed entries are in directories. -/
theorem coherent_of_entries (h : ∀ e ∈ t.entries, t.hasDirectory e.1.dropLast) : t.Coherent := by
  intro l name e found
  rw [get?_of_ne_nil t (by simp), Option.map_eq_some_iff] at found
  obtain ⟨⟨k, e'⟩, found, -⟩ := found
  have key : k = l ++ [name] := by simpa using List.find?_some found
  have := hasDirectory_iff.mp (h _ (List.mem_of_find?_eq_some found))
  rwa [key, List.dropLast_concat] at this

/-- Below an entry that is not a directory there is nothing. -/
theorem Coherent.get?_append (coherent : t.Coherent) (leaf : t.get? l ≠ some .directory)
    {below : Location} (further : below ≠ []) : t.get? (l ++ below) = none := by
  induction below using List.reverseRecOn with
  | nil => exact absurd rfl further
  | append_singleton front name ih =>
    rw [← List.append_assoc, ← Option.not_isSome_iff_eq_none]
    intro there
    obtain ⟨e, found⟩ := Option.isSome_iff_exists.mp there
    have above := coherent _ _ _ found
    obtain rfl | further := eq_or_ne front []
    · exact leaf (by rwa [List.append_nil] at above)
    · rw [ih further] at above
      cases above

theorem isSome_get?_of_mem {x : Location × FileEntry} (listed : x ∈ t.entries) :
    (t.get? x.1).isSome := by
  obtain root | below := eq_or_ne x.1 []
  · rw [root]
    rfl
  · rw [get?_of_ne_nil t below, Option.isSome_map, List.find?_isSome]
    exact ⟨x, listed, by simp⟩

/-- What is found after the entry at a location is removed. -/
theorem get?_erase (below : l ≠ []) (k : Location) :
    (t.erase l).get? k = if k = l then none else t.get? k := by
  obtain rfl | hk := eq_or_ne k []
  · rw [if_neg below.symm]
    rfl
  · rw [get?_of_ne_nil _ hk, get?_of_ne_nil _ hk, erase, List.find?_filter]
    split
    · next same =>
      rw [Option.map_eq_none_iff, List.find?_eq_none]
      simp [same]
    · next other =>
      congr 1
      refine List.find?_congr fun x _ ↦ decide_eq_decide.mpr ?_
      simp only [decide_eq_true_eq, and_iff_right_iff_imp]
      exact fun key ↦ key ▸ other

/-- What is found after an entry is put at a location. -/
theorem get?_put (below : l ≠ []) (e : FileEntry) (k : Location) :
    (t.put l e).get? k = if k = l then some e else t.get? k := by
  obtain rfl | hk := eq_or_ne k []
  · rw [if_neg below.symm]
    rfl
  · rw [get?_of_ne_nil _ hk, get?_of_ne_nil _ hk, put, List.find?_cons]
    split
    · next same =>
      rw [decide_eq_true_eq] at same
      rw [if_pos same.symm]
      rfl
    · next other =>
      rw [decide_eq_false_iff_not] at other
      rw [if_neg (Ne.symm other), List.find?_filter]
      congr 1
      refine List.find?_congr fun x _ ↦ decide_eq_decide.mpr ?_
      simp only [decide_eq_true_eq, and_iff_right_iff_imp]
      rintro rfl
      exact Ne.symm other

/-- Of the entries below an entry that is not a directory there is only the entry itself. -/
theorem Coherent.isPrefixOf_iff (coherent : t.Coherent) (leaf : t.get? s ≠ some .directory)
    {x : Location × FileEntry} (listed : x ∈ t.entries) : s.isPrefixOf x.1 ↔ x.1 = s := by
  rw [List.isPrefixOf_iff_prefix]
  refine ⟨fun ⟨further, key⟩ ↦ ?_, fun key ↦ key ▸ List.prefix_rfl⟩
  by_contra other
  have below : further ≠ [] := by
    rintro rfl
    rw [List.append_nil] at key
    exact other key.symm
  have found := isSome_get?_of_mem listed
  rw [← key, coherent.get?_append leaf below] at found
  cases found

private theorem find?_moves (coherent : t.Coherent) (leaf : t.get? s ≠ some .directory)
    (k : Location) :
    ((t.entries.filter fun x ↦ s.isPrefixOf x.1).map fun x ↦ (l ++ x.1.drop s.length, x.2)).find?
        (·.1 = k) =
      if k = l then (t.entries.find? (·.1 = s)).map fun x ↦ (l ++ x.1.drop s.length, x.2)
      else none := by
  rw [List.find?_map, List.find?_filter]
  split
  · next same =>
    congr 1
    refine List.find?_congr fun x listed ↦ decide_eq_decide.mpr ?_
    rw [coherent.isPrefixOf_iff leaf listed]
    simp +contextual [same]
  · next other =>
    rw [Option.map_eq_none_iff, List.find?_eq_none]
    intro x listed
    rw [decide_eq_true_eq, coherent.isPrefixOf_iff leaf listed]
    simp +contextual [Ne.symm other]

private theorem find?_stays (coherent : t.Coherent) (leaf : t.get? s ≠ some .directory)
    (k : Location) :
    ((t.erase l).entries.filter fun x ↦ !s.isPrefixOf x.1).find? (·.1 = k) =
      if k = l ∨ k = s then none else t.entries.find? (·.1 = k) := by
  rw [erase, List.filter_filter, List.find?_filter]
  split
  · next gone =>
    rw [List.find?_eq_none]
    rintro x listed found
    simp only [Bool.and_eq_true, Bool.not_eq_true', Bool.eq_false_iff, ne_eq,
      coherent.isPrefixOf_iff leaf listed, decide_eq_true_eq] at found
    obtain ⟨⟨moved, replaced⟩, rfl⟩ := found
    exact gone.elim replaced moved
  · next other =>
    refine List.find?_congr fun x listed ↦ decide_eq_decide.mpr ?_
    simp only [Bool.and_eq_true, Bool.not_eq_true', Bool.eq_false_iff, ne_eq,
      coherent.isPrefixOf_iff leaf listed, decide_eq_true_eq, and_iff_right_iff_imp]
    rintro rfl
    exact ⟨fun moved ↦ other (.inr moved), fun replaced ↦ other (.inl replaced)⟩

/-- What is found after a file moves. -/
theorem get?_move (coherent : t.Coherent) (leaf : t.get? s ≠ some .directory) (below : l ≠ [])
    (k : Location) :
    (t.move s l).get? k = if k = l then t.get? s else if k = s then none else t.get? k := by
  obtain rfl | hk := eq_or_ne k []
  · rw [if_neg below.symm, if_neg (ne_nil_of_get? leaf).symm]
    rfl
  have entries : (t.move s l).entries.find? (·.1 = k) =
      (if k = l then (t.entries.find? (·.1 = s)).map fun x ↦ (l ++ x.1.drop s.length, x.2)
        else none).or (if k = l ∨ k = s then none else t.entries.find? (·.1 = k)) := by
    rw [← find?_moves coherent leaf, ← find?_stays coherent leaf, ← List.find?_append]
    rfl
  rw [get?_of_ne_nil _ hk, get?_of_ne_nil _ (ne_nil_of_get? leaf), get?_of_ne_nil _ hk, entries]
  by_cases moved : k = l
  · simp only [moved, true_or, if_true, Option.or_none, Option.map_map]
    rfl
  · simp only [moved, if_false, false_or, Option.none_or]
    split <;> rfl

/-! ### Where paths lead -/

theorem enter_eq_ok_iff : t.enter s name = .ok l ↔
    t.get? s = some .directory ∧ (name = ".." ∧ l = s.dropLast ∨
      name ≠ ".." ∧ name.utf8ByteSize ≤ longestName ∧ l = s ++ [name]) := by
  unfold enter
  split
  · next h => simp [h]
  · next h => simp [h]
  · next h =>
    split
    · next up => simp [h, up, eq_comm]
    · next named =>
      split
      · next long => simp [h, named, Nat.not_le.mpr long]
      · next short => simp [h, named, Nat.not_lt.mp short, eq_comm]

theorem foldlM_enter_concat {names : List String} :
    (names ++ [name]).foldlM t.enter s = .ok l ↔
      ∃ d, names.foldlM t.enter s = .ok d ∧ t.enter d name = .ok l := by
  rw [List.foldlM_append, bind_eq_ok_iff]
  refine exists_congr fun d ↦ and_congr_right fun _ ↦ ?_
  rw [List.foldlM_cons, bind_eq_ok_iff]
  exact ⟨fun ⟨_, entered, h⟩ ↦ h ▸ entered, fun entered ↦ ⟨l, entered, rfl⟩⟩

theorem SameDirectories.refl (t : FileTree) : SameDirectories t t := ⟨rfl, fun _ ↦ Iff.rfl⟩

theorem SameDirectories.symm (same : SameDirectories t u) : SameDirectories u t :=
  ⟨same.current.symm, fun l ↦ (same.directory_iff l).symm⟩

theorem SameDirectories.trans {v : FileTree} (first : SameDirectories t u)
    (second : SameDirectories u v) : SameDirectories t v :=
  ⟨second.current.trans first.current,
    fun l ↦ (second.directory_iff l).trans (first.directory_iff l)⟩

private theorem SameDirectories.foldlM_enter (same : SameDirectories t u) {names : List String}
    (h : names.foldlM t.enter s = .ok l) : names.foldlM u.enter s = .ok l := by
  induction names generalizing s with
  | nil => exact h
  | cons name names ih =>
    rw [List.foldlM_cons] at h ⊢
    obtain ⟨d, entered, onward⟩ := bind_eq_ok_iff.mp h
    rw [enter_eq_ok_iff, ← same.directory_iff, ← enter_eq_ok_iff] at entered
    exact bind_eq_ok_iff.mpr ⟨d, entered, ih onward⟩

/-- A path that is located is followed from part to part. -/
theorem locate_eq_ok_iff : t.locate path = .ok l ↔
    ('\x00' ∉ path.toList ∧ path ≠ "" ∧ path.utf8ByteSize < pathLimit) ∧
      (Path.parts path).foldlM t.enter (if Path.isAbsolute path then [] else t.current) =
        .ok l := by
  rw [locate]
  split
  · next nul => simp_all
  · split
    · next empty => simp_all
    · split
      · next long => simp [Nat.not_lt.mpr long]
      · simp_all

private theorem SameDirectories.locate (same : SameDirectories t u)
    (located : t.locate path = .ok l) : u.locate path = .ok l := by
  rw [FileTree.locate_eq_ok_iff] at located ⊢
  rw [same.current]
  exact ⟨located.1, same.foldlM_enter located.2⟩

/-- A path leads to the same location in trees with the same directories. -/
theorem SameDirectories.locate_eq_ok_iff (same : SameDirectories t u) :
    u.locate path = .ok l ↔ t.locate path = .ok l := ⟨same.symm.locate, same.locate⟩

theorem find_eq_ok_iff : t.find path = .ok (l, e) ↔
    t.locate path = .ok l ∧ t.get? l = some e ∧ (e = .directory ∨ asksDirectory path = false) := by
  rw [find, bind_eq_ok_iff]
  constructor
  · rintro ⟨k, located, found⟩
    split at found
    · cases found
    · split at found
      · cases found
      · next h plain =>
        cases found
        exact ⟨located, h, .inr (Bool.eq_false_iff.mpr plain)⟩
    · next h =>
      cases found
      exact ⟨located, h, .inl rfl⟩
  · rintro ⟨located, found, shape⟩
    refine ⟨l, located, ?_⟩
    cases e with
    | directory => simp [found]
    | file content isExecutable => simpa [found] using shape

theorem contains_iff : t.contains path ↔ ∃ l e, t.find path = .ok (l, e) := by
  rw [contains]
  cases t.find path with
  | error fault => simp [Except.isOk, Except.toBool]
  | ok x => simp [Except.isOk, Except.toBool, Prod.ext_iff]

theorem isDirectory_iff : t.isDirectory path ↔ ∃ l, t.find path = .ok (l, .directory) := by
  rw [isDirectory]
  split
  · next found => simp [found]
  · next other => simpa using other

theorem isFile_iff : t.isFile path ↔
    ∃ l content isExecutable, t.find path = .ok (l, .file content isExecutable) := by
  rw [isFile]
  split
  · next found => simp [found]
  · next other => simpa using fun l content x found ↦ other l content x found

theorem contains_of_isDirectory (directory : t.isDirectory path) : t.contains path := by
  obtain ⟨l, found⟩ := isDirectory_iff.mp directory
  exact contains_iff.mpr ⟨l, _, found⟩

theorem contains_of_isFile (file : t.isFile path) : t.contains path := by
  obtain ⟨l, content, isExecutable, found⟩ := isFile_iff.mp file
  exact contains_iff.mpr ⟨l, _, found⟩

/-- A path without a slash at its end leads to what is at its location. -/
theorem at?_of_locate (located : t.locate path = .ok l) (plain : asksDirectory path = false) :
    t.at? path = t.get? l := by
  rw [at?]
  cases found : t.get? l with
  | none =>
    have missing : t.find path = .error .notFound := by
      rw [find, located]
      simp [found, bind, Except.bind]
    rw [missing]
    rfl
  | some e => rw [find_eq_ok_iff.mpr ⟨located, found, .inr plain⟩]; rfl

theorem at?_eq_some_iff : t.at? path = some e ↔ ∃ l, t.find path = .ok (l, e) := by
  rw [at?]
  cases t.find path with
  | error fault => simp [Except.toOption]
  | ok x => simp [Except.toOption, Prod.ext_iff]

theorem contains_eq (t : FileTree) (path : String) : t.contains path = (t.at? path).isSome := by
  rw [contains, at?]
  cases t.find path <;> rfl

theorem isDirectory_eq_false_iff :
    t.isDirectory path = false ↔ t.at? path ≠ some .directory := by
  rw [isDirectory, at?]
  split
  · next found => simp [found, Except.toOption]
  · next other =>
    simp only [ne_eq, true_iff]
    intro found
    cases h : t.find path with
    | error fault => simp [h, Except.toOption] at found
    | ok x =>
      obtain ⟨l, e⟩ := x
      simp only [h, Except.toOption, Option.map_some, Option.some.injEq] at found
      exact other l (found ▸ h)

/-- A path that ends in a name leads to that name in a directory. -/
theorem exists_directory (named : Path.fileName? path = some name)
    (located : t.locate path = .ok l) : ∃ d, l = d ++ [name] ∧
      t.get? d = some .directory ∧ name.utf8ByteSize ≤ longestName ∧
      (Path.parts path).dropLast.foldlM t.enter (if Path.isAbsolute path then [] else t.current) =
        .ok d := by
  have onward := (locate_eq_ok_iff.mp located).2
  rw [← List.dropLast_append_getLast? name (Path.fileName?_eq_some_iff.mp named).1,
    foldlM_enter_concat] at onward
  obtain ⟨d, front, entered⟩ := onward
  obtain ⟨directory, ⟨rfl, -⟩ | ⟨-, short, rfl⟩⟩ := enter_eq_ok_iff.mp entered
  · exact absurd rfl (Path.fileName?_eq_some_iff.mp named).2
  · exact ⟨d, rfl, directory, short, front⟩

/-- A path that is located is not too long. -/
theorem fits_of_locate (located : t.locate path = .ok l) : Fits path := by
  refine ⟨(locate_eq_ok_iff.mp located).1.2.2, fun name named ↦ ?_⟩
  obtain ⟨d, -, -, short, -⟩ := exists_directory named located
  exact short

/-- The sibling of a path leads to its own name in the same directory, unless it is too long. -/
theorem locate_sibling {d : Location} {file sibling : String}
    (named : Path.fileName? path = some name) (located : t.locate path = .ok (d ++ [name]))
    (beside : Path.IsSibling path file sibling) (plain : file ≠ "..")
    (printed : '\x00' ∉ file.toList) :
    t.locate sibling = .ok l ↔ Fits sibling ∧ l = d ++ [file] := by
  obtain ⟨d', same, directory, -, front⟩ := exists_directory named located
  obtain ⟨rfl, -⟩ := List.append_inj' same rfl
  have last : Path.fileName? sibling = some file := by
    rw [Path.fileName?_eq_some_iff, beside.parts, List.getLast?_concat]
    exact ⟨rfl, plain⟩
  have clean : '\x00' ∉ sibling.toList := fun nul ↦ by
    obtain slash | nul | nul := beside.characters _ nul
    · cases slash
    · exact (locate_eq_ok_iff.mp located).1.1 nul
    · exact printed nul
  have nonempty : sibling ≠ "" := by
    rintro rfl
    cases last
  have entered : t.enter d file = .ok l ↔
      file.utf8ByteSize ≤ longestName ∧ l = d ++ [file] := by
    simp [enter_eq_ok_iff, directory, plain]
  have onward : (Path.parts sibling).foldlM t.enter
      (if Path.isAbsolute sibling then [] else t.current) = .ok l ↔
      t.enter d file = .ok l := by
    rw [beside.parts, beside.absolute, foldlM_enter_concat, front]
    simp
  have fits : Fits sibling ↔
      sibling.utf8ByteSize < pathLimit ∧ file.utf8ByteSize ≤ longestName := by
    simp [Fits, last]
  rw [locate_eq_ok_iff, onward, entered, fits, and_iff_right clean, and_iff_right nonempty,
    and_assoc]

/-! ### Removing and moving files -/

theorem sizeOf_of_file (found : t.find path = .ok (l, .file content isExecutable)) :
    t.sizeOf path = .ok content.size := by
  rw [FileTree.sizeOf, found]
  rfl

theorem rename_of_file (found : t.find source = .ok (s, .file content isExecutable))
    (located : t.locate target = .ok l) (free : t.get? l = none)
    (room : t.get? l.dropLast = some .directory) : t.rename source target = .ok (t.move s l) := by
  have other : s ≠ l := by
    rintro rfl
    rw [(find_eq_ok_iff.mp found).2.1] at free
    cases free
  rw [rename, found, located]
  simp [bind, Except.bind, other, free, hasDirectory_iff.mpr room, pure, Except.pure]

theorem removeFile_of_file (found : t.find path = .ok (l, .file content isExecutable)) :
    t.removeFile path = .ok (t.erase l) := by
  rw [removeFile, found]
  rfl

theorem sameDirectories_erase (leaf : t.get? l ≠ some .directory) :
    SameDirectories t (t.erase l) := by
  refine ⟨rfl, fun k ↦ ?_⟩
  rw [get?_erase (ne_nil_of_get? leaf)]
  split
  · next h => simp [h, leaf]
  · rfl

theorem Coherent.erase (coherent : t.Coherent) (leaf : t.get? l ≠ some .directory) :
    (t.erase l).Coherent := by
  intro k name e found
  rw [get?_erase (ne_nil_of_get? leaf)] at found
  split at found
  · cases found
  · exact ((sameDirectories_erase leaf).directory_iff k).mpr (coherent k name e found)

theorem sameDirectories_move (coherent : t.Coherent) (leaf : t.get? s ≠ some .directory)
    (free : t.get? l = none) : SameDirectories t (t.move s l) := by
  have below := ne_nil_of_get?_eq_none free
  refine ⟨rfl, fun k ↦ ?_⟩
  rw [get?_move coherent leaf below]
  split
  · next h => simp [h, leaf, free]
  · split
    · next h => simp [h, leaf]
    · rfl

theorem Coherent.move (coherent : t.Coherent) (leaf : t.get? s ≠ some .directory)
    (free : t.get? l = none) (room : t.get? l.dropLast = some .directory) :
    (t.move s l).Coherent := by
  have below := ne_nil_of_get?_eq_none free
  intro k name e found
  rw [(sameDirectories_move coherent leaf free).directory_iff]
  rw [get?_move coherent leaf below] at found
  split at found
  · next h => rwa [← h, List.dropLast_concat] at room
  · split at found
    · cases found
    · exact coherent k name e found

end LanguageHub.FileTree
