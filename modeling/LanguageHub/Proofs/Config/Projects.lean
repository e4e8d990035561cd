import LanguageHub.Config.Files
import LanguageHub.Proofs.FileTree.Finding
import LanguageHub.Proofs.Path.Upward

/-!
# The configuration of the project around a path

The search goes upwards from a path, as long as there is a parent, and ends at the first directory
that has a configuration file of a project. So it finds the deepest such directory among the one
that the path leads to and those above it, whether or not these are there
(`findProject?_nearest`).
-/

namespace LanguageHub.Config

open FileTree LanguageHub.Path

variable {t : FileTree} {start directory path : String}

/-- The path of the configuration file of a project in a directory. -/
def projectFile (directory : String) : String := join (join directory projectDirectory) fileName

theorem parts_projectFile (directory : String) :
    parts (projectFile directory) = parts directory ++ [projectDirectory, fileName] := by
  rw [projectFile, parts_join _ (by decide) (by decide), parts_join _ (by decide) (by decide),
    List.append_assoc]
  rfl

theorem isAbsolute_projectFile (directory : String) :
    isAbsolute (projectFile directory) = isAbsolute directory := by
  rw [projectFile, isAbsolute_join _ (by decide), isAbsolute_join _ (by decide)]

theorem asksDirectory_join_fileName (directory : String) :
    asksDirectory (join directory fileName) = false := by
  rw [asksDirectory, getLast?_splitOn_join _ (by decide)]
  decide

theorem asksDirectory_projectFile (directory : String) :
    asksDirectory (projectFile directory) = false := asksDirectory_join_fileName _

/-- There is a regular file where the configuration of a project in a directory is looked for, and
the path to it is not too long. -/
structure HasProject (t : FileTree) (directory : String) : Prop where
  followable : Followable (projectFile directory)
  file : ∃ content isExecutable, t.get? (t.origin directory ++ parts directory ++
    [projectDirectory, fileName]) = some (.file content isExecutable)

/-- Below a path whose parts are names, the configuration of a project is found where it is. -/
theorem isFile_projectFile_iff (coherent : t.Coherent) (plain : ".." ∉ parts directory) :
    t.isFile (projectFile directory) ↔ HasProject t directory := by
  have down : ".." ∉ parts (projectFile directory) := by
    rw [parts_projectFile, List.mem_append, not_or]
    exact ⟨plain, by decide⟩
  have same : t.origin (projectFile directory) = t.origin directory := by
    rw [origin, origin, isAbsolute_projectFile]
  rw [isFile_iff]
  simp only [coherent.find_eq_ok_iff_of_plain down, asksDirectory_projectFile, same,
    parts_projectFile, or_true, and_true, ← List.append_assoc]
  constructor
  · rintro ⟨l, content, isExecutable, followable, rfl, found⟩
    exact ⟨followable, content, isExecutable, found⟩
  · rintro ⟨followable, content, isExecutable, found⟩
    exact ⟨_, content, isExecutable, followable, rfl, found⟩

/-! ### The search -/

/-- As many paths upwards as a path has characters are all of them. -/
theorem ancestors_of_length_le {n : Nat} (enough : start.length ≤ n) :
    ancestors n start = start :: ((parent? start).map fun above ↦
      ancestors above.length above).getD [] := by
  induction n using Nat.strong_induction_on generalizing start with
  | _ n ih =>
    cases parent : parent? start with
    | none => cases n <;> simp [ancestors, parent]
    | some above =>
      have shorter := (isParent_of_parent? parent).shorter
      cases n with
      | zero => omega
      | succ n =>
        rw [ancestors, parent, Option.map_some, Option.getD_some]
        dsimp only
        rw [ih n (by omega) (by omega), ih above.length (by omega) le_rfl]

/-- One round of the search: the configuration in this directory, or else that found from its
parent. -/
theorem findProject?_eq (t : FileTree) (start : String) :
    findProject? t start =
      if t.isFile (projectFile start) then some (projectFile start)
      else (parent? start).bind (findProject? t) := by
  have files (path : String) : findProject? t path =
      ((ancestors path.length path).map projectFile).find? t.isFile := rfl
  rw [files, ancestors_of_length_le le_rfl, List.map_cons, List.find?_cons]
  split
  · next found => rw [if_pos found]
  · next other =>
    rw [if_neg (by rw [other]; simp)]
    cases parent? start <;> rfl

/-- The search ends at the nearest directory that has a configuration. -/
theorem findProject?_eq_some_iff : findProject? t start = some path ↔
    ∃ directory, Nearest (fun d ↦ t.isFile (projectFile d)) start directory ∧
      path = projectFile directory := by
  induction h : start.length using Nat.strong_induction_on generalizing start with
  | _ n ih =>
    rw [findProject?_eq]
    split
    · next here =>
      simp only [nearest_iff_of_holds (P := fun d ↦ t.isFile (projectFile d)) here,
        exists_eq_left, Option.some.injEq]
      exact eq_comm
    · next elsewhere =>
      simp only [nearest_iff_of_not (P := fun d ↦ t.isFile (projectFile d)) elsewhere,
        Option.bind_eq_some_iff]
      constructor
      · rintro ⟨above, parent, found⟩
        have shorter := (isParent_of_parent? parent).shorter
        obtain ⟨directory, nearest, rfl⟩ := (ih above.length (by omega) rfl).mp found
        exact ⟨directory, ⟨above, parent, nearest⟩, rfl⟩
      · rintro ⟨directory, ⟨above, parent, nearest⟩, rfl⟩
        have shorter := (isParent_of_parent? parent).shorter
        exact ⟨above, parent, (ih above.length (by omega) rfl).mpr ⟨directory, nearest, rfl⟩⟩

/-- A directory upwards has a configuration that is found if it has one. -/
private theorem isFile_projectFile_iff_of_upward (coherent : t.Coherent)
    (plain : ".." ∉ parts start) (upward : Upward start directory) :
    t.isFile (projectFile directory) ↔ HasProject t directory :=
  isFile_projectFile_iff coherent fun up ↦ plain (upward.parts_prefix.1.subset up)

/-- From a path without double dots, the configuration that is found is that of the nearest
directory upwards that has one, and none is found exactly if there is no such directory. Upwards
there are the directories that the first parts of the path lead to from where the path begins, any
number of parts. -/
theorem findProject?_nearest (coherent : t.Coherent) (plain : ".." ∉ parts start) :
    (∀ path, findProject? t start = some path ↔
      ∃ directory, Nearest (HasProject t) start directory ∧ path = projectFile directory) ∧
    (findProject? t start = none ↔ ∀ directory, Upward start directory →
      ¬ HasProject t directory) ∧
    (∀ directory, Upward start directory →
      parts directory <+: parts start ∧ t.origin directory = t.origin start) ∧
    ∀ names, names <+: parts start → ∃ directory, Upward start directory ∧
      parts directory = names := by
  have same (directory : String) (upward : Upward start directory) :
      t.isFile (projectFile directory) ↔ HasProject t directory :=
    isFile_projectFile_iff_of_upward coherent plain upward
  have found (path : String) : findProject? t start = some path ↔
      ∃ directory, Nearest (HasProject t) start directory ∧ path = projectFile directory := by
    rw [findProject?_eq_some_iff]
    simp only [nearest_congr same]
  refine ⟨found, ?_, fun directory upward ↦ ?_, fun names ↦ exists_upward⟩
  · rw [Option.eq_none_iff_forall_ne_some]
    constructor
    · intro none directory upward project
      obtain ⟨nearest, h⟩ := exists_nearest upward project
      exact none _ ((found _).mpr ⟨nearest, h, rfl⟩)
    · intro none path some
      obtain ⟨directory, nearest, -⟩ := (found path).mp some
      exact none directory nearest.upward nearest.holds
  · obtain ⟨first, absolute⟩ := upward.parts_prefix
    exact ⟨first, by rw [origin, origin, absolute]⟩

/-- A tree in which the configuration of a project stands two directories above the deepest one: in
between there is a directory of its name, and in the deepest one the place of it is empty. -/
def nestedProjects : FileTree :=
  { entries := [
      (["work"], .directory), (["work", ".polyglot"], .directory),
      (["work", ".polyglot", "config.toml"], .file ByteArray.empty false),
      (["work", "in"], .directory), (["work", "in", ".polyglot"], .directory),
      (["work", "in", ".polyglot", "config.toml"], .directory),
      (["work", "in", "deep"], .directory), (["work", "in", "deep", ".polyglot"], .directory)] }

/-- Neither stops the search, which begins at a path that does not exist. -/
theorem findProject?_nestedProjects :
    nestedProjects.Coherent ∧ ".." ∉ parts "/work/in/deep/./missing/" ∧
      findProject? nestedProjects "/work/in/deep/./missing/" =
        some "/work/.polyglot/config.toml" ∧
      ∃ directory, Nearest (HasProject nestedProjects) "/work/in/deep/./missing/" directory ∧
        "/work/.polyglot/config.toml" = projectFile directory := by
  have coherent : nestedProjects.Coherent := coherent_of_entries (by decide +kernel)
  have plain : ".." ∉ parts "/work/in/deep/./missing/" := by decide +kernel
  have found : findProject? nestedProjects "/work/in/deep/./missing/" =
      some "/work/.polyglot/config.toml" := by decide +kernel
  exact ⟨coherent, plain, found, ((findProject?_nearest coherent plain).1 _).mp found⟩

end LanguageHub.Config
