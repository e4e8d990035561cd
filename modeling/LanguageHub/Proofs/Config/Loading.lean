import LanguageHub.Proofs.Config.Layering
import LanguageHub.Proofs.Config.Projects
import LanguageHub.Proofs.FileTree.Finding
import LanguageHub.Proofs.FileTree.Growing

/-!
# Loading a configuration again

Loading makes the directory and the file of a user's configuration where they are missing and leaves
everything else as it is (`Prepared`). Loading again changes nothing more and comes to the same,
unless the directories that were made let the path lead to a file that was there (`load_again`).
-/

namespace LanguageHub

namespace ConfigFault

/-- The kinds of faults. -/
inductive Kind where
  | notFound
  | createDefault
  | parse
  | invalid
  | io
  deriving DecidableEq

/-- What kind of fault there is. -/
def kind : ConfigFault → Kind
  | notFound .. => .notFound
  | createDefault .. => .createDefault
  | parse .. => .parse
  | invalid .. => .invalid
  | io .. => .io

end ConfigFault

namespace Config

open FileTree LanguageHub.Path

variable {t u : FileTree} {directory : String} {project? : Option String} {l : Location}
  {content : ByteArray} {isExecutable : Bool} {done : Except ConfigFault Unit}
  {result : Except ConfigFault Config} {fault : FileFault}

/-- Two results that are the same configuration, or faults of one kind. -/
inductive Alike : Except ConfigFault Config → Except ConfigFault Config → Prop where
  | loaded (c : Config) : Alike (.ok c) (.ok c)
  | failed {first again : ConfigFault} (same : first.kind = again.kind) :
      Alike (.error first) (.error again)

theorem Alike.refl : (result : Except ConfigFault Config) → Alike result result
  | .ok c => .loaded c
  | .error _ => .failed rfl

/-- The path of the configuration file of a user. -/
def userFile (directory : String) : String := join directory fileName

/-- The file that is made when a user has no configuration. -/
def newFile : FileEntry := .file defaultContent.toUTF8 false

/-! ### Preparing the directory -/

/-- Make the directory of a user's configuration unless its path leads somewhere. -/
def prepareDirectory (t : FileTree) (directory : String) : Except FileFault Unit × FileTree :=
  if t.contains directory then (.ok (), t) else t.createDirectories directory

theorem extends_of_prepareDirectory {made : Except FileFault Unit}
    (h : prepareDirectory t directory = (made, u)) : Extends t u directory := by
  rw [prepareDirectory] at h
  split at h
  · cases h
    exact .refl t directory
  · exact (createDirectories_eq_iff.mp h).extended

/-- The path to a directory that was prepared leads somewhere, unless it is empty. -/
theorem contains_of_prepareDirectory (h : prepareDirectory t directory = (.ok (), u)) :
    u.contains directory ∨ directory = "" := by
  rw [prepareDirectory] at h
  split at h
  · next there =>
    cases h
    exact .inl there
  · obtain empty | made := (createDirectories_eq_iff.mp h).isDirectory
    · exact .inr empty
    · exact .inl (contains_of_isDirectory made)

theorem prepareDirectory_of_contains (there : t.contains directory ∨ directory = "") :
    prepareDirectory t directory = (.ok (), t) := by
  rw [prepareDirectory]
  split
  · rfl
  · next missing =>
    rw [there.resolve_left missing]
    exact createDirectories_eq_iff.mpr .nowhere

/-! ### Preparing the file -/

theorem asksDirectory_userFile (directory : String) : asksDirectory (userFile directory) = false :=
  asksDirectory_join_fileName directory

/-- A new file is put in a place where there was nothing. -/
theorem exists_of_write_userFile (free : t.contains (userFile directory) = false)
    (written : t.write (userFile directory) defaultContent.toUTF8 = .ok u) :
    ∃ l, t.locate (userFile directory) = .ok l ∧ t.get? l = none ∧ u = t.put l newFile ∧
      Grows t u := by
  obtain ⟨l, located, empty, rfl⟩ := exists_of_write (asksDirectory_userFile _) free written
  exact ⟨l, located, empty, rfl, grows_put empty⟩

/-- How the directory and the file of a user's configuration are prepared, and what comes of it. -/
inductive Prepares (t : FileTree) (directory : String) :
    Except ConfigFault Unit → FileTree → Prop where
  | noDirectory {fault : FileFault} {u : FileTree} (missing : t.contains directory = false)
      (failed : t.createDirectories directory = (.error fault, u)) :
      Prepares t directory (.error (.io directory fault.message)) u
  | found {u : FileTree} (made : prepareDirectory t directory = (.ok (), u))
      (there : u.contains (userFile directory)) : Prepares t directory (.ok ()) u
  | written {u v : FileTree} (made : prepareDirectory t directory = (.ok (), u))
      (free : u.contains (userFile directory) = false)
      (written : u.write (userFile directory) defaultContent.toUTF8 = .ok v) :
      Prepares t directory (.ok ()) v
  | unwritten {fault : FileFault} {u : FileTree}
      (made : prepareDirectory t directory = (.ok (), u))
      (free : u.contains (userFile directory) = false)
      (failed : u.write (userFile directory) defaultContent.toUTF8 = .error fault) :
      Prepares t directory (.error (.createDefault (userFile directory) fault.message)) u

theorem prepare_eq_iff : prepare t directory = (done, u) ↔ Prepares t directory done u := by
  rw [prepare, ← prepareDirectory, ← userFile]
  constructor
  · intro h
    split at h
    · next failed =>
      cases h
      rw [prepareDirectory] at failed
      split at failed
      · cases failed
      · next missing => exact .noDirectory (Bool.eq_false_iff.mpr missing) failed
    · next made =>
      split at h
      · next there =>
        cases h
        exact .found made there
      · next free =>
        have free := Bool.eq_false_iff.mpr free
        split at h
        · next written =>
          cases h
          exact .written made free written
        · next failed =>
          cases h
          exact .unwritten made free failed
  · intro prepares
    cases prepares with
    | noDirectory missing failed => rw [prepareDirectory, missing, if_neg (by simp), failed]
    | found made there => simp only [made, there, if_true]
    | written made free written => simp only [made, free, written, Bool.false_eq_true, if_false]
    | unwritten made free failed => simp only [made, free, failed, Bool.false_eq_true, if_false]

/-- Preparing the files comes first, and the layers are read from what there is then. -/
theorem load_eq_iff : load t directory project? = (result, u) ↔
    ∃ done, Prepares t directory done u ∧
      result = done >>= fun _ ↦ readLayers u directory project? := by
  rw [load]
  constructor
  · intro loaded
    split at loaded
    · next failed =>
      cases loaded
      exact ⟨_, prepare_eq_iff.mp failed, rfl⟩
    · next made =>
      cases loaded
      exact ⟨_, prepare_eq_iff.mp made, rfl⟩
  · rintro ⟨done, prepares, rfl⟩
    rw [prepare_eq_iff.mpr prepares]
    cases done <;> rfl

/-! ### What is left as it was -/

/-- `u` is `t` with what was missing of the directory of a user's configuration, and with the file
if nothing was found in its place. -/
structure Prepared (t u : FileTree) (directory : String) : Prop where
  grows : Grows t u
  new : ∀ l e, t.get? l = none → u.get? l = some e →
    (e = .directory ∧ ∃ above, Upward directory above ∧ u.locate above = .ok l) ∨
      e = newFile ∧ u.locate (userFile directory) = .ok l ∧
        t.contains (userFile directory) = false

theorem prepared_of_extends (made : Extends t u directory) : Prepared t u directory :=
  ⟨made.grows, fun l e free found ↦ .inl (made.new l e free found)⟩

/-- What is prepared is left as it was, apart from what was missing. -/
theorem Prepares.prepared (prepares : Prepares t directory done u) :
    Prepared t u directory := by
  cases prepares with
  | noDirectory _ failed => exact prepared_of_extends (createDirectories_eq_iff.mp failed).extended
  | found made | unwritten made => exact prepared_of_extends (extends_of_prepareDirectory made)
  | written made free written =>
    obtain ⟨grows, new⟩ := extends_of_prepareDirectory made
    obtain ⟨k, located, empty, rfl, more⟩ := exists_of_write_userFile free written
    refine ⟨grows.trans more, fun l e missing found ↦ ?_⟩
    rw [get?_put (ne_nil_of_get?_eq_none empty)] at found
    split at found
    · next same =>
      subst same
      cases found
      refine .inr ⟨rfl, more.locate located, Bool.eq_false_iff.mpr fun there ↦ ?_⟩
      rw [grows.contains there] at free
      cases free
    · obtain ⟨rfl, above, upward, located⟩ := new l e missing found
      exact .inl ⟨rfl, above, upward, more.locate located⟩

/-- When there is a new file, the preparation has come to its end. -/
theorem Prepares.eq_ok_of_file (prepares : Prepares t directory done u)
    (free : t.get? l = none) (there : u.get? l = some (.file content isExecutable)) :
    done = .ok () := by
  cases prepares with
  | found | written => rfl
  | noDirectory _ failed =>
    cases ((createDirectories_eq_iff.mp failed).extended.new l _ free there).1
  | unwritten made => cases ((extends_of_prepareDirectory made).new l _ free there).1

/-! ### Preparing again -/

/-- There is nothing to prepare. -/
def Ready (t : FileTree) (directory : String) : Prop :=
  (t.contains directory ∨ directory = "") ∧ t.contains (userFile directory)

theorem Ready.prepares (ready : Ready t directory) : Prepares t directory (.ok ()) t :=
  .found (prepareDirectory_of_contains ready.1) ready.2

/-- After the preparation there is nothing to prepare. -/
theorem Prepares.ready (prepares : Prepares t directory (.ok ()) u) : Ready u directory := by
  cases prepares with
  | found made there => exact ⟨contains_of_prepareDirectory made, there⟩
  | @written v _ made free written =>
    obtain ⟨l, located, empty, rfl, more⟩ := exists_of_write_userFile free written
    have there : (v.put l newFile).get? l = some newFile := by
      rw [get?_put (ne_nil_of_get?_eq_none empty), if_pos rfl]
    exact ⟨(contains_of_prepareDirectory made).imp_left more.contains, contains_iff.mpr
      ⟨l, _, find_eq_ok_iff.mpr ⟨more.locate located, there, .inr (asksDirectory_userFile _)⟩⟩⟩

/-- Where the directory would be there is a file, to which a path with double dots leads by the
directories that were made. -/
structure Misled (t u : FileTree) (directory : String) : Prop where
  up : ".." ∈ parts directory
  missing : t.contains directory = false
  file : u.isFile directory

/-- A path that leads to a directory, or nowhere because it is empty, does not mislead. -/
theorem not_misled {v : FileTree} (made : prepareDirectory t directory = (.ok (), v))
    (more : Grows v u) : ¬ Misled t u directory := by
  rintro ⟨-, missing, file⟩
  obtain ⟨l, content, isExecutable, found⟩ := isFile_iff.mp file
  rw [prepareDirectory, missing, if_neg Bool.false_ne_true] at made
  obtain empty | there := (createDirectories_eq_iff.mp made).isDirectory
  · exact (locate_eq_ok_iff.mp (find_eq_ok_iff.mp found).1).1.2.1 empty
  · obtain ⟨k, directory⟩ := isDirectory_iff.mp (more.isDirectory there)
    cases found.symm.trans directory

/-- Below a file no file is made. -/
theorem prepares_of_isFile (there : t.isFile directory) :
    ∃ reason, Prepares t directory (.error (.createDefault (userFile directory) reason)) t := by
  obtain ⟨k, content, isExecutable, found⟩ := isFile_iff.mp there
  obtain ⟨above, file, -⟩ := find_eq_ok_iff.mp found
  have nowhere (l : Location) : t.locate (userFile directory) ≠ .ok l := by
    intro located
    have onward := (locate_eq_ok_iff.mp located).2
    rw [userFile, parts_join _ (by decide) (by decide), isAbsolute_join _ (by decide),
      foldlM_enter_concat, (locate_eq_ok_iff.mp above).2] at onward
    obtain ⟨_, same, entered⟩ := onward
    cases same
    cases file.symm.trans (enter_eq_ok_iff.mp entered).1
  have made := prepareDirectory_of_contains (.inl (contains_of_isFile there))
  have free : t.contains (userFile directory) = false := by
    rw [Bool.eq_false_iff, ne_eq, contains_iff]
    rintro ⟨l, e, found⟩
    exact nowhere l (find_eq_ok_iff.mp found).1
  cases written : t.write (userFile directory) defaultContent.toUTF8 with
  | ok u =>
    obtain ⟨l, located, -⟩ := exists_of_write_userFile free written
    exact absurd located (nowhere l)
  | error fault => exact ⟨_, .unwritten made free written⟩

/-- If the directory could not be made and its path leads somewhere then, it leads to a file, by
double dots. -/
theorem misled_of_contains (coherent : t.Coherent) (missing : t.contains directory = false)
    (failed : t.createDirectories directory = (.error fault, u))
    (there : u.contains directory) : Misled t u directory := by
  have creates := createDirectories_eq_iff.mp failed
  obtain ⟨l, e, found⟩ := contains_iff.mp there
  cases e with
  | directory =>
    obtain ⟨fault', again⟩ := creates.again
    cases (again.unique (creates_of_isDirectory (.inr (isDirectory_iff.mpr ⟨l, found⟩)))).1
  | file content isExecutable =>
    refine ⟨?_, missing, isFile_iff.mpr ⟨l, content, isExecutable, found⟩⟩
    by_contra plain
    obtain ⟨located, there, shape⟩ := find_eq_ok_iff.mp found
    obtain ⟨followable, rfl⟩ := followable_of_locate plain located
    -- only directories are new, so the file was there, and the path led to it
    have old : t.get? (u.origin directory ++ parts directory) =
        some (.file content isExecutable) := by
      cases before : t.get? (u.origin directory ++ parts directory) with
      | none => cases (creates.extended.new _ _ before there).1
      | some e => exact (creates.extended.grows.kept _ _ before).symm.trans there
    have origin : u.origin directory = t.origin directory := by
      rw [origin, origin, creates.extended.grows.current]
    have found := (coherent.find_eq_ok_iff_of_plain plain).mpr
      ⟨followable, congrArg (· ++ _) origin, old, shape⟩
    rw [contains_iff.mpr ⟨_, _, found⟩] at missing
    cases missing

/-- What is prepared again stays as it is. It goes as it went, unless the path was misled: then the
file is what cannot be made, and no longer the directory. -/
theorem Prepares.again (coherent : t.Coherent) (prepares : Prepares t directory done u) :
    ∃ done', Prepares u directory done' u ∧
      (¬ Misled t u directory ∧ (done' = done ∨ ∃ reason reason',
          done = .error (.io directory reason) ∧ done' = .error (.io directory reason')) ∨
        Misled t u directory ∧ ∃ reason reason', done = .error (.io directory reason) ∧
          done' = .error (.createDefault (userFile directory) reason')) := by
  cases prepares with
  | noDirectory missing failed =>
    by_cases there : u.contains directory
    · have misled := misled_of_contains coherent missing failed there
      obtain ⟨reason', again⟩ := prepares_of_isFile misled.file
      exact ⟨_, again, .inr ⟨misled, _, reason', rfl, rfl⟩⟩
    · obtain ⟨fault', again⟩ := createDirectories_fails_again failed
      have nowhere : ¬ Misled t u directory := fun misled ↦ there (contains_of_isFile misled.file)
      exact ⟨_, .noDirectory (Bool.eq_false_iff.mpr there) again,
        .inl ⟨nowhere, .inr ⟨_, _, rfl, rfl⟩⟩⟩
  | found made there =>
    exact ⟨_, (Prepares.found made there).ready.prepares,
      .inl ⟨not_misled made (.refl u), .inl rfl⟩⟩
  | written made free written =>
    obtain ⟨l, -, -, -, more⟩ := exists_of_write_userFile free written
    exact ⟨_, (Prepares.written made free written).ready.prepares,
      .inl ⟨not_misled made more, .inl rfl⟩⟩
  | unwritten made free failed =>
    have again := prepareDirectory_of_contains (contains_of_prepareDirectory made)
    exact ⟨_, .unwritten again free failed, .inl ⟨not_misled made (.refl u), .inl rfl⟩⟩

/-! ### Remarks alone -/

/-- A text of remarks that sets nothing. -/
structure Remarks (document : String) : Prop where
  blank : hasContent document = false
  parsed : Toml.parse document = some (.table [])

/-- Whether there is no more than remarks is read off the characters of a text. -/
theorem remarks_of_eq_ofList {document : String} {cs : List Char}
    (characters : document = String.ofList cs) (blank : (Text.lines cs).any isSubstantial = false)
    (parsed : (Toml.readStatements ((Toml.dropMark cs).length + 1) (Toml.dropMark cs)).map
      List.isEmpty = some true) : Remarks document := by
  refine ⟨by rw [hasContent, characters, String.toList_ofList, blank], ?_⟩
  obtain ⟨statements, read, none⟩ := Option.map_eq_some_iff.mp parsed
  rw [List.isEmpty_iff] at none
  subst none
  rw [Toml.parse, characters, String.toList_ofList]
  simp only [bind, read]
  rfl

set_option maxRecDepth 8000 in
theorem remarks_defaultContent : Remarks defaultContent :=
  remarks_of_eq_ofList (by rw [defaultContent]) (by decide +kernel) (by decide +kernel)

theorem remarks_empty : Remarks "" := ⟨by decide, rfl⟩

theorem Remarks.overlay {document : String} (remarks : Remarks document) :
    overlay {} document = .ok {} := overlay_empty (by decide) remarks.parsed

/-- If the file of the user holds remarks, the configuration is that of the project. -/
theorem readLayers_of_remarks {document : String} (remarks : Remarks document)
    (read : t.readText (userFile directory) = .ok document) :
    readLayers t directory project? = match project?.bind (findProject? t) with
      | none => validated {}
      | some path => readFile t path >>= overlayFile {} path >>= validated := by
  have read : readFile t (join directory fileName) = .ok document := by
    rw [readFile]
    exact congrArg _ read
  simp only [readLayers, read, bind, Except.bind, remarks.blank, Bool.false_eq_true, if_false]
  cases project?.bind (findProject? t) with
  | none => rfl
  | some path => cases h : readFile t path <;> simp [h]

theorem isFile_of_findProject? {start path : String} (found : findProject? t start = some path) :
    t.isFile path := List.find?_some found

/-- In the file of the user, all remarks say the same. -/
theorem readLayers_put_remarks {document other : String} (remarks : Remarks document)
    (remarks' : Remarks other) (located : u.locate (userFile directory) = .ok l)
    (there : u.get? l = some (.file document.toUTF8 isExecutable)) :
    readLayers (u.put l (.file other.toUTF8 isExecutable)) directory project? =
      readLayers u directory project? := by
  have own : u.find (userFile directory) = .ok (l, .file document.toUTF8 isExecutable) :=
    find_eq_ok_iff.mpr ⟨located, there, .inr (asksDirectory_userFile _)⟩
  have search : findProject? (u.put l (.file other.toUTF8 isExecutable)) = findProject? u := by
    funext start
    rw [findProject?, findProject?, isFile_put_file there]
  rw [readLayers_of_remarks remarks (readText_of_text own),
    readLayers_of_remarks remarks' (readText_of_text (find_put_file_self there own)), search]
  cases projectFile : project?.bind (findProject? u) with
  | none => rfl
  | some path =>
    obtain ⟨start, -, projectFile⟩ := Option.bind_eq_some_iff.mp projectFile
    obtain ⟨k, content, x, project⟩ := isFile_iff.mp (isFile_of_findProject? projectFile)
    dsimp only
    rw [readFile, readFile]
    obtain rfl | different := eq_or_ne k l
    · -- the file of the user is that of the project as well
      cases there.symm.trans (find_eq_ok_iff.mp project).2.1
      rw [readText_of_text project, readText_of_text (find_put_file_self there project)]
      simp only [Except.mapError, bind, Except.bind, overlayFile, remarks.overlay, remarks'.overlay]
    · rw [readText_of_file project, readText_of_file (find_put_file_of_ne there project different)]

/-- With an empty file in place of the new one, the same is loaded. -/
theorem load_put_empty (ready : Ready u directory) (located : u.locate (userFile directory) = .ok l)
    (there : u.get? l = some (.file defaultContent.toUTF8 isExecutable)) :
    load (u.put l (.file .empty isExecutable)) directory project? =
      (readLayers u directory project?, u.put l (.file .empty isExecutable)) := by
  have empty : ByteArray.empty = "".toUTF8 := by decide
  have same := @readLayers_put_remarks u directory project? l isExecutable _ _
    remarks_defaultContent remarks_empty located there
  have ready : Ready (u.put l (.file "".toUTF8 isExecutable)) directory := by
    rw [Ready, contains_put_file there]
    exact ready
  rw [empty]
  exact load_eq_iff.mpr ⟨.ok (), ready.prepares, same.symm⟩

/-! ### Loading again -/

/-- Loading makes what is missing of the directory and the file of a user's configuration, and
changes nothing else. Loading at once again changes nothing, and it gives the same configuration or
a fault of the same kind, unless the directories that were made let the path lead to a file by
double dots: then the first fault is that of the directory, and the second one is that of the file.
A new file counts as an empty one. -/
theorem load_again (coherent : t.Coherent) (first : load t directory project? = (result, u)) :
    Prepared t u directory ∧
    (∃ again, load u directory project? = (again, u) ∧
      (¬ Misled t u directory → Alike result again) ∧
      (Misled t u directory → ∃ reason reason', result = .error (.io directory reason) ∧
        again = .error (.createDefault (userFile directory) reason'))) ∧
    ∀ l content isExecutable, t.get? l = none → u.get? l = some (.file content isExecutable) →
      load (u.put l (.file .empty isExecutable)) directory project? =
        (result, u.put l (.file .empty isExecutable)) := by
  obtain ⟨done, prepares, rfl⟩ := load_eq_iff.mp first
  obtain ⟨done', again, outcome⟩ := prepares.again coherent
  refine ⟨prepares.prepared, ⟨_, load_eq_iff.mpr ⟨done', again, rfl⟩, ?_⟩,
    fun l content isExecutable free there ↦ ?_⟩
  · obtain ⟨straight, outcome⟩ | ⟨misled, reason, reason', rfl, rfl⟩ := outcome
    · refine ⟨fun _ ↦ ?_, fun misled ↦ absurd misled straight⟩
      obtain rfl | ⟨reason, reason', rfl, rfl⟩ := outcome
      · exact .refl _
      · exact .failed rfl
    · exact ⟨fun straight ↦ absurd misled straight, fun _ ↦ ⟨reason, reason', rfl, rfl⟩⟩
  · cases prepares.eq_ok_of_file free there
    obtain ⟨directory, -⟩ | ⟨new, located, -⟩ := prepares.prepared.new l _ free there
    · cases directory
    · rw [newFile, FileEntry.file.injEq] at new
      exact load_put_empty prepares.ready located (new.1 ▸ there)

/-- A tree with one file. -/
def oneFile : FileTree := { entries := [(["notes"], .file .empty false)] }

theorem coherent_oneFile : oneFile.Coherent := coherent_of_entries (by decide +kernel)

/-- Where there is no configuration, the defaults are loaded, as they are from an empty file, and
they are loaded again. -/
theorem load_again_oneFile :
    ∃ u again, load oneFile "/home/settings" none = (.ok {}, u) ∧
      load u "/home/settings" none = (again, u) ∧ Alike (.ok {}) again := by
  obtain ⟨-, ⟨again, second, alike, -⟩, empty⟩ := load_again coherent_oneFile
    (Prod.eta (load oneFile "/home/settings" none)).symm
  have file : (load oneFile "/home/settings" none).2.isFile "/home/settings/config.toml" := by
    decide +kernel
  have place : (load oneFile "/home/settings" none).2.locate "/home/settings/config.toml" =
      .ok ["home", "settings", "config.toml"] := by decide +kernel
  obtain ⟨l, content, isExecutable, found⟩ := isFile_iff.mp file
  obtain ⟨located, there, -⟩ := find_eq_ok_iff.mp found
  cases place.symm.trans located
  have defaults : ∀ x, (load ((load oneFile "/home/settings" none).2.put
      ["home", "settings", "config.toml"] (.file .empty x)) "/home/settings" none).1 = .ok {} := by
    decide +kernel
  have result := (congrArg Prod.fst (empty _ _ _ rfl there)).symm.trans (defaults isExecutable)
  dsimp only at result
  have straight : ¬ Misled oneFile (load oneFile "/home/settings" none).2 "/home/settings" :=
    fun misled ↦ absurd misled.up (by decide)
  exact ⟨(load oneFile "/home/settings" none).2, again, Prod.ext result rfl, second,
    result ▸ alike straight⟩

/-- The directory `new` is missing at first, and the path leads nowhere. It is made, and the path
leads to the file. -/
theorem not_alike_oneFile :
    oneFile.Coherent ∧
      (load oneFile "/new/../notes" none).1 =
        .error (.io "/new/../notes" "File exists (os error 17)") ∧
      (load (load oneFile "/new/../notes" none).2 "/new/../notes" none).1 =
        .error (.createDefault "/new/../notes/config.toml" "Not a directory (os error 20)") ∧
      ¬ Alike (load oneFile "/new/../notes" none).1
        (load (load oneFile "/new/../notes" none).2 "/new/../notes" none).1 := by
  have first : (load oneFile "/new/../notes" none).1 =
      .error (.io "/new/../notes" "File exists (os error 17)") := by decide +kernel
  have second : (load (load oneFile "/new/../notes" none).2 "/new/../notes" none).1 =
      .error (.createDefault "/new/../notes/config.toml" "Not a directory (os error 20)") := by
    decide +kernel
  refine ⟨coherent_oneFile, first, second, fun alike ↦ ?_⟩
  rw [first, second] at alike
  cases alike with
  | failed same => cases same

end Config

end LanguageHub
