import LanguageHub.Proofs.FileTree.Finding
import LanguageHub.Proofs.Path.Upward

/-!
# Directories that are made

Making a directory with those above it adds directories and changes nothing else, whether or not it
succeeds (`Creates.extended`). Doing it once more adds nothing: it succeeds if it did before
(`createDirectories_again`), and it fails if it failed before (`createDirectories_fails_again`).
-/

namespace LanguageHub.FileTree

variable {t u v : FileTree} {path above : String} {l k : Location} {e : FileEntry}
  {fault : FileFault} {result : Except FileFault Unit} {levels : Nat}

/-! ### Trees that grow -/

/-- Every entry of `t` is in `u`, which may have more of them. -/
structure Grows (t u : FileTree) : Prop where
  current : u.current = t.current
  kept : ∀ l e, t.get? l = some e → u.get? l = some e

theorem Grows.refl (t : FileTree) : Grows t t := ⟨rfl, fun _ _ ↦ id⟩

theorem Grows.trans (first : Grows t u) (second : Grows u v) : Grows t v :=
  ⟨second.current.trans first.current, fun l e ↦ second.kept l e ∘ first.kept l e⟩

/-- A tree grows by an entry where there was none. -/
theorem grows_put (free : t.get? l = none) : Grows t (t.put l e) := by
  refine ⟨rfl, fun k e' found ↦ ?_⟩
  rw [get?_put (ne_nil_of_get?_eq_none free), if_neg, found]
  rintro rfl
  cases free.symm.trans found

private theorem Grows.foldlM_enter {s : Location} {names : List String} (grows : Grows t u)
    (h : names.foldlM t.enter s = .ok l) : names.foldlM u.enter s = .ok l := by
  induction names generalizing s with
  | nil => exact h
  | cons name names ih =>
    rw [List.foldlM_cons] at h ⊢
    obtain ⟨d, entered, onward⟩ := bind_eq_ok_iff.mp h
    obtain ⟨directory, goes⟩ := enter_eq_ok_iff.mp entered
    exact bind_eq_ok_iff.mpr ⟨d, enter_eq_ok_iff.mpr ⟨grows.kept _ _ directory, goes⟩, ih onward⟩

/-- In a tree that has grown, paths lead where they led. -/
theorem Grows.locate (grows : Grows t u) (located : t.locate path = .ok l) :
    u.locate path = .ok l := by
  rw [locate_eq_ok_iff] at located ⊢
  rw [grows.current]
  exact ⟨located.1, grows.foldlM_enter located.2⟩

theorem Grows.find (grows : Grows t u) (found : t.find path = .ok (l, e)) :
    u.find path = .ok (l, e) := by
  rw [find_eq_ok_iff] at found ⊢
  exact ⟨grows.locate found.1, grows.kept _ _ found.2.1, found.2.2⟩

theorem Grows.contains (grows : Grows t u) (there : t.contains path) : u.contains path := by
  obtain ⟨l, e, found⟩ := contains_iff.mp there
  exact contains_iff.mpr ⟨l, e, grows.find found⟩

theorem Grows.isDirectory (grows : Grows t u) (directory : t.isDirectory path) :
    u.isDirectory path := by
  obtain ⟨l, found⟩ := isDirectory_iff.mp directory
  exact isDirectory_iff.mpr ⟨l, grows.find found⟩

/-! ### Making one directory -/

theorem createDirectory_eq_ok_iff : t.createDirectory path = .ok u ↔
    ∃ l, t.locate path = .ok l ∧ t.get? l = none ∧ t.hasDirectory l.dropLast ∧
      endsInItself path = false ∧ u = t.put l .directory := by
  rw [createDirectory, bind_eq_ok_iff]
  refine exists_congr fun l ↦ and_congr_right fun _ ↦ ?_
  split
  · next found => simp [found]
  · next free =>
    split
    · next room =>
      rw [Bool.and_eq_true, Bool.not_eq_true'] at room
      simp only [free, room, Except.ok.injEq, true_and]
      exact eq_comm
    · next none =>
      rw [Bool.and_eq_true, Bool.not_eq_true', not_and] at none
      exact ⟨nofun, fun ⟨_, room, whole, _⟩ ↦ absurd whole (none room)⟩

theorem isDirectory_of_locate (located : t.locate path = .ok l)
    (directory : t.get? l = some .directory) : t.isDirectory path :=
  isDirectory_iff.mpr ⟨l, find_eq_ok_iff.mpr ⟨located, directory, .inl rfl⟩⟩

/-- A directory that is there need not be made. -/
theorem ensureDirectory_of_isDirectory (directory : t.isDirectory path) :
    t.ensureDirectory path = .ok t := by
  obtain ⟨l, found⟩ := isDirectory_iff.mp directory
  obtain ⟨located, found, -⟩ := find_eq_ok_iff.mp found
  have there : t.createDirectory path = .error .alreadyThere := by
    rw [createDirectory, located]
    simp [bind, Except.bind, found]
  rw [ensureDirectory, there]
  dsimp only
  rw [if_pos directory]

/-- A directory is there already, or it is put where there is nothing. -/
theorem ensureDirectory_cases (made : t.ensureDirectory path = .ok u) :
    (t.isDirectory path ∧ u = t) ∨
      ∃ l, t.locate path = .ok l ∧ t.get? l = none ∧ u = t.put l .directory := by
  rw [ensureDirectory] at made
  split at made
  · next created =>
    cases made
    obtain ⟨l, located, free, -, -, rfl⟩ := createDirectory_eq_ok_iff.mp created
    exact .inr ⟨l, located, free, rfl⟩
  · split at made
    · next there =>
      cases made
      exact .inl ⟨there, rfl⟩
    · cases made

theorem grows_of_ensureDirectory (made : t.ensureDirectory path = .ok u) : Grows t u := by
  obtain ⟨-, rfl⟩ | ⟨l, -, free, rfl⟩ := ensureDirectory_cases made
  · exact .refl u
  · exact grows_put free

/-- A directory that was made is there. -/
theorem isDirectory_of_ensureDirectory (made : t.ensureDirectory path = .ok u) :
    u.isDirectory path := by
  obtain ⟨there, rfl⟩ | ⟨l, located, free, rfl⟩ := ensureDirectory_cases made
  · exact there
  · refine isDirectory_of_locate ((grows_put free).locate located) ?_
    rw [get?_put (ne_nil_of_get?_eq_none free), if_pos rfl]

/-- A path leads on from the directory that its parent leads to. -/
theorem isDirectory_parent (located : t.locate path = .ok l)
    (parent : Path.parent? path = some above) : above = "" ∨ t.isDirectory above := by
  have isParent := Path.isParent_of_parent? parent
  obtain empty | ⟨name, whole⟩ := isParent.last
  · exact .inl empty
  obtain nonempty | nonempty := eq_or_ne above ""
  · exact .inl nonempty
  obtain ⟨⟨printed, -, short⟩, followed⟩ := locate_eq_ok_iff.mp located
  rw [whole, foldlM_enter_concat, ← isParent.absolute] at followed
  obtain ⟨d, front, entered⟩ := followed
  obtain ⟨further, text⟩ := isParent.start
  have longer : above.utf8ByteSize ≤ path.utf8ByteSize := by
    have whole : path = above ++ String.ofList further := String.toList_inj.mp (by simp [text])
    rw [whole, String.utf8ByteSize_append]
    exact Nat.le_add_right ..
  have located : t.locate above = .ok d :=
    locate_eq_ok_iff.mpr ⟨⟨fun nul ↦ printed (isParent.start.subset nul), nonempty,
      longer.trans_lt short⟩, front⟩
  exact .inr (isDirectory_of_locate located (enter_eq_ok_iff.mp entered).1)

/-- What can be made is in a directory. -/
theorem isDirectory_parent_of_ensureDirectory (made : t.ensureDirectory path = .ok u)
    (parent : Path.parent? path = some above) : above = "" ∨ t.isDirectory above := by
  obtain ⟨there, -⟩ | ⟨l, located, -⟩ := ensureDirectory_cases made
  · obtain ⟨l, found⟩ := isDirectory_iff.mp there
    exact isDirectory_parent (find_eq_ok_iff.mp found).1 parent
  · exact isDirectory_parent located parent

/-! ### Making a directory with those above it -/

/-- `u` is `t` with directories that were missing, each at a location that a path upwards from
`path` leads to. -/
structure Extends (t u : FileTree) (path : String) : Prop where
  grows : Grows t u
  new : ∀ l e, t.get? l = none → u.get? l = some e →
    e = .directory ∧ ∃ above, Path.Upward path above ∧ u.locate above = .ok l

theorem Extends.refl (t : FileTree) (path : String) : Extends t t path :=
  ⟨.refl t, fun _ _ free found ↦ nomatch free.symm.trans found⟩

/-- What is above a path upwards from `path` is above `path`. -/
theorem Extends.of_upward (higher : Extends t u above) (upward : Path.Upward path above) :
    Extends t u path := by
  refine ⟨higher.grows, fun l e free found ↦ ?_⟩
  obtain ⟨directory, other, further, located⟩ := higher.new l e free found
  exact ⟨directory, other, upward.trans further, located⟩

/-- The directory itself is one more. -/
theorem Extends.ensureDirectory (before : Extends t u path)
    (made : u.ensureDirectory path = .ok v) : Extends t v path := by
  have grows := grows_of_ensureDirectory made
  refine ⟨before.grows.trans grows, fun l e free found ↦ ?_⟩
  have old {e : FileEntry} (found : u.get? l = some e) :
      e = .directory ∧ ∃ above, Path.Upward path above ∧ v.locate above = .ok l := by
    obtain ⟨directory, above, upward, located⟩ := before.new l e free found
    exact ⟨directory, above, upward, grows.locate located⟩
  obtain ⟨-, rfl⟩ | ⟨k, located, empty, rfl⟩ := ensureDirectory_cases made
  · exact old found
  · rw [get?_put (ne_nil_of_get?_eq_none empty)] at found
    split at found
    · next same =>
      cases found
      exact ⟨rfl, path, .here, same ▸ grows.locate located⟩
    · exact old found

/-- How a directory is made with those above it, and what comes of it: the directory is tried first,
and once more after those above it if something is missing on the way to it. -/
inductive Creates (t : FileTree) : String → Except FileFault Unit → FileTree → Prop where
  | nowhere : Creates t "" (.ok ()) t
  | made {path : String} {u : FileTree} (nonempty : path ≠ "")
      (made : t.ensureDirectory path = .ok u) : Creates t path (.ok ()) u
  | fails {path : String} {fault : FileFault} (nonempty : path ≠ "")
      (failed : t.ensureDirectory path = .error fault)
      (last : fault = .notFound → Path.parent? path = none) : Creates t path (.error fault) t
  | failsAbove {path above : String} {u : FileTree} {fault : FileFault}
      (missing : t.ensureDirectory path = .error .notFound)
      (parent : Path.parent? path = some above) (before : Creates t above (.error fault) u) :
      Creates t path (.error fault) u
  | madeAfter {path above : String} {u v : FileTree}
      (missing : t.ensureDirectory path = .error .notFound)
      (parent : Path.parent? path = some above) (before : Creates t above (.ok ()) u)
      (made : u.ensureDirectory path = .ok v) : Creates t path (.ok ()) v
  | failsAfter {path above : String} {u : FileTree} {fault : FileFault}
      (missing : t.ensureDirectory path = .error .notFound)
      (parent : Path.parent? path = some above) (before : Creates t above (.ok ()) u)
      (failed : u.ensureDirectory path = .error fault) : Creates t path (.error fault) u

/-- With more levels than characters a directory is made as it is described. -/
private theorem creates_of_createDirectoriesUpTo (enough : path.length < levels)
    (done : t.createDirectoriesUpTo levels path = (result, u)) : Creates t path result u := by
  induction levels generalizing path result u with
  | zero => omega
  | succ levels ih =>
    obtain rfl | nonempty := eq_or_ne path ""
    · cases done
      exact .nowhere
    rw [createDirectoriesUpTo, if_neg (by simpa using nonempty)] at done
    split at done
    · next made =>
      cases done
      exact .made nonempty made
    · next missing =>
      split at done
      · next last =>
        cases done
        exact .fails nonempty missing fun _ ↦ last
      · next above parent =>
        have shorter := (Path.isParent_of_parent? parent).shorter
        split at done
        · next before =>
          cases done
          exact .failsAbove missing parent (ih (by omega) before)
        · next before =>
          have before := ih (by omega) before
          split at done
          · next made =>
            cases done
            exact .madeAfter missing parent before made
          · next failed =>
            cases done
            exact .failsAfter missing parent before failed
    · next other failed =>
      cases done
      exact .fails nonempty failed fun same ↦ absurd same other

private theorem Creates.createDirectoriesUpTo (creates : Creates t path result u)
    (enough : path.length ≤ levels) :
    t.createDirectoriesUpTo (levels + 1) path = (result, u) := by
  induction creates generalizing levels with
  | nowhere => rfl
  | made nonempty made =>
    rw [FileTree.createDirectoriesUpTo, if_neg (by simpa using nonempty), made]
  | @fails path fault nonempty failed last =>
    rw [FileTree.createDirectoriesUpTo, if_neg (by simpa using nonempty), failed]
    cases fault with
    | notFound => simp [last rfl]
    | _ => rfl
  | failsAbove missing parent before ih | madeAfter missing parent before after ih
  | failsAfter missing parent before after ih =>
    have shorter := (Path.isParent_of_parent? parent).shorter
    have nonempty := Path.ne_empty_of_parent? parent
    obtain ⟨n, rfl⟩ := Nat.exists_eq_add_one_of_ne_zero (by omega : levels ≠ 0)
    rw [FileTree.createDirectoriesUpTo, if_neg (by simpa using nonempty), missing]
    simp only [ih (by omega : _ ≤ n), *]

/-- The levels are enough for all the directories above a path. -/
theorem createDirectories_eq_iff :
    t.createDirectories path = (result, u) ↔ Creates t path result u :=
  ⟨creates_of_createDirectoriesUpTo (Nat.lt_succ_self _), fun h ↦ h.createDirectoriesUpTo le_rfl⟩

/-- Whatever comes of it, directories are all that is new. -/
theorem Creates.extended (creates : Creates t path result u) : Extends t u path := by
  have onward {path above : String} {v : FileTree} (parent : Path.parent? path = some above)
      (h : Extends t v above) : Extends t v path := h.of_upward (.above .here parent)
  induction creates with
  | nowhere | fails => exact .refl t _
  | made _ made => exact (Extends.refl t _).ensureDirectory made
  | failsAbove _ parent _ ih | failsAfter _ parent _ _ ih => exact onward parent ih
  | madeAfter _ parent _ made ih => exact (onward parent ih).ensureDirectory made

/-- A directory that was made is there. -/
theorem Creates.isDirectory (creates : Creates t path (.ok ()) u) :
    path = "" ∨ u.isDirectory path := by
  cases creates with
  | nowhere => exact .inl rfl
  | made _ made | madeAfter _ _ _ made => exact .inr (isDirectory_of_ensureDirectory made)

/-- A directory that is there is made without a change. -/
theorem creates_of_isDirectory (there : path = "" ∨ t.isDirectory path) :
    Creates t path (.ok ()) t := by
  obtain rfl | nonempty := eq_or_ne path ""
  · exact .nowhere
  · exact .made nonempty (ensureDirectory_of_isDirectory (there.resolve_left nonempty))

theorem Creates.unique {result' : Except FileFault Unit} (first : Creates t path result u)
    (second : Creates t path result' v) : result' = result ∧ v = u := by
  rw [← createDirectories_eq_iff] at first second
  exact Prod.mk.inj (second.symm.trans first)

/-- What failed fails again, and nothing is made any more. -/
theorem Creates.again (creates : Creates t path (.error fault) u) :
    ∃ fault', Creates u path (.error fault') u := by
  generalize h : Except.error fault = result at creates
  induction creates generalizing fault with
  | nowhere | made | madeAfter => cases h
  | fails nonempty failed last => exact ⟨_, .fails nonempty failed last⟩
  | @failsAbove path above u _ missing parent before ih =>
    obtain ⟨fault', again⟩ := ih rfl
    cases second : u.ensureDirectory path with
    | ok v =>
      -- the directory above would be there, and it could be made
      have there := creates_of_isDirectory (isDirectory_parent_of_ensureDirectory second parent)
      cases (there.unique again).1
    | error other =>
      by_cases missing : other = .notFound
      · exact ⟨_, .failsAbove (missing ▸ second) parent again⟩
      · exact ⟨_, .fails (Path.ne_empty_of_parent? parent) second fun same ↦ absurd same missing⟩
  | @failsAfter path above u other missing parent before failed ih =>
    have there := creates_of_isDirectory before.isDirectory
    by_cases missing : other = .notFound
    · exact ⟨_, .failsAfter (missing ▸ failed) parent there failed⟩
    · exact ⟨_, .fails (Path.ne_empty_of_parent? parent) failed fun same ↦ absurd same missing⟩

/-! ### Making it twice -/

/-- A directory that was made is made again without a change. -/
theorem createDirectories_again (first : t.createDirectories path = (.ok (), u)) :
    u.createDirectories path = (.ok (), u) :=
  createDirectories_eq_iff.mpr
    (creates_of_isDirectory (createDirectories_eq_iff.mp first).isDirectory)

/-- A directory that could not be made cannot be made now, though the reason may be another one. -/
theorem createDirectories_fails_again (first : t.createDirectories path = (.error fault, u)) :
    ∃ fault', u.createDirectories path = (.error fault', u) := by
  obtain ⟨fault', again⟩ := (createDirectories_eq_iff.mp first).again
  exact ⟨fault', createDirectories_eq_iff.mpr again⟩

end LanguageHub.FileTree
