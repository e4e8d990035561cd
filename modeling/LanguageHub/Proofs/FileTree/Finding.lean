import LanguageHub.Proofs.FileTree

/-!
# What paths find

A path whose parts are names leads from where it begins to the location that these names make. In a
tree in which every entry is in a directory it finds whatever is there, unless the path or one of
its names is too long (`Coherent.find_eq_ok_iff_of_plain`). If a file gets another content, the
paths lead where they led, and whatever else they find is the same (`find_put_file`).
-/

namespace LanguageHub.FileTree

variable {t u : FileTree} {path : String} {l s : Location} {e : FileEntry} {names : List String}

/-- The location from which the parts of a path are followed. -/
def origin (t : FileTree) (path : String) : Location :=
  if Path.isAbsolute path then [] else t.current

/-- A path that is followed wherever there are directories on its way. -/
structure Followable (path : String) : Prop where
  nonempty : path ≠ ""
  printed : '\x00' ∉ path.toList
  short : path.utf8ByteSize < pathLimit
  named : ∀ name ∈ Path.parts path, name.utf8ByteSize ≤ longestName

/-- Names lead down to the location that they make. -/
theorem foldlM_enter_of_plain (plain : ".." ∉ names) (followed : names.foldlM t.enter s = .ok l) :
    l = s ++ names ∧ ∀ name ∈ names, name.utf8ByteSize ≤ longestName := by
  induction names generalizing s with
  | nil =>
    cases followed
    exact ⟨(List.append_nil _).symm, nofun⟩
  | cons name names ih =>
    rw [List.foldlM_cons] at followed
    obtain ⟨d, entered, onward⟩ := bind_eq_ok_iff.mp followed
    obtain ⟨down, further⟩ := List.ne_and_not_mem_of_not_mem_cons plain
    obtain ⟨-, ⟨up, -⟩ | ⟨-, short, rfl⟩⟩ := enter_eq_ok_iff.mp entered
    · exact absurd up.symm down
    · obtain ⟨rfl, all⟩ := ih further onward
      exact ⟨by simp, List.forall_mem_cons.mpr ⟨short, all⟩⟩

/-- Names lead to an entry, as there are directories on the way to it. -/
theorem Coherent.foldlM_enter (coherent : t.Coherent) (plain : ".." ∉ names)
    (named : ∀ name ∈ names, name.utf8ByteSize ≤ longestName)
    (found : t.get? (s ++ names) = some e) : names.foldlM t.enter s = .ok (s ++ names) := by
  induction names using List.reverseRecOn generalizing e with
  | nil => simp [pure, Except.pure]
  | append_singleton front name ih =>
    simp only [List.mem_append, List.mem_singleton, not_or] at plain
    rw [← List.append_assoc] at found ⊢
    have directory := coherent _ _ _ found
    have short := named name (by simp)
    have onward := ih plain.1 (fun x hx ↦ named x (List.mem_append_left _ hx)) directory
    exact foldlM_enter_concat.mpr ⟨_, onward,
      enter_eq_ok_iff.mpr ⟨directory, .inr ⟨Ne.symm plain.2, short, rfl⟩⟩⟩

/-- What a path finds whose parts are names. -/
theorem followable_of_locate (plain : ".." ∉ Path.parts path) (located : t.locate path = .ok l) :
    Followable path ∧ l = t.origin path ++ Path.parts path := by
  obtain ⟨⟨printed, nonempty, short⟩, followed⟩ := locate_eq_ok_iff.mp located
  obtain ⟨whole, named⟩ := foldlM_enter_of_plain plain followed
  exact ⟨⟨nonempty, printed, short, named⟩, whole⟩

/-- A path whose parts are names finds what is at the location that they make. -/
theorem Coherent.find_eq_ok_iff_of_plain (coherent : t.Coherent) (plain : ".." ∉ Path.parts path) :
    t.find path = .ok (l, e) ↔ Followable path ∧ l = t.origin path ++ Path.parts path ∧
      t.get? l = some e ∧ (e = .directory ∨ asksDirectory path = false) := by
  rw [find_eq_ok_iff]
  constructor
  · rintro ⟨located, found, shape⟩
    obtain ⟨followable, whole⟩ := followable_of_locate plain located
    exact ⟨followable, whole, found, shape⟩
  · rintro ⟨followable, rfl, found, shape⟩
    refine ⟨locate_eq_ok_iff.mpr ⟨⟨followable.printed, followable.nonempty, followable.short⟩, ?_⟩,
      found, shape⟩
    exact coherent.foldlM_enter plain followable.named found

/-! ### Another content -/

variable {k : Location} {content content' : ByteArray} {isExecutable isExecutable' : Bool}

section

variable (there : t.get? l = some (.file content isExecutable))

include there

theorem get?_put_file (k : Location) : (t.put l (.file content' isExecutable')).get? k =
    if k = l then some (.file content' isExecutable') else t.get? k :=
  get?_put (ne_nil_of_get? (there.trans_ne nofun)) _ k

theorem locate_put_file (path : String) :
    (t.put l (.file content' isExecutable')).locate path = t.locate path := by
  have same : (t.put l (.file content' isExecutable')).enter = t.enter := by
    funext k name
    rw [enter, enter, get?_put_file there]
    obtain rfl | other := eq_or_ne k l
    · rw [if_pos rfl, there]
    · rw [if_neg other]
  rw [locate, locate, same]
  rfl

/-- With another content in one file, the paths to this file find it, and the others find what they
found. -/
theorem find_put_file (path : String) : (t.put l (.file content' isExecutable')).find path =
    (t.find path).map fun (k, e) ↦ (k, if k = l then .file content' isExecutable' else e) := by
  rw [find, find, locate_put_file there]
  cases t.locate path with
  | error fault => rfl
  | ok k =>
    simp only [bind, Except.bind, get?_put_file there]
    obtain rfl | other := eq_or_ne k l
    · rw [if_pos rfl, there]
      dsimp only
      split <;> simp [Except.map]
    · rw [if_neg other]
      cases t.get? k with
      | none => rfl
      | some e =>
        cases e with
        | directory => simp [Except.map, other]
        | file => dsimp only; split <;> simp [Except.map, other]

theorem find_put_file_self (found : t.find path = .ok (l, e)) :
    (t.put l (.file content' isExecutable')).find path = .ok (l, .file content' isExecutable') := by
  rw [find_put_file there, found, Except.map]
  dsimp only
  rw [if_pos rfl]

theorem find_put_file_of_ne (found : t.find path = .ok (k, e)) (other : k ≠ l) :
    (t.put l (.file content' isExecutable')).find path = .ok (k, e) := by
  rw [find_put_file there, found, Except.map]
  dsimp only
  rw [if_neg other]

theorem contains_put_file : (t.put l (.file content' isExecutable')).contains = t.contains := by
  funext path
  rw [contains, contains, find_put_file there]
  cases t.find path <;> rfl

theorem isFile_put_file : (t.put l (.file content' isExecutable')).isFile = t.isFile := by
  funext path
  rw [isFile, isFile, find_put_file there]
  cases found : t.find path with
  | error fault => rfl
  | ok x =>
    obtain ⟨k, e⟩ := x
    simp only [Except.map]
    obtain rfl | other := eq_or_ne k l
    · cases there.symm.trans (find_eq_ok_iff.mp found).2.1
      rw [if_pos rfl]
    · rw [if_neg other]

end

/-! ### Reading and writing -/

/-- The text of a file is what its bytes stand for. -/
theorem readText_of_file (found : t.find path = .ok (l, .file content isExecutable)) :
    t.readText path = match String.fromUTF8? content with
      | some document => .ok document
      | none => .error .notText := by
  rw [readText, read, found]
  rfl

theorem readText_of_text {document : String}
    (found : t.find path = .ok (l, .file document.toUTF8 isExecutable)) :
    t.readText path = .ok document := by
  have valid : document.toUTF8.IsValidUTF8 := document.isValidUTF8
  rw [readText_of_file found, String.fromUTF8?, dif_pos valid]
  rfl

/-- Where nothing is found, a file is written in a place where there is nothing. -/
theorem exists_of_write (plain : asksDirectory path = false) (free : t.contains path = false)
    (written : t.write path content = .ok u) :
    ∃ l, t.locate path = .ok l ∧ t.get? l = none ∧ u = t.put l (.file content false) := by
  obtain ⟨⟨l, old⟩, slot, written⟩ := bind_eq_ok_iff.mp written
  obtain ⟨k, located, slot⟩ := bind_eq_ok_iff.mp slot
  split at slot
  · next content _ found =>
    rw [contains_iff.mpr ⟨k, _, find_eq_ok_iff.mpr ⟨located, found, .inr plain⟩⟩] at free
    cases free
  · cases slot
  · next empty =>
    split at slot
    · cases slot
    · split at slot
      · cases slot
      · split at slot
        · cases slot
          cases written
          exact ⟨_, located, empty, rfl⟩
        · split at slot <;> cases slot

end LanguageHub.FileTree
