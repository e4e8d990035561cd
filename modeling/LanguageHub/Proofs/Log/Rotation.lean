import LanguageHub.Log.Rotation
import LanguageHub.Proofs.FileTree

/-!
# Rotation without loss

A log that has grown to its greatest size moves to the number 1, and the logs set aside before move
up by one number each, gaps included. Of the logs set aside only the one with the greatest number
goes, and no other file changes (`rotate_shifts`). What can stand in the way is the file system: a
log whose name is too long with a number behind it is never set aside (`rotate_of_long_name`).

The proof counts the log itself as number 0. Each renaming raises one log into a place that is
free (`Stands.rename_place`). The renamings go from the greatest number down, so that each of them
finds the place free that the one before has left, and together they raise all logs
(`Raised.trans`).
-/

namespace LanguageHub.Log

open FileTree

variable {t u v : FileTree} {path name : String} {d l : Location} {i j low mid high size kept : Nat}

/-! ### What a rotation does -/

/-- Whether the log is a file of at least `size` bytes. -/
def Grown (t : FileTree) (path : String) (size : Nat) : Prop :=
  ∃ content isExecutable, t.at? path = some (.file content isExecutable) ∧ size ≤ content.size

/-- Whether the file system takes the paths that the logs get. -/
structure HasRoom (t : FileTree) (path : String) (kept : Nat) : Prop where
  first : Fits (numbered path 1)
  next : ∀ i, 1 ≤ i → i < kept → t.contains (numbered path i) → Fits (numbered path (i + 1))

/-- `u` is `t` with the log and the logs set aside moved up by one number. -/
structure Shifted (t u : FileTree) (path : String) (kept : Nat) : Prop where
  gone : u.at? path = none
  first : u.at? (numbered path 1) = t.at? path
  next : ∀ i, 1 ≤ i → i < kept → u.at? (numbered path (i + 1)) = t.at? (numbered path i)
  beyond : ∀ i, kept < i → u.at? (numbered path i) = t.at? (numbered path i)
  /-- Paths lead where they led. -/
  same : SameDirectories t u
  /-- No entry changes but those at the paths of the logs. -/
  others : ∀ l, t.locate path ≠ .ok l →
    (∀ i, 1 ≤ i → i ≤ kept → t.locate (numbered path i) ≠ .ok l) → u.get? l = t.get? l

/-! ### The places of the logs -/

/-- The path of the log with a number, where the log itself has the number 0. -/
def place (path : String) : (number : Nat) → String
  | 0 => path
  | n + 1 => numbered path (n + 1)

theorem place_of_pos (path : String) (pos : 1 ≤ i) : place path i = numbered path i := by
  obtain ⟨n, rfl⟩ := Nat.exists_eq_add_of_le' pos
  rfl

/-- The name of the log with a number, where the log itself has the number 0. -/
def placeName (name : String) : (number : Nat) → String
  | 0 => name
  | n + 1 => s!"{name}.{n + 1}"

theorem toList_placeName_succ (name : String) (n : Nat) :
    (placeName name (n + 1)).toList = name.toList ++ '.' :: Nat.toDigits 10 (n + 1) := by
  have printed : placeName name (n + 1) = name ++ "." ++ (n + 1).repr := rfl
  rw [printed]
  simp

theorem placeName_zero_ne (name : String) (n : Nat) :
    placeName name 0 ≠ placeName name (n + 1) := by
  rw [Ne, ← String.toList_inj, toList_placeName_succ, placeName]
  simp

theorem placeName_injective (name : String) : Function.Injective (placeName name) := by
  intro i j same
  cases i with
  | zero =>
    cases j with
    | zero => rfl
    | succ j => exact absurd same (placeName_zero_ne name j)
  | succ i =>
    cases j with
    | zero => exact absurd same.symm (placeName_zero_ne name i)
    | succ j =>
      rw [← String.toList_inj, toList_placeName_succ, toList_placeName_succ,
        List.append_cancel_left_eq, List.cons.injEq] at same
      simpa using congrArg (Nat.ofDigitChars 10 · 0) same.2

/-- The location of the log with a number in the directory of the log. -/
def slot (d : Location) (name : String) (number : Nat) : Location := d ++ [placeName name number]

theorem slot_ne (d : Location) (name : String) (other : i ≠ j) :
    slot d name i ≠ slot d name j := by
  intro same
  exact other (placeName_injective name
    (List.singleton_inj.mp (List.append_cancel_left same)))

/-- The log is located, and it is not named as a directory. -/
structure Stands (t : FileTree) (path name : String) (d : Location) : Prop where
  named : Path.fileName? path = some name
  plain : asksDirectory path = false
  located : t.locate path = .ok (d ++ [name])

theorem Stands.of_sameDirectories (same : SameDirectories t u) (h : Stands t path name d) :
    Stands u path name d :=
  ⟨h.named, h.plain, same.locate_eq_ok_iff.mpr h.located⟩

/-- The characters of the name of a log that is set aside. -/
theorem mem_placeName_succ {c : Char} {n : Nat} (hc : c ∈ (placeName name (n + 1)).toList) :
    c ∈ name.toList ∨ c = '.' ∨ c.isDigit := by
  rw [toList_placeName_succ, List.mem_append, List.mem_cons] at hc
  exact hc.imp_right (.imp_right (Nat.isDigit_of_mem_toDigits (by decide) (by decide)))

/-- The name of a log that is set aside is longer than two dots. -/
theorem length_placeName_succ (named : Path.fileName? path = some name) (n : Nat) :
    2 < (placeName name (n + 1)).toList.length := by
  obtain ⟨-, part⟩ := List.mem_filter.mp (Path.mem_pieces_of_fileName? named)
  have nonempty : name.toList ≠ [] := by
    intro h
    simp [h, Path.isPart] at part
  have first := List.length_pos_iff.mpr nonempty
  have last := List.length_pos_iff.mpr (Nat.toDigits_ne_nil (n := n + 1) (b := 10))
  rw [toList_placeName_succ, List.length_append, List.length_cons]
  omega

/-- The path of a log that is set aside is a sibling of the path of the log. -/
theorem isSibling_numbered (named : Path.fileName? path = some name) (n : Nat) :
    Path.IsSibling path (placeName name (n + 1)) (numbered path (n + 1)) := by
  obtain ⟨piece, -⟩ := List.mem_filter.mp (Path.mem_pieces_of_fileName? named)
  have long := length_placeName_succ named n
  have inside : '/' ∉ (placeName name (n + 1)).toList := by
    intro slash
    obtain slash | slash := mem_placeName_succ slash
    · simpa using Path.eq_false_of_mem_splitOnP _ piece '/' slash
    · revert slash
      decide
  have sibling := Path.isSibling_join_parent named (Path.isPart_of_length (by omega)) inside
  rwa [numbered, named, Option.getD_some]

theorem Stands.asksDirectory_place (h : Stands t path name d) (i : Nat) :
    asksDirectory (place path i) = false := by
  cases i with
  | zero => exact h.plain
  | succ n =>
    have long := length_placeName_succ h.named n
    rw [asksDirectory, place, (isSibling_numbered h.named n).ends]
    dsimp only
    rw [Bool.eq_false_iff]
    intro short
    simp only [Bool.or_eq_true, decide_eq_true_eq] at short
    obtain (short | short) | short := short <;> simp [short] at long

/-- The log with a number is in its place, unless its path is too long. -/
theorem Stands.locate_place (h : Stands t path name d) (i : Nat) :
    t.locate (place path i) = .ok l ↔ Fits (place path i) ∧ l = slot d name i := by
  cases i with
  | zero =>
    rw [place, slot, placeName, h.located, and_iff_right (fits_of_locate h.located),
      Except.ok.injEq, eq_comm]
  | succ n =>
    refine locate_sibling h.named h.located (isSibling_numbered h.named n) ?_ ?_
    · intro up
      have long := length_placeName_succ h.named n
      simp [up] at long
    · intro nul
      obtain nul | nul := mem_placeName_succ nul
      · have piece := (List.mem_filter.mp (Path.mem_pieces_of_fileName? h.named)).1
        exact (locate_eq_ok_iff.mp h.located).1.1
          ((Path.exists_piece_iff (by decide) _).mp ⟨_, piece, nul⟩)
      · revert nul
        decide

/-- What is found at the place of the log with a number. -/
theorem Stands.at?_place (h : Stands t path name d) (i : Nat) :
    t.at? (place path i) =
      if Fits (place path i) then t.get? (slot d name i) else none := by
  split
  · next fits =>
    exact at?_of_locate ((h.locate_place i).mpr ⟨fits, rfl⟩) (h.asksDirectory_place i)
  · next long =>
    rw [← Option.not_isSome_iff_eq_none]
    intro there
    obtain ⟨e, there⟩ := Option.isSome_iff_exists.mp there
    obtain ⟨l, found⟩ := at?_eq_some_iff.mp there
    exact long ((h.locate_place i).mp (find_eq_ok_iff.mp found).1).1

/-- The files at the places of two trees are the same if the entries at the locations are. -/
theorem Stands.at?_place_congr (h : Stands t path name d) (same : SameDirectories t u)
    (kept : Fits (place path i) →
      u.get? (slot d name i) = t.get? (slot d name i)) :
    u.at? (place path i) = t.at? (place path i) := by
  rw [h.at?_place, (h.of_sameDirectories same).at?_place]
  split
  · next fits => exact kept fits
  · rfl

/-! ### Raising logs -/

/-- The logs with the numbers from `low` to `high` are raised by one. -/
structure Raised (path name : String) (d : Location) (t u : FileTree) (low high : Nat) :
    Prop where
  same : SameDirectories t u
  coherent : u.Coherent
  gone : u.at? (place path low) = none
  next : ∀ i, low ≤ i → i ≤ high → u.at? (place path (i + 1)) = t.at? (place path i)
  others : ∀ l, (∀ i, low ≤ i → i ≤ high + 1 → Fits (place path i) → l ≠ slot d name i) →
    u.get? l = t.get? l

/-- The logs outside the raised ones stay. -/
theorem Raised.outside (h : Stands t path name d) (raised : Raised path name d t u low high)
    (outside : i < low ∨ high + 1 < i) : u.at? (place path i) = t.at? (place path i) := by
  refine h.at?_place_congr raised.same fun _ ↦ raised.others _ fun j below above _ ↦ ?_
  exact slot_ne d name (by omega)

/-- Raising the upper logs and then the lower ones raises all of them. -/
theorem Raised.trans (h : Stands t path name d) (upper : Raised path name d t u (mid + 1) high)
    (lower : Raised path name d u v low mid) (start : low ≤ mid + 1) (inside : mid ≤ high) :
    Raised path name d t v low high := by
  have stands := h.of_sameDirectories upper.same
  refine ⟨upper.same.trans lower.same, lower.coherent, lower.gone, fun i below above ↦ ?_,
    fun l elsewhere ↦ ?_⟩
  · obtain higher | atMost := Nat.lt_or_ge mid i
    · rw [lower.outside stands (.inr (by omega)), upper.next i higher above]
    · rw [lower.next i below atMost, upper.outside h (.inl (by omega))]
  · rw [lower.others l fun i below above ↦ elsewhere i below (by omega),
      upper.others l fun i below above ↦ elsewhere i (by omega) above]

/-- A log is raised into a place that is free. -/
theorem Stands.rename_place (h : Stands t path name d) (coherent : t.Coherent)
    {content : ByteArray} {isExecutable : Bool}
    (there : t.at? (place path i) = some (.file content isExecutable))
    (free : t.at? (place path (i + 1)) = none) (fits : Fits (place path (i + 1))) :
    ∃ u, t.rename (place path i) (place path (i + 1)) = .ok u ∧
      Raised path name d t u i i := by
  obtain ⟨l, found⟩ := at?_eq_some_iff.mp there
  obtain ⟨source, entry, -⟩ := find_eq_ok_iff.mp found
  obtain ⟨fitsSource, rfl⟩ := (h.locate_place i).mp source
  have target := (h.locate_place (i + 1)).mpr ⟨fits, rfl⟩
  rw [h.at?_place, if_pos fits] at free
  have leaf : t.get? (slot d name i) ≠ some .directory := by simp [entry]
  obtain ⟨d', hd, directory, -, -⟩ := exists_directory h.named h.located
  obtain ⟨rfl, -⟩ := List.append_inj' hd rfl
  have room : t.get? (slot d name (i + 1)).dropLast = some .directory := by
    rwa [slot, List.dropLast_concat]
  have same := sameDirectories_move coherent leaf free
  have after := get?_move coherent leaf (ne_nil_of_get?_eq_none free)
  have stands := h.of_sameDirectories same
  refine ⟨_, rename_of_file found target free room, same, coherent.move leaf free room, ?_, ?_, ?_⟩
  · rw [stands.at?_place, if_pos fitsSource, after, if_neg (slot_ne d name (by omega)),
      if_pos rfl]
  · intro j below above
    obtain rfl := Nat.le_antisymm above below
    rw [stands.at?_place, if_pos fits, after, if_pos rfl, there, entry]
  · intro k elsewhere
    rw [after, if_neg (elsewhere (i + 1) (by omega) le_rfl fits),
      if_neg (elsewhere i le_rfl (by omega) fitsSource)]

/-- The logs from `low` to `high` are files, the one above them is missing, and all have room. -/
structure Ready (path : String) (t : FileTree) (low high : Nat) : Prop where
  coherent : t.Coherent
  free : t.at? (place path (high + 1)) = none
  files : ∀ i, low ≤ i → i ≤ high → t.isDirectory (place path i) = false
  fits : ∀ i, low ≤ i → i ≤ high → t.contains (place path i) → Fits (place path (i + 1))

/-- A log that is missing counts as raised. -/
theorem Raised.of_missing (coherent : t.Coherent) (missing : t.at? (place path i) = none)
    (free : t.at? (place path (i + 1)) = none) : Raised path name d t t i i where
  same := .refl t
  coherent := coherent
  gone := missing
  next j below above := by rw [Nat.le_antisymm above below, free, missing]
  others _ _ := rfl

section

-- the equation unfolds the recursion alone, not the renaming in it
attribute [local irreducible] FileTree.contains FileTree.rename

theorem shift_succ (path : String) (n : Nat) (t : FileTree) : shift path (n + 1) t =
    if t.contains (place path (n + 1)) then
      match t.rename (place path (n + 1)) (place path (n + 2)) with
      | .ok t => shift path n t
      | .error fault => (.error fault, t)
    else shift path n t := rfl

end

/-- One turn of the loop raises the log with the greatest number. -/
theorem Stands.shift_succ (h : Stands t path name d) {n : Nat} (ready : Ready path t 1 (n + 1)) :
    ∃ u, shift path (n + 1) t = shift path n u ∧
      Raised path name d t u (n + 1) (n + 1) := by
  rw [Log.shift_succ, contains_eq]
  cases there : t.at? (place path (n + 1)) with
  | none => exact ⟨t, rfl, .of_missing ready.coherent there ready.free⟩
  | some e =>
    cases e with
    | directory =>
      exact absurd there (isDirectory_eq_false_iff.mp (ready.files (n + 1) (by omega) le_rfl))
    | file content isExecutable =>
      have fits := ready.fits (n + 1) (by omega) le_rfl (by rw [contains_eq, there]; rfl)
      obtain ⟨u, renamed, raised⟩ := h.rename_place ready.coherent there ready.free fits
      exact ⟨u, by simp only [Option.isSome_some, if_true, renamed], raised⟩

/-- The loop raises all logs that are set aside. -/
theorem Stands.shift (n : Nat) (h : Stands t path name d) (ready : Ready path t 1 n) :
    ∃ u, Log.shift path n t = (.ok (), u) ∧ Raised path name d t u 1 n := by
  -- the log with the greatest number is raised first, so that each place is free in its turn
  induction n generalizing t with
  | zero =>
    refine ⟨t, rfl, .refl t, ready.coherent, ready.free, fun i below above ↦ ?_, fun _ _ ↦ rfl⟩
    omega
  | succ n ih =>
    obtain ⟨u, turn, upper⟩ := h.shift_succ ready
    have stays : ∀ i, i ≤ n → u.at? (place path i) = t.at? (place path i) :=
      fun i under ↦ upper.outside h (.inl (by omega))
    have readyNext : Ready path u 1 n := {
      coherent := upper.coherent
      free := upper.gone
      files i below above := by
        rw [isDirectory_eq_false_iff, stays i above, ← isDirectory_eq_false_iff]
        exact ready.files i below (by omega)
      fits i below above there := by
        rw [contains_eq, stays i above, ← contains_eq] at there
        exact ready.fits i below (by omega) there }
    obtain ⟨v, done, lower⟩ := ih (h.of_sameDirectories upper.same) readyNext
    exact ⟨v, turn.trans done, upper.trans h lower (by omega) (by omega)⟩

/-! ### The whole rotation -/

/-- Of the oldest log nothing is left, and nothing else is removed. -/
structure Dropped (path name : String) (d : Location) (t u : FileTree) (kept : Nat) : Prop where
  same : SameDirectories t u
  coherent : u.Coherent
  gone : u.at? (place path kept) = none
  others : ∀ l, (Fits (place path kept) → l ≠ slot d name kept) → u.get? l = t.get? l

theorem Dropped.outside (h : Stands t path name d) (dropped : Dropped path name d t u kept)
    (other : i ≠ kept) : u.at? (place path i) = t.at? (place path i) :=
  h.at?_place_congr dropped.same fun _ ↦ dropped.others _ fun _ ↦ slot_ne d name other

theorem Stands.dropOldest (h : Stands t path name d) (coherent : t.Coherent) (pos : 1 ≤ kept)
    (file : t.isDirectory (place path kept) = false) :
    ∃ u, Log.dropOldest t path kept = .ok u ∧ Dropped path name d t u kept := by
  rw [Log.dropOldest, contains_eq, ← place_of_pos path pos]
  cases there : t.at? (place path kept) with
  | none => exact ⟨t, rfl, .refl t, coherent, there, fun _ _ ↦ rfl⟩
  | some e =>
    cases e with
    | directory => exact absurd there (isDirectory_eq_false_iff.mp file)
    | file content isExecutable =>
      obtain ⟨l, found⟩ := at?_eq_some_iff.mp there
      obtain ⟨located, entry, -⟩ := find_eq_ok_iff.mp found
      obtain ⟨fits, rfl⟩ := (h.locate_place kept).mp located
      have leaf : t.get? (slot d name kept) ≠ some .directory := by simp [entry]
      have same := sameDirectories_erase leaf
      have after := get?_erase (t := t) (ne_nil_of_get? leaf)
      refine ⟨_, removeFile_of_file found, same, coherent.erase leaf, ?_, fun k other ↦ ?_⟩
      · rw [(h.of_sameDirectories same).at?_place, if_pos fits, after, if_pos rfl]
      · rw [after, if_neg (other fits)]

/-- Where the oldest log is dropped and the others are raised, the logs are moved up by one. -/
theorem Stands.shifted {n : Nat} (h : Stands t path name d)
    (dropped : Dropped path name d t u (n + 1)) (raised : Raised path name d u v 0 n) :
    Shifted t v path (n + 1) := by
  have stands := h.of_sameDirectories dropped.same
  refine ⟨raised.gone, ?_, fun i pos below ↦ ?_, fun i above ↦ ?_, dropped.same.trans raised.same,
    fun l notLog notAside ↦ ?_⟩
  · exact (raised.next 0 le_rfl (by omega)).trans (dropped.outside h (by omega))
  · rw [← place_of_pos path pos, ← place_of_pos path (by omega),
      raised.next i (by omega) (by omega), dropped.outside h (by omega)]
  · rw [← place_of_pos path (by omega), raised.outside stands (.inr (by omega)),
      dropped.outside h (by omega)]
  · have elsewhere : ∀ i, i ≤ n + 1 → Fits (place path i) → l ≠ slot d name i := by
      intro i below fits same
      have located := (h.locate_place i).mpr ⟨fits, same⟩
      obtain rfl | pos := Nat.eq_zero_or_pos i
      · exact notLog located
      · rw [place_of_pos path pos] at located
        exact notAside i pos below located
    rw [raised.others l fun i _ below ↦ elsewhere i below,
      dropped.others l (elsewhere (n + 1) le_rfl)]

/-- A log that has grown is located. -/
theorem Grown.exists_stands (grown : Grown t path size) (named : Path.fileName? path = some name) :
    ∃ d content isExecutable, Stands t path name d ∧ size ≤ content.size ∧
      t.find path = .ok (d ++ [name], .file content isExecutable) := by
  obtain ⟨content, isExecutable, there, full⟩ := grown
  obtain ⟨l, found⟩ := at?_eq_some_iff.mp there
  obtain ⟨located, -, plain⟩ := find_eq_ok_iff.mp found
  obtain ⟨d, rfl, -⟩ := exists_directory named located
  exact ⟨d, content, isExecutable, ⟨named, plain.resolve_left nofun, located⟩, full, found⟩

/-- A log that has grown is set aside once the oldest log is removed and the others are raised. -/
theorem rotate_of_grown {content : ByteArray} {isExecutable : Bool}
    (found : t.find path = .ok (l, .file content isExecutable)) (full : size ≤ content.size)
    (dropped : dropOldest t path kept = .ok u) (shifted : shift path (kept - 1) u = (.ok (), v)) :
    (∀ w, v.rename path (numbered path 1) = .ok w → rotate t path size kept = (.ok (), w)) ∧
    (∀ fault, v.rename path (numbered path 1) = .error fault →
      rotate t path size kept = (.error fault, v)) := by
  refine ⟨fun w renamed ↦ ?_, fun fault refused ↦ ?_⟩
  · rw [rotate, sizeOf_of_file found]
    simp only [if_neg (Nat.not_lt.mpr full), dropped, shifted, renamed]
  · rw [rotate, sizeOf_of_file found]
    simp only [if_neg (Nat.not_lt.mpr full), dropped, shifted, refused]

/-- Without a log that has grown nothing happens. -/
theorem rotate_of_not_grown (file : t.isDirectory path = false) (small : ¬ Grown t path size)
    (kept : Nat) : rotate t path size kept = (.ok (), t) := by
  rw [rotate, FileTree.sizeOf]
  cases found : t.find path with
  | error fault => rfl
  | ok x =>
    obtain ⟨l, e⟩ := x
    have there : t.at? path = some e := at?_eq_some_iff.mpr ⟨l, found⟩
    cases e with
    | directory => exact absurd there (isDirectory_eq_false_iff.mp file)
    | file content isExecutable =>
      have short : content.size < size := Nat.lt_of_not_le fun full ↦
        small ⟨content, isExecutable, there, full⟩
      exact if_pos short

/-- Rotation moves a log that has grown to the number 1 and each log that is set aside, below the
greatest number, up by one, if the file system takes their new paths; a number that is missing
leaves the next one missing. The log with the greatest number goes, and no other entry changes.
Where no log has grown nothing changes at all. -/
theorem rotate_shifts (coherent : t.Coherent) (named : Path.fileName? path = some name)
    (keeps : 1 ≤ kept) (file : t.isDirectory path = false)
    (files : ∀ i, 1 ≤ i → i ≤ kept → t.isDirectory (numbered path i) = false) :
    (Grown t path size → HasRoom t path kept →
      ∃ u, rotate t path size kept = (.ok (), u) ∧ Shifted t u path kept) ∧
    (¬ Grown t path size → rotate t path size kept = (.ok (), t)) := by
  refine ⟨fun grown room ↦ ?_, fun small ↦ rotate_of_not_grown file small kept⟩
  obtain ⟨d, content, isExecutable, h, full, found⟩ := grown.exists_stands named
  obtain ⟨n, rfl⟩ := Nat.exists_eq_add_of_le' keeps
  obtain ⟨t₁, drop, dropped⟩ := h.dropOldest coherent keeps
    (place_of_pos path keeps ▸ files (n + 1) keeps le_rfl)
  have stands₁ := h.of_sameDirectories dropped.same
  have ready : Ready path t₁ 1 n := {
    coherent := dropped.coherent
    free := dropped.gone
    files i below above := by
      rw [isDirectory_eq_false_iff, dropped.outside h (by omega), ← isDirectory_eq_false_iff,
        place_of_pos path below]
      exact files i below (by omega)
    fits i below above there := by
      rw [contains_eq, dropped.outside h (by omega), ← contains_eq,
        place_of_pos path below] at there
      rw [place_of_pos path (by omega)]
      exact room.next i below (by omega) there }
  obtain ⟨t₂, shift, upper⟩ := stands₁.shift n ready
  have stands₂ := stands₁.of_sameDirectories upper.same
  have there₂ : t₂.at? (place path 0) = some (.file content isExecutable) := by
    rw [upper.outside stands₁ (.inl (by omega)), dropped.outside h (by omega)]
    exact at?_eq_some_iff.mpr ⟨_, found⟩
  obtain ⟨u, renamed, lower⟩ := stands₂.rename_place upper.coherent there₂ upper.gone room.first
  exact ⟨u, (rotate_of_grown found full drop shift).1 u renamed,
    h.shifted dropped (upper.trans stands₁ lower (by omega) (by omega))⟩

/-- A log with others beside it: the number 2 is missing, and the number 4 is beyond those kept. -/
def gappedLogs : FileTree where
  entries := [(["logs"], .directory),
    (["logs", "hub.log"], .file ⟨#[0, 0, 0]⟩ false),
    (["logs", "hub.log.1"], .file ⟨#[1]⟩ false),
    (["logs", "hub.log.3"], .file ⟨#[3]⟩ false),
    (["logs", "hub.log.4"], .file ⟨#[4]⟩ false),
    (["notes"], .file ⟨#[]⟩ true)]

/-- Of such logs the number 3 goes, and the gap moves to its place. -/
theorem rotate_gappedLogs : gappedLogs.Coherent ∧ Grown gappedLogs "logs/hub.log" 3 ∧
    HasRoom gappedLogs "logs/hub.log" 3 ∧
    ∃ u, rotate gappedLogs "logs/hub.log" 3 3 = (.ok (), u) ∧
      Shifted gappedLogs u "logs/hub.log" 3 := by
  have coherent : gappedLogs.Coherent := coherent_of_entries (by decide)
  have named : Path.fileName? "logs/hub.log" = some "hub.log" := by decide
  have grown : Grown gappedLogs "logs/hub.log" 3 := ⟨_, _, rfl, by decide⟩
  have number : ∀ i, 1 ≤ i → i ≤ 3 → i = 1 ∨ i = 2 ∨ i = 3 := by omega
  have room : HasRoom gappedLogs "logs/hub.log" 3 := by
    refine ⟨by decide +kernel, fun i below above _ ↦ ?_⟩
    obtain rfl | rfl | rfl := number i below above.le <;> decide +kernel
  have files : ∀ i, 1 ≤ i → i ≤ 3 →
      gappedLogs.isDirectory (numbered "logs/hub.log" i) = false := by
    intro i below above
    obtain rfl | rfl | rfl := number i below above <;> decide +kernel
  exact ⟨coherent, grown, room,
    (rotate_shifts coherent named (by decide) (by decide +kernel) files).1 grown room⟩

/-! ### Names without room for a number -/

/-- A name that is too long with a dot and a digit behind it gets no number. -/
theorem not_fits_place (named : Path.fileName? path = some name)
    (long : longestName < name.utf8ByteSize + 2) (n : Nat) : ¬ Fits (place path (n + 1)) := by
  intro fits
  have last : Path.fileName? (place path (n + 1)) = some (placeName name (n + 1)) := by
    rw [Path.fileName?_eq_some_iff, place, (isSibling_numbered named n).parts, List.getLast?_concat]
    refine ⟨rfl, fun up ↦ ?_⟩
    have := length_placeName_succ named n
    simp [up] at this
  have short := fits.2 _ last
  have digits : 0 < (n + 1).repr.utf8ByteSize := by
    refine Nat.pos_of_ne_zero fun empty ↦ ?_
    rw [String.utf8ByteSize_eq_zero_iff, ← String.toList_inj, Nat.toList_repr] at empty
    exact Nat.toDigits_ne_nil empty
  have sized : (placeName name (n + 1)).utf8ByteSize =
      name.utf8ByteSize + 1 + (n + 1).repr.utf8ByteSize := by
    have printed : placeName name (n + 1) = name ++ "." ++ (n + 1).repr := rfl
    rw [printed, String.utf8ByteSize_append, String.utf8ByteSize_append]
    rfl
  omega

/-- A log with such a name is never set aside: when it has grown, each rotation fails and changes
nothing. -/
theorem rotate_of_long_name (named : Path.fileName? path = some name)
    (long : longestName < name.utf8ByteSize + 2) (keeps : 1 ≤ kept) (grown : Grown t path size) :
    ∃ fault, rotate t path size kept = (.error fault, t) := by
  obtain ⟨d, content, isExecutable, h, full, found⟩ := grown.exists_stands named
  have missing : ∀ n, t.contains (place path (n + 1)) = false := fun n ↦ by
    rw [contains_eq, h.at?_place, if_neg (not_fits_place named long n)]
    rfl
  have shifted : ∀ n, shift path n t = (.ok (), t) := fun n ↦ by
    induction n with
    | zero => rfl
    | succ n ih => rw [Log.shift_succ, missing, if_neg Bool.false_ne_true, ih]
  have dropped : dropOldest t path kept = .ok t := by
    obtain ⟨n, rfl⟩ := Nat.exists_eq_add_of_le' keeps
    rw [dropOldest, ← place_of_pos path keeps, missing]
    rfl
  obtain ⟨fault, refused⟩ : ∃ fault, t.rename path (numbered path 1) = .error fault := by
    rw [rename, found]
    cases target : t.locate (numbered path 1) with
    | error fault => exact ⟨fault, rfl⟩
    | ok l => exact absurd ((h.locate_place 1).mp target).1 (not_fits_place named long 0)
  exact ⟨fault, (rotate_of_grown found full dropped (shifted _)).2 fault refused⟩

/-- A name of 254 bytes. -/
def longName : String := String.ofList (List.replicate 254 'x')

/-- A log of 10 bytes with that name. -/
def longNamed : FileTree where
  entries := [([longName], .file ⟨#[0, 1, 2, 3, 4, 5, 6, 7, 8, 9]⟩ false)]

/-- Such a log cannot be set aside: the rotation fails, and the log stays. -/
theorem rotate_longNamed : longNamed.Coherent ∧ Path.fileName? longName = some longName ∧
    Grown longNamed longName 10 ∧
    (∃ fault, rotate longNamed longName 10 3 = (.error fault, longNamed)) ∧
    ¬ Shifted longNamed longNamed longName 3 := by
  have text : longName.toList = List.replicate 254 'x' := String.toList_ofList
  have bytes : longName.utf8ByteSize = 254 := by decide +kernel
  have only : ∀ c ∈ longName.toList, c = 'x' := fun c hc ↦ List.eq_of_mem_replicate (text ▸ hc)
  have inside : '/' ∉ longName.toList := fun slash ↦ by cases only _ slash
  have parts : Path.parts longName = [longName] :=
    Path.parts_of_slash_notMem (by rw [text]; rfl) inside
  have leadsOn : longName ≠ ".." := by
    intro up
    rw [up] at bytes
    cases bytes
  have named : Path.fileName? longName = some longName := by
    rw [Path.fileName?_eq_some_iff, parts]
    exact ⟨rfl, leadsOn⟩
  have plain : asksDirectory longName = false := by
    rw [asksDirectory, Path.splitOn_of_slash_notMem inside, text]
    rfl
  have entered : longNamed.enter [] longName = .ok [longName] :=
    enter_eq_ok_iff.mpr ⟨rfl, .inr ⟨leadsOn, bytes ▸ by decide, rfl⟩⟩
  have located : longNamed.locate longName = .ok [longName] := by
    rw [locate_eq_ok_iff, parts, Path.isAbsolute_of_slash_notMem inside]
    refine ⟨⟨fun nul ↦ ?_, fun empty ↦ ?_, bytes ▸ by decide⟩, ?_⟩
    · cases only _ nul
    · rw [empty] at bytes
      cases bytes
    · rw [List.foldlM_cons, bind_eq_ok_iff]
      exact ⟨[longName], entered, rfl⟩
  have entry : longNamed.get? [longName] =
      some (.file ⟨#[0, 1, 2, 3, 4, 5, 6, 7, 8, 9]⟩ false) := by
    simp [get?, longNamed]
  have there := (at?_of_locate located plain).trans entry
  have grown : Grown longNamed longName 10 := ⟨_, _, there, by decide⟩
  refine ⟨coherent_of_entries (by decide), named, grown,
    rotate_of_long_name named (bytes ▸ by decide) (by decide) grown, fun shifted ↦ ?_⟩
  rw [shifted.gone] at there
  cases there

end LanguageHub.Log
