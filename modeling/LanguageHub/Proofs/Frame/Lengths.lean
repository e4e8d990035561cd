import LanguageHub.Frame.Basic
import LanguageHub.Proofs.Text

/-!
# The lengths that headers announce

The grammar of a header, as far as the length of the body goes. The first line that announces a
length decides: either its value is a numeral of a 64-bit word, and that is the length, or the
header is a protocol failure, whatever later lines announce (`contentLength_iff`).
-/

namespace LanguageHub

namespace Text

/-- A list is cut at the first separator in it. -/
theorem splitAtFirst_eq_some_iff {sep : Char} {cs before after : List Char} :
    splitAtFirst sep cs = some (before, after) ↔ cs = before ++ sep :: after ∧ sep ∉ before := by
  induction cs generalizing before with
  | nil => simp [splitAtFirst]
  | cons c cs ih =>
    rw [splitAtFirst]
    split
    · next same =>
      -- The cut is here: no separator can be passed over.
      subst same
      rw [Option.some.injEq, Prod.mk.injEq]
      constructor
      · rintro ⟨rfl, rfl⟩
        exact ⟨rfl, List.not_mem_nil⟩
      · rintro ⟨whole, clean⟩
        cases before with
        | nil => exact ⟨rfl, (List.cons.inj whole).2⟩
        | cons b before =>
          rw [List.cons_append, List.cons.injEq] at whole
          exact absurd (whole.1 ▸ List.mem_cons_self) clean
    · next other =>
      rw [Option.map_eq_some_iff]
      constructor
      · rintro ⟨⟨front, rest⟩, cut, same⟩
        obtain ⟨rfl, rfl⟩ := Prod.mk.inj same
        obtain ⟨rfl, clean⟩ := ih.mp cut
        exact ⟨rfl, List.not_mem_cons_of_ne_of_not_mem (Ne.symm other) clean⟩
      · rintro ⟨whole, clean⟩
        cases before with
        | nil => exact absurd (List.cons.inj whole).1 other
        | cons b before =>
          rw [List.cons_append, List.cons.injEq] at whole
          obtain ⟨rfl, rest⟩ := whole
          exact ⟨(before, after), ih.mpr ⟨rest, List.not_mem_of_not_mem_cons clean⟩, rfl⟩

end Text

namespace Frame

variable {line value cs : List Char} {lines : List (List Char)} {header : String}

/-- A header line that announces a length: the text before its first colon is, without the blanks
around it and whatever the case of its letters, `Content-Length`. What stands behind the colon is
the value. -/
def LineAnnounces (line value : List Char) : Prop :=
  ∃ name, line = name ++ ':' :: value ∧ ':' ∉ name ∧
    (Text.trimList name).map Char.toLower = "Content-Length".toList.map Char.toLower

/-- The value of the first line among lines that announces a length. -/
def FirstAnnounces (lines : List (List Char)) (value : List Char) : Prop :=
  ∃ before line after, lines = before ++ line :: after ∧ LineAnnounces line value ∧
    ∀ l ∈ before, ∀ v, ¬ LineAnnounces l v

/-- Whether a line announces a length is found out by cutting it at its first colon. -/
theorem lineAnnounces_iff : LineAnnounces line value ↔
    ∃ name, Text.splitAtFirst ':' line = some (name, value) ∧ announcesLength name := by
  have lower : "Content-Length".toList.map Char.toLower = "content-length".toList := by decide
  simp only [LineAnnounces, Text.splitAtFirst_eq_some_iff, announcesLength, beq_iff_eq, lower,
    and_assoc]

/-- A first line that announces nothing is passed over. -/
theorem firstAnnounces_cons_of_not (none : ∀ v, ¬ LineAnnounces line v) :
    FirstAnnounces (line :: lines) value ↔ FirstAnnounces lines value := by
  constructor
  · rintro ⟨before, l, after, whole, announces, first⟩
    cases before with
    | nil =>
      obtain ⟨rfl, -⟩ := List.cons.inj whole
      exact absurd announces (none value)
    | cons b before =>
      rw [List.cons_append, List.cons.injEq] at whole
      exact ⟨before, l, after, whole.2, announces, (List.forall_mem_cons.mp first).2⟩
  · rintro ⟨before, l, after, rfl, announces, first⟩
    exact ⟨line :: before, l, after, rfl, announces, List.forall_mem_cons.mpr ⟨none, first⟩⟩

/-- A line announces at most one value. -/
theorem LineAnnounces.unique {other : List Char} (h : LineAnnounces line value)
    (h' : LineAnnounces line other) : value = other := by
  obtain ⟨name, cut, -⟩ := lineAnnounces_iff.mp h
  obtain ⟨name', cut', -⟩ := lineAnnounces_iff.mp h'
  exact (Prod.mk.inj (Option.some.inj (cut.symm.trans cut'))).2

/-- A first line that announces a length decides. -/
theorem firstAnnounces_cons (announces : LineAnnounces line cs) :
    FirstAnnounces (line :: lines) value ↔ value = cs := by
  constructor
  · rintro ⟨before, l, after, whole, other, first⟩
    cases before with
    | nil =>
      obtain ⟨rfl, -⟩ := List.cons.inj whole
      exact other.unique announces
    | cons b before =>
      rw [List.cons_append, List.cons.injEq] at whole
      exact absurd (whole.1 ▸ announces) (first b List.mem_cons_self cs)
  · rintro rfl
    exact ⟨[], line, lines, rfl, announces, nofun⟩

/-- The text of the length is the value of the first line that announces one, without the blanks
around it. -/
theorem lengthText?_eq_some_iff :
    lengthText? lines = some cs ↔
      ∃ value, FirstAnnounces lines value ∧ cs = Text.trimList value := by
  induction lines with
  | nil =>
    rw [lengthText?]
    refine ⟨nofun, ?_⟩
    rintro ⟨value, ⟨before, line, after, whole, -⟩, -⟩
    simp at whole
  | cons line rest ih =>
    rw [lengthText?]
    split
    · next uncut =>
      have none (v : List Char) : ¬ LineAnnounces line v := by
        rw [lineAnnounces_iff, uncut]
        rintro ⟨_, ⟨⟩, -⟩
      simp only [firstAnnounces_cons_of_not none, ih]
    · next name v cut =>
      split
      · next length =>
        have announces : LineAnnounces line v := lineAnnounces_iff.mpr ⟨name, cut, length⟩
        simp only [firstAnnounces_cons announces, exists_eq_left, Option.some.injEq]
        exact eq_comm
      · next other =>
        have none (w : List Char) : ¬ LineAnnounces line w := by
          rw [lineAnnounces_iff, cut]
          rintro ⟨_, same, length⟩
          cases same
          exact other length
        simp only [firstAnnounces_cons_of_not none, ih]

/-- There is no text of a length if no line announces one. -/
theorem lengthText?_eq_none_iff :
    lengthText? lines = none ↔ ∀ value, ¬ FirstAnnounces lines value := by
  rw [Option.eq_none_iff_forall_ne_some]
  simp only [Ne, lengthText?_eq_some_iff]
  exact ⟨fun none value first ↦ none _ ⟨value, first, rfl⟩,
    fun none _ ⟨value, first, _⟩ ↦ none value first⟩

private theorem le_word64_iff (n : Nat) : n ≤ Text.word64 ↔ n < UInt64.size := Nat.lt_succ_iff.symm

/-- A header gives a length if its text of the length is a numeral that fits. -/
theorem contentLength_eq_ok_iff {n : Nat} : contentLength header = .ok n ↔
    ∃ text, lengthText? (Text.lines header.toList) = some text ∧ Text.IsNumeral text n ∧
      n < UInt64.size := by
  simp only [← le_word64_iff, ← Text.readNumeral_eq_ok_iff]
  unfold contentLength
  split
  · next none => simp [none]
  · next text found =>
    simp only [found, Option.some.injEq, exists_eq_left']
    split
    · next read => rw [read, Except.ok.injEq, Except.ok.injEq]
    · next refused => simp [refused]

/-- Why a header gives no length. -/
theorem contentLength_eq_error_iff {f : Failure} : contentLength header = .error f ↔
    lengthText? (Text.lines header.toList) = none ∧
        f = .protocol "missing Content-Length header" ∨
      ∃ text, lengthText? (Text.lines header.toList) = some text ∧
        (∀ n, Text.IsNumeral text n → UInt64.size ≤ n) ∧
        f = .protocol s!"invalid Content-Length: {String.ofList text}" := by
  have refused_iff (text : List Char) : (∀ n, Text.IsNumeral text n → UInt64.size ≤ n) ↔
      ∀ n, Text.readNumeral Text.word64 text ≠ .ok n := by
    simp only [Ne, Text.readNumeral_eq_ok_iff, le_word64_iff, not_and, Nat.not_lt]
  simp only [refused_iff]
  unfold contentLength
  split
  · next none => simp [none, eq_comm]
  · next text found =>
    simp only [found, reduceCtorEq, false_and, false_or, Option.some.injEq, exists_eq_left']
    split
    · next read => simp [read]
    · next refused => simp [refused, eq_comm]

/-- A header announces the length `n` exactly if the value of its first line that announces a length
is, without the blanks around it, a numeral for `n`, and `n` fits 64 bits. In all other cases it is
a protocol failure, which says whether there was no such line or what the value was. -/
theorem contentLength_iff (header : String) :
    (∀ n, contentLength header = .ok n ↔ ∃ value,
      FirstAnnounces (Text.lines header.toList) value ∧
        Text.IsNumeral (Text.trimList value) n ∧ n < UInt64.size) ∧
    ∀ f, contentLength header = .error f ↔
      (∀ value, ¬ FirstAnnounces (Text.lines header.toList) value) ∧
          f = .protocol "missing Content-Length header" ∨
        ∃ value, FirstAnnounces (Text.lines header.toList) value ∧
          (∀ n, Text.IsNumeral (Text.trimList value) n → UInt64.size ≤ n) ∧
          f = .protocol s!"invalid Content-Length: {String.ofList (Text.trimList value)}" := by
  constructor
  · intro n
    rw [contentLength_eq_ok_iff]
    simp only [lengthText?_eq_some_iff]
    constructor
    · rintro ⟨_, ⟨value, first, rfl⟩, fits⟩
      exact ⟨value, first, fits⟩
    · rintro ⟨value, first, fits⟩
      exact ⟨_, ⟨value, first, rfl⟩, fits⟩
  · intro f
    rw [contentLength_eq_error_iff, lengthText?_eq_none_iff]
    simp only [lengthText?_eq_some_iff]
    refine or_congr_right ?_
    constructor
    · rintro ⟨_, ⟨value, first, rfl⟩, refused⟩
      exact ⟨value, first, refused⟩
    · rintro ⟨value, first, refused⟩
      exact ⟨_, ⟨value, first, rfl⟩, refused⟩

/-- The first line that announces a length decides, whatever a later one announces. -/
example : contentLength "Accept: x\r\n content-LENGTH : +007\r\nContent-Length: 9\r\n" = .ok 7 :=
  rfl

end Frame

end LanguageHub
