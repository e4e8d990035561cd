import LanguageHub.Json.Printer
import LanguageHub.Proofs.Json.Readers
import LanguageHub.Proofs.Text
import Mathlib.Data.List.Forall2

/-!
# Values that are written are read back

Texts, integers that fit a 64-bit word, lists, and objects with their members in order are read back
from their text, as long as they do not nest too deep (`parse_render`).
-/

namespace LanguageHub.Json

variable {cs rest : List Char}

/-! ### Texts -/

/-- The digits of an escape are read back. -/
private theorem hexValue?_hexDigit : ∀ n < 16, Text.hexValue? (Text.hexDigit false n) = some n := by
  decide

/-- An escaped character is read as the character. -/
theorem scanStringFrom_escapeChar (c : Char) (read rest : List Char) :
    scanStringFrom .plain read (escapeChar c ++ rest) = scanStringFrom .plain (c :: read) rest := by
  unfold escapeChar
  split
  case h_8 _ hquote hbackslash _ _ _ _ _ =>
    split
    · next control =>
      have high := hexValue?_hexDigit (c.toNat / 16) (by omega)
      have low := hexValue?_hexDigit (c.toNat % 16) (by omega)
      have zero : Text.hexValue? '0' = some 0 := by decide
      have unit : c.toNat / 16 * 16 + c.toNat % 16 = c.toNat := by omega
      have noLow : isLowSurrogate c.toNat = false := by simp [isLowSurrogate]; omega
      have noHigh : isHighSurrogate c.toNat = false := by simp [isHighSurrogate]; omega
      simp [scanStringFrom, shortEscape?, zero, high, low, unit, noLow, noHigh]
    · next printable =>
      have hquote : c ≠ '"' := fun h ↦ hquote h
      have hbackslash : c ≠ '\\' := fun h ↦ hbackslash h
      simp [scanStringFrom, hquote, hbackslash, printable]
  all_goals rfl

/-- A text is read back behind its opening quote. -/
theorem scanString_escaped (s : String) (rest : List Char) :
    scanString (s.toList.flatMap escapeChar ++ '"' :: rest) = .ok (s, rest) := by
  have key : ∀ cs read, scanStringFrom .plain read (cs.flatMap escapeChar ++ '"' :: rest) =
      .ok (String.ofList (read.reverse ++ cs), rest) := by
    intro cs
    induction cs with
    | nil =>
      intro read
      simp [scanStringFrom]
    | cons c cs ih =>
      intro read
      rw [List.flatMap_cons, List.append_assoc, scanStringFrom_escapeChar, ih]
      simp
  rw [scanString, key, List.reverse_nil, List.nil_append, String.ofList_toList]

/-! ### Integers -/

/-- No number goes on with these characters. -/
def Stops (rest : List Char) : Prop :=
  ∀ c ∈ rest.head?, c.isDigit = false ∧ c ≠ '.' ∧ c ≠ 'e' ∧ c ≠ 'E'

theorem stops_nil : Stops [] := by simp [Stops]

theorem stops_comma (rest : List Char) : Stops (',' :: rest) := by simp [Stops]

theorem stops_bracket (rest : List Char) : Stops (']' :: rest) := by simp [Stops]

theorem stops_brace (rest : List Char) : Stops ('\x7d' :: rest) := by simp [Stops]

private theorem isDigit_toDigits (n : Nat) : ∀ c ∈ Nat.toDigits 10 n, c.isDigit = true := fun _ hc ↦
  Nat.isDigit_of_mem_toDigits (by decide) (by decide) hc

/-- The digits of a number have no zero in front of others. -/
private theorem toDigits_ne_zero_cons (n : Nat) (c : Char) (ds : List Char) :
    Nat.toDigits 10 n ≠ '0' :: c :: ds := by
  induction n using Nat.strongRecOn generalizing c ds with
  | ind n ih =>
    intro h
    by_cases hn : n < 10
    · rw [Nat.toDigits_of_lt_base hn] at h
      exact absurd (congrArg List.length h) (by simp)
    · rw [Nat.toDigits_of_base_le (by decide) (Nat.le_of_not_lt hn)] at h
      have hvalue := Nat.ofDigitChars_ten_toDigits (n := n / 10)
      cases hfirst : Nat.toDigits 10 (n / 10) with
      | nil => exact Nat.toDigits_ne_nil hfirst
      | cons d rest =>
        rw [hfirst, List.cons_append] at h
        obtain rfl : d = '0' := (List.cons.inj h).1
        cases rest with
        | nil =>
          have hzero : n / 10 = 0 := by rw [← hvalue, hfirst]; rfl
          omega
        | cons e rest => exact ih (n / 10) (by omega) e rest hfirst

/-- The value of digits is their significand, if it fits. -/
private theorem significand_eq (hd : ∀ c ∈ cs, c.isDigit = true) {n : Nat}
    (fits : Nat.ofDigitChars 10 cs n ≤ Text.word64) :
    significand n cs = (Nat.ofDigitChars 10 cs n, 0) := by
  induction cs generalizing n with
  | nil => simp [significand]
  | cons c cs ih =>
    rw [Nat.ofDigitChars_cons, Nat.mul_comm] at fits ⊢
    have hnext := Nat.le_trans (Text.le_ofDigitChars cs _) fits
    rw [significand, if_pos hnext]
    exact ih (fun d h ↦ hd d (List.mem_cons_of_mem _ h)) fits

/-- Digits are a number without fraction and exponent. -/
private theorem scanNumberText_toDigits (n : Nat) (stops : Stops rest) :
    scanNumberText (Nat.toDigits 10 n ++ rest) = .ok (⟨Nat.toDigits 10 n, none, none⟩, rest) := by
  have hspan : (Nat.toDigits 10 n ++ rest).span Char.isDigit = (Nat.toDigits 10 n, rest) := by
    rw [List.span_eq_takeWhile_dropWhile, List.takeWhile_append_of_pos (isDigit_toDigits n),
      List.dropWhile_append_of_pos (isDigit_toDigits n)]
    cases rest with
    | nil => simp
    | cons c rest =>
      have hc : c.isDigit = false := (stops c rfl).1
      simp [hc]
  have hexponent : scanExponent? rest = .ok (none, rest) := by
    cases rest with
    | nil => rfl
    | cons c rest =>
      obtain ⟨-, -, he, hE⟩ := stops c rfl
      simp [scanExponent?, he, hE]
  rw [scanNumberText, hspan]
  dsimp only
  split
  · next h => exact absurd h Nat.toDigits_ne_nil
  · next h => exact absurd h (toDigits_ne_zero_cons n _ _)
  · split
    · exact absurd rfl (stops '.' rfl).2.1
    · rw [hexponent]
      rfl

/-- An integer of a 64-bit word. -/
def IsWord (n : Int) : Prop := -0x8000000000000000 ≤ n ∧ n ≤ 0xFFFFFFFFFFFFFFFF

/-- A number is read back from its digits, behind its sign if it has one. -/
private theorem scanNumber_toDigits (negative : Bool) (n : Nat)
    (fits : n ≤ if negative then 0x8000000000000000 else 0xFFFFFFFFFFFFFFFF)
    (signed : negative → 0 < n) (stops : Stops rest) :
    scanNumber negative (Nat.toDigits 10 n ++ rest) =
      .ok (.integer (if negative then -n else n), rest) := by
  have hword : n ≤ Text.word64 := fits.trans (by split <;> decide)
  have hdigits := Nat.ofDigitChars_ten_toDigits (n := n)
  have hsignificand : significand 0 (Nat.toDigits 10 n) = (n, 0) := by
    rw [significand_eq (isDigit_toDigits n) (hdigits.le.trans hword), hdigits]
  have hvalue : NumberText.value ⟨Nat.toDigits 10 n, none, none⟩ negative =
      .ok (.integer (if negative then -n else n)) := by
    cases negative with
    | false => simp [NumberText.value, hsignificand]
    | true =>
      have fits : n ≤ 0x8000000000000000 := fits
      simp [NumberText.value, hsignificand, signed rfl, fits]
  rw [scanNumber, scanNumberText_toDigits n stops]
  change (NumberText.value _ negative >>= fun m ↦ Except.ok (m, rest)) = _
  rw [hvalue]
  rfl

private theorem toList_toString (m : Nat) : (toString m).toList = Nat.toDigits 10 m := by
  rw [Nat.toString_eq_ofList_toDigits, String.toList_ofList]

private theorem renderNumber_ofNat (m : Nat) :
    renderNumber (.integer (Int.ofNat m)) = Nat.toDigits 10 m := toList_toString m

private theorem renderNumber_negSucc (m : Nat) :
    renderNumber (.integer (Int.negSucc m)) = '-' :: Nat.toDigits 10 (m + 1) := by
  rw [renderNumber, ← toList_toString (m + 1)]
  simp [Int.toString_eq_repr, Int.repr]

/-- The text of an integer is a number behind its sign. -/
theorem scanNumber_renderNumber {n : Int} (word : IsWord n) (stops : Stops rest) :
    (∃ c more, renderNumber (.integer n) ++ rest = c :: more ∧ c.isDigit = true ∧
      scanNumber false (c :: more) = .ok (.integer n, rest)) ∨
    ∃ more, renderNumber (.integer n) ++ rest = '-' :: more ∧
      scanNumber true more = .ok (.integer n, rest) := by
  cases n with
  | ofNat m =>
    obtain ⟨c, cs, hcs⟩ := List.exists_cons_of_ne_nil (Nat.toDigits_ne_nil (n := m) (b := 10))
    have digit : c.isDigit = true := isDigit_toDigits m c (hcs ▸ List.mem_cons_self)
    have fits : m ≤ 0xFFFFFFFFFFFFFFFF := Int.ofNat_le.mp word.2
    have hread := scanNumber_toDigits false m fits (by simp) stops
    have text : renderNumber (.integer (.ofNat m)) ++ rest = c :: (cs ++ rest) := by
      rw [renderNumber_ofNat, hcs, List.cons_append]
    rw [hcs] at hread
    exact .inl ⟨c, cs ++ rest, text, digit, hread⟩
  | negSucc m =>
    have fits : m + 1 ≤ 0x8000000000000000 := by
      have := word.1
      omega
    exact .inr ⟨_, congrArg (· ++ rest) (renderNumber_negSucc m),
      scanNumber_toDigits true (m + 1) fits (by simp) stops⟩

/-- An integer is read back. -/
theorem readValue_renderNumber {n : Int} (word : IsWord n) (stops : Stops rest) (depth : Nat) :
    readValue depth (renderNumber (.integer n) ++ rest) = .ok (.ofInt n, rest) := by
  obtain ⟨c, more, text, digit, scan⟩ | ⟨more, text, scan⟩ := scanNumber_renderNumber word stops
  · rw [text, readValue_of_isDigit digit, scan]
    rfl
  · have hspace (cs : List Char) : skipSpace ('-' :: cs) = '-' :: cs := rfl
    rw [text, readValue.eq_def]
    dsimp only
    rw [hspace]
    simp only [Char.reduceEq, if_false, if_true, scan]
    rfl

/-! ### Values -/

mutual

/-- The value has at most so many levels of containers, its numbers are integers of a 64-bit word,
and the members of its objects are in order. -/
def Plain : Nat → Json → Prop
  | _, .null | _, .bool _ | _, .text _ => True
  | _, .number (.integer n) => IsWord n
  | _, .number (.float _) => False
  | 0, .array _ | 0, .object _ => False
  | levels + 1, .array items => PlainItems levels items
  | levels + 1, .object members => ofMembers members = .object members ∧ PlainMembers levels members

/-- Each item is plain. -/
def PlainItems : Nat → List Json → Prop
  | _, [] => True
  | levels, item :: items => item.Plain levels ∧ PlainItems levels items

/-- The value of each member is plain. -/
def PlainMembers : Nat → List (String × Json) → Prop
  | _, [] => True
  | levels, (_, value) :: members => value.Plain levels ∧ PlainMembers levels members

end

/-- The text of this value begins with a token that closes no list, and it is read back whatever
stands behind it, if that does not go on with a number. -/
structure ReadsBack (depth : Nat) (v : Json) : Prop where
  begins : ∃ c cs, v.renderList = c :: cs ∧ isSpace c = false ∧ c ≠ ']'
  reads : ∀ rest, Stops rest → readValue depth (v.renderList ++ rest) = .ok (v, rest)

private theorem skipSpace_of_token {c : Char} (token : isSpace c = false) (cs : List Char) :
    skipSpace (c :: cs) = c :: cs :=
  List.dropWhile_cons_of_neg (by simp [token])

private theorem stops_renderItems (items : List Json) (rest : List Char) :
    Stops (renderItems items ++ ']' :: rest) := by
  cases items with
  | nil => exact stops_bracket rest
  | cons item items => exact stops_comma _

private theorem stops_renderMembers (members : List (String × Json)) (rest : List Char) :
    Stops (renderMembers members ++ '\x7d' :: rest) := by
  cases members with
  | nil => exact stops_brace rest
  | cons member members => exact stops_comma _

private theorem length_renderItems (items : List Json) :
    items.length ≤ (renderItems items).length := by
  induction items with
  | nil => exact Nat.le_refl _
  | cons item items ih =>
    simp only [renderItems, List.length_cons, List.length_append]
    omega

private theorem length_renderMembers (members : List (String × Json)) :
    members.length ≤ (renderMembers members).length := by
  induction members with
  | nil => exact Nat.le_refl _
  | cons member members ih =>
    simp only [renderMembers, List.length_cons, List.length_append]
    omega

/-- The items after the first are read back. -/
private theorem readItems_renderItems {depth : Nat} {items : List Json}
    (all : ∀ item ∈ items, item.ReadsBack depth) {steps : Nat} (enough : items.length < steps)
    (before : List Json) (rest : List Char) :
    readItems (readItem depth) steps false before (renderItems items ++ ']' :: rest) =
      .ok (items.reverse ++ before, rest) := by
  induction items generalizing steps before with
  | nil =>
    cases steps with
    | zero => cases enough
    | succ steps => rfl
  | cons item items ih =>
    cases steps with
    | zero => cases enough
    | succ steps =>
      obtain ⟨⟨c, cs, htext, token, bracket⟩, reads⟩ := all item List.mem_cons_self
      have hitem := reads _ (stops_renderItems items rest)
      have hnext : nextItem false (',' :: (item.renderList ++ (renderItems items ++ ']' :: rest))) =
          .ok (true, item.renderList ++ (renderItems items ++ ']' :: rest)) := by
        rw [htext, List.cons_append]
        simp [nextItem, skipSpace_of_token token, bracket,
          skipSpace_of_token (c := ',') (by decide)]
      have hrest := ih (fun item h ↦ all item (List.mem_cons_of_mem _ h))
        (Nat.lt_of_succ_lt_succ enough) (item :: before)
      rw [renderItems, List.cons_append, List.append_assoc, readItems, hnext]
      change
        (readItem depth before _ >>= fun p ↦ readItems (readItem depth) steps false p.1 p.2) = _
      rw [readItem, hitem]
      rw [List.reverse_cons, List.append_assoc]
      exact hrest

/-- The characters of a member, behind the quote of its name. -/
private def renderMember (name : String) (value : Json) (rest : List Char) : List Char :=
  name.toList.flatMap escapeChar ++ '"' :: ':' :: (value.renderList ++ rest)

/-- The colon in front of a value is read. -/
theorem readColon_cons (cs : List Char) : readColon (':' :: cs) = .ok cs := by
  simp [readColon, skipSpace_of_token (c := ':') (by decide)]

section Members

/-! A reader of members that keeps an entry for each of them keeps one for every member that is
written. `E` says which entry it keeps for which member. -/

variable {τ : Type} {member : String → List τ → Reader (List τ)} {E : String × Json → τ → Prop}

/-- The reader keeps an entry for a member in front of those that it kept before. -/
def Keeps (member : String → List τ → Reader (List τ)) (E : String × Json → τ → Prop)
    (m : String × Json) : Prop :=
  ∀ before rest, Stops rest →
    ∃ e, E m e ∧ member m.1 before (':' :: (m.2.renderList ++ rest)) = .ok (e :: before, rest)

/-- A member is read. -/
private theorem readMembers_renderMember {steps : Nat} {isFirst : Bool} {name : String}
    {value : Json} (keeps : Keeps member E (name, value)) (stops : Stops rest)
    (next : nextMember isFirst cs = .ok (true, renderMember name value rest)) (before : List τ) :
    ∃ e, E (name, value) e ∧ readMembers member (steps + 1) isFirst before cs =
      readMembers member steps false (e :: before) rest := by
  obtain ⟨e, he, hmember⟩ := keeps before rest stops
  have hname := scanString_escaped name (':' :: (value.renderList ++ rest))
  refine ⟨e, he, ?_⟩
  rw [readMembers, next]
  change (scanString (renderMember name value rest) >>= fun p ↦
    member p.1 before p.2 >>= fun q ↦ readMembers member steps false q.1 q.2) = _
  rw [renderMember, hname]
  change (member name before (':' :: (value.renderList ++ rest)) >>= fun q ↦
    readMembers member steps false q.1 q.2) = _
  rw [hmember]
  rfl

/-- The members after the first are read. -/
private theorem readMembers_renderMembers {members : List (String × Json)}
    (all : ∀ m ∈ members, Keeps member E m) {steps : Nat} (enough : members.length < steps)
    (before : List τ) (rest : List Char) :
    ∃ es, List.Forall₂ E members es ∧
      readMembers member steps false before (renderMembers members ++ '\x7d' :: rest) =
        .ok (es.reverse ++ before, rest) := by
  induction members generalizing steps before with
  | nil =>
    cases steps with
    | zero => cases enough
    | succ steps => exact ⟨[], .nil, rfl⟩
  | cons m members ih =>
    obtain ⟨name, value⟩ := m
    cases steps with
    | zero => cases enough
    | succ steps =>
      have hnext : nextMember false
          (renderMembers ((name, value) :: members) ++ '\x7d' :: rest) =
          .ok (true, renderMember name value (renderMembers members ++ '\x7d' :: rest)) := by
        simp [nextMember, renderMembers, renderText, renderMember,
          skipSpace_of_token (c := ',') (by decide), skipSpace_of_token (c := '"') (by decide)]
      obtain ⟨e, he, hfirst⟩ := readMembers_renderMember (all _ List.mem_cons_self)
        (stops_renderMembers members rest) hnext before
      obtain ⟨es, hes, hrest⟩ := ih (fun m h ↦ all m (List.mem_cons_of_mem _ h))
        (Nat.lt_of_succ_lt_succ enough) (e :: before)
      refine ⟨e :: es, .cons he hes, ?_⟩
      rw [hfirst, hrest, List.reverse_cons, List.append_assoc]
      rfl

/-- The members of an object are read behind its brace. -/
theorem readMembers_renderList {members : List (String × Json)}
    (all : ∀ m ∈ members, Keeps member E m) (rest : List Char) :
    ∃ cs es, (Json.object members).renderList ++ rest = '\x7b' :: cs ∧
      List.Forall₂ E members es ∧
      readMembers member (cs.length + 1) true [] cs = .ok (es.reverse, rest) := by
  cases members with
  | nil => exact ⟨_, [], rfl, .nil, rfl⟩
  | cons m members =>
    obtain ⟨name, value⟩ := m
    refine ⟨'"' :: (name.toList.flatMap escapeChar ++
      '"' :: ':' :: (value.renderList ++ (renderMembers members ++ '\x7d' :: rest))), ?_⟩
    have hnext : nextMember true ('"' :: (name.toList.flatMap escapeChar ++
        '"' :: ':' :: (value.renderList ++ (renderMembers members ++ '\x7d' :: rest)))) =
        .ok (true, renderMember name value (renderMembers members ++ '\x7d' :: rest)) := by
      simp [nextMember, renderMember, skipSpace_of_token (c := '"') (by decide)]
    have enough : members.length < ('"' :: (name.toList.flatMap escapeChar ++
        '"' :: ':' :: (value.renderList ++
          (renderMembers members ++ '\x7d' :: rest)))).length := by
      have := length_renderMembers members
      simp only [List.length_append, List.length_cons]
      omega
    obtain ⟨e, he, hfirst⟩ := readMembers_renderMember (all _ List.mem_cons_self)
      (stops_renderMembers members rest) hnext []
    obtain ⟨es, hes, hrest⟩ := readMembers_renderMembers
      (fun m h ↦ all m (List.mem_cons_of_mem _ h)) enough [e] rest
    refine ⟨e :: es, ?_, .cons he hes, ?_⟩
    · rw [renderList, List.cons_append, renderText]
      simp only [List.append_assoc, List.cons_append, List.nil_append]
    · rw [hfirst, hrest, List.reverse_cons]

end Members

/-- A value that is read back is kept with its name. -/
private theorem ReadsBack.keeps {depth : Nat} {m : String × Json} (back : m.2.ReadsBack depth) :
    Keeps (readMember depth) Eq m := by
  intro before rest stops
  refine ⟨m, rfl, ?_⟩
  rw [readMember, readColon_cons]
  change ((readValue depth (m.2.renderList ++ rest) >>= fun p ↦
    Except.ok ((m.1, p.1) :: before, p.2))) = _
  rw [back.reads rest stops]
  rfl

/-- A list is read back if its items are. -/
private theorem readsBack_array {depth : Nat} {items : List Json}
    (all : ∀ item ∈ items, item.ReadsBack (depth + 1)) :
    ReadsBack (depth + 2) (.array items) := by
  constructor
  · cases items <;> exact ⟨'[', _, rfl, by decide, by decide⟩
  · intro rest _
    have hspace (cs : List Char) : skipSpace ('[' :: cs) = '[' :: cs := rfl
    -- What stands behind the bracket.
    have inside (cs : List Char)
        (h : readItems (readItem (depth + 1)) (cs.length + 1) true [] cs =
          .ok (items.reverse, rest)) :
        readValue (depth + 2) ('[' :: cs) = .ok (.array items, rest) := by
      rw [readValue.eq_def]
      dsimp only
      rw [hspace]
      simp only [Char.reduceEq, Char.reduceIsDigit, if_false, if_true, Bool.false_eq_true]
      change (readItems (readItem (depth + 1)) _ true [] cs).map _ = _
      rw [h]
      simp [Except.map]
    cases items with
    | nil => exact inside _ rfl
    | cons item items =>
      obtain ⟨⟨c, cs, htext, token, bracket⟩, reads⟩ := all item List.mem_cons_self
      have hitem := reads _ (stops_renderItems items rest)
      rw [renderList, List.cons_append]
      simp only [List.append_assoc, List.singleton_append]
      apply inside
      have hnext : nextItem true (item.renderList ++ (renderItems items ++ ']' :: rest)) =
          .ok (true, item.renderList ++ (renderItems items ++ ']' :: rest)) := by
        rw [htext, List.cons_append]
        simp [nextItem, skipSpace_of_token token, bracket]
      have enough :
          items.length < (item.renderList ++ (renderItems items ++ ']' :: rest)).length := by
        have := length_renderItems items
        simp only [List.length_append, List.length_cons]
        omega
      rw [readItems, hnext]
      change (readItem (depth + 1) [] _ >>= fun p ↦
        readItems (readItem (depth + 1)) _ false p.1 p.2) = _
      rw [readItem, hitem, List.reverse_cons]
      exact readItems_renderItems (fun item h ↦ all item (List.mem_cons_of_mem _ h)) enough _ rest

/-- An object is read back if its members are in order and their values are read back. -/
private theorem readsBack_object {depth : Nat} {members : List (String × Json)}
    (order : ofMembers members = .object members)
    (all : ∀ m ∈ members, m.2.ReadsBack (depth + 1)) :
    ReadsBack (depth + 2) (.object members) := by
  constructor
  · cases members <;> exact ⟨'\x7b', _, rfl, by decide, by decide⟩
  · intro rest _
    obtain ⟨cs, es, htext, hes, hread⟩ :=
      readMembers_renderList (fun m h ↦ (all m h).keeps) rest
    rw [List.forall₂_eq_eq_eq] at hes
    subst hes
    have hspace : skipSpace ('\x7b' :: cs) = '\x7b' :: cs := rfl
    rw [htext, readValue.eq_def]
    dsimp only
    rw [hspace]
    simp only [Char.reduceEq, Char.reduceIsDigit, if_false, if_true, Bool.false_eq_true]
    change (readMembers (readMember (depth + 1)) _ true [] cs).map _ = _
    rw [hread]
    simp [Except.map, order]

private theorem readsBack_null (depth : Nat) : ReadsBack depth .null := by
  refine ⟨⟨'n', _, rfl, by decide, by decide⟩, fun rest _ ↦ ?_⟩
  have htext : renderList .null ++ rest = 'n' :: 'u' :: 'l' :: 'l' :: rest := rfl
  rw [htext, readValue.eq_def]
  rfl

private theorem readsBack_bool (depth : Nat) (b : Bool) : ReadsBack depth (.bool b) := by
  cases b with
  | true =>
    refine ⟨⟨'t', _, rfl, by decide, by decide⟩, fun rest _ ↦ ?_⟩
    have htext : renderList (.bool true) ++ rest = 't' :: 'r' :: 'u' :: 'e' :: rest := rfl
    rw [htext, readValue.eq_def]
    rfl
  | false =>
    refine ⟨⟨'f', _, rfl, by decide, by decide⟩, fun rest _ ↦ ?_⟩
    have htext : renderList (.bool false) ++ rest = 'f' :: 'a' :: 'l' :: 's' :: 'e' :: rest := rfl
    rw [htext, readValue.eq_def]
    rfl

private theorem readsBack_text (depth : Nat) (s : String) : ReadsBack depth (.text s) := by
  refine ⟨⟨'"', _, rfl, by decide, by decide⟩, fun rest _ ↦ ?_⟩
  have hspace (cs : List Char) : skipSpace ('"' :: cs) = '"' :: cs := rfl
  rw [renderList, renderText, List.cons_append, List.append_assoc, readValue.eq_def]
  dsimp only
  rw [hspace]
  simp only [Char.reduceEq, Char.reduceIsDigit, if_false, if_true, Bool.false_eq_true,
    List.cons_append, List.nil_append, scanString_escaped]
  rfl

private theorem readsBack_integer (depth : Nat) {n : Int} (word : IsWord n) :
    ReadsBack depth (.number (.integer n)) := by
  refine ⟨?_, fun rest stops ↦ readValue_renderNumber word stops depth⟩
  cases n with
  | ofNat m =>
    obtain ⟨c, cs, hcs⟩ := List.exists_cons_of_ne_nil (Nat.toDigits_ne_nil (n := m) (b := 10))
    have digit : c.isDigit = true := isDigit_toDigits m c (hcs ▸ List.mem_cons_self)
    refine ⟨c, cs, (renderNumber_ofNat m).trans hcs, Bool.eq_false_iff.mpr fun space ↦ ?_, ?_⟩
    · simp only [isSpace, Bool.or_eq_true, beq_iff_eq] at space
      rcases space with ((rfl | rfl) | rfl) | rfl <;> exact absurd digit (by decide)
    · rintro rfl
      exact absurd digit (by decide)
  | negSucc m => exact ⟨'-', _, renderNumber_negSucc m, by decide, by decide⟩

mutual

/-- A plain value is read back. -/
theorem Plain.readsBack {levels : Nat} : ∀ {v : Json}, v.Plain levels → v.ReadsBack (levels + 1)
  | .null, _ => readsBack_null _
  | .bool b, _ => readsBack_bool _ b
  | .text s, _ => readsBack_text _ s
  | .number (.integer _), plain => readsBack_integer _ plain
  | .number (.float _), plain => plain.elim
  | .array items, plain => by
    cases levels with
    | zero => exact plain.elim
    | succ levels => exact readsBack_array (PlainItems.readsBack plain)
  | .object members, plain => by
    cases levels with
    | zero => exact plain.elim
    | succ levels => exact readsBack_object plain.1 (PlainMembers.readsBack plain.2)

/-- Plain items are read back. -/
theorem PlainItems.readsBack {levels : Nat} : ∀ {items : List Json}, PlainItems levels items →
    ∀ item ∈ items, item.ReadsBack (levels + 1)
  | [], _ => fun _ h ↦ absurd h List.not_mem_nil
  | item :: items, plain => by
    have first := Plain.readsBack plain.1
    have others := PlainItems.readsBack plain.2
    simpa [first] using others

/-- The values of plain members are read back. -/
theorem PlainMembers.readsBack {levels : Nat} : ∀ {members : List (String × Json)},
    PlainMembers levels members → ∀ m ∈ members, m.2.ReadsBack (levels + 1)
  | [], _ => fun _ h ↦ absurd h List.not_mem_nil
  | (name, value) :: members, plain => by
    have first := Plain.readsBack plain.1
    have others := PlainMembers.readsBack plain.2
    simpa [first] using others

end

/-- A plain value is read back from its text. -/
theorem parse_render {v : Json} (plain : v.Plain (maxDepth - 1)) : parse v.render = .ok v := by
  have hread := (Plain.readsBack plain).reads [] stops_nil
  rw [List.append_nil] at hread
  rw [parse, readWhole, render, String.toList_ofList]
  change (readValue maxDepth v.renderList >>= fun p ↦ readEnd p.2 >>= fun _ ↦ Except.ok p.1) = _
  rw [show maxDepth = maxDepth - 1 + 1 from rfl, hread]
  rfl

end LanguageHub.Json
