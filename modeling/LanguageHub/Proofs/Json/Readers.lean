import LanguageHub.Proofs.Json.Passing

/-!
# Readers that pass over what they read

Each reader of a value leaves what the passing over of this value leaves. For the readers of
containers this comes from the readers of their items and members.
-/

namespace LanguageHub.Json

variable {cs rest : List Char}

/-- A reader with a result that is changed. -/
theorem Passing.map {α β : Type} {reader : Reader α} (passing : Passing reader) (f : α → β) :
    Passing (fun cs ↦ (reader cs).map fun (a, rest) ↦ (f a, rest)) := by
  intro cs b rest h
  obtain ⟨⟨a, after⟩, hread, hrest⟩ := eq_ok_of_map h
  cases hrest
  exact passing hread

/-! ### Values -/

/-- Read an item of a list in front of those that were read before. -/
def readItem (depth : Nat) (items : List Json) : Reader (List Json) := fun cs ↦
  (readValue depth cs).map fun (v, r) ↦ (v :: items, r)

/-- Read the colon and the value of a member in front of the members that were read before. -/
def readMember (depth : Nat) (name : String) (members : List (String × Json)) :
    Reader (List (String × Json)) := fun cs ↦ do
  let (v, r) ← readValue depth (← readColon cs)
  return ((name, v) :: members, r)

/-- A value that is read is a scalar, or a list or an object whose contents are read with one level
of containers less. -/
theorem opening_of_readValue {depth : Nat} {v : Json} (h : readValue depth cs = .ok (v, rest)) :
    skipOpening cs = .ok (none, rest) ∨
    ∃ inner more, depth = inner + 1 ∧
      ((skipOpening cs = .ok (some .list, more) ∧ ∃ items,
        readItems (readItem inner) (more.length + 1) true [] more = .ok (items, rest)) ∨
      (skipOpening cs = .ok (some .object, more) ∧ ∃ members,
        readMembers (readMember inner) (more.length + 1) true [] more = .ok (members, rest))) := by
  rw [readValue.eq_def] at h
  dsimp only at h
  simp only [skipOpening]
  cases hs : skipSpace cs with
  | nil =>
    rw [hs] at h
    cases h
  | cons c more =>
  rw [hs] at h
  simp only at h ⊢
  split at h
  · obtain ⟨_, hname, hr⟩ := eq_ok_of_map h
    cases hr
    exact .inl (by rw [if_pos ‹_›, hname]; rfl)
  rw [if_neg ‹_›]
  split at h
  · obtain ⟨_, hname, hr⟩ := eq_ok_of_map h
    cases hr
    exact .inl (by rw [if_pos ‹_›, hname]; rfl)
  rw [if_neg ‹_›]
  split at h
  · obtain ⟨_, hname, hr⟩ := eq_ok_of_map h
    cases hr
    exact .inl (by rw [if_pos ‹_›, hname]; rfl)
  rw [if_neg ‹_›]
  split at h
  · obtain ⟨_, hnumber, hr⟩ := eq_ok_of_map h
    cases hr
    exact .inl (by rw [if_pos ‹_›, skipNumber_of_scanNumber hnumber]; rfl)
  rw [if_neg ‹_›]
  split at h
  · obtain ⟨_, hnumber, hr⟩ := eq_ok_of_map h
    cases hr
    exact .inl (by rw [if_pos ‹_›, skipNumber_of_scanNumber hnumber]; rfl)
  rw [if_neg ‹_›]
  split at h
  · obtain ⟨_, hstring, hr⟩ := eq_ok_of_map h
    cases hr
    exact .inl (by rw [if_pos ‹_›, skipString_of_scanString hstring]; rfl)
  rw [if_neg ‹_›]
  split at h
  · rw [if_pos ‹_›]
    split at h
    · cases h
    · cases h
    next inner hinner =>
    obtain ⟨⟨items, _⟩, hitems, hr⟩ := eq_ok_of_map h
    cases hr
    exact .inr ⟨inner, more, rfl, .inl ⟨rfl, items, hitems⟩⟩
  rw [if_neg ‹_›]
  split at h
  · rw [if_pos ‹_›]
    split at h
    · cases h
    · cases h
    next inner hinner =>
    obtain ⟨⟨members, _⟩, hmembers, hr⟩ := eq_ok_of_map h
    cases hr
    exact .inr ⟨inner, more, rfl, .inr ⟨rfl, members, hmembers⟩⟩
  · cases h

/-- A value that is read is passed over. -/
theorem passing_readValue (depth : Nat) : Passing (readValue depth) := by
  induction depth with
  | zero =>
    intro cs v rest h
    obtain scalar | ⟨inner, _, hinner, _⟩ := opening_of_readValue h
    · exact passes_of_skipOpening scalar
    · cases hinner
  | succ depth ih =>
    intro cs v rest h
    obtain scalar | ⟨inner, more, hinner, ⟨opens, items, hitems⟩ | ⟨opens, members, hmembers⟩⟩ :=
      opening_of_readValue h
    · exact passes_of_skipOpening scalar
    · cases hinner
      exact (closes_of_readItems (fun items ↦ ih.map (· :: items)) hitems).passes opens
    · cases hinner
      refine (closes_of_readMembers (fun name members cs t rest h ↦ ?_) hmembers).passes opens
      obtain ⟨text, hcolon, h⟩ := eq_ok_of_bind h
      obtain ⟨⟨v, after⟩, hvalue, h⟩ := eq_ok_of_bind h
      cases h
      exact ⟨text, hcolon, ih hvalue⟩

/-! ### Texts, integers and null -/

/-- What refuses a value reads nothing. -/
theorem wrongKindHere_ne_ok {α : Type} (expected : String) (cs : List Char) (a : α) :
    wrongKindHere expected cs ≠ .ok a := by
  intro h
  simp only [wrongKindHere] at h
  split at h
  · cases h
  split at h
  · obtain ⟨_, _, h⟩ := eq_ok_of_bind h
    cases h
  split at h
  · obtain ⟨_, _, h⟩ := eq_ok_of_bind h
    cases h
  split at h
  · obtain ⟨_, _, h⟩ := eq_ok_of_bind h
    cases h
  split at h
  · obtain ⟨_, _, h⟩ := eq_ok_of_bind h
    cases h
  split at h
  · obtain ⟨_, _, h⟩ := eq_ok_of_bind h
    cases h
  split at h
  · obtain ⟨_, _, h⟩ := eq_ok_of_bind h
    cases h
  split at h
  · cases h
  split at h <;> cases h

/-- A text that is read is passed over. -/
theorem passing_readString : Passing readString := by
  intro cs s rest h
  simp only [readString] at h
  split at h
  · next hs =>
    refine passes_of_skipOpening ?_
    simp [skipOpening, hs, skipString_of_scanString h, Except.map]
  · exact absurd h (wrongKindHere_ne_ok _ _ _)

/-- An integer that is accepted is given with what stands behind the number. -/
private theorem eq_of_accepted {m : Number} {n : Int64} {after : List Char}
    (h : (match m with
      | .integer i =>
        if -0x8000000000000000 ≤ i ∧ i < 0x8000000000000000 then .ok (Int64.ofInt i, after)
        else .error (Fault.mismatch (.value (.integer i) "i64"))
      | .float x => .error (Fault.mismatch (.kind (.float x) "i64"))) = Except.ok (n, rest)) :
    after = rest := by
  split at h
  · split at h
    · cases h
      rfl
    · cases h
  · cases h

/-- An integer that is read is passed over. -/
theorem passing_readInt64 : Passing readInt64 := by
  intro cs n rest h
  simp only [readInt64] at h
  split at h
  · cases h
  next c more hs =>
  split at h
  · next hc =>
    obtain ⟨⟨m, after⟩, hnumber, h⟩ := eq_ok_of_bind h
    cases eq_of_accepted h
    refine passes_of_skipOpening ?_
    simp [skipOpening, hs, hc, skipNumber_of_scanNumber hnumber, Except.map]
  next hminus =>
  split at h
  · next hc =>
    obtain ⟨⟨m, after⟩, hnumber, h⟩ := eq_ok_of_bind h
    cases eq_of_accepted h
    obtain ⟨hn, ht, hf⟩ : c ≠ 'n' ∧ c ≠ 't' ∧ c ≠ 'f' := by
      refine ⟨?_, ?_, ?_⟩ <;> (rintro rfl; exact absurd hc (by decide))
    refine passes_of_skipOpening ?_
    simp [skipOpening, hs, hn, ht, hf, hminus, hc, skipNumber_of_scanNumber hnumber, Except.map]
  · exact absurd h (wrongKindHere_ne_ok _ _ _)

/-- Null is passed over, and so is what a reader reads that passes over it. -/
theorem Passing.nullable {α : Type} {reader : Reader α} (passing : Passing reader) :
    Passing (readNullable reader) := by
  intro cs a rest h
  simp only [readNullable] at h
  split at h
  · next hs =>
    obtain ⟨_, hname, hr⟩ := eq_ok_of_map h
    cases hr
    refine passes_of_skipOpening ?_
    simp [skipOpening, hs, hname, Except.map]
  · obtain ⟨⟨a', after⟩, hread, hr⟩ := eq_ok_of_map h
    cases hr
    exact (passing hread).of_skipSpace

/-- What begins with a digit is a number. -/
theorem readValue_of_isDigit {c : Char} (digit : c.isDigit = true) (depth : Nat) :
    readValue depth (c :: cs) =
      (scanNumber false (c :: cs)).map fun (n, r) ↦ (.number n, r) := by
  have hspace : skipSpace (c :: cs) = c :: cs := by
    refine List.dropWhile_cons_of_neg fun hspace ↦ ?_
    simp only [isSpace, Bool.or_eq_true, beq_iff_eq] at hspace
    rcases hspace with ((rfl | rfl) | rfl) | rfl <;> exact absurd digit (by decide)
  obtain ⟨hn, ht, hf, hminus⟩ : c ≠ 'n' ∧ c ≠ 't' ∧ c ≠ 'f' ∧ c ≠ '-' := by
    refine ⟨?_, ?_, ?_, ?_⟩ <;> (rintro rfl; exact absurd digit (by decide))
  rw [readValue.eq_def]
  dsimp only
  rw [hspace]
  simp only [if_neg hn, if_neg ht, if_neg hf, if_neg hminus, if_pos digit]

/-- White space in front of a value makes no difference. -/
theorem readValue_skipSpace (depth : Nat) (cs : List Char) :
    readValue depth (skipSpace cs) = readValue depth cs := by
  rw [readValue.eq_def, readValue.eq_def]
  dsimp only
  rw [skipSpace_skipSpace]

/-- A value that is not null is read where null is allowed too. -/
theorem readNullable_of_readValue {depth : Nat} {v : Json} (h : readValue depth cs = .ok (v, rest))
    (notNull : v ≠ .null) : readNullable (readValue depth) cs = .ok (some v, rest) := by
  simp only [readNullable]
  split
  · next hs =>
    rw [readValue.eq_def] at h
    dsimp only at h
    rw [hs] at h
    obtain ⟨_, _, hv⟩ := eq_ok_of_map h
    cases hv
    exact absurd rfl notNull
  · rw [readValue_skipSpace, h]
    rfl

/-- What is read where null is allowed, and is not null, is the value. -/
theorem readValue_of_readNullable {depth : Nat} {v : Json}
    (h : readNullable (readValue depth) cs = .ok (some v, rest)) :
    readValue depth cs = .ok (v, rest) := by
  simp only [readNullable] at h
  split at h
  · obtain ⟨_, _, hv⟩ := eq_ok_of_map h
    cases hv
  · obtain ⟨_, hread, hv⟩ := eq_ok_of_map h
    cases hv
    rwa [readValue_skipSpace] at hread

/-! ### Records -/

namespace TextRecord

variable {σ : Type}

/-- The fields of a record are read as they are passed over. -/
def PassingFields (r : TextRecord σ) : Prop := ∀ name s, Passing (r.take name s)

/-- A member of a record is read, or passed over if it is unknown. -/
theorem passingMember (r : TextRecord σ) (passing : r.PassingFields) :
    PassingMember r.readMember := by
  rintro name ⟨seen, s⟩ cs t rest h
  simp only [readMember] at h
  split at h
  · split at h
    · cases h
    · obtain ⟨text, hcolon, h⟩ := eq_ok_of_bind h
      obtain ⟨⟨t', after⟩, htake, h⟩ := eq_ok_of_bind h
      cases h
      exact ⟨text, hcolon, passing name s htake⟩
  · obtain ⟨text, hcolon, h⟩ := eq_ok_of_bind h
    obtain ⟨⟨_, after⟩, hskip, h⟩ := eq_ok_of_bind h
    cases h
    exact ⟨text, hcolon, passes_of_skipValue hskip⟩

theorem skipSpace_of_readArrayEnd (h : readArrayEnd cs = .ok rest) :
    skipSpace cs = ']' :: rest := by
  simp only [readArrayEnd] at h
  split at h
  · cases h
  next hs =>
  split at h
  · next hc =>
    cases h
    rw [hs, hc]
  split at h
  · split at h <;> cases h
  · cases h

/-- The elements of an array that stand for the fields are read as they are passed over. -/
theorem closes_of_readElements (r : TextRecord σ) (passing : r.PassingFields) {count : Nat}
    {fields : List (String × Bool)} {s t : σ}
    (h : r.readElements count fields s cs = .ok (t, rest)) :
    Closes .list (count == 0) cs rest := by
  induction fields generalizing count s cs with
  | nil =>
    obtain ⟨after, hend, hr⟩ := eq_ok_of_map h
    cases hr
    exact closes_of_closing (skipSpace_of_readArrayEnd hend)
  | cons field fields ih =>
    obtain ⟨name, optional⟩ := field
    obtain ⟨⟨more, here⟩, hnext, h⟩ := eq_ok_of_bind h
    cases more with
    | false =>
      have hs := skipSpace_of_nextItem hnext
      simp only [Bool.false_eq_true, if_false] at h
      split at h
      · cases h
        exact closes_of_closing hs
      · cases h
    | true =>
      obtain ⟨⟨t', after⟩, htake, h⟩ := eq_ok_of_bind h
      exact closes_of_item hnext (passing name s htake) (ih h)

/-- What is finished is given with what stands behind it. -/
theorem eq_of_finished {α : Type} {finished : Except Mismatch α} {a : α} {after : List Char}
    (h : (match finished with
      | .ok a => .ok (a, after)
      | .error m => .error (Fault.mismatch m)) = Except.ok (a, rest)) :
    finished = .ok a ∧ after = rest := by
  split at h
  · cases h
    exact ⟨rfl, rfl⟩
  · cases h

/-- A record that is read is passed over, if its fields are. -/
theorem passing_read {α : Type} (r : TextRecord σ) (passing : r.PassingFields) (start : σ)
    (finish : σ → Except Mismatch α) : Passing (r.read start finish) := by
  intro cs a rest h
  simp only [read] at h
  split at h
  · cases h
  next c more hs =>
  split at h
  · next hc =>
    obtain ⟨⟨⟨seen, s⟩, after⟩, hmembers, h⟩ := eq_ok_of_bind h
    obtain ⟨-, rfl⟩ := eq_of_finished h
    refine (closes_of_readMembers (r.passingMember passing) hmembers).passes ?_
    simp [skipOpening, hs, hc]
  split at h
  · next hc =>
    obtain ⟨⟨s, after⟩, helements, h⟩ := eq_ok_of_bind h
    obtain ⟨-, rfl⟩ := eq_of_finished h
    refine (r.closes_of_readElements passing helements).passes ?_
    simp [skipOpening, hs, hc]
  · exact absurd h (wrongKindHere_ne_ok _ _ _)

end TextRecord

end LanguageHub.Json
