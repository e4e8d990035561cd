import LanguageHub.Proofs.Json.Grammar
import LanguageHub.Proofs.Json.Records
import LanguageHub.Proofs.Results

/-!
# Typed readers and decoders

What is read straight from a text is what is made of the value that it is the text of. This holds
of texts, integers, values that may be null, and records (`TextRecord.Mirrors.reads`): a record that
is read from a text takes its fields from the members as they come, a record that is made of a value
takes them from sorted members, and both look for the same names.
-/

namespace LanguageHub.Json

variable {α σ : Type} {cs cs' rest : List Char} {v : Json} {levels : Nat}

/-! ### First characters -/

/-- A character with which the text of a value can begin. -/
def Leads (c : Char) : Json → Prop
  | .null => c = 'n'
  | .bool b => c = if b then 't' else 'f'
  | .number _ => c.isDigit = true ∨ c = '-'
  | .text _ => c = '"'
  | .array _ => c = '['
  | .object _ => c = '\x7b'

/-- The text of a number is a number behind its sign. -/
theorem StandsScalar.scan {n : Number} (stands : StandsScalar (.number n) cs rest) :
    (∃ c more, cs = c :: more ∧ c.isDigit = true ∧ scanNumber false cs = .ok (n, rest)) ∨
      ∃ more, cs = '-' :: more ∧ scanNumber true more = .ok (n, rest) := by
  cases stands with
  | float scan =>
    obtain ⟨c, more, rfl, digit⟩ := exists_digit_of_scanNumber scan
    exact .inl ⟨c, more, rfl, digit, scan⟩
  | negative scan => exact .inr ⟨_, rfl, scan⟩
  | @integer n rest word stops =>
    change (∃ c more, renderNumber (.integer n) ++ rest = c :: more ∧ c.isDigit = true ∧ _) ∨ _
    obtain ⟨c, more, text, digit, scan⟩ | ⟨more, text, scan⟩ :=
      scanNumber_renderNumber word stops
    · exact .inl ⟨c, more, text, digit, (congrArg _ text).trans scan⟩
    · exact .inr ⟨more, text, scan⟩

theorem StandsScalar.leads (stands : StandsScalar v cs rest) :
    ∃ c more, cs = c :: more ∧ Leads c v := by
  cases v with
  | number n =>
    obtain ⟨c, more, text, digit, -⟩ | ⟨more, text, -⟩ := stands.scan
    · exact ⟨c, more, text, .inl digit⟩
    · exact ⟨'-', more, text, .inr rfl⟩
  | null | bool | text | array | object => cases stands <;> exact ⟨_, _, rfl, rfl⟩

theorem Stands.leads (stands : Stands levels v cs rest) : ∃ c more, cs = c :: more ∧ Leads c v := by
  cases levels with
  | zero => exact StandsScalar.leads stands
  | succ levels =>
    cases stands with
    | scalar stands => exact stands.leads
    | array | object => exact ⟨_, _, rfl, rfl⟩

namespace Leads

variable {c : Char}

theorem eq_null (leads : Leads 'n' v) : v = .null := by
  cases v with
  | null => rfl
  | bool b => cases b <;> cases leads
  | number => obtain digit | sign := leads <;> contradiction
  | text | array | object => cases leads

theorem eq_text (leads : Leads '"' v) : ∃ s, v = .text s := by
  cases v with
  | text s => exact ⟨s, rfl⟩
  | bool b => cases b <;> cases leads
  | number => obtain digit | sign := leads <;> contradiction
  | null | array | object => cases leads

theorem eq_array (leads : Leads '[' v) : ∃ items, v = .array items := by
  cases v with
  | array items => exact ⟨items, rfl⟩
  | bool b => cases b <;> cases leads
  | number => obtain digit | sign := leads <;> contradiction
  | null | text | object => cases leads

theorem eq_object (leads : Leads '\x7b' v) : ∃ members, v = .object members := by
  cases v with
  | object members => exact ⟨members, rfl⟩
  | bool b => cases b <;> cases leads
  | number => obtain digit | sign := leads <;> contradiction
  | null | text | array => cases leads

theorem eq_number (leads : Leads c v) (begins : c.isDigit = true ∨ c = '-') :
    ∃ n, v = .number n := by
  have ne {d : Char} (other : ¬ (d.isDigit = true ∨ d = '-')) : c ≠ d := fun same ↦
    other (same ▸ begins)
  cases v with
  | number n => exact ⟨n, rfl⟩
  | bool b => cases b <;> exact absurd leads (ne (by decide))
  | null | text | array | object => exact absurd leads (ne (by decide))

end Leads

/-- What is neither a list nor an object stands there as a scalar. -/
theorem Stands.scalar (stands : Stands levels v cs rest) (noArray : ∀ items, v ≠ .array items)
    (noObject : ∀ members, v ≠ .object members) : StandsScalar v cs rest := by
  cases levels with
  | zero => exact stands
  | succ levels =>
    cases stands with
    | scalar stands => exact stands
    | array => exact absurd rfl (noArray _)
    | object => exact absurd rfl (noObject _)

/-! ### Readers of values, texts and integers -/

/-- A reader reads from a text what a decoder makes of the value that it is the text of. -/
def Reads (levels : Nat) (reader : Reader α) (decode : Decoder α) : Prop :=
  ∀ ⦃v cs rest⦄, Stands levels v (skipSpace cs) rest → Agrees (reader cs) (decode v.sorted) rest

theorem reads_readValue {depth : Nat} (deep : levels < depth) :
    Reads levels (readValue depth) anyValue := by
  intro v cs rest stands
  rw [← readValue_skipSpace, stands.readValue deep]
  exact .ok _ _

theorem reads_readString (levels : Nat) : Reads levels readString string := by
  intro v cs rest stands
  obtain ⟨c, more, begin_, leads⟩ := stands.leads
  by_cases isText : ∃ s, v = .text s
  · obtain ⟨s, rfl⟩ := isText
    obtain rfl : c = '"' := leads
    rw [readString, begin_]
    rw [begin_] at stands
    cases stands.scalar (by simp) (by simp) with
    | text scan =>
      change Agrees (scanString more) _ _
      rw [scan]
      exact .ok _ _
  · refine .error (fun p h ↦ ?_) fun s h ↦ ?_
    · simp only [readString, begin_] at h
      split at h
      · next same =>
        cases same
        exact isText leads.eq_text
      · exact wrongKindHere_ne_ok _ _ _ h
    · cases v with
      | text s => exact isText ⟨s, rfl⟩
      | null | bool | number | array | object => cases h

/-- A number is accepted if it is an integer in the range. -/
private theorem agrees_accept (n : Number) (rest : List Char) :
    Agrees (match n with
      | .integer i =>
        if -0x8000000000000000 ≤ i ∧ i < 0x8000000000000000 then .ok (Int64.ofInt i, rest)
        else .error (Fault.mismatch (.value (.integer i) "i64"))
      | .float x => .error (Fault.mismatch (.kind (.float x) "i64")))
      (signed64 (.number n)) rest := by
  cases n with
  | float x => exact .refused _ _ rest
  | integer i =>
    rw [signed64, integer]
    dsimp only
    by_cases inRange : -0x8000000000000000 ≤ i ∧ i < 0x8000000000000000
    · rw [if_pos inRange, if_pos ⟨inRange.1, by omega⟩]
      exact .ok _ _
    · rw [if_neg inRange, if_neg fun h ↦ inRange ⟨h.1, by omega⟩]
      exact .refused _ _ rest

theorem reads_readInt64 (levels : Nat) : Reads levels readInt64 signed64 := by
  intro v cs rest stands
  by_cases isNumber : ∃ n, v = .number n
  · obtain ⟨n, rfl⟩ := isNumber
    have scalar := stands.scalar (by simp) (by simp)
    obtain ⟨c, more, begin_, digit, scan⟩ | ⟨more, begin_, scan⟩ := scalar.scan
    · have notSign : c ≠ '-' := by
        rintro rfl
        exact absurd digit (by decide)
      rw [begin_] at scan
      simp only [readInt64, begin_, if_neg notSign, if_pos digit, scan]
      exact agrees_accept n rest
    · simp only [readInt64, begin_, if_true, scan]
      exact agrees_accept n rest
  · obtain ⟨c, more, begin_, leads⟩ := stands.leads
    have notSign : c ≠ '-' := fun sign ↦ isNumber (leads.eq_number (.inr sign))
    have notDigit : ¬ c.isDigit = true := fun digit ↦ isNumber (leads.eq_number (.inl digit))
    refine .error (fun p ↦ ?_) fun n h ↦ ?_
    · simp only [readInt64, begin_, if_neg notSign, if_neg notDigit]
      exact wrongKindHere_ne_ok _ _ p
    · cases v with
      | number n => exact isNumber ⟨n, rfl⟩
      | null | bool | text | array | object => cases h

theorem sorted_eq_null_iff : v.sorted = .null ↔ v = .null := by
  cases v <;> simp [sorted]

/-- Null is read as nothing, and every other value as before. -/
theorem Reads.nullable {reader : Reader α} {decode : Decoder α}
    (reads : Reads levels reader decode) :
    Reads levels (readNullable reader) (nullable decode) := by
  intro v cs rest stands
  obtain ⟨c, more, begin_, leads⟩ := stands.leads
  by_cases isNull : v = .null
  · subst isNull
    have scalar := stands.scalar (by simp) (by simp)
    generalize text : skipSpace cs = front at scalar
    cases scalar
    rw [readNullable, text]
    exact .ok none rest
  · rw [nullable.eq_2 _ _ (mt sorted_eq_null_iff.mp isNull)]
    simp only [readNullable]
    split
    · next text =>
      rw [begin_] at text
      cases text
      exact absurd leads.eq_null isNull
    · exact (reads (by rwa [skipSpace_skipSpace])).map some

/-- The whole of a text is read as what is made of its value. -/
theorem Reads.readWhole_iff {reader : Reader α} {decode : Decoder α}
    (reads : Reads levels reader decode) {text : String} (isText : IsText levels v text) {a : α} :
    readWhole reader text = .ok a ↔ decode v.sorted = .ok a := by
  obtain ⟨rest, stands, end_⟩ := isText
  have agrees := reads stands
  rw [readWhole, bind_eq_ok_iff]
  constructor
  · rintro ⟨⟨b, after⟩, read, h⟩
    obtain ⟨_, -, h⟩ := bind_eq_ok_iff.mp h
    cases h
    exact ((agrees a after).mp read).1
  · intro h
    refine ⟨_, agrees.eq_ok h, ?_⟩
    change (readEnd rest >>= fun _ ↦ Except.ok a) = _
    rw [readEnd, end_]
    rfl

/-! ### Records -/

variable {r : TextRecord σ} {value : Record σ} {fields : List (Field σ)}

/-- A record that is read from texts takes into its fields what a record takes that is made of
values. -/
structure TextRecord.Mirrors (levels : Nat) (r : TextRecord σ) (value : Record σ) : Prop where
  fields : r.fields = value.fields
  takes : ∀ inner < levels, ∀ field ∈ r.fields, ∀ s,
    Reads inner (r.take field.1 s) (fun v ↦ value.take field.1 v s)

/-- What is passed over is what the text stands for. -/
theorem Stands.passes (stands : Stands levels v (skipSpace cs) rest) : Passes cs rest :=
  (passing_readValue (levels + 1) (stands.readValue (Nat.lt_succ_self levels))).of_skipSpace

namespace TextRecord

/-- What a record takes from a member of an object, which is refused if it was seen before. -/
def takeMember (value : Record σ) : List String × σ → String × Json →
    Except Mismatch (List String × σ)
  | (seen, s), (name, v) =>
    if value.fields.any (·.1 == name) then
      if seen.contains name then .error (.duplicate name)
      else return (name :: seen, ← value.take name v.sorted s)
    else .ok (seen, s)

/-- Members with distinct names are taken as if none was seen before. -/
theorem foldlM_takeMember {members : List (String × Json)} {seen : List String}
    (distinct : (members.map (·.1)).Nodup) (unseen : ∀ name ∈ members.map (·.1), name ∉ seen)
    (s : σ) : (members.foldlM (takeMember value) (seen, s)).map (·.2) =
      value.takeMembers (members.map fun m ↦ (m.1, m.2.sorted)) s := by
  induction members generalizing seen s with
  | nil => rfl
  | cons m members ih =>
    obtain ⟨name, v⟩ := m
    rw [List.map_cons, List.nodup_cons] at distinct
    rw [List.map_cons, List.forall_mem_cons] at unseen
    rw [List.foldlM_cons, List.map_cons, Record.takeMembers, takeMember]
    split
    · next known =>
      rw [if_neg (by simpa using unseen.1)]
      cases value.take name v.sorted s with
      | error m => rfl
      | ok t =>
        refine ih distinct.2 (fun other mem seen ↦ ?_) t
        obtain rfl | seen := List.mem_cons.mp seen
        · exact distinct.1 mem
        · exact unseen.2 other mem seen
    · exact ih distinct.2 unseen.2 s

variable {inner count : Nat} {s : σ}

/-- A member is read as it is taken. -/
theorem Mirrors.agrees_readMember (mirrors : r.Mirrors levels value) (below : inner < levels)
    {name : String} {behind text : List Char} (s : List String × σ)
    (colon : readColon behind = .ok text) (stands : Stands inner v (skipSpace text) rest) :
    Agrees (r.readMember name s behind) (takeMember value s (name, v)) rest := by
  obtain ⟨seen, s⟩ := s
  simp only [readMember, takeMember, ← mirrors.fields, colon]
  split
  · next known =>
    obtain ⟨field, mem, same⟩ := List.any_eq_true.mp known
    obtain rfl : field.1 = name := eq_of_beq same
    split
    · exact .refused _ _ rest
    · exact (mirrors.takes inner below field mem s stands).bind fun t _ ↦ .ok _ rest
  · change Agrees (skipValue text >>= _) _ rest
    rw [stands.passes.skipValue]
    exact .ok _ rest

/-- The fields for which an array has no more elements must be such that may be missing. -/
theorem takeElements_nil_iff {names : List (String × Bool)} {p : σ × List Json} :
    value.takeElements count names [] s = .ok p ↔ names.all (·.2) = true ∧ p = (s, []) := by
  induction names generalizing count with
  | nil => exact ⟨fun h ↦ ⟨rfl, (Except.ok.inj h).symm⟩, fun h ↦ congrArg _ h.2.symm⟩
  | cons field names ih =>
    obtain ⟨name, _ | _⟩ := field
    · exact iff_of_false nofun fun h ↦ by simp at h
    · rw [Record.takeElements, ih, List.all_cons, Bool.true_and]

/-- What is left over of an array is refused. -/
def takeAll (mismatch : Mismatch) : σ × List Json → Except Mismatch σ
  | (s, left) => if left.isEmpty then .ok s else .error mismatch

theorem readArrayEnd_of_close (close : skipSpace cs = ']' :: rest) :
    readArrayEnd cs = .ok rest := by
  simp [readArrayEnd, close]

/-- Elements are read as they are taken. -/
theorem Mirrors.agrees_readElements (mirrors : r.Mirrors levels value) (below : inner < levels)
    {names : List (String × Bool)} (subset : names ⊆ r.fields) {items : List Json} {isFirst : Bool}
    (first : (count == 0) = isFirst) (stands : StandItems (Stands inner) isFirst items cs rest)
    (mismatch : Mismatch) :
    Agrees (r.readElements count names s cs)
      (value.takeElements count names (items.map sorted) s >>= takeAll mismatch) rest := by
  induction names generalizing count s items cs isFirst with
  | nil =>
    rw [readElements, Record.takeElements]
    cases stands with
    | close close =>
      rw [readArrayEnd_of_close close]
      exact .ok s rest
    | item separated stands more =>
      refine .error (fun p h ↦ ?_) nofun
      obtain ⟨after, end_, -⟩ := eq_ok_of_map h
      exact separated.ne_bracket stands.begins (skipSpace_of_readArrayEnd end_)
  | cons field names ih =>
    obtain ⟨name, optional⟩ := field
    rw [List.cons_subset] at subset
    rw [readElements, first]
    cases stands with
    | close close =>
      rw [nextItem_of_close close]
      by_cases all : ((name, optional) :: names).all (·.2) = true
      · rw [List.map_nil, takeElements_nil_iff.mpr ⟨all, rfl⟩]
        change Agrees (if ((name, optional) :: names).all (·.2) = true then _ else _) _ _
        rw [if_pos all]
        exact .ok s rest
      · refine .error (fun p h ↦ ?_) fun t h ↦ ?_
        · change (if ((name, optional) :: names).all (·.2) = true then _ else _) = _ at h
          rw [if_neg all] at h
          cases h
        · obtain ⟨p, taken, -⟩ := eq_ok_of_bind h
          exact all (takeElements_nil_iff.mp taken).1
    | item separated stands more =>
      rw [nextItem_of_begins separated stands.begins, List.map_cons, Record.takeElements,
        bind_assoc]
      have item := mirrors.takes inner below (name, optional) subset.1 s
      exact (item (by rwa [stands.begins.skipSpace])).bind fun t _ ↦
        ih subset.2 (beq_false_of_ne (Nat.succ_ne_zero count)) more

/-- What is left when a record is read is given with what its fields make. -/
private theorem agrees_finished (finished : Except Mismatch α) (rest : List Char) :
    Agrees (match finished with
      | .ok a => .ok (a, rest)
      | .error m => .error (Fault.mismatch m)) finished rest := by
  cases finished with
  | ok a => exact .ok a rest
  | error m => exact .refused _ _ rest

variable {start : σ} {finish : σ → Except Mismatch α}

/-- A record is read from an object as it is made of its members, which are sorted there. -/
theorem Mirrors.agrees_object (mirrors : r.Mirrors levels value)
    (consists : value.Consists fields) (below : inner < levels) {members : List (String × Json)}
    (distinct : (members.map (·.1)).Nodup)
    (stands : StandMembers (Stands inner) true members cs rest)
    (begin_ : skipSpace cs' = '\x7b' :: cs) :
    Agrees (r.read start finish cs') (value.takeMembers (sortedMembers members) start >>= finish)
      rest := by
  have enough : members.length < cs.length + 1 := by
    have := stands.length_lt Stands.length_lt
    omega
  have loop : Agrees (readMembers r.readMember (cs.length + 1) true ([], start) cs)
      (members.foldlM (takeMember value) ([], start)) rest :=
    stands.agrees (fun s colon value ↦ mirrors.agrees_readMember below s colon value) enough _
  have named : (members.map fun m ↦ (m.1, m.2.sorted)).map (·.1) = members.map (·.1) := by
    rw [List.map_map]
    rfl
  have taken (t : σ) : (members.foldlM (takeMember value) ([], start)).map (·.2) = .ok t ↔
      value.takeMembers (sortedMembers members) start = .ok t := by
    rw [foldlM_takeMember distinct (fun _ _ ↦ List.not_mem_nil),
      consists.takeMembers_iff (named ▸ distinct),
      consists.takeMembers_iff (sorted_sortedMembers members).nodup]
    simp only [Dictionary.lookup_map, lookup_sortedMembers]
  simp only [read, begin_, if_true]
  refine (loop.bind fun p _ ↦ agrees_finished (finish p.2) rest).congr fun a ↦ ?_
  simp only [bind_eq_ok_iff, ← taken, map_eq_ok_iff]
  constructor
  · rintro ⟨p, folded, finished⟩
    exact ⟨p.2, ⟨p, folded, rfl⟩, finished⟩
  · rintro ⟨_, ⟨p, folded, rfl⟩, finished⟩
    exact ⟨p, folded, finished⟩

/-- A record is read from an array as it is made of its items. -/
theorem Mirrors.agrees_array (mirrors : r.Mirrors levels value) (below : inner < levels)
    {items : List Json} (stands : StandItems (Stands inner) true items cs rest)
    (begin_ : skipSpace cs' = '[' :: cs) :
    Agrees (r.read start finish cs') (value.read start (.array (sortedItems items)) >>= finish)
      rest := by
  have loop : Agrees (r.readElements 0 r.fields start cs) _ rest :=
    mirrors.agrees_readElements below (List.Subset.refl _) (by rfl) stands
      (.length items.length "fewer elements in array")
  have taken : value.read start (.array (sortedItems items)) =
      (value.takeElements 0 r.fields (items.map sorted) start >>=
        takeAll (.length items.length "fewer elements in array")) := by
    rw [Record.read, sortedItems_eq_map, mirrors.fields, List.length_map]
    rfl
  simp only [read, begin_, Char.reduceEq, if_false, if_true, taken]
  exact loop.bind fun s _ ↦ agrees_finished (finish s) rest

/-- A record is not read from a scalar. -/
theorem agrees_scalar (scalar : StandsScalar v (skipSpace cs) rest) :
    Agrees (r.read start finish cs) (value.read start v.sorted >>= finish) rest := by
  obtain ⟨c, more, begin_, leads⟩ := scalar.leads
  have notBracket : c ≠ '[' := by
    rintro rfl
    obtain ⟨items, rfl⟩ := leads.eq_array
    cases scalar
  have notBrace : c ≠ '\x7b' := by
    rintro rfl
    obtain ⟨members, rfl⟩ := leads.eq_object
    cases scalar
  refine .error (fun p ↦ ?_) fun a h ↦ ?_
  · simp only [read, begin_, if_neg notBrace, if_neg notBracket]
    exact wrongKindHere_ne_ok _ _ p
  · obtain ⟨s, h, -⟩ := eq_ok_of_bind h
    generalize skipSpace cs = front at scalar
    cases scalar <;> cases h

/-- A record is read as it is made of the value. -/
theorem Mirrors.reads (mirrors : r.Mirrors levels value) (consists : value.Consists fields)
    (start : σ) (finish : σ → Except Mismatch α) :
    Reads levels (r.read start finish) (fun v ↦ value.read start v >>= finish) := by
  intro v cs rest stands
  cases levels with
  | zero => exact agrees_scalar stands
  | succ levels =>
    have below : levels < levels + 1 := Nat.lt_succ_self levels
    generalize begin_ : skipSpace cs = front at stands
    cases stands with
    | scalar stands => exact agrees_scalar (begin_ ▸ stands)
    | array stands => exact mirrors.agrees_array below stands begin_
    | object distinct stands => exact mirrors.agrees_object consists below distinct stands begin_

end TextRecord

end LanguageHub.Json
