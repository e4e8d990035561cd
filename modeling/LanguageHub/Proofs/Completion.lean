import LanguageHub.Completion
import LanguageHub.Proofs.Json.Records
import LanguageHub.Proofs.Results

/-!
# Completions

Kinds, documentation and items are read back from what is written for them
(`CompletionItem.lawful`), and an item takes its fields one by one (`CompletionItem.consists`).

A server may answer with a bare list of items or with an object that has them as a member; both
give the same items. A list with an element that is no item is refused as a whole. There is one
exception, since an object may also be given by the values of its fields in order: a bare list of
a truth value and a list of items is such an object (`CompletionAnswer.items_in_every_form`).
-/

namespace LanguageHub

open Json (Lawful Writable)

/-- A kind is read back. -/
theorem CompletionKind.lawful : Lawful toJson ofJson where
  read rewriting k := by
    rw [ofJson, toJson, Json.lawful_unsigned8.read rewriting]
    cases k <;> rfl
  null _ h := by cases h

theorem CompletionKind.writable (k : CompletionKind) (levels : Nat) : k.toJson.Writable levels :=
  .unsigned8 k.code

namespace Documentation

/-- The fields of marked-up documentation. -/
def fields : List (Json.Field (Option String × Option String)) := [
  .required "kind" Json.string Prod.fst fun a d ↦ (a, d.2),
  .required "value" Json.string Prod.snd fun a d ↦ (d.1, a)]

theorem consists : record.Consists fields where
  names := rfl
  distinct := by decide
  takes := by
    simp only [fields, List.forall_mem_cons]
    exact ⟨.required fun _ _ ↦ rfl, .required fun _ _ ↦ rfl, List.forall_mem_nil _⟩
  get_set := by simp [fields, Json.Field.required]
  get_set_of_ne := by simp [fields, Json.Field.required]
  ext := by
    rintro ⟨_, _⟩ ⟨_, _⟩
    simp [fields, Json.Field.required]

theorem markupOfJson_iff {v : Json} {d : Documentation} :
    markupOfJson v = .ok d ↔ ∃ t, record.read (none, none) v = .ok t ∧
      ∃ kind value, t = (some kind, some value) ∧ d = markup kind value := by
  constructor
  · intro h
    obtain ⟨⟨kind, value⟩, read, h⟩ := Json.eq_ok_of_bind h
    obtain ⟨_, hkind, h⟩ := Json.eq_ok_of_bind h
    obtain ⟨_, hvalue, h⟩ := Json.eq_ok_of_bind h
    cases Json.required_eq_ok_iff.mp hkind
    cases Json.required_eq_ok_iff.mp hvalue
    cases h
    exact ⟨_, read, _, _, rfl, rfl⟩
  · rintro ⟨_, read, kind, value, rfl, rfl⟩
    rw [markupOfJson, read]
    rfl

/-- An object is no text, so that the first alternative leaves it to the second. -/
theorem ofJson_object {members : List (String × Json)} {d : Documentation} :
    ofJson (.object members) = .ok d ↔ markupOfJson (.object members) = .ok d := by
  simp only [ofJson, Json.firstOf, List.findSome?_cons, List.findSome?_nil]
  cases markupOfJson (.object members) with
  | ok e => exact Iff.rfl
  | error m => exact iff_of_false (fun h ↦ by cases h) fun h ↦ by cases h

/-- Documentation is read back. -/
theorem lawful : Lawful toJson ofJson where
  read {w} rewriting d := by
    cases d with
    | plain s =>
      rw [toJson, rewriting.text]
      rfl
    | markup kind value =>
      have read : record.read (none, none) (w (markup kind value).toJson) =
          .ok (some kind, some value) := by
        refine consists.read_rewritten rewriting (by simp) ?_
        simp only [fields, List.forall_mem_cons]
        exact ⟨.required Json.lawful_string rewriting rfl,
          .required Json.lawful_string rewriting rfl, List.forall_mem_nil _⟩
      obtain ⟨members, hobject, -, -⟩ :=
        rewriting.object [("kind", .text kind), ("value", .text value)] (by simp)
      rw [toJson, hobject] at read ⊢
      exact ofJson_object.mpr (markupOfJson_iff.mpr ⟨_, read, _, _, rfl, rfl⟩)
  null _ h := by cases h

theorem writable (d : Documentation) (levels : Nat) : d.toJson.Writable (levels + 1) := by
  cases d with
  | plain s => exact .text s
  | markup kind value => simp [toJson]

end Documentation

namespace CompletionItem

/-- The fields of an item. -/
def fields : List (Json.Field Draft) := [
  .required "label" Json.string Draft.label fun a d ↦ { d with label := a },
  .optional "kind" CompletionKind.ofJson Draft.kind fun a d ↦ { d with kind := a },
  .optional "detail" Json.string Draft.detail fun a d ↦ { d with detail := a },
  .optional "documentation" Documentation.ofJson Draft.documentation
    fun a d ↦ { d with documentation := a },
  .optional "insertText" Json.string Draft.insertText fun a d ↦ { d with insertText := a },
  .optional "sortText" Json.string Draft.sortText fun a d ↦ { d with sortText := a }]

theorem consists : record.Consists fields where
  names := rfl
  distinct := by decide
  takes := by
    simp only [fields, List.forall_mem_cons]
    exact ⟨.required fun _ _ ↦ rfl, .optional fun _ _ ↦ rfl, .optional fun _ _ ↦ rfl,
      .optional fun _ _ ↦ rfl, .optional fun _ _ ↦ rfl, .optional fun _ _ ↦ rfl,
      List.forall_mem_nil _⟩
  get_set := by simp [fields, Json.Field.required, Json.Field.optional]
  get_set_of_ne := by simp [fields, Json.Field.required, Json.Field.optional]
  ext := by
    rintro ⟨_, _, _, _, _, _⟩ ⟨_, _, _, _, _, _⟩
    simp [fields, Json.Field.required, Json.Field.optional]

/-- An item as it is read. -/
def draft (i : CompletionItem) : Draft :=
  ⟨some i.label, i.kind, i.detail, i.documentation, i.insertText, i.sortText⟩

theorem ofJson_iff {v : Json} {i : CompletionItem} :
    ofJson v = .ok i ↔ record.read {} v = .ok i.draft := by
  constructor
  · intro h
    obtain ⟨⟨label, kind, detail, documentation, insertText, sortText⟩, read, h⟩ :=
      Json.eq_ok_of_bind h
    obtain ⟨_, hlabel, h⟩ := Json.eq_ok_of_bind h
    cases Json.required_eq_ok_iff.mp hlabel
    cases h
    exact read
  · intro h
    rw [ofJson, h]
    rfl

/-- An item is read back. -/
theorem lawful : Lawful toJson ofJson where
  read rewriting i := by
    refine ofJson_iff.mpr (consists.read_rewritten rewriting ?_ ?_)
    · simp only [List.map_append]
      refine List.Sublist.nodup ?_ consists.distinct
      exact (((((List.Sublist.refl ["label"]).append (Json.names_optional_sublist _ _)).append
        (Json.names_optional_sublist _ _)).append (Json.names_optional_sublist _ _)).append
          (Json.names_optional_sublist _ _)).append (Json.names_optional_sublist _ _)
    · simp only [fields, List.forall_mem_cons, Json.Field.name_required, Json.Field.name_optional,
        List.cons_append, List.nil_append, List.append_assoc, Dictionary.lookup, String.reduceEq,
        Json.lookup_optional_append, Json.lookup_optional, Option.or_none, ↓reduceIte]
      exact ⟨.required Json.lawful_string rewriting rfl,
        .optional CompletionKind.lawful rewriting rfl rfl,
        .optional Json.lawful_string rewriting rfl rfl,
        .optional Documentation.lawful rewriting rfl rfl,
        .optional Json.lawful_string rewriting rfl rfl,
        .optional Json.lawful_string rewriting rfl rfl, List.forall_mem_nil _⟩
  null _ h := by cases h

theorem writable (i : CompletionItem) (levels : Nat) : i.toJson.Writable (levels + 2) := by
  refine .object ?_
  simp only [List.forall_mem_append, List.forall_mem_singleton]
  exact ⟨⟨⟨⟨⟨.text _, Json.writable_optional (fun k ↦ k.writable _) _ _⟩,
    Json.writable_optional .text _ _⟩, Json.writable_optional (fun d ↦ d.writable _) _ _⟩,
    Json.writable_optional .text _ _⟩, Json.writable_optional .text _ _⟩

/-- The optional members that an item lacks. -/
def lacks (i : CompletionItem) : List String :=
  Json.absent "kind" i.kind ++ Json.absent "detail" i.detail ++
    Json.absent "documentation" i.documentation ++ Json.absent "insertText" i.insertText ++
    Json.absent "sortText" i.sortText

/-- The fields that an item lacks may be missing or null. -/
theorem takes_of_lacks (i : CompletionItem) : ∀ f ∈ fields, f.name ∈ i.lacks →
    f.Takes {} none i.draft ∧ f.Takes {} (some .null) i.draft := by
  simp only [fields, List.forall_mem_cons, lacks, List.mem_append, Json.mem_absent,
    Json.Field.name_required, Json.Field.name_optional, String.reduceEq, false_and, true_and,
    false_or, or_false, false_implies]
  exact ⟨fun h ↦ ⟨h, .null h⟩, fun h ↦ ⟨h, .null h⟩, fun h ↦ ⟨h, .null h⟩,
    fun h ↦ ⟨h, .null h⟩, fun h ↦ ⟨h, .null h⟩, List.forall_mem_nil _⟩

end CompletionItem

end LanguageHub

namespace LanguageHub.CompletionAnswer

variable {is : List CompletionItem} {vs : List Json} {members : List (String × Json)}
  {answer : CompletionAnswer}

/-- A result in which a server gives items: the list of them, or an object in which they stand
under their name. The object may say whether they are incomplete, and it may have other members. -/
inductive Gives (is : List CompletionItem) : Json → Prop where
  | array : Gives is (.array (is.map CompletionItem.toJson))
  | list {members : List (String × Json)} (distinct : (members.map (·.1)).Nodup)
      {isIncomplete : Option Bool}
      (flag : Dictionary.lookup "isIncomplete" members = isIncomplete.map .bool)
      (items : Dictionary.lookup "items" members =
        some (.array (is.map CompletionItem.toJson))) :
      Gives is (.object members)

/-- The fields of a list answer. -/
def fields : List (Json.Field (Bool × Option (List CompletionItem))) := [
  ⟨"isIncomplete", true, Bool, Json.boolean, Prod.fst, fun b d ↦ (b, d.2)⟩,
  .required "items" (Json.list CompletionItem.ofJson) Prod.snd fun a d ↦ (d.1, a)]

theorem consists : record.Consists fields where
  names := rfl
  distinct := by decide
  takes := by
    simp only [fields, List.forall_mem_cons]
    refine ⟨fun v s ↦ ?_, .required fun _ _ ↦ rfl, List.forall_mem_nil _⟩
    change (Json.boolean v >>= fun b ↦ .ok (b, s.2)) = (Json.boolean v).map fun b ↦ (b, s.2)
    cases Json.boolean v <;> rfl
  get_set := by simp [fields, Json.Field.required]
  get_set_of_ne := by simp [fields, Json.Field.required]
  ext := by
    rintro ⟨_, _⟩ ⟨_, _⟩
    simp [fields, Json.Field.required]

/-! ### Alternatives -/

/-- The first of several alternatives is tried before the others. -/
private theorem firstOf_cons {α : Type} (choice : String) (decode : Json.Decoder α)
    (others : List (Json.Decoder α)) (v : Json) :
    Json.firstOf choice (decode :: others) v =
      match decode v with
      | .ok a => .ok a
      | .error _ => Json.firstOf choice others v := by
  rw [Json.firstOf, List.findSome?_cons]
  cases decode v <;> rfl

/-- A bare list is read if each of its elements is an item. -/
theorem ofJson_array_of_items (items : Json.list CompletionItem.ofJson (.array vs) = .ok is) :
    ofJson (.array vs) = .ok (.array is) := by
  rw [ofJson, firstOf_cons, items]
  rfl

/-- What is neither a list of items nor null is read as an object or not at all. -/
theorem ofJson_iff_of_noItems {v : Json} {m m' : Json.Mismatch}
    (noItems : Json.list CompletionItem.ofJson v = .error m) (notNull : nullOfJson v = .error m') :
    ofJson v = .ok answer ↔ listOfJson v = .ok answer := by
  rw [ofJson, firstOf_cons, noItems]
  change Json.firstOf _ [listOfJson, nullOfJson] v = _ ↔ _
  rw [firstOf_cons]
  cases listOfJson v with
  | ok a => exact Iff.rfl
  | error m =>
    simp only [firstOf_cons, notNull]
    exact iff_of_false nofun nofun

/-- An object is no bare list. -/
theorem ofJson_object_iff :
    ofJson (.object members) = .ok answer ↔ listOfJson (.object members) = .ok answer :=
  ofJson_iff_of_noItems rfl rfl

/-- A list answer is what its record holds. -/
theorem listOfJson_iff {v : Json} : listOfJson v = .ok answer ↔
    ∃ flag is, record.read (false, none) v = .ok (flag, some is) ∧ answer = .list flag is := by
  rw [listOfJson, bind_eq_ok_iff]
  constructor
  · rintro ⟨⟨flag, taken⟩, read, h⟩
    obtain ⟨is, hrequired, h⟩ := bind_eq_ok_iff.mp h
    cases Json.required_eq_ok_iff.mp hrequired
    exact ⟨flag, is, read, (Except.ok.inj h).symm⟩
  · rintro ⟨flag, is, read, rfl⟩
    exact ⟨_, read, rfl⟩

/-! ### Answers with items -/

/-- An object with items is read as a list of them, however it is written again. -/
theorem ofJson_object_of_items {w : Json → Json} (rewriting : Json.Rewriting w)
    (flags : ∀ b, w (.bool b) = .bool b) (distinct : (members.map (·.1)).Nodup)
    {isIncomplete : Option Bool}
    (flag : Dictionary.lookup "isIncomplete" members = isIncomplete.map .bool)
    (items : Dictionary.lookup "items" members =
      some (.array (is.map CompletionItem.toJson))) :
    ofJson (w (.object members)) = .ok (.list (isIncomplete.getD false) is) := by
  have read : record.read (false, none) (w (.object members)) =
      .ok (isIncomplete.getD false, some is) := by
    refine consists.read_rewritten rewriting distinct ?_
    simp only [fields, List.forall_mem_cons, Json.Field.name_required, flag, items]
    refine ⟨?_, .required CompletionItem.lawful.list rewriting rfl, List.forall_mem_nil _⟩
    cases isIncomplete with
    | none => exact rfl
    | some b =>
      change Json.boolean (w (.bool b)) = .ok b
      rw [flags]
      rfl
  obtain ⟨members', object, -⟩ := rewriting.object members distinct
  rw [object] at read ⊢
  exact ofJson_object_iff.mpr (listOfJson_iff.mpr ⟨_, _, read, rfl⟩)

/-- What gives items is read as an answer with these items, however it is written again. -/
theorem Gives.exists_answer {v : Json} (gives : Gives is v) {w : Json → Json}
    (rewriting : Json.Rewriting w) (flags : ∀ b, w (.bool b) = .bool b) :
    ∃ answer, ofJson (w v) = .ok answer ∧ answer.items = is := by
  cases gives with
  | array =>
    have items := CompletionItem.lawful.list.read rewriting is
    rw [rewriting.array] at items ⊢
    exact ⟨.array is, ofJson_array_of_items items, rfl⟩
  | list distinct flag items =>
    exact ⟨_, ofJson_object_of_items rewriting flags distinct flag items, rfl⟩

/-! ### Lists with an element that is no item -/

/-- A list with an element that is no item is no list of items. -/
theorem exists_mismatch (bad : ∃ v ∈ vs, ∀ i, CompletionItem.ofJson v ≠ .ok i) :
    ∃ m, Json.list CompletionItem.ofJson (.array vs) = .error m := by
  obtain ⟨v, mem, noItem⟩ := bad
  induction vs with
  | nil => cases mem
  | cons v' vs ih =>
    rw [Json.list, List.mapM_cons]
    cases first : CompletionItem.ofJson v' with
    | error m => exact ⟨m, rfl⟩
    | ok i =>
      obtain rfl | mem := List.mem_cons.mp mem
      · exact absurd first (noItem i)
      · obtain ⟨m, others⟩ := ih mem
        rw [Json.list] at others
        rw [others]
        exact ⟨m, rfl⟩

/-- A record with a member that it cannot take is not read. -/
private theorem takeMembers_ne_ok {σ : Type} {r : Json.Record σ} {name : String} {v : Json}
    (field : r.fields.any (·.1 == name) = true) (bad : ∀ s t, r.take name v s ≠ .ok t)
    (mem : (name, v) ∈ members) (s t : σ) : r.takeMembers members s ≠ .ok t := by
  induction members generalizing s with
  | nil => cases mem
  | cons member rest ih =>
    intro h
    obtain ⟨key, w⟩ := member
    rw [Json.Record.takeMembers] at h
    obtain same | mem := List.mem_cons.mp mem
    · cases same
      rw [if_pos field] at h
      obtain ⟨s', taken, -⟩ := bind_eq_ok_iff.mp h
      exact bad s s' taken
    · split at h
      · obtain ⟨s', -, h⟩ := bind_eq_ok_iff.mp h
        exact ih mem s' h
      · exact ih mem s h

/-- An object with a list under the name of the items that is no list of items is refused. -/
theorem ofJson_object_ne_ok (bad : ∃ v ∈ vs, ∀ i, CompletionItem.ofJson v ≠ .ok i)
    (mem : ("items", .array vs) ∈ members) : ofJson (.object members) ≠ .ok answer := by
  intro h
  obtain ⟨flag, is, read, -⟩ := listOfJson_iff.mp (ofJson_object_iff.mp h)
  obtain ⟨m, hitems⟩ := exists_mismatch bad
  refine takeMembers_ne_ok rfl (fun s t taken ↦ ?_) mem _ _ read
  obtain ⟨is, hread, -⟩ := bind_eq_ok_iff.mp taken
  rw [hitems] at hread
  cases hread

/-- Only a truth value is read as one. -/
private theorem eq_of_boolean {v : Json} {b : Bool} (h : Json.boolean v = .ok b) :
    v = .bool b := by
  cases v with
  | bool _ => exact congrArg Json.bool (Except.ok.inj h)
  | null | number | text | array | object => cases h

/-- Only a list is read as one. -/
private theorem exists_of_list {v : Json} (h : Json.list CompletionItem.ofJson v = .ok is) :
    ∃ items, v = .array items := by
  cases v with
  | array items => exact ⟨items, rfl⟩
  | null | bool | number | text | object => cases h

/-- A bare list is a list answer if it is a truth value and a list of items. -/
theorem listOfJson_array_iff : listOfJson (.array vs) = .ok answer ↔
    ∃ flag items is, vs = [.bool flag, .array items] ∧
      Json.list CompletionItem.ofJson (.array items) = .ok is ∧ answer = .list flag is := by
  rw [listOfJson_iff]
  constructor
  · rintro ⟨flag, is, read, rfl⟩
    obtain ⟨⟨s, left⟩, taken, whole⟩ := bind_eq_ok_iff.mp read
    match vs with
    | [] => cases taken
    | [a] =>
      obtain ⟨s', -, taken⟩ := bind_eq_ok_iff.mp taken
      cases taken
    | a :: b :: rest =>
      obtain ⟨s', takenFlag, taken⟩ := bind_eq_ok_iff.mp taken
      obtain ⟨flag', hflag, hs'⟩ := bind_eq_ok_iff.mp takenFlag
      cases hs'
      obtain ⟨s'', takenItems, taken⟩ := bind_eq_ok_iff.mp taken
      obtain ⟨is', hitems, hs''⟩ := bind_eq_ok_iff.mp takenItems
      cases hs''
      cases taken
      obtain rfl := eq_of_boolean hflag
      obtain ⟨items, rfl⟩ := exists_of_list hitems
      cases left with
      | cons => cases whole
      | nil =>
        cases whole
        exact ⟨_, items, _, rfl, hitems, rfl⟩
  · rintro ⟨flag, items, is, rfl, hitems, rfl⟩
    refine ⟨flag, is, ?_, rfl⟩
    change ((Json.list CompletionItem.ofJson (.array items) >>= fun is ↦ .ok (flag, some is)) >>=
      fun t ↦ Except.ok (t, [])) >>= _ = _
    rw [hitems]
    rfl

/-! ### Answers in every form -/

/-- A list of items is read from a bare list and from an object with them, and nothing is read from
null. A list with an element that is no item is refused as a whole, on its own and in an object,
unless it is an object given by the values of its fields: a truth value and a list of items. -/
theorem items_in_every_form :
    (∀ is v, Gives is v →
      (∃ answer, ofJson v = .ok answer ∧ answer.items = is) ∧
      ∃ answer, ofJson v.sorted = .ok answer ∧ answer.items = is) ∧
    (∃ answer, ofJson .null = .ok answer ∧ answer.items = []) ∧
    ∀ vs, (∃ v ∈ vs, ∀ i, CompletionItem.ofJson v ≠ .ok i) →
      (∀ members answer, ("items", .array vs) ∈ members →
        ofJson (.object members) ≠ .ok answer) ∧
      ∀ answer, ofJson (.array vs) = .ok answer ↔
        ∃ flag items is, vs = [.bool flag, .array items] ∧
          Json.list CompletionItem.ofJson (.array items) = .ok is ∧ answer = .list flag is := by
  refine ⟨fun is v gives ↦ ⟨?_, ?_⟩, ⟨.null, rfl, rfl⟩, fun vs bad ↦
    ⟨fun members answer mem ↦ ofJson_object_ne_ok bad mem, fun answer ↦ ?_⟩⟩
  · exact gives.exists_answer Json.rewriting_id fun _ ↦ rfl
  · exact gives.exists_answer Json.rewriting_sorted fun _ ↦ rfl
  · obtain ⟨m, noItems⟩ := exists_mismatch bad
    rw [ofJson_iff_of_noItems noItems rfl, listOfJson_array_iff]

/-- An object whose members stand in another order, with one that is not understood, gives its
item; and a list with a number in it is refused, while a truth value and a list are an object. -/
theorem answer_with_one_item :
    (∃ answer, ofJson (.object [("items", .array [(CompletionItem.mk "len" (some .function) none
      (some (.markup "markdown" "`len`")) none (some "")).toJson]), ("data", .null),
      ("isIncomplete", .bool true)]) = .ok answer ∧ answer.items = [⟨"len", some .function, none,
        some (.markup "markdown" "`len`"), none, some ""⟩]) ∧
    (∀ answer, ofJson (.object [("items", .array [.array [.text "len"], .ofInt 0])]) ≠
      .ok answer) ∧
    (∀ answer, ofJson (.array [.array [.text "len"], .ofInt 0]) ≠ .ok answer) ∧
    ofJson (.array [.bool true, .array [.array [.text "len"]]]) =
      .ok (.list true [⟨"len", none, none, none, none, none⟩]) := by
  have gives : Gives [⟨"len", some .function, none, some (.markup "markdown" "`len`"), none,
      some ""⟩] (.object [("items", .array [(CompletionItem.mk "len" (some .function) none
        (some (.markup "markdown" "`len`")) none (some "")).toJson]), ("data", .null),
        ("isIncomplete", .bool true)]) :=
    @Gives.list _ _ (by simp) (some true) rfl rfl
  have number : ∃ v ∈ [Json.array [.text "len"], .ofInt 0],
      ∀ i, CompletionItem.ofJson v ≠ .ok i := ⟨.ofInt 0, by simp, fun _ h ↦ by cases h⟩
  have flag : ∃ v ∈ [Json.bool true, .array [.array [.text "len"]]],
      ∀ i, CompletionItem.ofJson v ≠ .ok i := ⟨.bool true, by simp, fun _ h ↦ by cases h⟩
  have positional : Json.list CompletionItem.ofJson (.array [.array [.text "len"]]) =
      .ok [⟨"len", none, none, none, none, none⟩] := rfl
  obtain ⟨refusesList, answers⟩ := items_in_every_form.2.2 _ number
  refine ⟨(items_in_every_form.1 _ _ gives).1, fun answer ↦ refusesList _ answer (by simp),
    fun answer h ↦ ?_, ?_⟩
  · obtain ⟨_, _, _, same, -⟩ := (answers answer).mp h
    cases same
  · obtain ⟨-, answers⟩ := items_in_every_form.2.2 _ flag
    exact (answers _).mpr ⟨true, _, _, rfl, positional, rfl⟩

end LanguageHub.CompletionAnswer
