import LanguageHub.Json.Decode
import LanguageHub.Proofs.Json.Sorting
import Mathlib.Data.List.Nodup

/-!
# What a record takes from an object

A record that takes each of its fields on its own is read from an object by looking up the fields,
in whatever order the members stand and whatever else there is (`Consists.takeMembers_iff`). So
it makes no difference to the record when the same object is put into other words
(`Consists.decode_of_reworded`), and what is written in the members of an object is read
back from them (`Lawful`).
-/

namespace LanguageHub.Json

variable {σ α β : Type} {members members' : List (String × Json)}

/-! ### Fields -/

/-- A value that counts, since null stands for an absent one. -/
def present : Json → Option Json
  | .null => none
  | v => some v

theorem present_eq_some_iff {u v : Json} : present u = some v ↔ u = v ∧ v ≠ .null := by
  cases u <;> cases v <;> simp [present]

/-- A field of a partly read record: its name, whether an array may end before it, what is made of
its value, and where the record keeps it. -/
structure Field (σ : Type) where
  name : String
  skippable : Bool
  Content : Type
  decode : Decoder Content
  get : σ → Content
  set : Content → σ → σ

namespace Field

/-- A field that the finished record requires. -/
def required (name : String) (decode : Decoder α) (get : σ → Option α)
    (set : Option α → σ → σ) : Field σ :=
  ⟨name, false, Option α, fun v ↦ (decode v).map some, get, set⟩

/-- A field that may be missing or null. -/
def optional (name : String) (decode : Decoder α) (get : σ → Option α)
    (set : Option α → σ → σ) : Field σ :=
  ⟨name, true, Option α, nullable decode, get, set⟩

@[simp]
theorem name_required (name : String) (decode : Decoder α) (get : σ → Option α)
    (set : Option α → σ → σ) : (required name decode get set).name = name := rfl

@[simp]
theorem name_optional (name : String) (decode : Decoder α) (get : σ → Option α)
    (set : Option α → σ → σ) : (optional name decode get set).name = name := rfl

/-- What a record `t` holds in the field that was `s` before: what is made of the member, or
what was there if the member is missing. -/
def Takes (f : Field σ) (s : σ) (member : Option Json) (t : σ) : Prop :=
  match member with
  | none => f.get t = f.get s
  | some v => f.decode v = .ok (f.get t)

/-- A required field is taken from a member that is there. -/
theorem takes_required_iff {name : String} {decode : Decoder α} {get : σ → Option α}
    {set : Option α → σ → σ} {s t : σ} {member : Option Json} (empty : get s = none) :
    (required name decode get set).Takes s member t ↔
      Option.Rel (fun v a ↦ decode v = .ok a) member (get t) := by
  cases member with
  | none =>
    change get t = get s ↔ _
    rw [empty]
    cases get t <;> simp
  | some v =>
    change (decode v).map some = .ok (get t) ↔ _
    cases hdecode : decode v <;> cases get t <;> simp [hdecode, Except.map]

/-- An optional field is taken from a member that is there and not null. -/
theorem takes_optional_iff {name : String} {decode : Decoder α} {get : σ → Option α}
    {set : Option α → σ → σ} {s t : σ} {member : Option Json} (empty : get s = none) :
    (optional name decode get set).Takes s member t ↔
      Option.Rel (fun v a ↦ decode v = .ok a) (member.bind present) (get t) := by
  cases member with
  | none =>
    change get t = get s ↔ _
    rw [empty]
    cases get t <;> simp
  | some v =>
    change nullable decode v = .ok (get t) ↔ _
    by_cases null : v = .null
    · subst null
      cases get t <;> simp [nullable, present]
    · rw [nullable.eq_2 _ _ null, Option.bind_some, present.eq_2 _ null]
      cases hdecode : decode v <;> cases get t <;> simp [hdecode, Except.map]

end Field

/-- The record takes the field by itself: the value of the member is made into the content, and this
is put in its place. -/
def Record.Takes (r : Record σ) (f : Field σ) : Prop :=
  ∀ v s, r.take f.name v s = (f.decode v).map fun a ↦ f.set a s

/-- The record takes these fields, each on its own, and consists of nothing else. -/
structure Record.Consists (r : Record σ) (fields : List (Field σ)) : Prop where
  names : r.fields.map (·.1) = fields.map (·.name)
  distinct : (fields.map (·.name)).Nodup
  takes : ∀ f ∈ fields, r.Takes f
  get_set : ∀ f ∈ fields, ∀ a s, f.get (f.set a s) = a
  get_set_of_ne : ∀ f ∈ fields, ∀ g ∈ fields, g.name ≠ f.name → ∀ a s, g.get (f.set a s) = g.get s
  ext : ∀ s t, (∀ f ∈ fields, f.get s = f.get t) → s = t

/-- A record takes a required field. -/
theorem Record.Takes.required {r : Record σ} {name : String} {decode : Decoder α}
    {get : σ → Option α} {set : Option α → σ → σ}
    (h : ∀ v s, r.take name v s = do return set (some (← decode v)) s) :
    r.Takes (.required name decode get set) := fun v s ↦ by
  change r.take name v s = ((decode v).map some).map _
  rw [h]
  cases decode v <;> rfl

/-- A record takes an optional field. -/
theorem Record.Takes.optional {r : Record σ} {name : String} {decode : Decoder α}
    {get : σ → Option α} {set : Option α → σ → σ}
    (h : ∀ v s, r.take name v s = do return set (← nullable decode v) s) :
    r.Takes (.optional name decode get set) := fun v s ↦ by
  change r.take name v s = (nullable decode v).map _
  rw [h]
  cases nullable decode v <;> rfl

/-- The record that takes the given fields, each on its own. -/
def Record.ofFields (name : String) (fields : List (Field σ)) : Record σ where
  name := name
  fields := fields.map fun f ↦ (f.name, f.skippable)
  take key v s :=
    match fields.find? (·.name == key) with
    | some f => (f.decode v).map fun a ↦ f.set a s
    | none => .ok s

/-- Among fields with distinct names, each is found by its name. -/
private theorem find?_name {fields : List (Field σ)} (distinct : (fields.map (·.name)).Nodup)
    {f : Field σ} (hf : f ∈ fields) : fields.find? (·.name == f.name) = some f := by
  cases found : fields.find? (·.name == f.name) with
  | none => exact absurd (List.find?_eq_none.mp found f hf) (by simp)
  | some g =>
    have same : g.name = f.name := by simpa using List.find?_some found
    rw [List.inj_on_of_nodup_map distinct (List.mem_of_find?_eq_some found) hf same]

theorem Record.consists_ofFields {fields : List (Field σ)} (name : String)
    (distinct : (fields.map (·.name)).Nodup)
    (get_set : ∀ f ∈ fields, ∀ a s, f.get (f.set a s) = a)
    (get_set_of_ne : ∀ f ∈ fields, ∀ g ∈ fields, g.name ≠ f.name →
      ∀ a s, g.get (f.set a s) = g.get s)
    (ext : ∀ s t, (∀ f ∈ fields, f.get s = f.get t) → s = t) :
    (Record.ofFields name fields).Consists fields where
  names := List.map_map
  distinct := distinct
  takes f hf v s := by simp only [ofFields, find?_name distinct hf]
  get_set := get_set
  get_set_of_ne := get_set_of_ne
  ext := ext

namespace Record.Consists

variable {r : Record σ} {fields : List (Field σ)} {s t : σ}

private theorem eq_of_name (consists : r.Consists fields) {f g : Field σ} (hf : f ∈ fields)
    (hg : g ∈ fields) (same : g.name = f.name) : g = f :=
  List.inj_on_of_nodup_map consists.distinct hg hf same

/-- A member is taken if it has the name of a field. -/
private theorem any_iff (consists : r.Consists fields) (name : String) :
    r.fields.any (·.1 == name) = true ↔ ∃ f ∈ fields, f.name = name := by
  have mem : r.fields.any (·.1 == name) = true ↔ name ∈ r.fields.map (·.1) := by simp
  rw [mem, consists.names, List.mem_map]

/-- A record is read from members with distinct names by looking up each field. -/
theorem takeMembers_iff (consists : r.Consists fields) (distinct : (members.map (·.1)).Nodup) :
    r.takeMembers members s = .ok t ↔
      ∀ f ∈ fields, f.Takes s (Dictionary.lookup f.name members) t := by
  induction members generalizing s with
  | nil =>
    constructor
    · intro h
      cases h
      exact fun _ _ ↦ rfl
    · exact fun h ↦ congrArg Except.ok (consists.ext s t fun f hf ↦ (h f hf).symm)
  | cons member rest ih =>
    obtain ⟨name, v⟩ := member
    rw [List.map_cons, List.nodup_cons] at distinct
    obtain ⟨fresh, others⟩ := distinct
    rw [takeMembers]
    by_cases known : ∃ f ∈ fields, f.name = name
    · rw [if_pos ((consists.any_iff name).mpr known)]
      obtain ⟨f, hf, rfl⟩ := known
      have here : Dictionary.lookup f.name ((f.name, v) :: rest) = some v := if_pos rfl
      have after : Dictionary.lookup f.name rest = none := Dictionary.lookup_eq_none_iff.mpr fresh
      rw [consists.takes f hf]
      cases hdecode : f.decode v with
      | error m =>
        refine iff_of_false (fun h ↦ by cases h) fun h ↦ ?_
        have taken := h f hf
        rw [here, Field.Takes, hdecode] at taken
        cases taken
      | ok a =>
        change r.takeMembers rest (f.set a s) = .ok t ↔ _
        rw [ih others]
        refine forall₂_congr fun g hg ↦ ?_
        by_cases same : g.name = f.name
        · obtain rfl := consists.eq_of_name hf hg same
          rw [here, after, Field.Takes, Field.Takes, consists.get_set g hg, hdecode,
            Except.ok.injEq, eq_comm]
        · rw [Dictionary.lookup, if_neg same]
          cases Dictionary.lookup g.name rest with
          | none => rw [Field.Takes, Field.Takes, consists.get_set_of_ne f hf g hg same]
          | some w => rfl
    · rw [if_neg fun h ↦ known ((consists.any_iff name).mp h), ih others]
      refine forall₂_congr fun g hg ↦ ?_
      rw [Dictionary.lookup, if_neg fun h ↦ known ⟨g, hg, h⟩]

end Record.Consists

/-- A value that is required is there. -/
@[simp]
theorem required_eq_ok_iff {name : String} {value : Option α} {a : α} :
    required name value = .ok a ↔ value = some a := by
  cases value <;> simp [Json.required]

/-! ### The same object in other words -/

/-- The members of an object are put into other words: they are reordered, a member is added whose
name is none of `names`, or a member among `lacks` is removed or becomes null. -/
inductive Reworded (names lacks : List String) :
    List (String × Json) → List (String × Json) → Prop where
  | reorder {members members' : List (String × Json)} (perm : members.Perm members') :
      Reworded names lacks members members'
  | add {name : String} {members : List (String × Json)} (unknown : name ∉ names)
      (fresh : name ∉ members.map (·.1)) (value : Json) :
      Reworded names lacks members ((name, value) :: members)
  | remove {name : String} (lacked : name ∈ lacks) (members : List (String × Json)) :
      Reworded names lacks members (members.filter (·.1 ≠ name))
  | setNull {name : String} (lacked : name ∈ lacks) (members : List (String × Json)) :
      Reworded names lacks members ((name, .null) :: members.filter (·.1 ≠ name))
  | trans {members members' members'' : List (String × Json)} :
      Reworded names lacks members members' → Reworded names lacks members' members'' →
      Reworded names lacks members members''

namespace Reworded

variable {names lacks : List String} {name : String}

private theorem lookup_filter (name key : String) (members : List (String × Json)) :
    Dictionary.lookup key (members.filter (·.1 ≠ name)) =
      if key = name then none else Dictionary.lookup key members :=
  Dictionary.get?_erase ⟨members⟩ name key

/-- The names stay distinct. -/
theorem nodup (reworded : Reworded names lacks members members')
    (distinct : (members.map (·.1)).Nodup) : (members'.map (·.1)).Nodup := by
  have filtered (name : String) {l : List (String × Json)} (h : (l.map (·.1)).Nodup) :
      ((l.filter (·.1 ≠ name)).map (·.1)).Nodup :=
    h.sublist (List.filter_sublist.map _)
  induction reworded with
  | reorder perm => exact (perm.map _).nodup_iff.mp distinct
  | add _ fresh _ => exact List.nodup_cons.mpr ⟨fresh, distinct⟩
  | remove _ _ => exact filtered _ distinct
  | setNull _ _ => exact List.nodup_cons.mpr ⟨by simp, filtered _ distinct⟩
  | trans _ _ first second => exact second (first distinct)

/-- Under each name there is what was there before, or nothing or null if it is among `lacks`. -/
theorem lookup (reworded : Reworded names lacks members members')
    (distinct : (members.map (·.1)).Nodup) (known : name ∈ names) :
    Dictionary.lookup name members' = Dictionary.lookup name members ∨
      name ∈ lacks ∧ (Dictionary.lookup name members' = none ∨
        Dictionary.lookup name members' = some .null) := by
  induction reworded with
  | reorder perm =>
    have distinct' := (perm.map _).nodup_iff.mp distinct
    refine .inl (Option.ext fun v ↦ ?_)
    have mem {l : List (String × Json)} (h : (l.map (·.1)).Nodup) :
        Dictionary.lookup name l = some v ↔ (name, v) ∈ l :=
      ⟨Dictionary.mem_of_lookup, Dictionary.lookup_of_mem h⟩
    rw [mem distinct', mem distinct, perm.mem_iff]
  | add unknown _ _ =>
    refine .inl (if_neg fun same ↦ unknown ?_)
    rwa [← same]
  | @remove other lacked members =>
    rw [lookup_filter]
    split
    · next same => exact .inr ⟨same ▸ lacked, .inl rfl⟩
    · exact .inl rfl
  | @setNull other lacked members =>
    rw [Dictionary.lookup, lookup_filter]
    split
    · next same => exact .inr ⟨same ▸ lacked, .inr rfl⟩
    · exact .inl rfl
  | trans first _ ihFirst ihSecond =>
    obtain same | lacked := ihSecond (first.nodup distinct)
    · rw [same]
      exact ihFirst distinct
    · exact .inr lacked

end Reworded

/-- The name of a member whose value is lacking. -/
def absent (name : String) (value : Option α) : List String :=
  if value.isNone then [name] else []

@[simp]
theorem mem_absent {name key : String} {value : Option α} :
    key ∈ absent name value ↔ key = name ∧ value = none := by
  cases value <;> simp [absent]

/-- What a decoder makes of a record that lacks some of its fields stays the same when the object is
put into other words. -/
theorem Record.Consists.decode_of_reworded {r : Record σ} {fields : List (Field σ)}
    (consists : r.Consists fields) {start : σ} {finished : σ → α → Prop} {decode : Decoder α}
    (decode_iff : ∀ {members a}, decode (.object members) = .ok a ↔
      ∃ t, r.read start (.object members) = .ok t ∧ finished t a)
    {lacks : List String} {a : α}
    (lacking : ∀ t, finished t a → ∀ f ∈ fields, f.name ∈ lacks →
      f.Takes start none t ∧ f.Takes start (some .null) t)
    (distinct : (members.map (·.1)).Nodup) (read : decode (.object members) = .ok a)
    (reworded : Reworded (fields.map (·.name)) lacks members members') :
    decode (.object members') = .ok a := by
  rw [decode_iff] at read ⊢
  obtain ⟨t, taken, done⟩ := read
  refine ⟨t, ?_, done⟩
  rw [Record.read, consists.takeMembers_iff distinct] at taken
  rw [Record.read, consists.takeMembers_iff (reworded.nodup distinct)]
  intro f hf
  obtain same | ⟨lacked, none | null⟩ :=
    reworded.lookup distinct (List.mem_map_of_mem (f := (·.name)) hf)
  · rw [same]
    exact taken f hf
  · rw [none]
    exact (lacking t done f hf lacked).1
  · rw [null]
    exact (lacking t done f hf lacked).2

/-! ### What is written is read -/

/-- A way to write values again: texts and integers stay, a list keeps its items and an object its
members, each written again. -/
structure Rewriting (w : Json → Json) : Prop where
  text : ∀ s, w (.text s) = .text s
  integer : ∀ n, w (.ofInt n) = .ofInt n
  array : ∀ items, w (.array items) = .array (items.map w)
  object : ∀ members : List (String × Json), (members.map (·.1)).Nodup →
    ∃ members', w (.object members) = .object members' ∧ (members'.map (·.1)).Nodup ∧
      ∀ name, Dictionary.lookup name members' = (Dictionary.lookup name members).map w

/-- To leave a value as it is is a way to write it again. -/
theorem rewriting_id : Rewriting id where
  text _ := rfl
  integer _ := rfl
  array items := by rw [List.map_id, id]
  object members distinct := ⟨members, rfl, distinct, fun name ↦ by rw [Option.map_id]; rfl⟩

/-- To sort the members of every object is a way to write a value again. -/
theorem rewriting_sorted : Rewriting sorted where
  text _ := rfl
  integer _ := rfl
  array items := congrArg Json.array (sortedItems_eq_map items)
  object members _ := ⟨sortedMembers members, rfl, (sorted_sortedMembers members).nodup,
    fun name ↦ lookup_sortedMembers name members⟩

/-- What is written is read back, however it is written again, and nothing is read from null. -/
structure Lawful (encode : α → Json) (decode : Decoder α) : Prop where
  read : ∀ {w}, Rewriting w → ∀ a, decode (w (encode a)) = .ok a
  null : ∀ a, decode .null ≠ .ok a

/-- What is written is not null, however it is written again. -/
theorem Lawful.ne_null {encode : α → Json} {decode : Decoder α} (lawful : Lawful encode decode)
    {w : Json → Json} (rewriting : Rewriting w) (a : α) : w (encode a) ≠ .null := fun h ↦
  lawful.null a (h ▸ lawful.read rewriting a)

theorem lawful_string : Lawful .text string where
  read rewriting s := by
    rw [rewriting.text]
    rfl
  null _ h := by cases h

/-- An integer within the bounds is read. -/
theorem integer_ofInt {least greatest n : Int} (expected : String) (above : least ≤ n)
    (below : n ≤ greatest) : integer least greatest expected (.ofInt n) = .ok n :=
  if_pos ⟨above, below⟩

theorem lawful_unsigned8 : Lawful (fun n : UInt8 ↦ .ofInt n.toNat) unsigned8 where
  read rewriting n := by
    have below : n.toNat < 256 := n.toNat_lt
    have small : ((n.toNat : Int) % 2 ^ 8).toNat = n.toNat := by omega
    rw [rewriting.integer, unsigned8, integer_ofInt _ (by omega) (by omega), Except.map,
      UInt8.ofInt, small, UInt8.ofNat_toNat]
  null _ h := by cases h

theorem lawful_unsigned32 : Lawful (fun n : UInt32 ↦ .ofInt n.toNat) unsigned32 where
  read rewriting n := by
    have below : n.toNat < 4294967296 := n.toNat_lt
    have small : ((n.toNat : Int) % 2 ^ 32).toNat = n.toNat := by omega
    rw [rewriting.integer, unsigned32, integer_ofInt _ (by omega) (by omega), Except.map,
      UInt32.ofInt, small, UInt32.ofNat_toNat]
  null _ h := by cases h

theorem lawful_signed64 : Lawful (fun n : Int64 ↦ .ofInt n.toInt) signed64 where
  read rewriting n := by
    have least := n.le_toInt
    have greatest := n.toInt_lt
    rw [rewriting.integer, signed64, integer_ofInt _ (by omega) (by omega), Except.map,
      Int64.ofInt_toInt]
  null _ h := by cases h

theorem lawful_signed32 : Lawful (fun n : Int32 ↦ .ofInt n.toInt) signed32 where
  read rewriting n := by
    have least := n.le_toInt
    have greatest := n.toInt_lt
    rw [rewriting.integer, signed32, integer_ofInt _ (by omega) (by omega), Except.map,
      Int32.ofInt_toInt]
  null _ h := by cases h

/-- A text is made of a text, and of nothing else. -/
theorem string_eq_ok_iff {v : Json} {s : String} : string v = .ok s ↔ v = .text s := by
  cases v with
  | text t => rw [string, Except.ok.injEq, text.injEq]
  | null | bool | number | array | object => exact iff_of_false nofun nofun

/-- A signed 64-bit integer is made of the same integer, and of nothing else. -/
theorem signed64_eq_ok_iff {v : Json} {n : Int64} :
    signed64 v = .ok n ↔ v = .ofInt n.toInt := by
  refine ⟨fun h ↦ ?_, fun h ↦ h ▸ lawful_signed64.read rewriting_id n⟩
  match v with
  | .number (.integer i) =>
    rw [signed64, integer] at h
    split at h
    · next inRange =>
      cases h
      rw [Int64.toInt_ofInt_of_le (by omega) (by omega)]
      rfl
    · cases h
  | .number (.float _) | .null | .bool _ | .text _ | .array _ | .object _ => cases h

/-- A list is read back if its items are. -/
theorem Lawful.list {encode : α → Json} {decode : Decoder α} (lawful : Lawful encode decode) :
    Lawful (fun as ↦ .array (as.map encode)) (list decode) where
  read {w} rewriting as := by
    rw [rewriting.array, Json.list]
    induction as with
    | nil => rfl
    | cons a as ih =>
      rw [List.map_cons, List.map_cons, List.mapM_cons, lawful.read rewriting, ih]
      rfl
  null _ h := by cases h

/-! ### Records that are written -/

namespace Field

variable {encode : α → Json} {decode : Decoder α} {w : Json → Json} {name : String}
  {get : σ → Option α} {set : Option α → σ → σ} {s t : σ}

/-- A required field takes the member that is written for it. -/
theorem Takes.required (lawful : Lawful encode decode) (rewriting : Rewriting w) {a : α}
    (taken : get t = some a) :
    (Field.required name decode get set).Takes s ((some (encode a)).map w) t := by
  change (decode (w (encode a))).map some = .ok (get t)
  rw [lawful.read rewriting, taken]
  rfl

/-- An optional field takes the member that is written for it, if there is any. -/
theorem Takes.optional (lawful : Lawful encode decode) (rewriting : Rewriting w)
    {written : Option α} (empty : get s = none) (taken : get t = written) :
    (Field.optional name decode get set).Takes s ((written.map encode).map w) t := by
  cases written with
  | none => exact taken.trans empty.symm
  | some a =>
    have notNull := lawful.ne_null rewriting a
    have hread := lawful.read rewriting a
    change nullable decode (w (encode a)) = .ok (get t)
    rw [nullable.eq_2 _ _ notNull, hread, taken]
    rfl

/-- An optional field that is empty takes null. -/
theorem Takes.null (empty : get t = none) :
    (Field.optional name decode get set).Takes s (some .null) t :=
  congrArg Except.ok empty.symm

end Field

/-- An optional member is looked up in front of others. -/
@[simp]
theorem lookup_optional_append (name key : String) (written : Option Json)
    (rest : List (String × Json)) :
    Dictionary.lookup key (optional name written ++ rest) =
      if key = name then written.or (Dictionary.lookup key rest)
      else Dictionary.lookup key rest := by
  cases written with
  | none => simp [optional]
  | some value => simp [optional, Dictionary.lookup]

/-- An optional member is looked up. -/
@[simp]
theorem lookup_optional (name key : String) (written : Option Json) :
    Dictionary.lookup key (optional name written) = if key = name then written else none := by
  simpa [Dictionary.lookup] using lookup_optional_append name key written []

/-- What is written for an optional member can be written. -/
theorem writable_optional {encode : α → Json} {levels : Nat}
    (writable : ∀ a, (encode a).Writable levels) (name : String) (value : Option α) :
    ∀ m ∈ optional name (value.map encode), m.2.Writable levels := by
  cases value with
  | none => exact fun _ h ↦ absurd h List.not_mem_nil
  | some a => exact List.forall_mem_singleton.mpr (writable a)

/-- An optional member has its name, if it is there. -/
theorem names_optional_sublist (name : String) (written : Option Json) :
    ((optional name written).map (·.1)).Sublist [name] := by
  cases written with
  | none => exact List.nil_sublist _
  | some _ => exact List.Sublist.refl _

/-- A record is read from an object with distinct names in which each field finds what it takes,
however the object is written again. -/
theorem Record.Consists.read_rewritten {r : Record σ} {fields : List (Field σ)}
    (consists : r.Consists fields) {w : Json → Json} (rewriting : Rewriting w)
    (distinct : (members.map (·.1)).Nodup) {s t : σ}
    (taken : ∀ f ∈ fields, f.Takes s ((Dictionary.lookup f.name members).map w) t) :
    r.read s (w (.object members)) = .ok t := by
  obtain ⟨members', hobject, distinct', hlookup⟩ := rewriting.object members distinct
  rw [hobject, Record.read, consists.takeMembers_iff distinct']
  intro f hf
  rw [hlookup]
  exact taken f hf

end LanguageHub.Json
