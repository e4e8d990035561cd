import LanguageHub.Message.Incoming
import LanguageHub.Proofs.Json.Members

/-!
# Envelopes of objects

A body that is an object with distinct names is an envelope exactly if each of its members holds
what an envelope may hold under its name. A single member that does not spoils the whole message,
whatever the others hold.
-/

namespace LanguageHub

open Json

theorem RpcError.passing_read : Passing RpcError.read := by
  refine RpcError.record.passing_read (fun name d cs t rest h ↦ ?_) _ _
  simp only [RpcError.record] at h
  split at h
  · obtain ⟨⟨n, after⟩, hread, h⟩ := eq_ok_of_bind h
    cases h
    exact passing_readInt64 hread
  · obtain ⟨⟨s, after⟩, hread, h⟩ := eq_ok_of_bind h
    cases h
    exact passing_readString hread

namespace Envelope

/-- Read any value that may stand inside an envelope. -/
abbrev readMemberValue : Reader (Option Json) := readNullable (readValue (maxDepth - 1))

/-- The text from the value of a member on begins with what an envelope may hold under the name of
the member: any value that can be built, or null; a text, or null; an error with an integer as its
code and a text as its message, or null. What stands under any other name is passed over. -/
def Understood (m : MemberText) : Prop :=
  match m.1 with
  | "id" | "params" | "result" => ∃ v rest, readMemberValue m.2 = .ok (v, rest)
  | "method" => ∃ v rest, readNullable readString m.2 = .ok (v, rest)
  | "error" => ∃ v rest, readNullable RpcError.read m.2 = .ok (v, rest)
  | _ => True

theorem passingFields : record.PassingFields := by
  intro name e cs t rest h
  simp only [record] at h
  split at h
  case h_2 =>
    obtain ⟨⟨v, after⟩, hread, h⟩ := eq_ok_of_bind h
    cases h
    exact passing_readString.nullable hread
  case h_5 =>
    obtain ⟨⟨v, after⟩, hread, h⟩ := eq_ok_of_bind h
    cases h
    exact RpcError.passing_read.nullable hread
  all_goals
    obtain ⟨⟨v, after⟩, hread, h⟩ := eq_ok_of_bind h
    cases h
    exact (passing_readValue _).nullable hread

variable {e e' : Envelope} {m : MemberText} {members : List MemberText}

/-- What a member changes in an envelope. -/
inductive Changes (e : Envelope) : MemberText → Except Fault Envelope → Prop where
  | id (text : List Char) :
      Changes e ("id", text) ((readMemberValue text).map fun (v, _) ↦ { e with id := v })
  | method (text : List Char) :
      Changes e ("method", text)
        ((readNullable readString text).map fun (v, _) ↦ { e with method := v })
  | params (text : List Char) :
      Changes e ("params", text) ((readMemberValue text).map fun (v, _) ↦ { e with params := v })
  | result (text : List Char) :
      Changes e ("result", text) ((readMemberValue text).map fun (v, _) ↦ { e with result := v })
  | error (text : List Char) :
      Changes e ("error", text)
        ((readNullable RpcError.read text).map fun (v, _) ↦ { e with error := v })
  | other (m : MemberText) (unknown : m.1 ∉ record.fields.map (·.1)) : Changes e m (.ok e)

private theorem map_fst_bind {α : Type} (x : Except Fault (α × List Char)) (f : α → Envelope) :
    (x >>= fun (v, rest) ↦ Except.ok (f v, rest)).map (·.1) = x.map fun (v, _) ↦ f v := by
  cases x <;> rfl

/-- Every member changes an envelope in one of these ways. -/
theorem changes_takeText (e : Envelope) (m : MemberText) :
    Changes e m (record.takeText e m) := by
  obtain ⟨name, text⟩ := m
  by_cases known : name ∈ record.fields.map (·.1)
  · have htake : record.takeText e (name, text) = (record.take name e text).map (·.1) := by
      have hany : record.fields.any (·.1 == name) = true := by
        obtain ⟨field, hfield, rfl⟩ := List.mem_map.mp known
        exact List.any_eq_true.mpr ⟨field, hfield, beq_self_eq_true _⟩
      rw [TextRecord.takeText, if_pos hany]
    rw [htake]
    simp only [record, List.map_cons, List.map_nil, List.mem_cons, List.not_mem_nil,
      or_false] at known
    rcases known with rfl | rfl | rfl | rfl | rfl
    · exact (congrArg (Changes e _)
        (map_fst_bind (readMemberValue text) fun v ↦ { e with id := v })).mpr
        (.id text)
    · exact (congrArg (Changes e _)
        (map_fst_bind (readNullable readString text) fun v ↦ { e with method := v })).mpr
        (.method text)
    · exact (congrArg (Changes e _)
        (map_fst_bind (readMemberValue text) fun v ↦ { e with params := v })).mpr
        (.params text)
    · exact (congrArg (Changes e _)
        (map_fst_bind (readMemberValue text) fun v ↦ { e with result := v })).mpr
        (.result text)
    · exact (congrArg (Changes e _)
        (map_fst_bind (readNullable RpcError.read text) fun v ↦ { e with error := v })).mpr
        (.error text)
  · have hany : ¬ record.fields.any (·.1 == name) = true := fun hany ↦ by
      obtain ⟨field, hfield, heq⟩ := List.any_eq_true.mp hany
      exact known (List.mem_map.mpr ⟨field, hfield, eq_of_beq heq⟩)
    rw [TextRecord.takeText, if_neg hany]
    exact .other _ known

/-- A member that is understood is taken, and no other is. -/
theorem takeText_iff : (∃ e', record.takeText e m = .ok e') ↔ Understood m := by
  have read_iff {α : Type} (x : Except Fault (α × List Char)) (f : α × List Char → Envelope) :
      (∃ e', x.map f = .ok e') ↔ ∃ v rest, x = .ok (v, rest) := by
    cases x with
    | error fault => simp [Except.map]
    | ok result => exact ⟨fun _ ↦ ⟨result.1, result.2, rfl⟩, fun _ ↦ ⟨_, rfl⟩⟩
  have changes := changes_takeText e m
  generalize record.takeText e m = taken at changes ⊢
  cases changes with
  | id text | method text | params text | result text | error text => exact read_iff _ _
  | other m unknown =>
    refine ⟨fun _ ↦ ?_, fun _ ↦ ⟨e, rfl⟩⟩
    unfold Understood
    split
    case h_6 => trivial
    all_goals
      next hname => exact absurd (hname ▸ by decide) unknown

/-- Members of other names leave the id and the method as they are, and an id that is understood is
the id. -/
theorem takeText_keeps (taken : record.takeText e m = .ok e') :
    (m.1 ≠ "id" → e'.id = e.id) ∧ (m.1 ≠ "method" → e'.method = e.method) ∧
      ∀ v rest, m.1 = "id" → readMemberValue m.2 = .ok (v, rest) → e'.id = v := by
  have changes := changes_takeText e m
  rw [taken] at changes
  generalize htaken : Except.ok e' = taken at changes
  cases changes with
  | id text =>
    obtain ⟨⟨v, after⟩, hread, hv⟩ := eq_ok_of_map htaken.symm
    subst hv
    refine ⟨fun h ↦ absurd rfl h, fun _ ↦ rfl, fun w rest _ hw ↦ ?_⟩
    rw [hread] at hw
    cases hw
    rfl
  | method text =>
    obtain ⟨⟨v, after⟩, hread, hv⟩ := eq_ok_of_map htaken.symm
    subst hv
    exact ⟨fun _ ↦ rfl, fun h ↦ absurd rfl h, fun _ _ (h : "method" = "id") ↦ absurd h (by decide)⟩
  | params text | result text | error text =>
    obtain ⟨⟨v, after⟩, hread, hv⟩ := eq_ok_of_map htaken.symm
    subst hv
    refine ⟨fun _ ↦ rfl, fun _ ↦ rfl, fun _ _ h ↦ ?_⟩
    simp at h
  | other m unknown =>
    cases htaken
    exact ⟨fun _ ↦ rfl, fun _ ↦ rfl, fun _ _ h ↦ absurd (h ▸ by decide) unknown⟩

/-- All members are taken if each of them is understood, and only then. -/
theorem takeTexts_iff :
    (∃ e', record.takeTexts e members = .ok e') ↔ ∀ m ∈ members, Understood m := by
  induction members generalizing e with
  | nil => exact ⟨fun _ _ h ↦ absurd h List.not_mem_nil, fun _ ↦ ⟨e, rfl⟩⟩
  | cons m members ih =>
    rw [TextRecord.takeTexts_cons, List.forall_mem_cons, ← takeText_iff (e := e)]
    constructor
    · rintro ⟨e', h⟩
      obtain ⟨t, hfirst, hrest⟩ := eq_ok_of_bind h
      exact ⟨⟨t, hfirst⟩, ih.mp ⟨e', hrest⟩⟩
    · rintro ⟨⟨t, hfirst⟩, hrest⟩
      rw [hfirst]
      exact ih.mpr hrest

/-- Members without an id and a method leave these as they are; an id among members of distinct
names is the id. -/
theorem takeTexts_keeps (taken : record.takeTexts e members = .ok e') :
    ("id" ∉ members.map (·.1) → e'.id = e.id) ∧
    ("method" ∉ members.map (·.1) → e'.method = e.method) ∧
    ∀ text v rest, (members.map (·.1)).Nodup → ("id", text) ∈ members →
      readMemberValue text = .ok (v, rest) → e'.id = v := by
  induction members generalizing e with
  | nil =>
    cases taken
    exact ⟨fun _ ↦ rfl, fun _ ↦ rfl, fun _ _ _ _ h ↦ absurd h List.not_mem_nil⟩
  | cons m members ih =>
    rw [TextRecord.takeTexts_cons] at taken
    obtain ⟨t, hfirst, hrest⟩ := eq_ok_of_bind taken
    obtain ⟨keepsId, keepsMethod, takesId⟩ := takeText_keeps hfirst
    obtain ⟨restId, restMethod, ofRest⟩ := ih hrest
    simp only [List.map_cons, List.mem_cons, not_or]
    refine ⟨fun h ↦ (restId h.2).trans (keepsId (Ne.symm h.1)),
      fun h ↦ (restMethod h.2).trans (keepsMethod (Ne.symm h.1)),
      fun text v rest nodup hmem hread ↦ ?_⟩
    rw [List.nodup_cons] at nodup
    rcases hmem with rfl | hmem
    · exact (restId nodup.1).trans (takesId v rest rfl hread)
    · exact ofRest text v rest nodup.2 hmem hread

/-- The envelope of an object with distinct names is there if each member is understood, and only
then. -/
theorem parse_eq {body : String} (object : memberTexts body = .ok members)
    (distinct : (members.map (·.1)).Nodup) :
    parse body = record.takeTexts {} members := by
  rw [parse, record.readWhole_read passingFields object distinct]
  cases record.takeTexts {} members <;> rfl

end Envelope

/-- What a body decodes to that is an object with distinct names, an integer as its id and no
method: a response under this id if all its members are understood, and else nothing. -/
theorem ServerMessage.decode_of_object {body : String} {members : List MemberText}
    (object : memberTexts body = .ok members) (distinct : (members.map (·.1)).Nodup)
    {text rest : List Char} {v : Json} {n : Int} (id : ("id", text) ∈ members)
    (value : readValue (maxDepth - 1) text = .ok (v, rest)) (integer : v.int64? = some n)
    (noMethod : "method" ∉ members.map (·.1)) :
    ((∀ m ∈ members, Envelope.Understood m) →
      ∃ outcome, ServerMessage.decode body = .ok (.response n outcome)) ∧
    (¬ (∀ m ∈ members, Envelope.Understood m) → ∃ f, ServerMessage.decode body = .error f) := by
  rw [← Envelope.takeTexts_iff (e := {})]
  unfold decode
  rw [Envelope.parse_eq object distinct]
  refine ⟨fun ⟨e, htaken⟩ ↦ ?_, fun none ↦ ?_⟩
  · obtain ⟨-, keepsMethod, takesId⟩ := Envelope.takeTexts_keeps htaken
    have notNull : v ≠ .null := by
      rintro rfl
      cases integer
    have hid : e.id = some v :=
      takesId text _ rest distinct id (readNullable_of_readValue value notNull)
    have hmethod : e.method = none := keepsMethod noMethod
    rw [htaken]
    simp only [ofEnvelope, hid, hmethod, integer]
    cases e.error with
    | some err => exact ⟨_, rfl⟩
    | none => exact ⟨_, rfl⟩
  · cases htaken : Envelope.record.takeTexts {} members with
    | ok e => exact absurd ⟨e, htaken⟩ none
    | error f => exact ⟨_, rfl⟩

end LanguageHub
