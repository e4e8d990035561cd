import LanguageHub.Proofs.Message.Outbound

/-!
# Replies are correlated

The client answers each request of a server with null. The answer carries the id that stands in the
body of the request, so that the server can tell which request is answered (`reply_correlated`).
-/

namespace LanguageHub

open Json (IsWord MemberText Written)
open Json.TextRecord (takeTexts_of_takeText)

/-- The ids that a server gives to its requests: a text, or an integer of a signed or an unsigned
64-bit word. -/
inductive IsRequestId : Json → Prop where
  | text (s : String) : IsRequestId (.text s)
  | integer {n : Int} (word : IsWord n) : IsRequestId (.ofInt n)

/-- The id that stands in a body: the value of the only member of this name, or the first item if
the body lists the members of the message without their names. -/
inductive HasId (body : String) (id : Json) : Prop where
  | object {members : List MemberText} {text rest : List Char}
      (object : Json.memberTexts body = .ok members)
      (only : members.filter (·.1 == "id") = [("id", text)])
      (value : Json.readValue (Json.maxDepth - 1) text = .ok (id, rest)) : HasId body id
  | array {inner rest : List Char} (array : Json.skipSpace body.toList = '[' :: inner)
      (value : Json.readValue (Json.maxDepth - 1) inner = .ok (id, rest)) : HasId body id

/-! ### The id of a request -/

namespace Envelope

variable {e e' : Envelope} {id : Json} {m : MemberText} {members : List MemberText}

/-- An id is taken from the value of a member. -/
theorem readMemberValue_of_takeText {text : List Char}
    (taken : record.takeText e ("id", text) = .ok e') :
    ∃ rest, readMemberValue text = .ok (e'.id, rest) := by
  obtain ⟨v, rest, read⟩ : ∃ v rest, readMemberValue text = .ok (v, rest) :=
    takeText_iff.mp ⟨e', taken⟩
  obtain ⟨-, -, takes⟩ := takeText_keeps taken
  exact ⟨rest, (takes v rest rfl read) ▸ read⟩

/-- The id of an envelope is the value of the only member of this name. -/
theorem exists_only_id (taken : record.takeTexts e members = .ok e') (noId : e.id = none)
    (once : record.Once members) (hid : e'.id = some id) :
    ∃ text rest, members.filter (·.1 == "id") = [("id", text)] ∧
      readMemberValue text = .ok (some id, rest) := by
  induction members generalizing e with
  | nil =>
    cases taken
    rw [noId] at hid
    cases hid
  | cons m members ih =>
    rw [Json.TextRecord.takeTexts_cons] at taken
    obtain ⟨t, first, others⟩ := Json.eq_ok_of_bind taken
    obtain _ | ⟨alone, once⟩ := once
    obtain ⟨name, text⟩ := m
    by_cases named : name = "id"
    · subst named
      have alone : ∀ m ∈ members, m.1 ≠ "id" := fun m mem ↦ alone m mem rfl
      have absent : "id" ∉ members.map (·.1) := fun mem ↦ by
        obtain ⟨m, mem, same⟩ := List.mem_map.mp mem
        exact alone m mem same
      obtain ⟨rest, read⟩ := readMemberValue_of_takeText first
      rw [← (takeTexts_keeps others).1 absent, hid] at read
      refine ⟨text, rest, ?_, read⟩
      rw [List.filter_cons_of_pos rfl, List.filter_eq_nil_iff.mpr (by simpa using alone)]
    · have kept : t.id = none := ((takeText_keeps first).1 named).trans noId
      obtain ⟨text, rest, only, read⟩ := ih others kept once
      refine ⟨text, rest, ?_, read⟩
      rw [List.filter_cons_of_neg (by simpa using named), only]

/-- The values of other fields leave the id as it is. -/
theorem take_keeps_id {name : String} {cs rest : List Char}
    (taken : record.take name e cs = .ok (e', rest)) (other : name ≠ "id") : e'.id = e.id := by
  simp only [record] at taken
  split at taken
  · exact absurd rfl other
  all_goals
    obtain ⟨_, -, h⟩ := Json.eq_ok_of_bind taken
    cases h
    rfl

/-- The elements of an array that stand for other fields leave the id as it is. -/
theorem readElements_keeps_id {count : Nat} {fields : List (String × Bool)} {cs rest : List Char}
    (read : record.readElements count fields e cs = .ok (e', rest))
    (other : ∀ f ∈ fields, f.1 ≠ "id") : e'.id = e.id := by
  induction fields generalizing count e cs with
  | nil =>
    obtain ⟨_, -, h⟩ := Json.eq_ok_of_map read
    cases h
    rfl
  | cons field fields ih =>
    obtain ⟨name, optional⟩ := field
    rw [List.forall_mem_cons] at other
    obtain ⟨⟨more, here⟩, -, read⟩ := Json.eq_ok_of_bind read
    cases more with
    | false =>
      simp only [Bool.false_eq_true, if_false] at read
      split at read
      · cases read
        rfl
      · cases read
    | true =>
      obtain ⟨⟨t, after⟩, taken, read⟩ := Json.eq_ok_of_bind read
      exact (ih read other.2).trans (take_keeps_id taken other.1)

/-- The first item of an array begins behind the bracket. -/
private theorem eq_skipSpace_of_nextItem {cs here : List Char}
    (h : Json.nextItem true cs = .ok (true, here)) : here = Json.skipSpace cs := by
  simp only [Json.nextItem] at h
  split at h
  · cases h
  · next space =>
    split at h
    · cases h
    · cases h
      exact space.symm

/-- The id of an envelope that is read from an array is the first item. -/
theorem readValue_of_readElements {inner rest : List Char}
    (read : record.readElements 0 record.fields {} inner = .ok (e, rest)) (hid : e.id = some id) :
    ∃ rest, Json.readValue (Json.maxDepth - 1) inner = .ok (id, rest) := by
  obtain ⟨⟨more, here⟩, next, read⟩ := Json.eq_ok_of_bind read
  cases more with
  | false =>
    cases read
    cases hid
  | true =>
    obtain ⟨⟨t, after⟩, taken, read⟩ := Json.eq_ok_of_bind read
    have text := Json.TextRecord.takeText_of_take (by rfl) taken
    obtain ⟨behind, value⟩ := readMemberValue_of_takeText text
    rw [← readElements_keeps_id read (by decide), hid] at value
    refine ⟨behind, ?_⟩
    rw [← Json.readValue_skipSpace, ← eq_skipSpace_of_nextItem next]
    exact Json.readValue_of_readNullable value

end Envelope

/-- The id of a request is the id of its envelope. -/
theorem ServerMessage.exists_envelope {body : String} {id : Json} {method : String}
    (request : decode body = .ok (.request id method)) :
    ∃ e, Envelope.parse body = .ok e ∧ e.id = some id := by
  simp only [decode] at request
  split at request
  · cases request
  next e parsed =>
  refine ⟨e, parsed, ?_⟩
  simp only [ofEnvelope] at request
  split at request
  · next hid _ =>
    cases request
    exact hid
  · split at request
    · cases request
    · split at request <;> cases request
  · obtain ⟨_, -, h⟩ := Json.eq_ok_of_map request
    cases h
  · cases request

/-- The id of a request stands in its body. -/
theorem hasId_of_request {body : String} {id : Json} {method : String}
    (request : ServerMessage.decode body = .ok (.request id method)) : HasId body id := by
  obtain ⟨e, parsed, hid⟩ := ServerMessage.exists_envelope request
  obtain ⟨t, finished, ⟨members, object, taken, once⟩ | ⟨inner, rest, array, read⟩⟩ :=
    Envelope.record.cases_of_readWhole Envelope.passingFields parsed
  · cases finished
    obtain ⟨text, rest, only, value⟩ := Envelope.exists_only_id taken rfl once hid
    exact .object object only (Json.readValue_of_readNullable value)
  · cases finished
    obtain ⟨rest, value⟩ := Envelope.readValue_of_readElements read hid
    exact .array array value

/-! ### The answer -/

section Answer

variable {id : Json}

/-- The ids of requests can be written. -/
theorem IsRequestId.plain (simple : IsRequestId id) (levels : Nat) : id.Plain levels := by
  cases simple with
  | text => trivial
  | integer word => exact word

/-- An answer is read back. -/
theorem parse_encodeNullReply (simple : IsRequestId id) :
    Json.parse (encodeNullReply id) =
      .ok (.object [("id", id), ("jsonrpc", rpcVersion), ("result", .null)]) := by
  refine Json.parse_render ⟨?_, simple.plain _, trivial, trivial, trivial⟩
  rfl

/-- A result that is null counts as absent. -/
theorem Envelope.takeText_null_result {e : Envelope} {t : MemberText}
    (written : Written ("result", .null) t) :
    record.takeText e t = .ok { e with result := none } := by
  obtain ⟨name, text⟩ := t
  obtain ⟨rfl, rest, -, rfl⟩ := written
  rfl

/-- An answer under an id that fits a signed 64-bit word is the response under this id. -/
theorem ServerMessage.decode_encodeNullReply {n : Int} (least : -0x8000000000000000 ≤ n)
    (greatest : n < 0x8000000000000000) :
    decode (encodeNullReply (.ofInt n)) = .ok (.response n (.ok .null)) := by
  have word : IsWord n := ⟨least, by omega⟩
  have hid : (Json.ofInt n).ReadsBack (Json.maxDepth - 1) :=
    ((IsRequestId.integer word).plain 126).readsBack
  have back : ∀ m ∈ [("id", Json.ofInt n), ("jsonrpc", rpcVersion), ("result", .null)],
      m.2.ReadsBack (Json.maxDepth - 1) := by
    have version : rpcVersion.Plain 126 := trivial
    have null : Json.null.Plain 126 := trivial
    simp only [List.forall_mem_cons]
    exact ⟨hid, version.readsBack, null.readsBack, List.forall_mem_nil _⟩
  obtain ⟨texts, object, written, names⟩ := Json.memberTexts_render back
  have distinct : (texts.map (·.1)).Nodup := by
    rw [names]
    simp
  have notNull : Json.ofInt n ≠ .null := fun h ↦ by cases h
  have taken : Envelope.record.takeTexts {} texts = .ok { id := some (.ofInt n) } := by
    obtain _ | ⟨wid, _ | ⟨wversion, _ | ⟨wresult, _ | _⟩⟩⟩ := written
    rw [takeTexts_of_takeText (Envelope.takeText_id wid hid notNull),
      takeTexts_of_takeText (Envelope.takeText_jsonrpc wversion),
      takeTexts_of_takeText (Envelope.takeText_null_result wresult)]
    rfl
  have integer : (Json.ofInt n).int64? = some n := if_pos ⟨least, greatest⟩
  rw [decode, encodeNullReply, nullReply, Envelope.parse_eq object distinct, taken]
  simp only [ofEnvelope, integer, Option.getD_none]

end Answer

/-- A body that is accepted as a request is answered with an object that has the id of the body, no
method, and null as its result. If the id may be the id of a call of the client, this object is the
response to the call, with null as its result. -/
theorem reply_correlated {body : String} {id : Json} {method : String}
    (request : ServerMessage.decode body = .ok (.request id method)) (simple : IsRequestId id) :
    HasId body id ∧
      (∃ members, Json.parse (encodeNullReply id) = .ok (.object members) ∧
        Dictionary.lookup "method" members = none ∧
        Dictionary.lookup "result" members = some .null ∧
        Dictionary.lookup "id" members = some id) ∧
      ∀ n, id = .ofInt n → -0x8000000000000000 ≤ n → n < 0x8000000000000000 →
        ServerMessage.decode (encodeNullReply id) = .ok (.response n (.ok .null)) := by
  refine ⟨hasId_of_request request, ⟨_, parse_encodeNullReply simple, rfl, rfl, rfl⟩, ?_⟩
  rintro n rfl least greatest
  exact ServerMessage.decode_encodeNullReply least greatest

/-- A request whose id is written with escapes, among them one for a character that is not ASCII and
one for a control character. -/
theorem escaped_id_is_answered :
    ServerMessage.decode "\x7b\"id\":\"\\u00e9\\\"\\u0001\",\"method\":\"m\"\x7d" =
        .ok (.request (.text "é\"\x01") "m") ∧
      HasId "\x7b\"id\":\"\\u00e9\\\"\\u0001\",\"method\":\"m\"\x7d" (.text "é\"\x01") ∧
      ∃ members, Json.parse (encodeNullReply (.text "é\"\x01")) = .ok (.object members) ∧
        Dictionary.lookup "id" members = some (.text "é\"\x01") := by
  have text : "\x7b\"id\":\"\\u00e9\\\"\\u0001\",\"method\":\"m\"\x7d".toList =
    ['\x7b', '"', 'i', 'd', '"', ':', '"', '\\', 'u', '0', '0', 'e', '9', '\\', '"',
      '\\', 'u', '0', '0', '0', '1', '"', ',', '"', 'm', 'e', 't', 'h', 'o', 'd', '"', ':',
      '"', 'm', '"', '\x7d'] := rfl
  have request : ServerMessage.decode
      "\x7b\"id\":\"\\u00e9\\\"\\u0001\",\"method\":\"m\"\x7d" =
        .ok (.request (.text "é\"\x01") "m") := by
    rw [ServerMessage.decode, Envelope.parse, Json.readWhole, text]
    rfl
  obtain ⟨hasId, ⟨members, parsed, -, -, id⟩, -⟩ := reply_correlated request (.text _)
  exact ⟨request, hasId, members, parsed, id⟩

end LanguageHub
