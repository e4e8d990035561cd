import LanguageHub.Proofs.Json.Members
import LanguageHub.Proofs.Message.Envelope
import LanguageHub.Proofs.Message.Parameters

/-!
# Outbound bodies say what was asked

The body that the client sends for a notification is one object without an id, whose method and
parameters are those of the notification. The body that it sends for a request is a request, with
the id, the method and the parameters that were asked for.
-/

namespace LanguageHub

open Json (Written)
open Json.TextRecord (takeTexts_of_takeText)

/-! ### The envelope of a request -/

namespace Envelope

variable {e : Envelope} {t : Json.MemberText} {v : Json}

/-- A value that was written is read as what an envelope holds. -/
private theorem readMemberValue_renderList (back : v.ReadsBack (Json.maxDepth - 1))
    (notNull : v ≠ .null) {rest : List Char} (stops : Json.Stops rest) :
    readMemberValue (v.renderList ++ rest) = .ok (some v, rest) :=
  Json.readNullable_of_readValue (back.reads rest stops) notNull

/-- An id that was written is taken. -/
theorem takeText_id (written : Written ("id", v) t) (back : v.ReadsBack (Json.maxDepth - 1))
    (notNull : v ≠ .null) : record.takeText e t = .ok { e with id := some v } := by
  obtain ⟨name, text⟩ := t
  obtain ⟨rfl, rest, stops, rfl⟩ := written
  refine Json.TextRecord.takeText_of_take (by rfl) (?_ : _ = Except.ok (_, rest))
  change (readMemberValue (v.renderList ++ rest) >>= fun p ↦
    Except.ok ({ e with id := p.1 }, p.2)) = _
  rw [readMemberValue_renderList back notNull stops]
  rfl

/-- Parameters that were written are taken. -/
theorem takeText_params (written : Written ("params", v) t)
    (back : v.ReadsBack (Json.maxDepth - 1)) (notNull : v ≠ .null) :
    record.takeText e t = .ok { e with params := some v } := by
  obtain ⟨name, text⟩ := t
  obtain ⟨rfl, rest, stops, rfl⟩ := written
  refine Json.TextRecord.takeText_of_take (by rfl) (?_ : _ = Except.ok (_, rest))
  change (readMemberValue (v.renderList ++ rest) >>= fun p ↦
    Except.ok ({ e with params := p.1 }, p.2)) = _
  rw [readMemberValue_renderList back notNull stops]
  rfl

/-- A method that was written is taken. -/
theorem takeText_method {method : String} (written : Written ("method", .text method) t) :
    record.takeText e t = .ok { e with method := some method } := by
  obtain ⟨name, text⟩ := t
  obtain ⟨rfl, rest, stops, rfl⟩ := written
  refine Json.TextRecord.takeText_of_take (by rfl) (?_ : _ = Except.ok (_, rest))
  change (Json.readNullable Json.readString ((Json.text method).renderList ++ rest) >>= fun p ↦
    Except.ok ({ e with method := p.1 }, p.2)) = _
  rw [Json.readNullable_renderText]
  rfl

/-- A version that was written is passed over. -/
theorem takeText_jsonrpc (written : Written ("jsonrpc", v) t) : record.takeText e t = .ok e := by
  obtain ⟨name, text⟩ := t
  obtain ⟨rfl, -⟩ := written
  rfl

end Envelope

/-- A body with an id, a method and parameters is a request. -/
theorem ServerMessage.decode_render {id params : Json} {method : String}
    (hid : id.ReadsBack (Json.maxDepth - 1)) (idNotNull : id ≠ .null)
    (hparams : params.ReadsBack (Json.maxDepth - 1)) (paramsNotNull : params ≠ .null) :
    decode (Json.object [("id", id), ("jsonrpc", rpcVersion), ("method", .text method),
      ("params", params)]).render = .ok (.request id method) := by
  have text (s : String) : (Json.text s).ReadsBack (Json.maxDepth - 1) :=
    Json.Plain.readsBack trivial
  have back : ∀ m ∈ [("id", id), ("jsonrpc", rpcVersion), ("method", Json.text method),
      ("params", params)], m.2.ReadsBack (Json.maxDepth - 1) := by
    simp only [List.forall_mem_cons]
    exact ⟨hid, text "2.0", text method, hparams, List.forall_mem_nil _⟩
  obtain ⟨texts, object, written, names⟩ := Json.memberTexts_render back
  have distinct : (texts.map (·.1)).Nodup := by
    rw [names]
    simp
  have taken : Envelope.record.takeTexts {} texts =
      .ok { id := some id, method := some method, params := some params } := by
    obtain _ | ⟨wid, _ | ⟨wversion, _ | ⟨wmethod, _ | ⟨wparams, _ | _⟩⟩⟩⟩ := written
    rw [takeTexts_of_takeText (Envelope.takeText_id wid hid idNotNull),
      takeTexts_of_takeText (Envelope.takeText_jsonrpc wversion),
      takeTexts_of_takeText (Envelope.takeText_method wmethod),
      takeTexts_of_takeText (Envelope.takeText_params wparams hparams paramsNotNull)]
    rfl
  rw [decode, Envelope.parse_eq object distinct, taken]
  rfl

/-! ### Requests -/

namespace Request

/-- A handshake states what the client is able to do. -/
def StatesCapabilities : Request → Prop
  | handshake h => h.capabilities = clientCapabilities
  | completion .. => True

variable {r : Request}

/-- The parameters of a request can be written. -/
theorem writable_params (states : r.StatesCapabilities) (levels : Nat) :
    r.params.Writable (levels + 6) := by
  cases r with
  | handshake h =>
    have capabilities : clientCapabilities.Writable (levels + 5) := by simp [clientCapabilities]
    have client : h.client.toJson.Writable (levels + 5) := by
      refine .object ?_
      rw [List.forall_mem_append, List.forall_mem_singleton]
      exact ⟨.text _, Json.writable_optional .text _ _⟩
    simpa [params, client] using states ▸ capabilities
  | completion uri position => simp [params, position.writable]

theorem params_ne_null (r : Request) : r.params.sorted ≠ .null := by
  cases r <;> simp [params, Json.sorted]

/-- The body of a request is a request with its id and its method. -/
theorem decode_encode (states : r.StatesCapabilities) (id : Int64) :
    ServerMessage.decode (r.encode id.toInt) = .ok (.request (.ofInt id.toInt) r.method) := by
  have hid : (Json.ofInt id.toInt).Writable 126 := .signed64 id
  rw [encode, sorted_request]
  exact ServerMessage.decode_render hid.plain_sorted.readsBack (fun h ↦ by cases h)
    (writable_params states 120).plain_sorted.readsBack r.params_ne_null

/-- The body of a request is an object in which its parameters are found. -/
theorem parse_encode (states : r.StatesCapabilities) (id : Int64) :
    ∃ members, Json.parse (r.encode id.toInt) = .ok (.object members) ∧
      Dictionary.lookup "params" members = some r.params.sorted := by
  have writable : (r.toJson id.toInt).Writable 127 := by
    have params := writable_params states 120
    simp [toJson, rpcVersion, params]
  exact ⟨_, writable.parse_render, rfl⟩

end Request

/-! ### Notifications -/

/-- The body of a notification is an object with its method and its parameters, and without an
id. -/
theorem Notice.parse_encode (n : Notice) (fits : n.Fits) :
    ∃ members, Json.parse n.encode = .ok (.object members) ∧
      Dictionary.lookup "id" members = none ∧
      Dictionary.lookup "method" members = some (.text n.method) ∧
      Dictionary.lookup "params" members = n.params.map Json.sorted := by
  refine ⟨_, Json.parse_render (n.plain_sorted fits), ?_, ?_, ?_⟩
  · simp [Dictionary.lookup]
  · simp [Dictionary.lookup, Json.sorted]
  · simp [Dictionary.lookup]

/-! ### What is asked -/

/-- The body is one object without an id. Its method and its parameters are those of the
notification, and it has no parameters if the notification is the last one, and only then. -/
def Notice.IsBody (n : Notice) (body : String) : Prop :=
  ∃ members, Json.parse body = .ok (.object members) ∧
    Dictionary.lookup "id" members = none ∧
    (Dictionary.lookup "params" members = none ↔ n = .shutdown) ∧
    ∃ method, Dictionary.lookup "method" members = some (.text method) ∧
      Notice.ofParams? method (Dictionary.lookup "params" members) = some n

/-- The body is decoded as a request with the id and with the method of the request, and it is one
object whose parameters are those of the request. -/
def Request.IsBody (r : Request) (id : Int64) (body : String) : Prop :=
  ServerMessage.decode body = .ok (.request (.ofInt id.toInt) r.method) ∧
    ∃ members params, Json.parse body = .ok (.object members) ∧
      Dictionary.lookup "params" members = some params ∧
      Request.ofParams? r.method params = some r

/-- Outbound bodies say what was asked, whatever texts they carry. -/
theorem bodies_say_what_was_asked :
    (∀ n : Notice, n.Fits → n.IsBody n.encode) ∧
      ∀ r : Request, r.StatesCapabilities → ∀ id : Int64, r.IsBody id (r.encode id.toInt) := by
  refine ⟨fun n fits ↦ ?_, fun r states id ↦ ⟨r.decode_encode states id, ?_⟩⟩
  · obtain ⟨members, hparse, hid, hmethod, hparams⟩ := n.parse_encode fits
    refine ⟨members, hparse, hid, ?_, n.method, hmethod, ?_⟩
    · rw [hparams]
      cases n <;> simp [Notice.params]
    · rw [hparams]
      exact Notice.ofParams?_params Json.rewriting_sorted n fits
  · obtain ⟨members, hparse, hparams⟩ := r.parse_encode states id
    refine ⟨members, _, hparse, hparams, Request.ofParams?_params Json.rewriting_sorted r ?_⟩
    rintro h rfl
    have capabilities : h.capabilities = clientCapabilities := states
    rw [capabilities]
    rfl

/-- A document whose text has quotes, a backslash, a newline and a control character, and a place in
a document whose name is not ASCII, under the least id. -/
theorem escaped_text_and_least_id :
    (Notice.didOpen "file:///a%20b.py" "python" (-1) "s = \"\\\n\x01\"").IsBody
      (Notice.didOpen "file:///a%20b.py" "python" (-1) "s = \"\\\n\x01\"").encode ∧
    (Request.completion "file:///é.py" ⟨0, 4294967295⟩).IsBody (-0x8000000000000000)
      ((Request.completion "file:///é.py" ⟨0, 4294967295⟩).encode (-0x8000000000000000)) :=
  ⟨bodies_say_what_was_asked.1 _ (by constructor <;> decide),
    bodies_say_what_was_asked.2 (.completion "file:///é.py" ⟨0, 4294967295⟩) trivial
      (-0x8000000000000000)⟩

end LanguageHub
