import LanguageHub.Message.Incoming
import LanguageHub.Proofs.Json.Typed

/-!
# What a message is

An object that a server sends is classified by five of its members: its id, its method, its
parameters, its result and its error, of which null members count as absent. What it is decoded as
follows from their values alone (`ServerMessage.decode_classified`), whatever order the members are
written in and whatever other members there are.

A message is read straight from its text. Its classification is stated of the value that the text
stands for, so errors and envelopes are made of values here as well as read from texts.
-/

namespace LanguageHub

open Json (Reads)

/-! ### Errors -/

namespace RpcError

variable {e : RpcError} {v : Json}

/-- How the fields of an error are taken from values. -/
def valueRecord : Json.Record (Option Int64 × Option String) where
  name := "RpcError"
  fields := [("code", false), ("message", false)]
  take name v d :=
    match name with
    | "code" => return (some (← Json.signed64 v), d.2)
    | _ => return (d.1, some (← Json.string v))

/-- The fields of an error. -/
def fields : List (Json.Field (Option Int64 × Option String)) := [
  .required "code" Json.signed64 Prod.fst fun a d ↦ (a, d.2),
  .required "message" Json.string Prod.snd fun a d ↦ (d.1, a)]

theorem consists : valueRecord.Consists fields where
  names := rfl
  distinct := by decide
  takes := by
    simp only [fields, List.forall_mem_cons]
    exact ⟨.required fun _ _ ↦ rfl, .required fun _ _ ↦ rfl, List.forall_mem_nil _⟩
  get_set := by simp [fields, Json.Field.required]
  get_set_of_ne := by simp [fields, Json.Field.required]
  ext := by
    rintro ⟨_, _⟩ ⟨_, _⟩
    simp [fields, Json.Field.required]

theorem mirrors (levels : Nat) : record.Mirrors levels valueRecord where
  fields := rfl
  takes inner _ := by
    simp only [record, List.forall_mem_cons]
    refine ⟨fun _ _ _ rest stands ↦ ?_, fun _ _ _ rest stands ↦ ?_, List.forall_mem_nil _⟩
    · exact (Json.reads_readInt64 inner stands).bind fun n _ ↦ .ok _ rest
    · exact (Json.reads_readString inner stands).bind fun s _ ↦ .ok _ rest

/-- Make an error of a value. -/
def ofJson : Json.Decoder RpcError := fun v ↦ do
  let (code, message) ← valueRecord.read (none, none) v
  return ⟨← Json.required "code" code, ← Json.required "message" message⟩

/-- An error is read as it is made of the value. -/
theorem reads (levels : Nat) : Reads levels read ofJson :=
  (mirrors levels).reads consists (none, none) _

/-- A value states an error: by an integer as the code and a text as the message, under their names
in an object or as the two items of a list. -/
inductive StatedBy (e : RpcError) : Json → Prop where
  | object {members : List (String × Json)}
      (code : Dictionary.lookup "code" members = some (.ofInt e.code.toInt))
      (message : Dictionary.lookup "message" members = some (.text e.message)) :
      StatedBy e (.object members)
  | array : StatedBy e (.array [.ofInt e.code.toInt, .text e.message])

private theorem ofJson_iff_read : ofJson v = .ok e ↔
    valueRecord.read (none, none) v = .ok (some e.code, some e.message) := by
  rw [ofJson, bind_eq_ok_iff]
  constructor
  · rintro ⟨⟨code, message⟩, read, h⟩
    obtain ⟨c, hcode, h⟩ := bind_eq_ok_iff.mp h
    obtain ⟨m, hmessage, h⟩ := bind_eq_ok_iff.mp h
    cases h
    rw [Json.required_eq_ok_iff] at hcode hmessage
    rw [read, hcode, hmessage]
  · exact fun read ↦ ⟨_, read, rfl⟩

private theorem read_array_iff {items : List Json} {code : Int64} {message : String} :
    valueRecord.read (none, none) (.array items) = .ok (some code, some message) ↔
      items = [.ofInt code.toInt, .text message] := by
  match items with
  | [] => exact iff_of_false nofun nofun
  | [first] =>
    refine iff_of_false (fun h ↦ ?_) nofun
    obtain ⟨_, taken, -⟩ := bind_eq_ok_iff.mp h
    obtain ⟨_, -, taken⟩ := bind_eq_ok_iff.mp taken
    cases taken
  | first :: second :: others =>
    have read : valueRecord.read (none, none) (.array (first :: second :: others)) =
        Json.signed64 first >>= fun c ↦ Json.string second >>= fun m ↦
          if others.isEmpty then .ok (some c, some m)
          else .error (.length (others.length + 2) "fewer elements in array") := by
      simp only [Json.Record.read, valueRecord, Json.Record.takeElements, List.length_cons]
      cases Json.signed64 first with
      | error _ => rfl
      | ok _ => cases Json.string second <;> rfl
    simp only [read, bind_eq_ok_iff, Json.signed64_eq_ok_iff, Json.string_eq_ok_iff,
      List.cons.injEq]
    cases others with
    | nil => simp [and_comm]
    | cons => simp

/-- A value states one error at most. -/
theorem StatedBy.unique {e' : RpcError} (stated : e.StatedBy v) (stated' : e'.StatedBy v) :
    e = e' := by
  obtain ⟨code, message⟩ := e
  obtain ⟨code', message'⟩ := e'
  suffices same : code.toInt = code'.toInt ∧ message = message' by
    rw [Int64.toInt_inj.mp same.1, same.2]
  cases stated with
  | object code message =>
    obtain ⟨code', message'⟩ := stated'
    simpa [code, message, Json.ofInt] using And.intro code' message'
  | array =>
    generalize hv : Json.array _ = v at stated'
    cases stated' with
    | object => cases hv
    | array => simpa [Json.ofInt] using hv

/-- An error is made of the values that state it, and of no others. -/
theorem ofJson_iff : ofJson v.sorted = .ok e ↔ e.StatedBy v.sorted := by
  rw [ofJson_iff_read]
  cases v with
  | object members =>
    have distinct := (Json.sorted_sortedMembers members).nodup
    change valueRecord.takeMembers (Json.sortedMembers members) _ = _ ↔
      e.StatedBy (.object (Json.sortedMembers members))
    rw [consists.takeMembers_iff distinct]
    simp only [fields, List.forall_mem_cons, Json.Field.name_required,
      Json.Field.takes_required_iff, Json.signed64_eq_ok_iff, Json.string_eq_ok_iff, rel_eq_iff]
    exact ⟨fun ⟨code, message, _⟩ ↦ .object code message,
      fun | .object code message => ⟨code, message, List.forall_mem_nil _⟩⟩
  | array items =>
    change valueRecord.read _ (.array (Json.sortedItems items)) = _ ↔
      e.StatedBy (.array (Json.sortedItems items))
    rw [read_array_iff]
    generalize Json.sortedItems items = items
    exact ⟨fun h ↦ h ▸ .array, fun | .array => rfl⟩
  | null | bool | number | text => exact iff_of_false nofun nofun

/-- From a text the error is read that its value states. -/
theorem readWhole_iff {levels : Nat} {text : String} (isText : Json.IsText levels v text) :
    Json.readWhole read text = .ok e ↔ e.StatedBy v.sorted :=
  ((reads levels).readWhole_iff isText).trans ofJson_iff

end RpcError

/-! ### Envelopes -/

namespace Envelope

/-- How the members of an envelope are taken from values. -/
def valueRecord : Json.Record Envelope where
  name := "Envelope"
  fields :=
    [("id", true), ("method", true), ("params", true), ("result", true), ("error", true)]
  take name v e :=
    match name with
    | "id" => return { e with id := ← Json.nullable Json.anyValue v }
    | "method" => return { e with method := ← Json.nullable Json.string v }
    | "params" => return { e with params := ← Json.nullable Json.anyValue v }
    | "result" => return { e with result := ← Json.nullable Json.anyValue v }
    | _ => return { e with error := ← Json.nullable RpcError.ofJson v }

/-- The fields of an envelope. -/
def fields : List (Json.Field Envelope) := [
  .optional "id" Json.anyValue Envelope.id fun a e ↦ { e with id := a },
  .optional "method" Json.string Envelope.method fun a e ↦ { e with method := a },
  .optional "params" Json.anyValue Envelope.params fun a e ↦ { e with params := a },
  .optional "result" Json.anyValue Envelope.result fun a e ↦ { e with result := a },
  .optional "error" RpcError.ofJson Envelope.error fun a e ↦ { e with error := a }]

theorem consists : valueRecord.Consists fields where
  names := rfl
  distinct := by decide
  takes := by
    simp only [fields, List.forall_mem_cons]
    exact ⟨.optional fun _ _ ↦ rfl, .optional fun _ _ ↦ rfl, .optional fun _ _ ↦ rfl,
      .optional fun _ _ ↦ rfl, .optional fun _ _ ↦ rfl, List.forall_mem_nil _⟩
  get_set := by simp [fields, Json.Field.optional]
  get_set_of_ne := by simp [fields, Json.Field.optional]
  ext := by
    rintro ⟨_, _, _, _, _⟩ ⟨_, _, _, _, _⟩
    simp [fields, Json.Field.optional]

theorem mirrors {levels : Nat} (deep : levels < Json.maxDepth) :
    record.Mirrors levels valueRecord where
  fields := rfl
  takes inner below := by
    have value : inner < Json.maxDepth - 1 := by omega
    have any := (Json.reads_readValue value).nullable
    have text := (Json.reads_readString inner).nullable
    have error := (RpcError.reads inner).nullable
    simp only [record, List.forall_mem_cons]
    refine ⟨fun _ _ _ rest stands ↦ ?_, fun _ _ _ rest stands ↦ ?_, fun _ _ _ rest stands ↦ ?_,
      fun _ _ _ rest stands ↦ ?_, fun _ _ _ rest stands ↦ ?_, List.forall_mem_nil _⟩
    case refine_2 => exact (text stands).bind fun a _ ↦ .ok _ rest
    case refine_5 => exact (error stands).bind fun a _ ↦ .ok _ rest
    all_goals exact (any stands).bind fun a _ ↦ .ok _ rest

end Envelope

/-! ### What an envelope holds -/

/-- The members by which a message is classified. A null member counts as absent. -/
structure Parts where
  id : Option Json
  method : Option Json
  params : Option Json
  result : Option Json
  error : Option Json

namespace Parts

variable {p : Parts} {e : Envelope} {members : List (String × Json)} {body : String} {levels : Nat}

/-- The parts of an object. Their values are sorted, so it makes no difference to them in which
order members are written. -/
def of (members : List (String × Json)) : Parts :=
  let part (name : String) := ((Dictionary.lookup name members).map Json.sorted).bind Json.present
  ⟨part "id", part "method", part "params", part "result", part "error"⟩

/-- An envelope holds these parts, of which the method is a text and the error states an error. -/
structure Hold (p : Parts) (e : Envelope) : Prop where
  id : p.id = e.id
  method : p.method = e.method.map .text
  params : p.params = e.params
  result : p.result = e.result
  error : Option.Rel (fun v err ↦ err.StatedBy v) p.error e.error

namespace Hold

theorem method_eq_some (hold : p.Hold e) {s : String} (method : p.method = some (.text s)) :
    e.method = some s := by
  obtain ⟨t, ht, same⟩ := Option.map_eq_some_iff.mp (hold.method.symm.trans method)
  cases same
  exact ht

theorem method_eq_none (hold : p.Hold e) (method : p.method = none) : e.method = none :=
  Option.map_eq_none_iff.mp (hold.method.symm.trans method)

theorem error_eq_some (hold : p.Hold e) {v : Json} {err : RpcError} (error : p.error = some v)
    (stated : err.StatedBy v) : e.error = some err := by
  have held := hold.error
  rw [error] at held
  generalize e.error = err? at held
  cases held with
  | some stated' => rw [stated'.unique stated]

theorem error_eq_none (hold : p.Hold e) (error : p.error = none) : e.error = none := by
  have held := hold.error
  rw [error] at held
  generalize e.error = err? at held
  cases held
  rfl

end Hold

/-- The method is no text, or the error states none. -/
inductive Spoiled (p : Parts) : Prop where
  | method {v : Json} (method : p.method = some v) (noText : ∀ s, v ≠ .text s)
  | error {v : Json} (error : p.error = some v) (noError : ∀ e : RpcError, ¬ e.StatedBy v)

/-- The envelope of an object holds its parts. -/
theorem parse_iff (isText : Json.IsText levels (.object members) body)
    (deep : levels < Json.maxDepth) : Envelope.parse body = .ok e ↔ (of members).Hold e := by
  have reads := (Envelope.mirrors deep).reads Envelope.consists {} Except.ok
  have distinct := (Json.sorted_sortedMembers members).nodup
  -- An error is made of a sorted value, as all values of members are.
  have stated {member : Option Json} {err : Option RpcError} :
      Option.Rel (fun v a ↦ RpcError.ofJson v = .ok a) ((member.map Json.sorted).bind Json.present)
        err ↔ Option.Rel (fun v a ↦ a.StatedBy v) ((member.map Json.sorted).bind Json.present)
          err := by
    refine rel_congr fun v hv a ↦ ?_
    obtain ⟨_, hsorted, hpresent⟩ := Option.bind_eq_some_iff.mp hv
    obtain ⟨u, -, rfl⟩ := Option.map_eq_some_iff.mp hsorted
    rw [← (Json.present_eq_some_iff.mp hpresent).1]
    exact RpcError.ofJson_iff
  rw [Envelope.parse, reads.readWhole_iff isText, bind_eq_ok_iff]
  simp only [Except.ok.injEq, exists_eq_right]
  change Envelope.valueRecord.takeMembers (Json.sortedMembers members) {} = .ok e ↔ _
  rw [Envelope.consists.takeMembers_iff distinct]
  simp only [Envelope.fields, List.forall_mem_cons, Json.Field.name_optional,
    Json.Field.takes_optional_iff, Json.lookup_sortedMembers, Json.anyValue, Except.ok.injEq,
    Json.string_eq_ok_iff, rel_eq, rel_eq_iff, stated]
  exact ⟨fun ⟨id, method, params, result, error, _⟩ ↦ ⟨id, method, params, result, error⟩,
    fun ⟨id, method, params, result, error⟩ ↦
      ⟨id, method, params, result, error, List.forall_mem_nil _⟩⟩

/-- Parts that are not spoiled are held by an envelope, and no others are. -/
theorem exists_hold_iff : (∃ e, p.Hold e) ↔ ¬ p.Spoiled := by
  constructor
  · rintro ⟨e, hold⟩ spoiled
    cases spoiled with
    | method method noText =>
      have held := hold.method
      rw [method] at held
      obtain ⟨s, -, rfl⟩ := Option.map_eq_some_iff.mp held.symm
      exact noText s rfl
    | error error noError =>
      have held := hold.error
      rw [error] at held
      generalize e.error = err at held
      cases held with
      | some stated => exact noError _ stated
  · intro sound
    have method : ∃ method, p.method = Option.map Json.text method := by
      cases hmethod : p.method with
      | none => exact ⟨none, rfl⟩
      | some v =>
        by_contra none
        exact sound (.method hmethod fun s text ↦ none ⟨some s, congrArg some text⟩)
    have error : ∃ err, Option.Rel (fun v err ↦ RpcError.StatedBy err v) p.error err := by
      cases herror : p.error with
      | none => exact ⟨none, .none⟩
      | some v =>
        by_contra none
        exact sound (.error herror fun e stated ↦ none ⟨some e, .some stated⟩)
    obtain ⟨method, hmethod⟩ := method
    obtain ⟨err, herror⟩ := error
    exact ⟨⟨p.id, method, p.params, p.result, err⟩, rfl, hmethod, rfl, rfl, herror⟩

end Parts

/-! ### Classification -/

namespace ServerMessage

/-- A failure that a message does not have the form it should have. -/
def IsProtocol (outcome : Except Failure ServerMessage) : Prop :=
  ∃ reason, outcome = .error (.protocol reason)

/-- What is made of a message with these parts. -/
structure Classified (p : Parts) (outcome : Except Failure ServerMessage) : Prop where
  spoiled : p.Spoiled → IsProtocol outcome
  request : ¬ p.Spoiled → ∀ {id method}, p.id = some id → p.method = some (.text method) →
    outcome = .ok (.request id method)
  refused : ¬ p.Spoiled → ∀ {n v e}, p.id = some (.ofInt n) → -0x8000000000000000 ≤ n →
    n < 0x8000000000000000 → p.method = none → p.error = some v → e.StatedBy v →
      outcome = .ok (.response n (.error e))
  answered : ¬ p.Spoiled → ∀ {n}, p.id = some (.ofInt n) → -0x8000000000000000 ≤ n →
    n < 0x8000000000000000 → p.method = none → p.error = none →
      outcome = .ok (.response n (.ok (p.result.getD .null)))
  otherId : ¬ p.Spoiled → ∀ {id}, p.id = some id →
    (∀ n, -0x8000000000000000 ≤ n → n < 0x8000000000000000 → id ≠ .ofInt n) →
      p.method = none → IsProtocol outcome
  notice : ¬ p.Spoiled → ∀ {method}, p.id = none → p.method = some (.text method) →
    outcome = (ServerNotice.decode method (p.params.getD .null)).map .notice
  neither : ¬ p.Spoiled → p.id = none → p.method = none → IsProtocol outcome

/-- Two messages are decoded alike, except for the reason for which both may be malformed. -/
inductive Alike : Except Failure ServerMessage → Except Failure ServerMessage → Prop where
  | same (outcome : Except Failure ServerMessage) : Alike outcome outcome
  | protocol (reason reason' : String) :
      Alike (.error (.protocol reason)) (.error (.protocol reason'))

variable {p : Parts} {e : Envelope} {members : List (String × Json)} {body : String} {levels : Nat}

/-- An integer of a signed 64-bit word is the id of a response, and nothing else is. -/
theorem int64?_eq_some_iff {v : Json} {n : Int} : v.int64? = some n ↔
    v = .ofInt n ∧ -0x8000000000000000 ≤ n ∧ n < 0x8000000000000000 := by
  match v with
  | .number (.integer i) =>
    rw [Json.int64?]
    split
    · next inRange =>
      rw [Option.some.injEq]
      constructor
      · rintro rfl
        exact ⟨rfl, inRange⟩
      · rintro ⟨h, -⟩
        cases h
        rfl
    · next outside =>
      refine iff_of_false nofun ?_
      rintro ⟨h, inRange⟩
      cases h
      exact outside inRange
  | .number (.float _) | .null | .bool _ | .text _ | .array _ | .object _ =>
    exact iff_of_false nofun nofun

/-- An envelope is classified by the parts that it holds. -/
theorem classified_ofEnvelope (hold : p.Hold e) : Classified p (ofEnvelope e) := by
  have sound : ¬ p.Spoiled := Parts.exists_hold_iff.mp ⟨e, hold⟩
  constructor
  case spoiled => exact fun spoiled ↦ absurd spoiled sound
  case request =>
    intro _ id s hid hmethod
    simp only [ofEnvelope, ← hold.id, hid, hold.method_eq_some hmethod]
  case refused =>
    intro _ n v err hid least greatest hmethod herror stated
    have integer := int64?_eq_some_iff.mpr ⟨rfl, least, greatest⟩
    simp only [ofEnvelope, ← hold.id, hid, hold.method_eq_none hmethod, integer,
      hold.error_eq_some herror stated]
  case answered =>
    intro _ n hid least greatest hmethod herror
    have integer := int64?_eq_some_iff.mpr ⟨rfl, least, greatest⟩
    simp only [ofEnvelope, ← hold.id, hid, hold.method_eq_none hmethod, integer,
      hold.error_eq_none herror, hold.result]
  case otherId =>
    intro _ id hid other hmethod
    have notInteger : id.int64? = none := Option.eq_none_iff_forall_ne_some.mpr fun n integer ↦ by
      obtain ⟨rfl, least, greatest⟩ := int64?_eq_some_iff.mp integer
      exact other n least greatest rfl
    simp only [ofEnvelope, ← hold.id, hid, hold.method_eq_none hmethod, notInteger]
    exact ⟨_, rfl⟩
  case notice =>
    intro _ s hid hmethod
    simp only [ofEnvelope, ← hold.id, hid, hold.method_eq_some hmethod, hold.params]
  case neither =>
    intro _ hid hmethod
    simp only [ofEnvelope, ← hold.id, hid, hold.method_eq_none hmethod]
    exact ⟨_, rfl⟩

/-- A message that is spoiled is malformed, whatever else it may be. -/
theorem classified_of_spoiled {outcome : Except Failure ServerMessage} (spoiled : p.Spoiled)
    (malformed : IsProtocol outcome) : Classified p outcome := by
  constructor
  case spoiled => exact fun _ ↦ malformed
  all_goals exact fun sound ↦ absurd spoiled sound

/-- Either the envelope of an object holds its parts, or these are spoiled and it is malformed. -/
theorem decode_cases (isText : Json.IsText levels (.object members) body)
    (deep : levels < Json.maxDepth) :
    (∃ e, (Parts.of members).Hold e ∧ decode body = ofEnvelope e) ∨
      (Parts.of members).Spoiled ∧ IsProtocol (decode body) := by
  rw [decode]
  cases parsed : Envelope.parse body with
  | ok e => exact .inl ⟨e, (Parts.parse_iff isText deep).mp parsed, rfl⟩
  | error fault =>
    refine .inr ⟨?_, _, rfl⟩
    by_contra sound
    obtain ⟨e, hold⟩ := Parts.exists_hold_iff.mpr sound
    rw [(Parts.parse_iff isText deep).mpr hold] at parsed
    cases parsed

/-- A message is decoded as its parts tell, and two messages with the same parts are decoded
alike. -/
theorem decode_classified (isText : Json.IsText levels (.object members) body)
    (deep : levels < Json.maxDepth) :
    Classified (.of members) (decode body) ∧
      ∀ {levels' members' body'}, Json.IsText levels' (.object members') body' →
        levels' < Json.maxDepth → Parts.of members' = Parts.of members →
          Alike (decode body') (decode body) := by
  refine ⟨?_, fun {levels' members' body'} isText' deep' same ↦ ?_⟩
  · obtain ⟨e, hold, decoded⟩ | ⟨spoiled, malformed⟩ := decode_cases isText deep
    · rw [decoded]
      exact classified_ofEnvelope hold
    · exact classified_of_spoiled spoiled malformed
  · obtain ⟨e, hold, decoded⟩ | ⟨spoiled, reason, malformed⟩ := decode_cases isText deep
    · have parsed := (Parts.parse_iff isText' deep').mpr (same ▸ hold)
      have decoded' : decode body' = ofEnvelope e := by rw [decode, parsed]
      rw [decoded, decoded']
      exact .same _
    · obtain ⟨e, hold, -⟩ | ⟨-, reason', malformed'⟩ := decode_cases isText' deep'
      · exact absurd (same ▸ spoiled) (Parts.exists_hold_iff.mp ⟨e, hold⟩)
      · rw [malformed, malformed']
        exact .protocol reason' reason

/-- A response whose result is null, and one without a result but with a member that is not
understood. -/
theorem null_result_and_no_result :
    Json.IsText 1 (.object [("result", .null), ("id", .ofInt 7)])
        "\x7b\"result\":null,\"id\":7\x7d" ∧
      1 < Json.maxDepth ∧
      decode "\x7b\"result\":null,\"id\":7\x7d" = .ok (.response 7 (.ok .null)) ∧
      Alike (decode "\x7b\"id\":7,\"x\":7\x7d") (decode "\x7b\"result\":null,\"id\":7\x7d") := by
  have seven {rest : List Char} (stops : Json.Stops rest) :
      Json.StandsScalar (.ofInt 7) ('7' :: rest) rest := .integer (by simp [Json.IsWord]) stops
  have isText : Json.IsText 1 (.object [("result", .null), ("id", .ofInt 7)])
      "\x7b\"result\":null,\"id\":7\x7d" := by
    have text : "\x7b\"result\":null,\"id\":7\x7d".toList =
      ['\x7b', '"', 'r', 'e', 's', 'u', 'l', 't', '"', ':', 'n', 'u', 'l', 'l', ',',
        '"', 'i', 'd', '"', ':', '7', '\x7d'] := rfl
    rw [Json.IsText, text]
    refine ⟨[], Json.StandsAround.object (by decide) ?_, rfl⟩
    refine .member rfl rfl rfl rfl (Json.StandsScalar.null _) ?_
    exact .member rfl rfl rfl rfl (seven (Json.stops_brace _)) (.close rfl)
  have isText' : Json.IsText 1 (.object [("id", .ofInt 7), ("x", .ofInt 7)])
      "\x7b\"id\":7,\"x\":7\x7d" := by
    have text : "\x7b\"id\":7,\"x\":7\x7d".toList =
      ['\x7b', '"', 'i', 'd', '"', ':', '7', ',', '"', 'x', '"', ':', '7', '\x7d'] := rfl
    rw [Json.IsText, text]
    refine ⟨[], Json.StandsAround.object (by decide) ?_, rfl⟩
    refine .member rfl rfl rfl rfl (seven (Json.stops_comma _)) ?_
    exact .member rfl rfl rfl rfl (seven (Json.stops_brace _)) (.close rfl)
  have sound : ¬ (Parts.of [("result", .null), ("id", .ofInt 7)]).Spoiled := fun
    | .method method _ => nomatch method
    | .error error _ => nomatch error
  obtain ⟨classified, alike⟩ := decode_classified isText (by decide)
  exact ⟨isText, by decide, classified.answered sound rfl (by decide) (by decide) rfl rfl,
    alike isText' (by decide) rfl⟩

end ServerMessage

end LanguageHub
