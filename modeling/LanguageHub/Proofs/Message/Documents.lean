import LanguageHub.Message.Outgoing
import LanguageHub.Proofs.Json.RoundTrip
import LanguageHub.Text.Utf8

/-!
# What a server understands of documents

A server that reads the body of a frame finds in it the notification about a document that the
client has sent, with its URI, its version and its text. It finds none in a request and none in the
answer to a request.
-/

namespace LanguageHub

namespace Json

/-! ### The reading of a server -/

/-- The value of a member of an object. -/
def member? (v : Json) (name : String) : Option Json :=
  match v with
  | .object members => Dictionary.lookup name members
  | _ => none

/-- The text that a value is. -/
def text? : Json → Option String
  | .text s => some s
  | _ => none

/-- The integer in the range of a signed 32-bit word that a value is. -/
def int32? : Json → Option Int
  | .number (.integer n) => if -0x80000000 ≤ n ∧ n ≤ 0x7FFFFFFF then some n else none
  | _ => none

/-- The items of the list that a value is. -/
def items? : Json → Option (List Json)
  | .array items => some items
  | _ => none

/-- The notification about a document that a message is. What has an id is no notification. -/
def document? (v : Json) : Option Notice :=
  if (v.member? "id").isSome then none
  else do
    let method ← (← v.member? "method").text?
    let params ← v.member? "params"
    let document ← params.member? "textDocument"
    let uri ← (← document.member? "uri").text?
    match method with
    | "textDocument/didOpen" =>
      let language ← (← document.member? "languageId").text?
      let version ← (← document.member? "version").int32?
      let text ← (← document.member? "text").text?
      return .didOpen uri language version text
    | "textDocument/didChange" =>
      let version ← (← document.member? "version").int32?
      let changes ← (← params.member? "contentChanges").items?
      let texts ← changes.mapM fun change ↦ do (← change.member? "text").text?
      return .didChange uri version texts
    | "textDocument/didSave" => return .didSave uri ((params.member? "text").bind text?)
    | _ => none

end Json

/-- The notification about a document that the body of a frame is. -/
def readDocument? (body : Bytes) : Option Notice := do
  let text ← Utf8.decode? body
  let message ← (Json.parse text).toOption
  message.document?

/-! ### Notifications -/

namespace Notice

/-- The notification is about a document. -/
def isDocument : Notice → Bool
  | didOpen .. | didChange .. | didSave .. => true
  | handshakeDone | shutdown => false

/-- The version that the notification states, if it does, is one of a signed 32-bit word. -/
def Fits : Notice → Prop
  | didOpen _ _ version _ | didChange _ version _ => -0x80000000 ≤ version ∧ version ≤ 0x7FFFFFFF
  | _ => True

/-- The contents of a document after each of its changes. -/
private def changes (texts : List String) : List Json :=
  texts.map fun t ↦ .object [("text", .text t)]

private theorem sortedItems_changes (texts : List String) :
    Json.sortedItems (changes texts) = changes texts := by
  induction texts with
  | nil => rfl
  | cons t texts ih => exact congrArg (Json.object [("text", .text t)] :: ·) ih

private theorem plainItems_changes (texts : List String) (levels : Nat) :
    Json.PlainItems (levels + 1) (changes texts) := by
  induction texts with
  | nil => exact trivial
  | cons t texts ih => exact ⟨⟨rfl, trivial, trivial⟩, ih⟩

private theorem mapM_changes (texts : List String) :
    (changes texts).mapM (fun change ↦ do (← change.member? "text").text?) = some texts := by
  induction texts with
  | nil => rfl
  | cons t texts ih =>
    rw [changes, List.map_cons, List.mapM_cons]
    rw [changes] at ih
    rw [ih]
    rfl

private theorem sorted_didChange (uri : String) (version : Int) (texts : List String) :
    (didChange uri version texts).toJson.sorted = .object [("jsonrpc", rpcVersion),
      ("method", .text "textDocument/didChange"), ("params", .object [
        ("contentChanges", .array (changes texts)),
        ("textDocument", .object [("uri", .text uri), ("version", .ofInt version)])])] := by
  rw [← sortedItems_changes]
  rfl

/-- The message of a notification can be read back. -/
theorem plain_sorted (n : Notice) (fits : n.Fits) : n.toJson.sorted.Plain (Json.maxDepth - 1) := by
  have word {version : Int} (h : -0x80000000 ≤ version ∧ version ≤ 0x7FFFFFFF) :
      Json.IsWord version := ⟨by omega, by omega⟩
  cases n with
  | handshakeDone => exact ⟨rfl, trivial, trivial, ⟨rfl, trivial⟩, trivial⟩
  | didOpen uri language version text =>
    exact ⟨rfl, trivial, trivial,
      ⟨rfl, ⟨rfl, trivial, trivial, trivial, word fits, trivial⟩, trivial⟩, trivial⟩
  | didChange uri version texts =>
    rw [sorted_didChange]
    exact ⟨rfl, trivial, trivial,
      ⟨rfl, plainItems_changes texts _, ⟨rfl, trivial, word fits, trivial⟩, trivial⟩, trivial⟩
  | didSave uri text =>
    cases text with
    | none => exact ⟨rfl, trivial, trivial, ⟨rfl, ⟨rfl, trivial, trivial⟩, trivial⟩, trivial⟩
    | some text =>
      exact ⟨rfl, trivial, trivial, ⟨rfl, trivial, ⟨rfl, trivial, trivial⟩, trivial⟩, trivial⟩
  | shutdown => exact ⟨rfl, trivial, trivial, trivial⟩

/-- A message is understood as the notification that it was made for, if that is about a
document. -/
theorem document?_sorted (n : Notice) (fits : n.Fits) :
    n.toJson.sorted.document? = if n.isDocument then some n else none := by
  cases n with
  | handshakeDone | shutdown => rfl
  | didOpen uri language version text =>
    have hversion : (Json.ofInt version).int32? = some version := if_pos fits
    change ((Json.ofInt version).int32? >>= fun v ↦ some (didOpen uri language v text)) = _
    rw [hversion]
    rfl
  | didChange uri version texts =>
    have hversion : (Json.ofInt version).int32? = some version := if_pos fits
    rw [sorted_didChange]
    change ((Json.ofInt version).int32? >>= fun v ↦
      (changes texts).mapM (fun change ↦ do (← change.member? "text").text?) >>= fun read ↦
        some (didChange uri v read)) = _
    rw [hversion, mapM_changes]
    rfl
  | didSave uri text => cases text <;> rfl

/-- A server reads the notification about a document that the client has sent. -/
theorem readDocument?_encode (n : Notice) (fits : n.Fits) :
    readDocument? (Utf8.encode n.encode) = if n.isDocument then some n else none := by
  rw [readDocument?, Utf8.decode?_encode]
  change ((Json.parse n.toJson.sorted.render).toOption >>= Json.document?) = _
  rw [Json.parse_render (n.plain_sorted fits)]
  exact n.document?_sorted fits

end Notice

/-! ### Messages with an id -/

namespace Json

/-- Members that were read stay. -/
private theorem suffix_of_readMembers {depth steps : Nat} {isFirst : Bool}
    {before after : List (String × Json)} {cs rest : List Char}
    (h : readMembers (readMember depth) steps isFirst before cs = .ok (after, rest)) :
    before <:+ after := by
  induction steps generalizing isFirst before cs with
  | zero => cases h
  | succ steps ih =>
    obtain ⟨⟨more, behind⟩, -, h⟩ := eq_ok_of_bind h
    cases more with
    | false =>
      cases h
      exact List.suffix_rfl
    | true =>
      obtain ⟨⟨name, text⟩, -, h⟩ := eq_ok_of_bind h
      obtain ⟨⟨members, left⟩, hmember, h⟩ := eq_ok_of_bind h
      obtain ⟨value, -, hmember⟩ := eq_ok_of_bind hmember
      obtain ⟨_, -, hmember⟩ := eq_ok_of_bind hmember
      cases hmember
      exact (List.suffix_cons _ _).trans (ih h)

/-- What is inserted stays. -/
private theorem isSome_lookup_foldl {name : String} (members : List (String × Json))
    {sorted : List (String × Json)}
    (h : (Dictionary.lookup name sorted).isSome ∨ name ∈ members.map (·.1)) :
    (Dictionary.lookup name (members.foldl
      (fun sorted (key, value) ↦ Dictionary.insertEntry key value sorted) sorted)).isSome := by
  induction members generalizing sorted with
  | nil => simpa using h
  | cons member members ih =>
    refine ih ?_
    have hinsert := Dictionary.get?_insert ⟨sorted⟩ member.1 name member.2
    simp only [Dictionary.get?, Dictionary.insert] at hinsert
    rw [hinsert]
    by_cases hname : name = member.1
    · simp [hname]
    · simpa [hname] using h

/-- An object has the members of which it is made. -/
private theorem isSome_member?_ofMembers {name : String} {members : List (String × Json)}
    (mem : name ∈ members.map (·.1)) : ((ofMembers members).member? name).isSome :=
  isSome_lookup_foldl members (.inr mem)

/-- What is read from the text of an object has its first member. -/
theorem isSome_member?_of_parse {name : String} {value v : Json} {members : List (String × Json)}
    (h : parse (Json.object ((name, value) :: members)).render = .ok v) :
    (v.member? name).isSome := by
  rw [parse, readWhole, render, String.toList_ofList] at h
  obtain ⟨⟨v, rest⟩, h, hend⟩ := eq_ok_of_bind h
  obtain ⟨_, -, hend⟩ := eq_ok_of_bind hend
  cases hend
  -- What stands behind the brace begins with the name of the first member.
  obtain ⟨tail, htail⟩ : ∃ tail, renderList (.object ((name, value) :: members)) =
      '\x7b' :: '"' :: (name.toList.flatMap escapeChar ++ '"' :: tail) := by
    refine ⟨':' :: (renderList value ++ renderMembers members ++ ['\x7d']), ?_⟩
    simp [renderList, renderText]
  have hspace (cs : List Char) : skipSpace ('\x7b' :: cs) = '\x7b' :: cs := rfl
  rw [htail, readValue.eq_def] at h
  dsimp only at h
  rw [hspace] at h
  simp only [Char.reduceEq, Char.reduceIsDigit, if_false, if_true, Bool.false_eq_true] at h
  obtain ⟨⟨read, _⟩, hread, h⟩ := eq_ok_of_map h
  cases h
  obtain ⟨⟨more, behind⟩, hnext, hread⟩ := eq_ok_of_bind hread
  cases hnext
  obtain ⟨⟨found, text⟩, hname, hread⟩ := eq_ok_of_bind hread
  rw [scanString_escaped] at hname
  cases hname
  obtain ⟨⟨first, left⟩, hmember, hread⟩ := eq_ok_of_bind hread
  obtain ⟨inner, -, hmember⟩ := eq_ok_of_bind hmember
  obtain ⟨⟨x, _⟩, -, hmember⟩ := eq_ok_of_bind hmember
  cases hmember
  obtain ⟨later, hlater⟩ := suffix_of_readMembers hread
  refine isSome_member?_ofMembers ?_
  simp [← hlater]

end Json

/-- A server finds no notification in what has an id as its first member. -/
private theorem readDocument?_of_id (id : Json) (members : List (String × Json)) :
    readDocument? (Utf8.encode (Json.object (("id", id) :: members)).render) = none := by
  rw [readDocument?, Utf8.decode?_encode]
  change ((Json.parse (Json.object (("id", id) :: members)).render).toOption >>=
    Json.document?) = none
  cases hparse : Json.parse (Json.object (("id", id) :: members)).render with
  | error => rfl
  | ok v => exact if_pos (Json.isSome_member?_of_parse hparse)

/-- A server finds no notification in an answer. -/
theorem readDocument?_nullReply (id : Json) :
    readDocument? (Utf8.encode (encodeNullReply id)) = none :=
  readDocument?_of_id id _

/-- The members of a request stand in order, its parameters being sorted. -/
theorem sorted_request (r : Request) (id : Int) :
    (r.toJson id).sorted = .object (("id", .ofInt id) ::
      [("jsonrpc", rpcVersion), ("method", .text r.method), ("params", r.params.sorted)]) := rfl

/-- A server finds no notification in a request. -/
theorem readDocument?_request (r : Request) (id : Int) :
    readDocument? (Utf8.encode (r.encode id)) = none := by
  rw [Request.encode, sorted_request]
  exact readDocument?_of_id _ _

/-- No request has the text of a notification: the name of its first member is another one. -/
theorem Request.encode_ne_encode (r : Request) (id : Int) (n : Notice) :
    r.encode id ≠ n.encode := by
  have hrequest : (r.encode id).toList.take 3 = ['\x7b', '"', 'i'] := by
    rw [encode, sorted_request, Json.render, String.toList_ofList]
    rfl
  have hnotice : n.encode.toList.take 3 = ['\x7b', '"', 'j'] := by
    cases n with
    | didSave uri text =>
      cases text <;> (rw [Notice.encode, Json.render, String.toList_ofList]; rfl)
    | _ => rw [Notice.encode, Json.render, String.toList_ofList]; rfl
  intro same
  rw [same, hnotice] at hrequest
  simp at hrequest

end LanguageHub
