import LanguageHub.Proofs.Diagnostic
import LanguageHub.Proofs.Message.Documents

/-!
# The parameters of the client's messages

How the parameters of each notification and each request of the client are read, as records with
their fields, and that they are read back from what the client writes
(`Notice.ofParams?_params`, `Request.ofParams?_params`).
-/

namespace LanguageHub

open Json (Decoder Lawful Record Rewriting)

variable {α β : Type}

namespace Json

/-! ### Records with one field and with two -/

/-- Read a record with one field, which must be there. -/
def single (name field : String) (decode : Decoder α) : Decoder α := fun v ↦ do
  let a ← (Record.ofFields name [.required field decode id fun a _ ↦ a]).read none v
  required field a

theorem lawful_single {encode : α → Json} {decode : Decoder α} (lawful : Lawful encode decode)
    (name field : String) :
    Lawful (fun a ↦ .object [(field, encode a)]) (single name field decode) where
  read rewriting a := by
    have consists : (Record.ofFields name [.required field decode id fun a _ ↦ a]).Consists _ :=
      Record.consists_ofFields name (by simp) (by simp [Field.required])
        (by simp [Field.required]) (by simp [Field.required])
    rw [single, consists.read_rewritten rewriting (t := some a) (by simp)]
    · rfl
    · simp only [List.forall_mem_singleton, Field.name_required, Dictionary.lookup, if_true]
      exact .required lawful rewriting rfl
  null _ h := by cases h

/-- The fields of a record with two fields. -/
def pairFields (first second : String) (decodeFirst : Decoder α) (decodeSecond : Decoder β) :
    List (Field (Option α × Option β)) := [
  .required first decodeFirst Prod.fst fun a d ↦ (a, d.2),
  .required second decodeSecond Prod.snd fun b d ↦ (d.1, b)]

/-- Read a record with two fields, which must both be there. -/
def pair (name first second : String) (decodeFirst : Decoder α) (decodeSecond : Decoder β) :
    Decoder (α × β) := fun v ↦ do
  let d ← (Record.ofFields name (pairFields first second decodeFirst decodeSecond)).read
    (none, none) v
  return (← required first d.1, ← required second d.2)

theorem lawful_pair {encodeFirst : α → Json} {encodeSecond : β → Json} {decodeFirst : Decoder α}
    {decodeSecond : Decoder β} (lawfulFirst : Lawful encodeFirst decodeFirst)
    (lawfulSecond : Lawful encodeSecond decodeSecond) (name : String) {first second : String}
    (other : first ≠ second) {members : α × β → List (String × Json)}
    (distinct : ∀ p, ((members p).map (·.1)).Nodup)
    (hfirst : ∀ p, Dictionary.lookup first (members p) = some (encodeFirst p.1))
    (hsecond : ∀ p, Dictionary.lookup second (members p) = some (encodeSecond p.2)) :
    Lawful (fun p ↦ .object (members p)) (pair name first second decodeFirst decodeSecond) where
  read rewriting p := by
    have consists : (Record.ofFields name
        (pairFields first second decodeFirst decodeSecond)).Consists _ :=
      Record.consists_ofFields name (by simp [pairFields, other])
        (by simp [pairFields, Field.required]) (by simp [pairFields, Field.required])
        (by
          rintro ⟨_, _⟩ ⟨_, _⟩
          simp [pairFields, Field.required])
    rw [pair, consists.read_rewritten rewriting (t := (some p.1, some p.2)) (distinct p)]
    · rfl
    · simp only [pairFields, List.forall_mem_cons, Field.name_required, hfirst, hsecond]
      exact ⟨.required lawfulFirst rewriting rfl, .required lawfulSecond rewriting rfl,
        List.forall_mem_nil _⟩
  null _ h := by cases h

end Json

/-! ### Documents -/

/-- A document when it is opened. -/
structure OpenedDocument where
  uri : String
  language : String
  version : Int32
  text : String

namespace OpenedDocument

/-- A document that is opened as JSON. -/
def toJson (d : OpenedDocument) : Json :=
  .object [("languageId", .text d.language), ("text", .text d.text), ("uri", .text d.uri),
    ("version", .ofInt d.version.toInt)]

/-- The fields of a document as they are read. -/
structure Draft where
  uri : Option String := none
  language : Option String := none
  version : Option Int32 := none
  text : Option String := none

/-- The fields of a document that is opened. -/
def fields : List (Json.Field Draft) := [
  .required "uri" Json.string Draft.uri fun a d ↦ { d with uri := a },
  .required "languageId" Json.string Draft.language fun a d ↦ { d with language := a },
  .required "version" Json.signed32 Draft.version fun a d ↦ { d with version := a },
  .required "text" Json.string Draft.text fun a d ↦ { d with text := a }]

/-- Read a document that is opened. -/
def ofJson : Decoder OpenedDocument := fun v ↦ do
  let d ← (Record.ofFields "TextDocumentItem" fields).read {} v
  return {
    uri := ← Json.required "uri" d.uri
    language := ← Json.required "languageId" d.language
    version := ← Json.required "version" d.version
    text := ← Json.required "text" d.text }

theorem consists : (Record.ofFields "TextDocumentItem" fields).Consists fields := by
  refine Json.Record.consists_ofFields _ (by decide) ?_ ?_ ?_
  · simp [fields, Json.Field.required]
  · simp [fields, Json.Field.required]
  · rintro ⟨_, _, _, _⟩ ⟨_, _, _, _⟩
    simp [fields, Json.Field.required]

theorem lawful : Lawful toJson ofJson where
  read rewriting d := by
    rw [ofJson, toJson, consists.read_rewritten rewriting
      (t := ⟨some d.uri, some d.language, some d.version, some d.text⟩) (by simp)]
    · rfl
    · simp only [fields, List.forall_mem_cons]
      exact ⟨.required Json.lawful_string rewriting rfl, .required Json.lawful_string rewriting rfl,
        .required Json.lawful_signed32 rewriting rfl, .required Json.lawful_string rewriting rfl,
        List.forall_mem_nil _⟩
  null _ h := by cases h

end OpenedDocument

/-- Read the name of a document. -/
def documentName : Decoder String := Json.single "TextDocumentIdentifier" "uri" Json.string

theorem lawful_documentName : Lawful (fun uri ↦ .object [("uri", .text uri)]) documentName :=
  Json.lawful_single Json.lawful_string _ _

/-- Read the name and the version of a document. -/
def documentVersion : Decoder (String × Int32) :=
  Json.pair "VersionedTextDocumentIdentifier" "uri" "version" Json.string Json.signed32

theorem lawful_documentVersion : Lawful
    (fun p : String × Int32 ↦ .object [("uri", .text p.1), ("version", .ofInt p.2.toInt)])
    documentVersion :=
  Json.lawful_pair Json.lawful_string Json.lawful_signed32 _ (by decide) (by simp) (fun _ ↦ rfl)
    fun _ ↦ rfl

/-- Read a change of a document, which is its new text. -/
def documentChange : Decoder String :=
  Json.single "TextDocumentContentChangeEvent" "text" Json.string

theorem lawful_documentChange : Lawful (fun text ↦ .object [("text", .text text)]) documentChange :=
  Json.lawful_single Json.lawful_string _ _

/-! ### Notifications -/

/-- Read the parameters of a notification that a document was opened. -/
def openedDocument : Decoder OpenedDocument :=
  Json.single "DidOpenTextDocumentParams" "textDocument" OpenedDocument.ofJson

theorem lawful_openedDocument :
    Lawful (fun d ↦ .object [("textDocument", OpenedDocument.toJson d)]) openedDocument :=
  Json.lawful_single OpenedDocument.lawful _ _

/-- Read the parameters of a notification that a document was changed. -/
def changedDocument : Decoder ((String × Int32) × List String) :=
  Json.pair "DidChangeTextDocumentParams" "textDocument" "contentChanges" documentVersion
    (Json.list documentChange)

theorem lawful_changedDocument : Lawful
    (fun p : (String × Int32) × List String ↦ .object [
      ("contentChanges", .array (p.2.map fun t ↦ .object [("text", .text t)])),
      ("textDocument", .object [("uri", .text p.1.1), ("version", .ofInt p.1.2.toInt)])])
    changedDocument :=
  Json.lawful_pair lawful_documentVersion lawful_documentChange.list _ (by decide) (by simp)
    (fun _ ↦ rfl) fun _ ↦ rfl

/-- The fields of the parameters of a notification that a document was saved. -/
def savedFields : List (Json.Field (Option String × Option String)) := [
  .required "textDocument" documentName Prod.fst fun a d ↦ (a, d.2),
  .optional "text" Json.string Prod.snd fun a d ↦ (d.1, a)]

/-- Read the parameters of a notification that a document was saved. -/
def savedDocument : Decoder (String × Option String) := fun v ↦ do
  let d ← (Record.ofFields "DidSaveTextDocumentParams" savedFields).read (none, none) v
  return (← Json.required "textDocument" d.1, d.2)

theorem lawful_savedDocument : Lawful (fun p : String × Option String ↦
    .object (Json.optional "text" (p.2.map .text) ++
      [("textDocument", .object [("uri", .text p.1)])])) savedDocument where
  read rewriting p := by
    have consists : (Record.ofFields "DidSaveTextDocumentParams" savedFields).Consists _ :=
      Json.Record.consists_ofFields _ (by decide)
        (by simp [savedFields, Json.Field.required, Json.Field.optional])
        (by simp [savedFields, Json.Field.required, Json.Field.optional])
        (by
          rintro ⟨_, _⟩ ⟨_, _⟩
          simp [savedFields, Json.Field.required, Json.Field.optional])
    rw [savedDocument, consists.read_rewritten rewriting (t := (some p.1, p.2))]
    · rfl
    · rw [List.map_append]
      exact List.Sublist.nodup ((Json.names_optional_sublist _ _).append (List.Sublist.refl _))
        (by decide : ["text", "textDocument"].Nodup)
    · simp only [savedFields, List.forall_mem_cons, Json.Field.name_required,
        Json.Field.name_optional, Json.lookup_optional_append, Dictionary.lookup, String.reduceEq,
        Option.or_none, ↓reduceIte]
      exact ⟨.required lawful_documentName rewriting rfl,
        .optional Json.lawful_string rewriting rfl rfl, List.forall_mem_nil _⟩
  null _ h := by cases h

/-- The notification with this method and these parameters, if there is one. -/
def Notice.ofParams? (method : String) (params : Option Json) : Option Notice :=
  match method, params with
  | "initialized", some (.object _) => some handshakeDone
  | "textDocument/didOpen", some v =>
    (openedDocument v).toOption.map fun d ↦ didOpen d.uri d.language d.version.toInt d.text
  | "textDocument/didChange", some v =>
    (changedDocument v).toOption.map fun ((uri, version), texts) ↦
      didChange uri version.toInt texts
  | "textDocument/didSave", some v =>
    (savedDocument v).toOption.map fun (uri, text) ↦ didSave uri text
  | "shutdown", none => some shutdown
  | _, _ => none

/-- The parameters of a notification are read back. -/
theorem Notice.ofParams?_params {w : Json → Json} (rewriting : Rewriting w) (n : Notice)
    (fits : n.Fits) : ofParams? n.method (n.params.map w) = some n := by
  have word {version : Int} (h : -0x80000000 ≤ version ∧ version ≤ 0x7FFFFFFF) :
      (Int32.ofInt version).toInt = version :=
    Int32.toInt_ofInt_of_le (by omega) (by omega)
  cases n with
  | handshakeDone =>
    obtain ⟨members, hobject, -, -⟩ := rewriting.object [] .nil
    change ofParams? "initialized" (some (w (.object []))) = _
    rw [hobject]
    rfl
  | didOpen uri language version text =>
    have read := lawful_openedDocument.read rewriting ⟨uri, language, .ofInt version, text⟩
    simp only [OpenedDocument.toJson, word fits] at read
    change (openedDocument (w _)).toOption.map _ = _
    rw [read]
    exact congrArg (fun v ↦ some (didOpen uri language v text)) (word fits)
  | didChange uri version texts =>
    have read := lawful_changedDocument.read rewriting ((uri, .ofInt version), texts)
    simp only [word fits] at read
    change (changedDocument (w _)).toOption.map _ = _
    rw [read]
    exact congrArg (fun v ↦ some (didChange uri v texts)) (word fits)
  | didSave uri text =>
    have read := lawful_savedDocument.read rewriting (uri, text)
    change (savedDocument (w _)).toOption.map _ = _
    rw [read]
    rfl
  | shutdown => rfl

/-! ### Requests -/

namespace Party

/-- The fields of a party. -/
def fields : List (Json.Field (Option String × Option String)) := [
  .required "name" Json.string Prod.fst fun a d ↦ (a, d.2),
  .optional "version" Json.string Prod.snd fun a d ↦ (d.1, a)]

theorem consists : record.Consists fields where
  names := rfl
  distinct := by decide
  takes := by
    simp only [fields, List.forall_mem_cons]
    exact ⟨.required fun _ _ ↦ rfl, .optional fun _ _ ↦ rfl, List.forall_mem_nil _⟩
  get_set := by simp [fields, Json.Field.required, Json.Field.optional]
  get_set_of_ne := by simp [fields, Json.Field.required, Json.Field.optional]
  ext := by
    rintro ⟨_, _⟩ ⟨_, _⟩
    simp [fields, Json.Field.required, Json.Field.optional]

theorem lawful : Lawful toJson ofJson where
  read rewriting p := by
    rw [ofJson, toJson, consists.read_rewritten rewriting (t := (some p.name, p.version))]
    · rfl
    · rw [List.map_append]
      exact List.Sublist.nodup ((List.Sublist.refl _).append (Json.names_optional_sublist _ _))
        (by decide : ["name", "version"].Nodup)
    · simp only [fields, List.forall_mem_cons, Json.Field.name_required, Json.Field.name_optional,
        List.cons_append, List.nil_append, Json.lookup_optional, Dictionary.lookup,
        String.reduceEq, ↓reduceIte]
      exact ⟨.required Json.lawful_string rewriting rfl,
        .optional Json.lawful_string rewriting rfl rfl, List.forall_mem_nil _⟩
  null _ h := by cases h

end Party

namespace Handshake

/-- The fields of a handshake as they are read. -/
structure Draft where
  processId : Option UInt32 := none
  rootUri : Option String := none
  capabilities : Option Json := none
  client : Option Party := none

/-- The fields of a handshake. -/
def fields : List (Json.Field Draft) := [
  .required "processId" Json.unsigned32 Draft.processId fun a d ↦ { d with processId := a },
  .required "rootUri" Json.string Draft.rootUri fun a d ↦ { d with rootUri := a },
  .required "capabilities" Json.anyValue Draft.capabilities fun a d ↦ { d with capabilities := a },
  .required "clientInfo" Party.ofJson Draft.client fun a d ↦ { d with client := a }]

/-- Read a handshake. -/
def ofJson : Decoder Handshake := fun v ↦ do
  let d ← (Record.ofFields "InitializeParams" fields).read {} v
  return {
    processId := ← Json.required "processId" d.processId
    rootUri := ← Json.required "rootUri" d.rootUri
    capabilities := ← Json.required "capabilities" d.capabilities
    client := ← Json.required "clientInfo" d.client }

theorem consists : (Record.ofFields "InitializeParams" fields).Consists fields := by
  refine Json.Record.consists_ofFields _ (by decide) ?_ ?_ ?_
  · simp [fields, Json.Field.required]
  · simp [fields, Json.Field.required]
  · rintro ⟨_, _, _, _⟩ ⟨_, _, _, _⟩
    simp [fields, Json.Field.required]

/-- A handshake is read back if its capabilities stay the same when they are written again. -/
theorem ofJson_params {w : Json → Json} (rewriting : Rewriting w) (h : Handshake)
    (same : w h.capabilities = h.capabilities) :
    ofJson (w (Request.handshake h).params) = .ok h := by
  rw [ofJson, Request.params, consists.read_rewritten rewriting
    (t := ⟨some h.processId, some h.rootUri, some h.capabilities, some h.client⟩) (by simp)]
  · rfl
  · have capabilities : (Json.Field.required "capabilities" Json.anyValue Draft.capabilities
        fun a d ↦ { d with capabilities := a }).Takes {} ((some h.capabilities).map w)
          ⟨some h.processId, some h.rootUri, some h.capabilities, some h.client⟩ := by
      rw [Option.map_some, same]
      rfl
    simp only [fields, List.forall_mem_cons]
    exact ⟨.required Json.lawful_unsigned32 rewriting rfl,
      .required Json.lawful_string rewriting rfl, capabilities,
      .required Party.lawful rewriting rfl, List.forall_mem_nil _⟩

end Handshake

/-- Read the parameters of a request for completions. -/
def completionPlace : Decoder (String × Position) :=
  Json.pair "CompletionParams" "textDocument" "position" documentName Position.ofJson

theorem lawful_completionPlace : Lawful
    (fun p : String × Position ↦ .object [
      ("position", p.2.toJson), ("textDocument", .object [("uri", .text p.1)])])
    completionPlace :=
  Json.lawful_pair lawful_documentName Position.lawful _ (by decide) (by simp) (fun _ ↦ rfl)
    fun _ ↦ rfl

/-- The request with this method and these parameters, if there is one. -/
def Request.ofParams? (method : String) (params : Json) : Option Request :=
  match method with
  | "initialize" => (Handshake.ofJson params).toOption.map handshake
  | "textDocument/completion" =>
    (completionPlace params).toOption.map fun (uri, position) ↦ completion uri position
  | _ => none

/-- The parameters of a request are read back, if the capabilities of a handshake stay the same when
they are written again. -/
theorem Request.ofParams?_params {w : Json → Json} (rewriting : Rewriting w) (r : Request)
    (same : ∀ h, r = handshake h → w h.capabilities = h.capabilities) :
    ofParams? r.method (w r.params) = some r := by
  cases r with
  | handshake h =>
    change (Handshake.ofJson (w (handshake h).params)).toOption.map handshake = _
    rw [Handshake.ofJson_params rewriting h (same h rfl)]
    rfl
  | completion uri position =>
    have read : completionPlace (w (completion uri position).params) = .ok (uri, position) :=
      lawful_completionPlace.read rewriting (uri, position)
    change (completionPlace (w (completion uri position).params)).toOption.map _ = _
    rw [read]
    rfl

end LanguageHub
