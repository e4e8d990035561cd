import LanguageHub.Json.Decode

/-!
# Completions

What a server proposes to insert at a position. A server may answer with a bare list of items,
with a list that says whether it is incomplete, or with null.
-/

namespace LanguageHub

/-- What a completion item stands for. -/
inductive CompletionKind where
  | text | method | function | constructor | field | variableName | classType | interface | module
  | property | unit | value | enumeration | keyword | snippet | color | file | reference | folder
  | enumMember | constant | struct | event | operator | typeParameter
  deriving DecidableEq, Repr

namespace CompletionKind

/-- The kinds in the order of their numbers, which begin with one. -/
def all : List CompletionKind :=
  [text, method, function, constructor, field, variableName, classType, interface, module,
    property, unit, value, enumeration, keyword, snippet, color, file, reference, folder,
    enumMember, constant, struct, event, operator, typeParameter]

/-- The name of a kind. -/
def name : CompletionKind → String
  | text => "Text"
  | method => "Method"
  | function => "Function"
  | constructor => "Constructor"
  | field => "Field"
  | variableName => "Variable"
  | classType => "Class"
  | interface => "Interface"
  | module => "Module"
  | property => "Property"
  | unit => "Unit"
  | value => "Value"
  | enumeration => "Enum"
  | keyword => "Keyword"
  | snippet => "Snippet"
  | color => "Color"
  | file => "File"
  | reference => "Reference"
  | folder => "Folder"
  | enumMember => "EnumMember"
  | constant => "Constant"
  | struct => "Struct"
  | event => "Event"
  | operator => "Operator"
  | typeParameter => "TypeParameter"

/-- The number that stands for a kind in a message. -/
def code (k : CompletionKind) : UInt8 := .ofNat (all.idxOf k + 1)

/-- The kind that a number stands for. -/
def ofCode? (n : UInt8) : Option CompletionKind :=
  if n = 0 then none else all[n.toNat - 1]?

/-- A kind as JSON. -/
def toJson (k : CompletionKind) : Json := .ofInt k.code.toNat

/-- Read a kind. -/
def ofJson : Json.Decoder CompletionKind := fun v ↦ do
  let n ← Json.unsigned8 v
  match ofCode? n with
  | some k => return k
  | none => .error (.unknownCode "completion item kind" n.toNat)

end CompletionKind

/-- The documentation of an item, plain or marked up. -/
inductive Documentation where
  | plain (text : String)
  | markup (kind value : String)
  deriving DecidableEq, Repr

namespace Documentation

/-- The text of the documentation, whatever its form. -/
def text : Documentation → String
  | plain s => s
  | markup _ value => value

/-- Documentation as JSON. -/
def toJson : Documentation → Json
  | plain s => .text s
  | markup kind value => .object [("kind", .text kind), ("value", .text value)]

/-- How the fields of marked-up documentation are read. -/
def record : Json.Record (Option String × Option String) where
  name := "MarkupContent"
  fields := [("kind", false), ("value", false)]
  take name v d :=
    match name with
    | "kind" => return (some (← Json.string v), d.2)
    | _ => return (d.1, some (← Json.string v))

/-- Read marked-up documentation. -/
def markupOfJson : Json.Decoder Documentation := fun v ↦ do
  let (kind, value) ← record.read (none, none) v
  return .markup (← Json.required "kind" kind) (← Json.required "value" value)

/-- Read documentation. -/
def ofJson : Json.Decoder Documentation :=
  Json.firstOf "Documentation" [fun v ↦ (Json.string v).map plain, markupOfJson]

end Documentation

/-- One proposal. -/
structure CompletionItem where
  label : String
  kind : Option CompletionKind
  detail : Option String
  documentation : Option Documentation
  insertText : Option String
  sortText : Option String
  deriving DecidableEq, Repr

namespace CompletionItem

/-- An item as JSON; what is absent is not written. -/
def toJson (i : CompletionItem) : Json :=
  .object <|
    [("label", .text i.label)] ++
    Json.optional "kind" (i.kind.map CompletionKind.toJson) ++
    Json.optional "detail" (i.detail.map .text) ++
    Json.optional "documentation" (i.documentation.map Documentation.toJson) ++
    Json.optional "insertText" (i.insertText.map .text) ++
    Json.optional "sortText" (i.sortText.map .text)

/-- The fields of an item as they are read. -/
structure Draft where
  label : Option String := none
  kind : Option CompletionKind := none
  detail : Option String := none
  documentation : Option Documentation := none
  insertText : Option String := none
  sortText : Option String := none

/-- How the fields of an item are read. -/
def record : Json.Record Draft where
  name := "CompletionItem"
  fields :=
    [("label", false), ("kind", true), ("detail", true), ("documentation", true),
      ("insertText", true), ("sortText", true)]
  take name v d :=
    match name with
    | "label" => return { d with label := some (← Json.string v) }
    | "kind" => return { d with kind := ← Json.nullable CompletionKind.ofJson v }
    | "detail" => return { d with detail := ← Json.nullable Json.string v }
    | "documentation" => return { d with documentation := ← Json.nullable Documentation.ofJson v }
    | "insertText" => return { d with insertText := ← Json.nullable Json.string v }
    | _ => return { d with sortText := ← Json.nullable Json.string v }

/-- Read an item. -/
def ofJson : Json.Decoder CompletionItem := fun v ↦ do
  let d ← record.read {} v
  return {
    label := ← Json.required "label" d.label
    kind := d.kind
    detail := d.detail
    documentation := d.documentation
    insertText := d.insertText
    sortText := d.sortText }

end CompletionItem

/-- The answer to a completion request. -/
inductive CompletionAnswer where
  /-- A bare list of items. -/
  | array (items : List CompletionItem)
  /-- A list that says whether typing on would give more items. -/
  | list (isIncomplete : Bool) (items : List CompletionItem)
  /-- Nothing to propose. -/
  | null
  deriving DecidableEq, Repr

namespace CompletionAnswer

/-- The items of an answer, whatever its form. -/
def items : CompletionAnswer → List CompletionItem
  | array is => is
  | list _ is => is
  | null => []

/-- How the fields of a list answer are read. -/
def record : Json.Record (Bool × Option (List CompletionItem)) where
  name := "CompletionList"
  fields := [("isIncomplete", true), ("items", false)]
  take name v d :=
    match name with
    | "isIncomplete" => return (← Json.boolean v, d.2)
    | _ => return (d.1, some (← Json.list CompletionItem.ofJson v))

/-- Read a list answer. -/
def listOfJson : Json.Decoder CompletionAnswer := fun v ↦ do
  let (isIncomplete, is) ← record.read (false, none) v
  return .list isIncomplete (← Json.required "items" is)

/-- Read a null answer. -/
def nullOfJson : Json.Decoder CompletionAnswer
  | .null => .ok .null
  | v => Json.wrongKind "unit" v

/-- Read an answer: a bare list if it can be read as one, else a list answer, else null. -/
def ofJson : Json.Decoder CompletionAnswer :=
  Json.firstOf "CompletionResponse"
    [fun v ↦ (Json.list CompletionItem.ofJson v).map array, listOfJson, nullOfJson]

end CompletionAnswer

end LanguageHub
