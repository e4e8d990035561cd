import LanguageHub.Decimal.Layout
import LanguageHub.Text.Quoted

/-!
# What is wrong with a JSON text

A text can fail to be JSON (`SyntaxFault`), and a value can fail to be what the reader expects
(`Mismatch`).
-/

namespace LanguageHub.Json

/-- Why a text is not JSON. -/
inductive SyntaxFault where
  | endInValue
  | endInList
  | endInObject
  | endInString
  | expectedColon
  | expectedListEnd
  | expectedObjectEnd
  | expectedIdent
  | expectedValue
  | invalidEscape
  | invalidNumber
  | numberOutOfRange
  | controlCharacter
  | keyNotString
  | loneSurrogate
  | hexEscapeCutOff
  | trailingComma
  | trailingCharacters
  | tooDeep
  deriving DecidableEq, Repr

/-- The wording of a syntax fault. -/
def SyntaxFault.message : SyntaxFault → String
  | endInValue => "EOF while parsing a value"
  | endInList => "EOF while parsing a list"
  | endInObject => "EOF while parsing an object"
  | endInString => "EOF while parsing a string"
  | expectedColon => "expected `:`"
  | expectedListEnd => "expected `,` or `]`"
  | expectedObjectEnd => "expected `,` or `\x7d`"
  | expectedIdent => "expected ident"
  | expectedValue => "expected value"
  | invalidEscape => "invalid escape"
  | invalidNumber => "invalid number"
  | numberOutOfRange => "number out of range"
  | controlCharacter => "control character (\\u0000-\\u001F) found while parsing a string"
  | keyNotString => "key must be a string"
  | loneSurrogate => "lone leading surrogate in hex escape"
  | hexEscapeCutOff => "unexpected end of hex escape"
  | trailingComma => "trailing comma"
  | trailingCharacters => "trailing characters"
  | tooDeep => "recursion limit exceeded"

/-- What was found in place of the expected value. -/
inductive Found where
  | null
  | bool (value : Bool)
  | integer (value : Int)
  | float (value : Float)
  | text (value : String)
  | sequence
  | map

/-- The wording of what was found. -/
def Found.describe : Found → String
  | null => "null"
  | bool b => s!"boolean `{b}`"
  | integer n => s!"integer `{n}`"
  | float x => s!"floating point `{String.ofList (Decimal.write x)}`"
  | text s => s!"string {Text.quoted s}"
  | sequence => "sequence"
  | map => "map"

/-- Why a value is not of the expected form. -/
inductive Mismatch where
  /-- A value of another kind. -/
  | kind (found : Found) (expected : String)
  /-- A value of the right kind out of range. -/
  | value (found : Found) (expected : String)
  /-- A sequence with too few or too many elements. -/
  | length (found : Nat) (expected : String)
  /-- A member that must be there is missing. -/
  | missing (name : String)
  /-- A member occurs twice. -/
  | duplicate (name : String)
  /-- None of the alternatives of a choice fits. -/
  | noAlternative (choice : String)
  /-- An integer stands for nothing in a list of numbered meanings. -/
  | unknownCode (meaning : String) (code : Nat)

/-- The wording of a mismatch. -/
def Mismatch.message : Mismatch → String
  | kind found expected => s!"invalid type: {found.describe}, expected {expected}"
  | value found expected => s!"invalid value: {found.describe}, expected {expected}"
  | length found expected => s!"invalid length {found}, expected {expected}"
  | missing name => s!"missing field `{name}`"
  | duplicate name => s!"duplicate field `{name}`"
  | noAlternative choice => s!"data did not match any variant of untagged enum {choice}"
  | unknownCode meaning code => s!"invalid {meaning}: {code}"

/-- Why a JSON text does not give the expected value. -/
inductive Fault where
  | syntaxFault (fault : SyntaxFault)
  | mismatch (fault : Mismatch)

/-- The wording of a fault. -/
def Fault.message : Fault → String
  | syntaxFault fault => fault.message
  | mismatch fault => fault.message

end LanguageHub.Json
