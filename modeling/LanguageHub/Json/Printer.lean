import LanguageHub.Decimal.Layout
import LanguageHub.Json.Value
import LanguageHub.Text.Letters

/-!
# Compact JSON text

A value is written without blanks. In a text only the quote, the backslash and the control
characters below U+0020 are escaped, the latter by their short form where there is one.
-/

namespace LanguageHub.Json

/-- A character as it stands inside a JSON string. -/
def escapeChar (c : Char) : List Char :=
  match c with
  | '"' => ['\\', '"']
  | '\\' => ['\\', '\\']
  | '\x08' => ['\\', 'b']
  | '\t' => ['\\', 't']
  | '\n' => ['\\', 'n']
  | '\x0c' => ['\\', 'f']
  | '\r' => ['\\', 'r']
  | c =>
    if c.toNat < 0x20 then
      ['\\', 'u', '0', '0', Text.hexDigit false (c.toNat / 16), Text.hexDigit false (c.toNat % 16)]
    else [c]

/-- A text as a JSON string, quotes included. -/
def renderText (s : String) : List Char := '"' :: (s.toList.flatMap escapeChar ++ ['"'])

/-- A number as JSON text. -/
def renderNumber : Number → List Char
  | .integer n => (toString n).toList
  | .float x => Decimal.write x

mutual

/-- The characters of the compact text of a value. -/
def renderList : Json → List Char
  | .null => "null".toList
  | .bool true => "true".toList
  | .bool false => "false".toList
  | .number n => renderNumber n
  | .text s => renderText s
  | .array [] => ['[', ']']
  | .array (item :: items) => '[' :: (renderList item ++ renderItems items ++ [']'])
  | .object [] => ['\x7b', '\x7d']
  | .object ((name, value) :: members) =>
    '\x7b' :: (renderText name ++ ':' :: (renderList value ++ renderMembers members ++ ['\x7d']))

/-- The items after the first, each behind a comma. -/
def renderItems : List Json → List Char
  | [] => []
  | item :: items => ',' :: (renderList item ++ renderItems items)

/-- The members after the first, each behind a comma. -/
def renderMembers : List (String × Json) → List Char
  | [] => []
  | (name, value) :: members =>
    ',' :: (renderText name ++ ':' :: (renderList value ++ renderMembers members))

end

/-- The compact text of a value. -/
def render (v : Json) : String := String.ofList v.renderList

end LanguageHub.Json
