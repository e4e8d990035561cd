import LanguageHub.Dictionary
import LanguageHub.Path
import LanguageHub.Text.Blank
import LanguageHub.Text.Letters

/-!
# Which language a document is written in

A language is named by an id that counts without surrounding blanks and without the case of
letters. The id of a document is the one given for it or, failing that, follows from the extension
of its path: configured extensions come before the built-in ones.
-/

namespace LanguageHub.Language

/-- The form of a language id under which everything about the language is kept. -/
def normalize (language : String) : String := Text.lowercase (Text.trim language)

/-- The built-in extensions of each language. -/
def builtinExtensions : List (String × List String) := [
  ("go", ["go"]),
  ("rust", ["rs"]),
  ("python", ["py", "pyw", "pyi"]),
  ("java", ["java"]),
  ("c", ["c", "h"]),
  ("cpp", ["cpp", "cc", "cxx", "c++", "hpp", "hh", "hxx"]),
  ("javascript", ["js", "mjs", "cjs", "jsx"]),
  ("typescript", ["ts", "mts", "cts", "tsx"]),
  ("html", ["html", "htm"]),
  ("css", ["css"]),
  ("json", ["json", "jsonc"]),
  ("xml", ["xml", "xsd", "xsl", "svg"]),
  ("markdown", ["md", "markdown"])]

/-- The language of a built-in extension, whatever the case of its letters. -/
def ofExtension? (extension : String) : Option String :=
  (builtinExtensions.find? fun (_, es) ↦ es.contains (Text.lowercase extension)).map (·.1)

/-- The language of a path by its built-in extension. -/
def ofPath? (path : String) : Option String := (Path.extension? path).bind ofExtension?

/-- Finds the language of a document; `extensions` maps configured extensions, in small letters
and without leading dots, to normalized languages. -/
structure Resolver where
  extensions : Dictionary String
  deriving Repr, DecidableEq

namespace Resolver

/-- Knows the built-in extensions only. -/
def builtin : Resolver := ⟨.empty⟩

/-- An extension without leading dots and in small letters. -/
def normalizeExtension (extension : String) : String :=
  Text.lowercase (String.ofList (extension.toList.dropWhile (· == '.')))

/-- Map an extension to a language; an empty extension is left out. -/
def addExtension (r : Resolver) (extension language : String) : Resolver :=
  let e := normalizeExtension extension
  if e = "" then r else ⟨r.extensions.insert e (normalize language)⟩

/-- The language of a path by its extension. -/
def languageForPath? (r : Resolver) (path : String) : Option String :=
  match Path.extension? path with
  | none => none
  | some e =>
    match r.extensions.get? (Text.lowercase e) with
    | some language => some language
    | none => ofExtension? e

/-- The language of a document: the given id unless it is blank, else by the path. -/
def resolve? (r : Resolver) (explicit path : String) : Option String :=
  let language := normalize explicit
  if language = "" then r.languageForPath? path else some language

end Resolver

/-- The language of a document, knowing the built-in extensions only. -/
def resolve? (explicit path : String) : Option String := Resolver.builtin.resolve? explicit path

end LanguageHub.Language
