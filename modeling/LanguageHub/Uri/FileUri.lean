import LanguageHub.Path
import LanguageHub.Uri.Url

/-!
# Paths and file URIs

A document is known to a server by a file URI. `normalizeUri` brings the many spellings of one
URI to a single form, the form in which `pathToUri` writes a path.
-/

namespace LanguageHub.Uri

/-- What a file URI begins with. -/
def fileStart : String := "file://"

/-- The byte that separates the components of a path. -/
def slash : UInt8 := 0x2F

/-- The byte of a dot. -/
def dot : UInt8 := 0x2E

/-- The components of a path that is given as bytes. -/
def components (path : Bytes) : List Bytes := Path.partsBy slash dot path

/-- The URI of an absolute path. -/
def ofComponents (cs : List Bytes) : String :=
  String.ofList <| fileStart.toList ++
    if cs.isEmpty then ['/'] else cs.flatMap fun c ↦ '/' :: encodeComponent c

/-- The bytes of a path whose last two bytes name a drive get a slash behind them. -/
def closeDrive (path : Bytes) : Bytes :=
  match path.reverse with
  | mark :: letter :: _ :: _ =>
    if (mark == 0x3A || mark == 0x7C) && (Char.ofNat letter.toNat).isAlpha then path ++ [slash]
    else path
  | _ => path

/-- The path of segments: each is decoded and stands behind a slash. -/
def pathOfSegments (segments : List (List Char)) : Bytes :=
  closeDrive <| segments.flatMap fun s ↦
    slash :: percentDecode (Utf8.encode (String.ofList s))

/-- The path on this machine that a URL leads to, if it has one. -/
def Url.filePath? (u : Url) : Option Bytes :=
  match u.host, u.segments with
  | .other, _ => none
  | _, none => none
  | _, some segments => some (pathOfSegments segments)

/-- The canonical form of a file URI. Any other text is returned unchanged. -/
def normalizeUri (uri : String) : String :=
  match Url.parse uri with
  | none => uri
  | some u =>
    if u.scheme = "file" then
      match u.filePath? with
      | some path => ofComponents (components path)
      | none => uri
    else uri

/-- The URI of a path; a relative path starts in the directory `cwd`, and what already is a file
URI is normalized. -/
def pathToUri (cwd path : String) : String :=
  if path.startsWith fileStart then normalizeUri path
  else ofComponents (components (Utf8.encode (Path.join cwd path)))

/-- The path that a URI leads to. A text that is no such URI is a path itself. -/
def uriToPath (uri : String) : Bytes :=
  match (Url.parse uri).bind Url.filePath? with
  | some path => path
  | none =>
    Utf8.encode <|
      if uri.startsWith fileStart then String.ofList (uri.toList.drop fileStart.length) else uri

end LanguageHub.Uri
