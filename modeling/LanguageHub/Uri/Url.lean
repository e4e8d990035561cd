import LanguageHub.Uri.Host

/-!
# URLs

Reading a URL as the URL Standard lays down, as far as its scheme, its host and the segments of
its path go. The port, the user and the query are checked and forgotten.
-/

namespace LanguageHub.Uri

/-- A URL. `segments` holds the segments of the path as they are written; it is absent when the
path is empty or is not made of segments. -/
structure Url where
  scheme : String
  host : Host
  segments : Option (List (List Char))
  deriving DecidableEq, Repr

/-- The three kinds of schemes that are read differently. -/
inductive SchemeKind where
  | file
  /-- A scheme with domain names, in which a backslash is as good as a slash. -/
  | web
  | generic
  deriving DecidableEq, Repr

/-- The kind of a scheme. -/
def SchemeKind.ofScheme (scheme : String) : SchemeKind :=
  if scheme = "file" then .file
  else if ["http", "https", "ws", "wss", "ftp"].contains scheme then .web
  else .generic

/-- Whether a character separates segments. -/
def SchemeKind.isSlash (k : SchemeKind) (c : Char) : Bool :=
  c = '/' || (k ≠ .generic && c = '\\')

/-- A character that is dropped from the ends of a URL. -/
def isEdgeChar (c : Char) : Bool := c.toNat ≤ 0x20

/-- A character that is dropped wherever it stands in a URL. -/
def isDropped (c : Char) : Bool := c = '\t' || c = '\n' || c = '\r'

/-- The characters of a URL that count. -/
def significant (text : List Char) : List Char :=
  (((text.dropWhile isEdgeChar).reverse.dropWhile isEdgeChar).reverse).filter fun c ↦ !isDropped c

/-- The scheme, in small letters, and what stands behind its colon. -/
def splitScheme (cs : List Char) : Option (String × List Char) :=
  match cs with
  | [] => none
  | c :: _ =>
    if Text.isLetter c then
      let (name, rest) :=
        cs.span fun d ↦ d.isAlphanum || d = '+' || d = '-' || d = '.'
      match rest with
      | ':' :: behind => some (String.ofList (name.map Char.toLower), behind)
      | _ => none
    else none

/-! ### Paths -/

/-- A letter with a colon or a bar behind it: the name of a drive. -/
def isDrive (segment : List Char) : Bool :=
  match segment with
  | [letter, mark] => Text.isLetter letter && (mark = ':' || mark = '|')
  | _ => false

/-- A segment that stands for the directory it is in. -/
def isHere (segment : List Char) : Bool :=
  segment.map Char.toLower ∈ [['.'], ['%', '2', 'e']]

/-- A segment that leads up. -/
def isUp (segment : List Char) : Bool :=
  segment.map Char.toLower ∈
    [['.', '.'], ['.', '%', '2', 'e'], ['%', '2', 'e', '.'], ['%', '2', 'e', '%', '2', 'e']]

/-- The part of a URL that belongs to the path: what stands before a question mark or a
number sign. -/
def pathPart (cs : List Char) : List Char := cs.takeWhile fun c ↦ c ≠ '?' && c ≠ '#'

/-- The pieces of the path of a URL between slashes. -/
def splitPath (k : SchemeKind) (cs : List Char) : List (List Char) :=
  (pathPart cs).splitOnP k.isSlash

/-- Go up from a list of segments; a drive is not left. -/
def goUp (segments : List (List Char)) : List (List Char) :=
  match segments.getLast? with
  | none => []
  | some last => if isDrive last then segments else segments.dropLast

/-- A first segment that names a drive gets a colon in a file URL. -/
def normalizeDrive (k : SchemeKind) (before : List (List Char)) (segment : List Char) :
    List Char :=
  if k = .file && before.isEmpty && isDrive segment then
    match segment with
    | letter :: _ => [letter, ':']
    | [] => []
  else segment

/-- Resolve the pieces of a path behind the segments `before`. -/
def resolveSegments (k : SchemeKind) (before : List (List Char)) :
    List (List Char) → List (List Char)
  | [] => before
  | [piece] =>
    if isUp piece then goUp before ++ [[]]
    else if isHere piece then before ++ [[]]
    else before ++ [normalizeDrive k before piece]
  | piece :: pieces =>
    if isUp piece then resolveSegments k (goUp before) pieces
    else if isHere piece then resolveSegments k before pieces
    else resolveSegments k (before ++ [normalizeDrive k before piece]) pieces

/-- Drop the empty segments at the front, but never the last segment. -/
def dropLeadingEmpty : List (List Char) → List (List Char)
  | [] :: segment :: rest => dropLeadingEmpty (segment :: rest)
  | segments => segments

/-- The segments of a path whose first slash has been read. -/
def readSegments (k : SchemeKind) (cs : List Char) : List (List Char) :=
  let segments := resolveSegments k [] (splitPath k cs)
  if k = .file then dropLeadingEmpty segments else segments

/-! ### Authorities -/

/-- Whether a character ends the authority of a URL. -/
def endsAuthority (k : SchemeKind) (c : Char) : Bool := k.isSlash c || c = '?' || c = '#'

/-- The user part of an authority, up to the last at sign, and what stands behind it. -/
def splitUser (k : SchemeKind) (cs : List Char) : Option (List Char) × List Char :=
  let (authority, rest) := cs.span fun c ↦ !endsAuthority k c
  let behind := (authority.reverse.takeWhile (· ≠ '@')).reverse
  if behind.length < authority.length then
    (some (authority.take (authority.length - behind.length - 1)), behind ++ rest)
  else (none, cs)

/-- The host part of an authority, up to a colon outside brackets, and what stands behind it. -/
def splitHost (k : SchemeKind) : (inBrackets : Bool) → List Char → List Char × List Char
  | _, [] => ([], [])
  | inBrackets, c :: cs =>
    if endsAuthority k c || (c = ':' && !inBrackets) then ([], c :: cs)
    else
      let (host, rest) :=
        splitHost k (if c = '[' then true else if c = ']' then false else inBrackets) cs
      (c :: host, rest)

/-- Pass over a port behind its colon. -/
def skipPort (cs : List Char) : Option (List Char) :=
  let (digits, rest) := cs.span Char.isDigit
  let value := digits.foldl (fun n c ↦ n * 10 + (c.toNat - '0'.toNat)) 0
  if 65535 < value then none
  else
    match rest with
    | [] => some []
    | c :: _ => if c = '/' || c = '\\' || c = '?' || c = '#' then some rest else none

/-- The host and the path of a URL behind the two slashes, in a scheme other than `file`. -/
def readAuthority (k : SchemeKind) (scheme : String) (cs : List Char) : Option Url := do
  let (user, behindUser) := splitUser k cs
  if user == some [] then
    if (behindUser.head?.map (endsAuthority k)).getD false then none
  let (hostText, behindHost) := splitHost k false behindUser
  let host ← match k with
    | .web => if hostText.isEmpty then none else parseHost hostText
    | _ => parseOpaqueHost hostText
  if hostText.isEmpty && behindHost.head? == some ':' then none
  let rest ← match behindHost with
    | ':' :: behind => skipPort behind
    | _ => some behindHost
  let hasUser := (user.getD []) ≠ [] && (user.getD []) ≠ [':']
  if host = .absent && hasUser then none
  match k, rest with
  | .generic, [] => return ⟨scheme, host, none⟩
  | _, [] => return ⟨scheme, host, some (readSegments k [])⟩
  | _, c :: behind =>
    if c = '?' || c = '#' then
      return ⟨scheme, host, if k = .generic then none else some (readSegments k [])⟩
    else if k.isSlash c then return ⟨scheme, host, some (readSegments k behind)⟩
    else return ⟨scheme, host, some (readSegments k rest)⟩

/-- The host and the path of a file URL behind its colon. -/
def readFileUrl (cs : List Char) : Option Url := do
  let k := SchemeKind.file
  match cs with
  | a :: b :: behind =>
    if k.isSlash a && k.isSlash b then
      let (hostText, rest) := behind.span fun c ↦ !endsAuthority k c
      if isDrive hostText then return ⟨"file", .absent, some (readSegments k behind)⟩
      let host ← if hostText.isEmpty then some .absent else parseHost hostText
      if host = .other then
        let path := match rest with
          | c :: more => if k.isSlash c then more else rest
          | [] => rest
        let first := (resolveSegments k [] (splitPath k path)).head?
        let onDrive := (first.map isDrive).getD false
        return ⟨"file", if onDrive then .absent else .other, some (readSegments k path)⟩
      else return ⟨"file", .absent, some (readSegments k rest)⟩
    else if k.isSlash a then return ⟨"file", .absent, some (readSegments k (b :: behind))⟩
    else return ⟨"file", .absent, some (readSegments k cs)⟩
  | [a] => return ⟨"file", .absent, some (readSegments k (if k.isSlash a then [] else [a]))⟩
  | [] => return ⟨"file", .absent, some (readSegments k [])⟩

/-- Read a URL. -/
def Url.parse (text : String) : Option Url := do
  let (scheme, rest) ← splitScheme (significant text.toList)
  match SchemeKind.ofScheme scheme with
  | .file => readFileUrl rest
  | .web => readAuthority .web scheme (rest.dropWhile fun c ↦ c = '/' || c = '\\')
  | .generic =>
    match rest with
    | '/' :: '/' :: behind => readAuthority .generic scheme behind
    | '/' :: behind => return ⟨scheme, .absent, some (readSegments .generic behind)⟩
    | _ => return ⟨scheme, .absent, none⟩

end LanguageHub.Uri
