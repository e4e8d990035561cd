import LanguageHub.Uri.Percent

/-!
# Hosts

What a URI says of the machine that its path is on. For turning a URI into a path of this
machine it only matters whether there is a host and whether it is the local one.
-/

namespace LanguageHub.Uri

/-- The host of a URI. -/
inductive Host where
  /-- No host, or the empty one. -/
  | absent
  /-- The name of the local machine. -/
  | localhost
  /-- Any other host. -/
  | other
  deriving DecidableEq, Repr

/-- A character of a domain name in its folded form: letters are small and of ordinary width,
characters that do not show are dropped. -/
def foldDomainChar (c : Char) : List Char :=
  let n := c.toNat
  if n == 0xAD || n == 0x200B || n == 0x2060 || n == 0xFEFF then []
  else if 0xFF01 ≤ n && n ≤ 0xFF5E then [(Char.ofNat (n - 0xFEE0)).toLower]
  else [c.toLower]

/-- A character that no domain name may hold. -/
def isForbidden (c : Char) : Bool :=
  c.toNat ≤ 0x20 || c.toNat == 0x7F ||
    ['#', '/', ':', '<', '>', '?', '@', '[', '\\', ']', '^', '|', '%'].contains c

/-- A label that is written as a number, in decimal, octal or hexadecimal notation, and its
value. -/
def labelValue? (label : List Char) : Option Nat :=
  let digits (base : Nat) (cs : List Char) : Option Nat :=
    cs.foldl
      (fun value c ↦ do
        let v ← value
        let d ← Text.hexValue? c
        if d < base then some (v * base + d) else none)
      (some 0)
  match label with
  | [] => none
  | '0' :: x :: rest => if x = 'x' || x = 'X' then digits 16 rest else digits 8 (x :: rest)
  | _ => digits 10 label

/-- The labels of a domain name, without an empty one at the end. -/
def labels (name : List Char) : List (List Char) :=
  let all := name.splitOn '.'
  if 1 < all.length && all.getLastD [] == [] then all.dropLast else all

/-- Whether a domain name whose last label is a number is an address of four bytes. -/
def isAddress (name : List Char) : Bool :=
  let ls := labels name
  let values := ls.map labelValue?
  ls.length ≤ 4 && values.all Option.isSome &&
    values.dropLast.all (fun v ↦ v.getD 256 < 256) &&
    (values.getLastD none).getD 0 < Nat.pow 256 (5 - ls.length)

/-- Whether the last label of a domain name is a number. -/
def endsInNumber (name : List Char) : Bool :=
  let last := (labels name).getLastD []
  (!last.isEmpty && last.all Char.isDigit) ||
    (match last with
      | '0' :: x :: rest => (x = 'x' || x = 'X') && rest.all Text.isHexDigit
      | _ => false)

/-- The host that a nonempty text names in a URI of a scheme with domain names, if the text is
allowed there. -/
def parseHost (text : List Char) : Option Host :=
  match text with
  | '[' :: rest =>
    if rest.getLast? == some ']' &&
        rest.dropLast.all (fun c ↦ Text.isHexDigit c || c = ':' || c = '.') then some .other
    else none
  | _ =>
    match Utf8.decode? (percentDecode (Utf8.encode (String.ofList text))) with
    | none => none
    | some decoded =>
      let name := decoded.toList.flatMap foldDomainChar
      if name.isEmpty || name.any isForbidden then none
      else if name = "localhost".toList then some .localhost
      else if endsInNumber name && !isAddress name then none
      else some .other

/-- The host that a text names in a URI of a scheme without domain names. -/
def parseOpaqueHost (text : List Char) : Option Host :=
  match text with
  | [] => some .absent
  | '[' :: _ => parseHost text
  | _ =>
    let forbidden := text.any fun c ↦
      c.toNat == 0 || [' ', '#', '/', ':', '<', '>', '?', '@', '[', '\\', ']', '^', '|'].contains c
    if forbidden then none
    else if text = "localhost".toList then some .localhost
    else some .other

end LanguageHub.Uri
