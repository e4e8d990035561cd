import LanguageHub.Text.Utf8

/-!
# Bytes that come in

The bytes of a stream arrive in pieces. They are read through a buffer, which a large read goes
past when it is empty. A read that has a goal beyond "what there is" takes as many pieces as it
needs; how the bytes were cut into pieces then makes no difference.
-/

namespace LanguageHub

/-- What comes after the pieces of a stream that have arrived. -/
inductive Ending where
  /-- More may arrive. -/
  | undecided
  /-- The stream is at its end. -/
  | ended
  /-- Reading fails. -/
  | failing (reason : String)
  deriving DecidableEq, Repr

/-- The part of a stream that has arrived and is not read. -/
structure Inflow where
  /-- The pieces, none of them empty. -/
  pieces : List Bytes := []
  ending : Ending := .undecided
  deriving DecidableEq, Repr

namespace Inflow

/-- The bytes that have arrived. -/
def toBytes (f : Inflow) : Bytes := f.pieces.flatten

/-- How many bytes have arrived. -/
def length (f : Inflow) : Nat := f.pieces.foldr (fun piece n ↦ piece.length + n) 0

theorem length_toBytes (f : Inflow) : f.toBytes.length = f.length := by
  rw [toBytes, length]
  induction f.pieces with
  | nil => rfl
  | cons piece pieces ih => rw [List.flatten_cons, List.length_append, ih, List.foldr_cons]

/-- A piece arrives. -/
def push (f : Inflow) (piece : Bytes) : Inflow :=
  if piece.isEmpty then f else { f with pieces := f.pieces ++ [piece] }

/-- The stream of the given pieces with the given ending. -/
def ofPieces (pieces : List Bytes) (ending : Ending) : Inflow :=
  ⟨pieces.filter fun p ↦ !p.isEmpty, ending⟩

/-- Take at most `limit` bytes of the first piece; no bytes at the end of the stream. The answer
is absent as long as nothing has arrived. -/
def take? (f : Inflow) (limit : Nat) : Option (Except String Bytes × Inflow) :=
  match f.pieces with
  | piece :: rest =>
    let left := piece.drop limit
    some (.ok (piece.take limit), { f with pieces := if left.isEmpty then rest else left :: rest })
  | [] =>
    match f.ending with
    | .undecided => none
    | .ended => some (.ok [], f)
    | .failing reason => some (.error reason, f)

end Inflow

/-- A stream that is read through a buffer. -/
structure Source where
  inflow : Inflow := {}
  /-- Bytes that were taken from the stream and not handed out. -/
  buffer : Bytes := []
  deriving DecidableEq, Repr

namespace Source

/-- The greatest number of bytes in the buffer. -/
def bufferSize : Nat := 8192

/-- The bytes that have arrived and were not handed out. -/
def toBytes (s : Source) : Bytes := s.buffer ++ s.inflow.toBytes

/-- How many bytes have arrived and were not handed out. -/
def length (s : Source) : Nat := s.buffer.length + s.inflow.length

theorem length_toBytes (s : Source) : s.toBytes.length = s.length := by
  rw [toBytes, List.length_append, Inflow.length_toBytes, length]

/-- Put bytes into an empty buffer. It stays empty at the end of the stream. -/
def fill? (s : Source) : Option (Except String Unit × Source) :=
  if s.buffer.isEmpty then
    match s.inflow.take? bufferSize with
    | none => none
    | some (.ok bytes, inflow) => some (.ok (), ⟨inflow, bytes⟩)
    | some (.error reason, inflow) => some (.error reason, { s with inflow })
  else some (.ok (), s)

/-- Hand out at most `limit` bytes. -/
def take? (s : Source) (limit : Nat) : Option (Except String Bytes × Source) :=
  if s.buffer.isEmpty && bufferSize ≤ limit then
    (s.inflow.take? limit).map fun (answer, inflow) ↦ (answer, { s with inflow })
  else
    match s.fill? with
    | none => none
    | some (.error reason, t) => some (.error reason, t)
    | some (.ok (), t) =>
      some (.ok (t.buffer.take limit), { t with buffer := t.buffer.drop limit })

end Source

/-- What a read is to hand out, and what it has taken so far. -/
inductive ReadGoal where
  /-- What there is, at most so many bytes. -/
  | upTo (limit : Nat)
  /-- All bytes up to and including the next line feed, or up to the end of the stream. -/
  | line (taken : Bytes)
  /-- So many bytes more, all of them. -/
  | exactly (missing : Nat) (taken : Bytes)
  deriving DecidableEq, Repr

namespace ReadGoal

/-- The byte that ends a line. -/
def lineFeed : UInt8 := 0x0A

/-- The bytes up to and including the first line feed, if there is one, and the bytes behind. -/
def splitLine : Bytes → Option (Bytes × Bytes)
  | [] => none
  | b :: bs =>
    if b == lineFeed then some ([b], bs)
    else (splitLine bs).map fun (start, rest) ↦ (b :: start, rest)

/-- What one step of a read leads to. -/
inductive Next where
  /-- There is more to read. -/
  | more (goal : ReadGoal)
  /-- The read hands out bytes, or says why it fails. -/
  | done (answer : Except String Bytes)

/-- One step of a read; absent as long as nothing has arrived. -/
def step? (g : ReadGoal) (s : Source) : Option (Next × Source) :=
  match g with
  | upTo limit => (s.take? limit).map fun (answer, t) ↦ (.done answer, t)
  | line taken =>
    match s.fill? with
    | none => none
    | some (.error reason, t) => some (.done (.error reason), t)
    | some (.ok (), t) =>
      if t.buffer.isEmpty then some (.done (.ok taken), t)
      else
        match splitLine t.buffer with
        | some (start, rest) => some (.done (.ok (taken ++ start)), { t with buffer := rest })
        | none => some (.more (.line (taken ++ t.buffer)), { t with buffer := [] })
  | exactly 0 taken => some (.done (.ok taken), s)
  | exactly missing taken =>
    match s.take? missing with
    | none => none
    | some (.error reason, t) => some (.done (.error reason), t)
    | some (.ok bytes, t) =>
      if bytes.isEmpty then some (.done (.error "early eof"), t)
      else some (.more (.exactly (missing - bytes.length) (taken ++ bytes)), t)

end ReadGoal

end LanguageHub
