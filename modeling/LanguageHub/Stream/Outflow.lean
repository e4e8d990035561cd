import LanguageHub.Text.Utf8

/-!
# Bytes that go out

What was written to a stream: the part that the other side has read and the part that waits for
it. A stream with a capacity takes no more bytes while that many wait.
-/

namespace LanguageHub

/-- An action on the writing side of a stream. -/
inductive WritePoint where
  | write
  | flush
  | shutdown
  deriving DecidableEq, Repr

namespace WritePoint

/-- The name of an action. -/
def name : WritePoint → String
  | write => "write"
  | flush => "flush"
  | shutdown => "shutdown"

/-- Why the action fails on a stream that is faulty there. -/
def reason (p : WritePoint) : String := s!"{p.name} failed"

end WritePoint

/-- A stream of written bytes. -/
structure Outflow where
  /-- What the other side has read. -/
  received : Bytes := []
  /-- What was written and waits for the other side. -/
  unread : Bytes := []
  /-- How many bytes may wait; any number if absent. -/
  capacity : Option Nat := none
  /-- An action that fails. -/
  faultyAt : Option WritePoint := none
  /-- Why every write fails, once the other side is gone. -/
  broken : Option String := none
  /-- Whether nothing more will be written. -/
  finished : Bool := false
  deriving DecidableEq, Repr

namespace Outflow

/-- All bytes that were written. -/
def written (o : Outflow) : Bytes := o.received ++ o.unread

/-- How many more of so many bytes can be written at once. -/
def room (o : Outflow) (wanted : Nat) : Nat :=
  match o.capacity with
  | none => wanted
  | some c => c - o.unread.length

/-- Write as many of the bytes as there is room for and give the others back. Absent if there is
no room at all. -/
def write? (o : Outflow) (bytes : Bytes) : Option (Except String (Outflow × Bytes)) :=
  match o.broken with
  | some reason => some (.error reason)
  | none =>
    if o.faultyAt = some .write then some (.error WritePoint.write.reason)
    else
      let n := o.room bytes.length
      if n = 0 then none
      else some (.ok ({ o with unread := o.unread ++ bytes.take n }, bytes.drop n))

/-- See to it that nothing written is held back. -/
def flush (o : Outflow) : Except String Unit :=
  if o.faultyAt = some .flush then .error WritePoint.flush.reason else .ok ()

/-- Say that nothing more will be written. -/
def shutdown (o : Outflow) : Except String Unit × Outflow :=
  (if o.faultyAt = some .shutdown then .error WritePoint.shutdown.reason else .ok (),
    { o with finished := true })

/-- The other side reads at most so many bytes. -/
def deliver (o : Outflow) (count : Nat) : Outflow :=
  { o with received := o.received ++ o.unread.take count, unread := o.unread.drop count }

end Outflow

end LanguageHub
