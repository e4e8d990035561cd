/-!
# Locks that are granted in order

A lock is given to those who ask for it in the order in which they asked. The first in the line
holds it; whoever leaves passes it on.
-/

namespace LanguageHub

/-- Who asks for a lock. -/
inductive Agent where
  /-- The task that reads what the server sends. -/
  | reading
  /-- The operation with this number. -/
  | operation (number : Nat)
  deriving DecidableEq, Repr

/-- A lock: those who have asked for it and not left, in order. -/
structure Lock where
  line : List Agent := []
  deriving DecidableEq, Repr

namespace Lock

/-- Nobody holds the lock or waits for it. -/
def isFree (l : Lock) : Bool := l.line.isEmpty

/-- Whether the lock is held by the given agent. -/
def isHeldBy (l : Lock) (a : Agent) : Bool := l.line.head? == some a

/-- Join the line. -/
def request (l : Lock) (a : Agent) : Lock := ⟨l.line ++ [a]⟩

/-- Leave the line, wherever one stands in it. -/
def leave (l : Lock) (a : Agent) : Lock := ⟨l.line.filter fun b ↦ b ≠ a⟩

end Lock

end LanguageHub
