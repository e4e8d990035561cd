/-!
# Tasks

Operations that are going on side by side and the answers of those that have ended, each under
the number with which it was started.
-/

namespace LanguageHub

universe u v

/-- Tasks with states `σ` and answers `α`. -/
structure Tasks (σ : Type u) (α : Type v) where
  /-- The tasks that are going on, in the order in which they were started. -/
  running : List (Nat × σ) := []
  /-- The answers, in the order in which they were given. -/
  answers : List (Nat × α) := []

namespace Tasks

variable {σ : Type u} {α : Type v}

/-- The state of a task that is going on. -/
def state? (t : Tasks σ α) (n : Nat) : Option σ := (t.running.find? (·.1 == n)).map (·.2)

/-- The answer of a task that has ended. -/
def answer? (t : Tasks σ α) (n : Nat) : Option α := (t.answers.find? (·.1 == n)).map (·.2)

/-- A further task. -/
def start (t : Tasks σ α) (n : Nat) (state : σ) : Tasks σ α :=
  { t with running := t.running ++ [(n, state)] }

/-- A task goes on in another state. -/
def update (t : Tasks σ α) (n : Nat) (state : σ) : Tasks σ α :=
  { t with running := t.running.map fun e ↦ if e.1 == n then (n, state) else e }

/-- A task ends with an answer. -/
def finish (t : Tasks σ α) (n : Nat) (answer : α) : Tasks σ α :=
  { running := t.running.filter (·.1 != n), answers := t.answers ++ [(n, answer)] }

/-- The numbers of the tasks that are going on. -/
def numbers (t : Tasks σ α) : List Nat := t.running.map (·.1)

end Tasks

/-- Take steps until none is possible, but at most `fuel` many. -/
def settle {σ : Type u} (step? : σ → Option σ) : (fuel : Nat) → σ → σ
  | 0, s => s
  | fuel + 1, s =>
    match step? s with
    | none => s
    | some t => settle step? fuel t

end LanguageHub
