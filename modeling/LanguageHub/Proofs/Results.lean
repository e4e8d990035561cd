import Mathlib.Data.List.Forall2

/-!
# Results of computations that may fail

A computation in steps gives a result if and only if each step does.
-/

namespace LanguageHub

variable {α β ε ε' : Type}

theorem bind_eq_ok_iff {x : Except ε α} {f : α → Except ε β} {b : β} :
    (x >>= f) = .ok b ↔ ∃ a, x = .ok a ∧ f a = .ok b := by
  cases x with
  | error e => exact ⟨nofun, fun ⟨a, h, _⟩ ↦ nomatch h⟩
  | ok a => exact ⟨fun h ↦ ⟨a, rfl, h⟩, fun ⟨_, h, h'⟩ ↦ Except.ok.inj h ▸ h'⟩

theorem map_eq_ok_iff {x : Except ε α} {f : α → β} {b : β} :
    x.map f = .ok b ↔ ∃ a, x = .ok a ∧ f a = b := by
  cases x with
  | error e => exact ⟨nofun, fun ⟨a, h, _⟩ ↦ nomatch h⟩
  | ok a =>
    refine ⟨fun h ↦ ⟨a, rfl, Except.ok.inj h⟩, fun ⟨_, h, h'⟩ ↦ ?_⟩
    cases h
    exact congrArg _ h'

theorem mapError_eq_ok_iff {x : Except ε α} {f : ε → ε'} {a : α} :
    x.mapError f = .ok a ↔ x = .ok a := by
  cases x with
  | error e => exact ⟨nofun, nofun⟩
  | ok b => exact ⟨fun h ↦ congrArg _ (Except.ok.inj h), fun h ↦ congrArg _ (Except.ok.inj h)⟩

theorem mapM_eq_ok_iff {f : α → Except ε β} {l : List α} {m : List β} :
    l.mapM f = .ok m ↔ List.Forall₂ (fun x y ↦ f x = .ok y) l m := by
  induction l generalizing m with
  | nil =>
    rw [List.mapM_nil, List.forall₂_nil_left_iff]
    exact ⟨fun h ↦ (Except.ok.inj h).symm, fun h ↦ congrArg _ h.symm⟩
  | cons x rest ih =>
    rw [List.mapM_cons, bind_eq_ok_iff, List.forall₂_cons_left_iff]
    refine exists_congr fun y ↦ ?_
    rw [bind_eq_ok_iff]
    constructor
    · rintro ⟨hy, ys, hys, h⟩
      exact ⟨ys, hy, ih.mp hys, (Except.ok.inj h).symm⟩
    · rintro ⟨ys, hy, hys, rfl⟩
      exact ⟨hy, ys, ih.mpr hys, rfl⟩

theorem rel_eq {x y : Option α} : Option.Rel (fun a b ↦ a = b) x y ↔ x = y := by
  cases x <;> cases y <;> simp

/-- Two optional values of which one is made of the other. -/
theorem rel_eq_iff {f : β → α} {x : Option α} {y : Option β} :
    Option.Rel (fun a b ↦ a = f b) x y ↔ x = y.map f := by
  cases x <;> cases y <;> simp

/-- Optional values are related in two ways if the first one is, when it is there. -/
theorem rel_congr {R S : α → β → Prop} {x : Option α} {y : Option β}
    (same : ∀ a, x = some a → ∀ b, R a b ↔ S a b) : Option.Rel R x y ↔ Option.Rel S x y := by
  cases x with
  | none => cases y <;> simp
  | some a => cases y <;> simp [same a rfl]

end LanguageHub
