import LanguageHub.Json.Typed
import Mathlib.Data.List.DropRight
import Mathlib.Data.List.TakeDrop
import Mathlib.Data.List.TakeWhile

/-!
# Tokens that are read and tokens that are passed over

A string or a number that is read ends where it would end if it were passed over. The converse
fails: the escapes of a string that is passed over may name lone surrogates, and a number may be
out of range.
-/

namespace LanguageHub.Json

variable {cs rest here : List Char}

/-- A computation that goes on behind another succeeds when both do. -/
theorem eq_ok_of_bind {ε α β : Type} {x : Except ε α} {f : α → Except ε β} {b : β}
    (h : (x >>= f) = .ok b) : ∃ a, x = .ok a ∧ f a = .ok b := by
  cases x with
  | error e => cases h
  | ok a => exact ⟨a, rfl, h⟩

/-- A result that is changed is there when it was there before. -/
theorem eq_ok_of_map {ε α β : Type} {x : Except ε α} {f : α → β} {b : β}
    (h : x.map f = .ok b) : ∃ a, x = .ok a ∧ f a = b := by
  cases x with
  | error e => cases h
  | ok a => exact ⟨a, rfl, Except.ok.inj h⟩

/-! ### Tokens -/

@[simp]
theorem skipSpace_skipSpace (cs : List Char) : skipSpace (skipSpace cs) = skipSpace cs :=
  List.dropWhile_idempotent _ _

theorem length_skipSpace_le (cs : List Char) : (skipSpace cs).length ≤ cs.length :=
  List.length_dropWhile_le _ _

/-- A token that stands behind white space stands behind none. -/
theorem skipSpace_cons {c : Char} (h : skipSpace cs = c :: rest) :
    skipSpace (c :: rest) = c :: rest := by
  rw [← h, skipSpace_skipSpace]

/-- Something remains of the characters in front of which a token stands. -/
theorem length_of_skipSpace_eq {c : Char} (h : skipSpace cs = c :: rest) :
    rest.length < cs.length := by
  have hle := length_skipSpace_le cs
  rw [h, List.length_cons] at hle
  omega

theorem length_of_scanName {name : List Char} {u : Unit} (h : scanName name cs = .ok (u, rest)) :
    rest.length ≤ cs.length := by
  induction name generalizing cs with
  | nil =>
    cases h
    exact Nat.le_refl _
  | cons n name ih =>
    cases cs with
    | nil => cases h
    | cons c cs =>
      simp only [scanName] at h
      split at h
      · exact Nat.le_succ_of_le (ih h)
      · cases h

theorem length_of_readColon (h : readColon cs = .ok rest) : rest.length < cs.length := by
  simp only [readColon] at h
  split at h
  · cases h
  · next hs =>
    split at h
    · cases h
      exact length_of_skipSpace_eq hs
    · cases h

/-! ### Strings -/

/-- Where the passing over a string stands when the reading stands here. -/
def StringState.skip : StringState → SkipState
  | .plain | .afterHigh _ => .plain
  | .escape | .afterHighEscape _ => .escape
  | .hex count _ _ => .hex count

/-- A string that is read is passed over. -/
theorem skipStringFrom_of_scanStringFrom {state : StringState} {read : List Char} {s : String}
    (h : scanStringFrom state read cs = .ok (s, rest)) :
    skipStringFrom state.skip cs = .ok ((), rest) := by
  induction cs generalizing state read with
  | nil => cases state <;> cases h
  | cons c cs ih =>
    cases state with
    | plain =>
      simp only [scanStringFrom] at h
      simp only [StringState.skip, skipStringFrom]
      split at h
      · next hc =>
        cases h
        rw [if_pos hc]
      · next hc =>
        rw [if_neg hc]
        split at h
        · next hb =>
          rw [if_pos hb]
          exact ih h
        · next hb =>
          rw [if_neg hb]
          split at h
          · cases h
          · next hcontrol =>
            rw [if_neg hcontrol]
            exact ih h
    | escape =>
      simp only [scanStringFrom] at h
      simp only [StringState.skip, skipStringFrom]
      split at h
      · next hd =>
        rw [hd, if_pos Option.isSome_some]
        exact ih h
      · next hd =>
        rw [hd, if_neg (by simp)]
        split at h
        · next hu =>
          rw [if_pos hu]
          exact ih h
        · cases h
    | hex count value high =>
      simp only [scanStringFrom] at h
      simp only [StringState.skip, skipStringFrom]
      split at h
      · cases h
      · next hd =>
        rw [hd, if_pos Option.isSome_some]
        split at h
        · next hcount =>
          rw [if_pos hcount]
          exact ih h
        · next hcount =>
          rw [if_neg hcount]
          -- The unit is complete: it ends the escape or the first half of a pair.
          split at h <;> split at h
          · cases h
          · split at h
            · exact ih h
            · exact ih h
          · exact ih h
          · cases h
    | afterHigh high =>
      simp only [scanStringFrom] at h
      simp only [StringState.skip, skipStringFrom]
      split at h
      · next hb =>
        subst hb
        exact ih h
      · cases h
    | afterHighEscape high =>
      simp only [scanStringFrom] at h
      simp only [StringState.skip, skipStringFrom]
      split at h
      · next hu =>
        subst hu
        exact ih h
      · cases h

theorem skipString_of_scanString {s : String} (h : scanString cs = .ok (s, rest)) :
    skipString cs = .ok ((), rest) :=
  skipStringFrom_of_scanStringFrom h

theorem length_of_skipStringFrom {state : SkipState} {u : Unit}
    (h : skipStringFrom state cs = .ok (u, rest)) : rest.length < cs.length := by
  induction cs generalizing state with
  | nil => cases state <;> cases h
  | cons c cs ih =>
    have longer {state : SkipState} (h : skipStringFrom state cs = .ok (u, rest)) :
        rest.length < (c :: cs).length := Nat.lt_succ_of_lt (ih h)
    cases state with
    | plain =>
      simp only [skipStringFrom] at h
      split at h
      · cases h
        exact Nat.lt_succ_self _
      · split at h
        · exact longer h
        · split at h
          · cases h
          · exact longer h
    | escape =>
      simp only [skipStringFrom] at h
      split at h
      · exact longer h
      · split at h
        · exact longer h
        · cases h
    | hex count =>
      simp only [skipStringFrom] at h
      split at h
      · exact longer h
      · cases h

/-! ### Numbers -/

private theorem length_span_le (p : Char → Bool) (cs : List Char) :
    (cs.span p).2.length ≤ cs.length := by
  rw [List.span_eq_takeWhile_dropWhile]
  exact List.length_dropWhile_le p cs

theorem skipExponent_of_scanExponent? {e : Option (Bool × List Char)}
    (h : scanExponent? cs = .ok (e, rest)) : skipExponent cs = .ok rest := by
  cases cs with
  | nil =>
    cases h
    rfl
  | cons c cs =>
    simp only [scanExponent?] at h
    simp only [skipExponent]
    split at h
    · next hc =>
      rw [if_pos hc]
      obtain ⟨⟨⟨negative, digits⟩, after⟩, hscan, hafter⟩ := eq_ok_of_map h
      cases hafter
      -- Both look for the digits behind the same sign.
      have hdigits (behind : List Char) (isNegative : Bool)
          (hscan : (if (behind.span Char.isDigit).1.isEmpty then
            failSyntax (if behind.isEmpty then .endInValue else .invalidNumber)
            else .ok ((isNegative, (behind.span Char.isDigit).1), (behind.span Char.isDigit).2)) =
            Except.ok ((negative, digits), after)) :
          (if (behind.span Char.isDigit).1.isEmpty then failSyntax .invalidNumber
            else .ok (behind.span Char.isDigit).2) = Except.ok after := by
        split at hscan
        · cases hscan
        · next hne =>
          cases hscan
          rw [if_neg hne]
      simp only [scanExponent] at hscan
      cases cs with
      | nil => exact hdigits [] false hscan
      | cons d more =>
        by_cases hplus : d = '+'
        · subst hplus
          exact hdigits more false hscan
        by_cases hminus : d = '-'
        · subst hminus
          exact hdigits more true hscan
        · simp only [hplus, hminus, decide_false, Bool.or_self, Bool.false_eq_true, if_false]
          split at hscan
          · next heq => cases heq; exact absurd rfl hplus
          · next heq => cases heq; exact absurd rfl hminus
          · exact hdigits (d :: more) false hscan
    · next hc =>
      cases h
      rw [if_neg hc]

/-- A number with a point behind its first digits is passed over with the digits behind it. -/
private theorem skipNumber_of_point {behind : List Char}
    (digits : (cs.span Char.isDigit).1 ≠ [])
    (leading : ∀ c more, (cs.span Char.isDigit).1 ≠ '0' :: c :: more)
    (point : (cs.span Char.isDigit).2 = '.' :: behind) :
    skipNumber cs = if (behind.span Char.isDigit).1.isEmpty then failSyntax .invalidNumber
      else skipExponent (behind.span Char.isDigit).2 := by
  -- What the digits are not decides the first case distinction.
  simp only [skipNumber, point]

/-- A number without a point is passed over with its first digits. -/
private theorem skipNumber_of_whole (digits : (cs.span Char.isDigit).1 ≠ [])
    (leading : ∀ c more, (cs.span Char.isDigit).1 ≠ '0' :: c :: more)
    (whole : ∀ behind, (cs.span Char.isDigit).2 ≠ '.' :: behind) :
    skipNumber cs = skipExponent (cs.span Char.isDigit).2 := by
  simp only [skipNumber]

/-- A number that is read is passed over. -/
theorem skipNumber_of_scanNumber {negative : Bool} {n : Number}
    (h : scanNumber negative cs = .ok (n, rest)) : skipNumber cs = .ok rest := by
  obtain ⟨⟨t, after⟩, hscan, h⟩ := eq_ok_of_bind h
  obtain ⟨_, _, h⟩ := eq_ok_of_bind h
  cases h
  simp only [scanNumberText] at hscan
  split at hscan
  · cases hscan
  · cases hscan
  · next digits leading =>
    split at hscan
    · next point =>
      rw [skipNumber_of_point digits leading point]
      split at hscan
      · cases hscan
      · next hne =>
        rw [if_neg hne]
        obtain ⟨⟨e, left⟩, hexponent, hleft⟩ := eq_ok_of_map hscan
        cases hleft
        exact skipExponent_of_scanExponent? hexponent
    · next whole =>
      rw [skipNumber_of_whole digits leading whole]
      obtain ⟨⟨e, left⟩, hexponent, hleft⟩ := eq_ok_of_map hscan
      cases hleft
      exact skipExponent_of_scanExponent? hexponent

private theorem length_of_digits {behind : List Char}
    (h : (if (behind.span Char.isDigit).1.isEmpty then failSyntax .invalidNumber
      else .ok (behind.span Char.isDigit).2) = Except.ok rest) : rest.length ≤ behind.length := by
  split at h
  · cases h
  · cases h
    exact length_span_le _ _

theorem length_of_skipExponent (h : skipExponent cs = .ok rest) : rest.length ≤ cs.length := by
  cases cs with
  | nil =>
    cases h
    exact Nat.le_refl _
  | cons c cs =>
    simp only [skipExponent] at h
    split at h
    · refine Nat.le_succ_of_le ?_
      cases cs with
      | nil => exact length_of_digits h
      | cons d more =>
        simp only at h
        split at h
        · exact Nat.le_succ_of_le (length_of_digits h)
        · exact length_of_digits h
    · cases h
      exact Nat.le_refl _

theorem length_of_skipNumber (h : skipNumber cs = .ok rest) : rest.length < cs.length := by
  have hspan := List.span_eq_takeWhile_dropWhile (p := Char.isDigit) cs
  have hlength : (cs.span Char.isDigit).1.length + (cs.span Char.isDigit).2.length = cs.length := by
    rw [hspan, ← List.length_append, List.takeWhile_append_dropWhile]
  simp only [skipNumber] at h
  split at h
  · cases h
  · cases h
  · next hne _ =>
    have hpos : 0 < (cs.span Char.isDigit).1.length := List.length_pos_of_ne_nil hne
    split at h
    · next behind hpoint =>
      split at h
      · cases h
      · have hfraction := length_span_le Char.isDigit behind
        have hrest := length_of_skipExponent h
        rw [hpoint, List.length_cons] at hlength
        omega
    · have hrest := length_of_skipExponent h
      omega

end LanguageHub.Json
