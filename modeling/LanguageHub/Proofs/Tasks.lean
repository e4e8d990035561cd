import LanguageHub.Tasks

/-!
# Looking up tasks

What starting, changing and ending a task does to the state and to the answer under every number,
and to the weights of the tasks. Steps that lead down in a well-founded order come to an end.
-/

namespace LanguageHub.Tasks

universe u v

variable {σ : Type u} {α : Type v} {t : Tasks σ α} {n m : Nat}

/-- A number without a state is no number of a task that is going on. -/
theorem state?_eq_none_iff : t.state? n = none ↔ n ∉ t.numbers := by
  simp only [state?, Option.map_eq_none_iff, List.find?_eq_none, beq_iff_eq, numbers, List.mem_map,
    not_exists, not_and]

/-- A number without an answer is no number of a task that has ended. -/
theorem answer?_eq_none_iff : t.answer? n = none ↔ n ∉ t.answers.map (·.1) := by
  simp only [answer?, Option.map_eq_none_iff, List.find?_eq_none, beq_iff_eq, List.mem_map,
    not_exists, not_and]

/-- A further task has its state, the others keep theirs. -/
theorem state?_start (h : n ∉ t.numbers) (state : σ) (m : Nat) :
    (t.start n state).state? m = if m = n then some state else t.state? m := by
  have hnone := state?_eq_none_iff.mpr h
  simp only [state?, Option.map_eq_none_iff] at hnone
  simp only [state?, start, List.find?_append]
  split
  · next hm =>
    subst hm
    rw [hnone]
    simp
  · next hm =>
    have : (n == m) = false := beq_eq_false_iff_ne.mpr (Ne.symm hm)
    simp [this]

/-- A task that goes on has its new state, the others keep theirs. -/
theorem state?_update (t : Tasks σ α) (n : Nat) (state : σ) (m : Nat) :
    (t.update n state).state? m = if m = n then (t.state? n).map fun _ ↦ state else t.state? m := by
  simp only [state?, update, List.find?_map, Option.map_map]
  have hkey : ((fun e : Nat × σ ↦ e.1 == m) ∘ fun e ↦ if e.1 == n then (n, state) else e) =
      fun e ↦ e.1 == m := by
    funext e
    by_cases he : e.1 = n <;> simp [he]
  rw [hkey]
  split
  · next hm =>
    subst hm
    cases hf : t.running.find? (·.1 == m) with
    | none => rfl
    | some e =>
      have he := List.find?_some hf
      simp [eq_of_beq he]
  · next hm =>
    cases hf : t.running.find? (·.1 == m) with
    | none => rfl
    | some e =>
      have he : e.1 = m := eq_of_beq (List.find?_some (p := fun e : Nat × σ ↦ e.1 == m) hf)
      have hne : e.1 ≠ n := fun h ↦ hm (he.symm.trans h)
      simp [hne]

/-- A task that has ended has no state, the others keep theirs. -/
theorem state?_finish (t : Tasks σ α) (n : Nat) (answer : α) (m : Nat) :
    (t.finish n answer).state? m = if m = n then none else t.state? m := by
  simp only [state?, finish, List.find?_filter]
  split
  · next hm =>
    subst hm
    rw [Option.map_eq_none_iff, List.find?_eq_none]
    intro e _
    simp
  · next hm =>
    congr 2
    funext e
    by_cases he : e.1 = m <;> simp [he, hm]

/-- Starting a task answers nothing. -/
@[simp]
theorem answer?_start (t : Tasks σ α) (n : Nat) (state : σ) (m : Nat) :
    (t.start n state).answer? m = t.answer? m := rfl

/-- Going on with a task answers nothing. -/
@[simp]
theorem answer?_update (t : Tasks σ α) (n : Nat) (state : σ) (m : Nat) :
    (t.update n state).answer? m = t.answer? m := rfl

/-- A task that ends is answered, and the answers that were given stay. -/
theorem answer?_finish (t : Tasks σ α) (n : Nat) (answer : α) (m : Nat) :
    (t.finish n answer).answer? m = (t.answer? m).or (if m = n then some answer else none) := by
  simp only [answer?, finish, List.find?_append]
  cases hf : t.answers.find? (·.1 == m) with
  | some e => simp
  | none =>
    by_cases hm : m = n
    · subst hm
      simp
    · have : (n == m) = false := beq_eq_false_iff_ne.mpr (Ne.symm hm)
      simp [this, hm]

/-! ### Numbers that are used once -/

/-- No task that is going on has an answer. -/
def Apart (t : Tasks σ α) : Prop := ∀ n, t.state? n ≠ none → t.answer? n = none

/-- A task under a number without an answer keeps the tasks apart. -/
theorem Apart.start (apart : t.Apart) (fresh : n ∉ t.numbers) (unanswered : t.answer? n = none)
    (state : σ) : (t.start n state).Apart := by
  intro m hm
  rw [state?_start fresh] at hm
  by_cases hmn : m = n
  · rw [hmn]
    exact unanswered
  · exact apart m (by simpa [hmn] using hm)

/-- A task that goes on keeps the tasks apart. -/
theorem Apart.update (apart : t.Apart) (n : Nat) (state : σ) : (t.update n state).Apart := by
  intro m hm
  rw [state?_update] at hm
  refine apart m fun hnone ↦ hm ?_
  split
  · next hmn => rw [← hmn, hnone, Option.map_none]
  · exact hnone

/-- A task that ends keeps the tasks apart. -/
theorem Apart.finish (apart : t.Apart) (n : Nat) (answer : α) : (t.finish n answer).Apart := by
  intro m hm
  rw [state?_finish] at hm
  by_cases hmn : m = n
  · simp [hmn] at hm
  · rw [if_neg hmn] at hm
    rw [answer?_finish, apart m hm, if_neg hmn]
    rfl

/-! ### What holds of every task -/

/-- The state of a task that goes on alone. -/
theorem state?_singleton (n : Nat) (state : σ) (answers : List (Nat × α)) (m : Nat) :
    (⟨[(n, state)], answers⟩ : Tasks σ α).state? m = if m = n then some state else none := by
  by_cases hm : m = n
  · simp [state?, hm]
  · simp [state?, hm, Ne.symm hm]

/-- The only answer that was given. -/
theorem answer?_singleton (n : Nat) (answer : α) (running : List (Nat × σ)) (m : Nat) :
    (⟨running, [(n, answer)]⟩ : Tasks σ α).answer? m = if m = n then some answer else none := by
  by_cases hm : m = n
  · simp [answer?, hm]
  · simp [answer?, hm, Ne.symm hm]

/-- This holds of every task that goes on. -/
def All (p : σ → Prop) (t : Tasks σ α) : Prop := ∀ n state, t.state? n = some state → p state

theorem All.start {p : σ → Prop} (all : t.All p) (fresh : n ∉ t.numbers) {state : σ}
    (new : p state) : (t.start n state).All p := by
  intro m other hm
  rw [state?_start fresh] at hm
  split at hm
  · exact Option.some.inj hm ▸ new
  · exact all m other hm

theorem All.update {p : σ → Prop} (all : t.All p) {state : σ} (new : p state) :
    (t.update n state).All p := by
  intro m other hm
  rw [state?_update] at hm
  split at hm
  · simp only [Option.map_eq_some_iff] at hm
    obtain ⟨_, _, rfl⟩ := hm
    exact new
  · exact all m other hm

theorem All.finish {p : σ → Prop} (all : t.All p) (answer : α) : (t.finish n answer).All p := by
  intro m other hm
  rw [state?_finish] at hm
  split at hm
  · cases hm
  · exact all m other hm

/-! ### Numbers and weights -/

@[simp]
theorem numbers_start (t : Tasks σ α) (n : Nat) (state : σ) :
    (t.start n state).numbers = t.numbers ++ [n] := by
  simp [numbers, start]

@[simp]
theorem numbers_update (t : Tasks σ α) (n : Nat) (state : σ) :
    (t.update n state).numbers = t.numbers := by
  simp only [numbers, update, List.map_map]
  apply List.map_congr_left
  intro e _
  by_cases he : e.1 = n
  · simp [he]
  · simp [he]

@[simp]
theorem numbers_finish (t : Tasks σ α) (n : Nat) (answer : α) :
    (t.finish n answer).numbers = t.numbers.filter (· != n) := by
  simp only [numbers, finish, List.filter_map]
  rfl

/-- The weights of the tasks that are going on, all together. -/
def weight (t : Tasks σ α) (w : σ → Nat) : Nat := t.running.foldr (fun e k ↦ w e.2 + k) 0

private theorem foldr_weight (w : σ → Nat) (l : List (Nat × σ)) (k : Nat) :
    l.foldr (fun e k ↦ w e.2 + k) k = l.foldr (fun e k ↦ w e.2 + k) 0 + k := by
  induction l with
  | nil => rw [List.foldr_nil, List.foldr_nil, Nat.zero_add]
  | cons e l ih => rw [List.foldr_cons, List.foldr_cons, ih, Nat.add_assoc]

private theorem foldr_weight_middle (w : σ → Nat) (before after : List (Nat × σ))
    (e : Nat × σ) : (before ++ e :: after).foldr (fun e k ↦ w e.2 + k) 0 =
      (before ++ after).foldr (fun e k ↦ w e.2 + k) 0 + w e.2 := by
  rw [List.foldr_append, List.foldr_append, List.foldr_cons, foldr_weight w before,
    foldr_weight w before (after.foldr _ 0)]
  omega

private theorem exists_split {l : List (Nat × σ)} (nodup : (l.map (·.1)).Nodup) {state : σ}
    (mem : (n, state) ∈ l) : ∃ before after, l = before ++ (n, state) :: after ∧
      (∀ e ∈ before, e.1 ≠ n) ∧ ∀ e ∈ after, e.1 ≠ n := by
  obtain ⟨before, after, rfl⟩ := List.append_of_mem mem
  refine ⟨before, after, rfl, ?_, ?_⟩
  · intro e he hen
    rw [List.map_append, List.nodup_append] at nodup
    exact nodup.2.2 e.1 (List.mem_map_of_mem he) n (by simp) hen
  · intro e he hen
    rw [List.map_append, List.map_cons] at nodup
    have hafter := (List.nodup_cons.mp (List.nodup_append.mp nodup).2.1).1
    exact hafter (hen ▸ List.mem_map_of_mem (f := (·.1)) he)

private theorem mem_running {state : σ} (going : t.state? n = some state) :
    (n, state) ∈ t.running := by
  simp only [state?, Option.map_eq_some_iff] at going
  obtain ⟨e, he, rfl⟩ := going
  have hn : e.1 = n := eq_of_beq (List.find?_some (p := fun e : Nat × σ ↦ e.1 == n) he)
  rw [← hn]
  exact List.mem_of_find?_eq_some he

/-- A task that goes on changes its own weight alone. -/
theorem weight_update (nodup : t.numbers.Nodup) {old : σ} (going : t.state? n = some old)
    (new : σ) (w : σ → Nat) : (t.update n new).weight w + w old = t.weight w + w new := by
  obtain ⟨before, after, hrunning, hbefore, hafter⟩ := exists_split nodup (mem_running going)
  have keeps : ∀ l : List (Nat × σ), (∀ e ∈ l, e.1 ≠ n) →
      (l.map fun e ↦ if e.1 == n then (n, new) else e) = l := by
    intro l hl
    conv => rhs; rw [← List.map_id l]
    apply List.map_congr_left
    intro e he
    simp [hl e he]
  simp only [weight, update, hrunning, List.map_append, List.map_cons]
  rw [keeps before hbefore, keeps after hafter]
  simp only [beq_self_eq_true, if_true, foldr_weight_middle]
  omega

/-- A task that ends takes its weight with it. -/
theorem weight_finish (nodup : t.numbers.Nodup) {old : σ} (going : t.state? n = some old)
    (answer : α) (w : σ → Nat) : (t.finish n answer).weight w + w old = t.weight w := by
  obtain ⟨before, after, hrunning, hbefore, hafter⟩ := exists_split nodup (mem_running going)
  have keeps : ∀ l : List (Nat × σ), (∀ e ∈ l, e.1 ≠ n) → l.filter (·.1 != n) = l := by
    intro l hl
    rw [List.filter_eq_self]
    intro e he
    simpa using hl e he
  simp only [weight, finish, hrunning, List.filter_append, List.filter_cons, bne_self_eq_false,
    Bool.false_eq_true, if_false]
  rw [keeps before hbefore, keeps after hafter, foldr_weight_middle]

end LanguageHub.Tasks

namespace LanguageHub

universe w

/-- If every step leads down in a well-founded order, then after enough steps none is possible. -/
theorem exists_settled {σ : Type w} {β : Type w} {r : β → β → Prop} (wf : WellFounded r)
    (step? : σ → Option σ) (Holds : σ → β → Prop)
    (next : ∀ s b t, Holds s b → step? s = some t → ∃ b', r b' b ∧ Holds t b') {s : σ} {b : β}
    (holds : Holds s b) :
    ∃ fuel b', Holds (settle step? fuel s) b' ∧ step? (settle step? fuel s) = none := by
  induction b using wf.induction generalizing s with
  | _ b ih =>
    cases hstep : step? s with
    | none => exact ⟨0, b, holds, hstep⟩
    | some t =>
      obtain ⟨b', hlt, hholds⟩ := next s b t holds hstep
      obtain ⟨fuel, b'', hsettled, hstuck⟩ := ih b' hlt hholds
      refine ⟨fuel + 1, b'', ?_, ?_⟩
      · simp only [settle, hstep]
        exact hsettled
      · simp only [settle, hstep]
        exact hstuck

end LanguageHub
