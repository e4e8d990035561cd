import LanguageHub.Dictionary
import Mathlib.Data.List.Forall2

/-!
# Keys of dictionaries

Which keys are found among entries, what the dictionary of a list holds, and how two lists of
entries with the same keys correspond.
-/

namespace LanguageHub.Dictionary

universe u v

variable {α : Type u} {β : Type v} {key : String} {value : α} {l : List (String × α)}

/-- A key that is not among entries is not found. -/
theorem lookup_eq_none_iff : lookup key l = none ↔ key ∉ l.map (·.1) := by
  induction l with
  | nil => simp [lookup]
  | cons e rest ih =>
    rw [lookup, List.map_cons, List.mem_cons, not_or, ← ih]
    split
    · next same => simp [same]
    · next other => simp [other]

/-- A key among entries is found. -/
theorem isSome_lookup_iff : (lookup key l).isSome ↔ key ∈ l.map (·.1) := by
  rw [← not_iff_not, Bool.not_eq_true, Option.isSome_eq_false_iff, Option.isNone_iff_eq_none,
    lookup_eq_none_iff]

/-- What is found under a key is an entry. -/
theorem mem_of_lookup (found : lookup key l = some value) : (key, value) ∈ l := by
  induction l with
  | nil => cases found
  | cons e rest ih =>
    rw [lookup] at found
    split at found
    · next same =>
      cases found
      exact same ▸ List.mem_cons_self
    · exact List.mem_cons_of_mem _ (ih found)

/-- An entry whose key stands but once is found. -/
theorem lookup_of_mem (distinct : (l.map (·.1)).Nodup) (h : (key, value) ∈ l) :
    lookup key l = some value := by
  induction l with
  | nil => cases h
  | cons e rest ih =>
    rw [List.map_cons, List.nodup_cons] at distinct
    rw [lookup]
    obtain rfl | h := List.mem_cons.mp h
    · rw [if_pos rfl]
    · have mem : key ∈ rest.map (·.1) := List.mem_map_of_mem (f := (·.1)) h
      have other : key ≠ e.1 := fun same ↦ distinct.1 (same ▸ mem)
      rw [if_neg other]
      exact ih distinct.2 h

/-- The keys of a sorted dictionary are distinct. -/
theorem Sorted.nodup {d : Dictionary α} (h : d.Sorted) : d.keys.Nodup := by
  rw [keys, List.nodup_iff_pairwise_ne, List.pairwise_map]
  exact h.imp fun less ↦ Std.ne_of_lt less

/-- The keys of a sorted dictionary are in order. -/
theorem sorted_iff {d : Dictionary α} : d.Sorted ↔ d.keys.Pairwise (· < ·) := by
  rw [keys, List.pairwise_map]
  rfl

/-- Putting in an entry in place of one with the same key changes no keys. -/
theorem keys_insert_of_mem {d : Dictionary α} (h : d.Sorted) (mem : key ∈ d.keys) :
    (d.insert key value).keys = d.keys := by
  obtain ⟨l⟩ := d
  simp only [keys, insert] at mem ⊢
  induction l with
  | nil => cases mem
  | cons e rest ih =>
    obtain ⟨above, hrest⟩ := List.pairwise_cons.mp h
    rw [insertEntry]
    split
    · next less =>
      -- The key stands further on, where all keys are greater than the first one.
      obtain rfl | mem := List.mem_cons.mp mem
      · exact absurd less (String.lt_irrefl _)
      · obtain ⟨e', he', rfl⟩ := List.mem_map.mp mem
        exact absurd (String.lt_trans less (above e' he')) (String.lt_irrefl _)
    · split
      · next same => rw [List.map_cons, List.map_cons, same]
      · next other =>
        rw [List.map_cons, List.map_cons, ih hrest]
        exact (List.mem_cons.mp mem).resolve_left other

/-- An entry whose key is greater than all others is put at the end. -/
theorem insertEntry_of_forall_lt (greatest : ∀ e ∈ l, e.1 < key) (value : α) :
    insertEntry key value l = l ++ [(key, value)] := by
  induction l with
  | nil => rfl
  | cons e rest ih =>
    rw [List.forall_mem_cons] at greatest
    have behind : ¬ key < e.1 := fun less ↦ String.lt_irrefl _ (String.lt_trans less greatest.1)
    have other : key ≠ e.1 := (Std.ne_of_lt greatest.1).symm
    rw [insertEntry, if_neg behind, if_neg other, ih greatest.2, List.cons_append]

/-- The dictionary of a list is sorted. -/
theorem sorted_ofList (l : List (String × α)) : (ofList l).Sorted :=
  List.foldlRecOn l _ sorted_empty fun _ h e _ ↦ h.insert e.1 e.2

/-- The entries of the dictionary of a list are in the list. -/
theorem mem_of_mem_ofList {e : String × α} (mem : e ∈ (ofList l).entries) : e ∈ l := by
  have all : ∀ e ∈ (ofList l).entries, e ∈ l := by
    refine List.foldlRecOn (motive := fun d : Dictionary α ↦ ∀ e ∈ d.entries, e ∈ l) l _ nofun ?_
    intro d before entered hentered e he
    obtain rfl | old := mem_insertEntry he
    · exact hentered
    · exact before e old
  exact all e mem

/-- What is found in the dictionary of a list in which each key stands but once. -/
theorem get?_ofList (distinct : (l.map (·.1)).Nodup) (key : String) :
    (ofList l).get? key = lookup key l := by
  have folded (d : Dictionary α) :
      (l.foldl (fun d e ↦ d.insert e.1 e.2) d).get? key = (lookup key l).or (d.get? key) := by
    induction l generalizing d with
    | nil => rfl
    | cons e rest ih =>
      rw [List.map_cons, List.nodup_cons] at distinct
      rw [List.foldl_cons, ih distinct.2, get?_insert, lookup]
      split
      · next same =>
        -- No later entry has this key.
        rw [lookup_eq_none_iff.mpr (same ▸ distinct.1)]
        rfl
      · rfl
  exact (folded empty).trans Option.or_none

/-- Entries correspond if their keys are the same and what is found under each key corresponds. -/
theorem forall₂_of_lookup {R : α → β → Prop} {m : List (String × β)}
    (keys : l.map (·.1) = m.map (·.1)) (distinct : (l.map (·.1)).Nodup)
    (h : ∀ k a b, lookup k l = some a → lookup k m = some b → R a b) :
    List.Forall₂ (fun x y ↦ x.1 = y.1 ∧ R x.2 y.2) l m := by
  induction l generalizing m with
  | nil =>
    rw [List.map_nil] at keys
    rw [List.map_eq_nil_iff.mp keys.symm]
    exact .nil
  | cons x rest ih =>
    cases m with
    | nil => cases keys
    | cons y rest' =>
      rw [List.map_cons, List.map_cons, List.cons.injEq] at keys
      rw [List.map_cons, List.nodup_cons] at distinct
      obtain ⟨same, keys⟩ := keys
      refine .cons ⟨same, h x.1 x.2 y.2 ?_ ?_⟩ (ih keys distinct.2 fun k a b ha hb ↦ ?_)
      · rw [lookup, if_pos rfl]
      · rw [lookup, if_pos same]
      · have other : k ≠ x.1 := by
          rintro rfl
          exact distinct.1 (isSome_lookup_iff.mp (by rw [ha]; rfl))
        refine h k a b ?_ ?_
        · rwa [lookup, if_neg other]
        · rwa [lookup, if_neg fun h ↦ other (h.trans same.symm)]

/-- What is found among entries whose values are changed. -/
theorem lookup_map (f : α → β) (key : String) (l : List (String × α)) :
    lookup key (l.map fun e ↦ (e.1, f e.2)) = (lookup key l).map f := by
  induction l with
  | nil => rfl
  | cons e rest ih =>
    rw [List.map_cons, lookup, lookup, ih]
    split <;> rfl

/-- What is found among entries that correspond. -/
theorem lookup_of_forall₂ {R : α → β → Prop} {m : List (String × β)}
    (h : List.Forall₂ (fun x y ↦ x.1 = y.1 ∧ R x.2 y.2) l m) (key : String) :
    Option.Rel R (lookup key l) (lookup key m) := by
  induction h with
  | nil => exact .none
  | cons hxy _ ih =>
    rw [lookup, lookup, hxy.1]
    split
    · exact .some hxy.2
    · exact ih

/-- Entries that correspond have the same keys. -/
theorem keys_of_forall₂ {R : α → β → Prop} {m : List (String × β)}
    (h : List.Forall₂ (fun x y ↦ x.1 = y.1 ∧ R x.2 y.2) l m) : l.map (·.1) = m.map (·.1) := by
  induction h with
  | nil => rfl
  | cons hxy _ ih => rw [List.map_cons, List.map_cons, hxy.1, ih]

end LanguageHub.Dictionary
