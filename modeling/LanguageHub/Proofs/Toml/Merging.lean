import LanguageHub.Proofs.Toml.Documents

/-!
# Merging values

What stands under a path when one value was laid over another: what the upper one has there, else
what the lower one has. Where both have a table the tables are merged in turn.
-/

namespace LanguageHub.Toml

variable {key : String} {path : List String} {a b v : Toml} {below above : List (String × Toml)}

/-- What stands under a path. -/
def at? : List String → Toml → Option Toml
  | [], v => some v
  | key :: path, .table entries => (Dictionary.lookup key entries).bind (at? path)
  | _ :: _, _ => none

/-- Whether a value is a table. -/
def IsTable (v : Toml) : Prop := ∃ entries, v = .table entries

/-- Only tables stand on the way to a path, as far as there is anything. -/
def Leads : List String → Toml → Prop
  | [], _ => True
  | key :: path, .table entries => ∀ v ∈ Dictionary.lookup key entries, Leads path v
  | _ :: _, _ => False

/-- The entries of a table. -/
def entriesOf : Option Toml → List (String × Toml)
  | some (.table entries) => entries
  | _ => []

/-- The keys of a table. -/
def keysOf (given : Option Toml) : List String := (entriesOf given).map (·.1)

/-- What is left of two values when the second is laid over the first. -/
def layOver : (below above : Option Toml) → Option Toml
  | below, none => below
  | none, some v => some v
  | some u, some v => some (u.merge v)

@[simp]
theorem layOver_none_right (below : Option Toml) : layOver below none = below := by
  cases below <;> rfl

@[simp]
theorem layOver_none_left (above : Option Toml) : layOver none above = above := by
  cases above <;> rfl

/-- A value that is no table takes the place of the one below. -/
theorem merge_of_not_isTable (h : ¬ v.IsTable) (a : Toml) : a.merge v = v := by
  cases v with
  | table entries => exact absurd ⟨entries, rfl⟩ h
  | _ => rfl

/-- Any value takes the place of one that is no table. -/
theorem merge_of_not_isTable_below (h : ¬ a.IsTable) (v : Toml) : a.merge v = v := by
  cases v with
  | table entries =>
    cases a with
    | table old => exact absurd ⟨old, rfl⟩ h
    | _ => rfl
  | _ => rfl

/-- What is found among merged entries. -/
theorem lookup_mergeEntries (distinct : (above.map (·.1)).Nodup) (key : String) :
    Dictionary.lookup key (mergeEntries below above) =
      layOver (Dictionary.lookup key below) (Dictionary.lookup key above) := by
  induction above generalizing below with
  | nil => rw [mergeEntries, Dictionary.lookup, layOver_none_right]
  | cons e rest ih =>
    obtain ⟨k, w⟩ := e
    rw [List.map_cons, List.nodup_cons] at distinct
    rw [mergeEntries, ih distinct.2, Dictionary.lookup_insertEntry, Dictionary.lookup]
    split
    · next same =>
      -- No later entry has this key.
      subst same
      rw [Dictionary.lookup_eq_none_iff.mpr distinct.1, layOver_none_right]
      cases Dictionary.lookup key below <;> rfl
    · rfl

/-- The keys of merged entries. -/
theorem mem_keys_mergeEntries (distinct : (above.map (·.1)).Nodup) (key : String) :
    key ∈ (mergeEntries below above).map (·.1) ↔
      key ∈ below.map (·.1) ∨ key ∈ above.map (·.1) := by
  simp only [← Dictionary.isSome_lookup_iff, lookup_mergeEntries distinct]
  cases Dictionary.lookup key below <;> cases Dictionary.lookup key above <;> simp [layOver]

/-- Entries in order stay in order when others are laid over them. -/
theorem sorted_mergeEntries (h : Dictionary.Sorted ⟨below⟩) (above : List (String × Toml)) :
    Dictionary.Sorted ⟨mergeEntries below above⟩ := by
  induction above generalizing below with
  | nil => exact h
  | cons e rest ih =>
    rw [mergeEntries]
    exact ih (Dictionary.Sorted.insert h _ _)

/-- Laying over entries others of which they have all keys changes no keys. -/
theorem keys_mergeEntries (h : Dictionary.Sorted ⟨below⟩)
    (known : ∀ key ∈ above.map (·.1), key ∈ below.map (·.1)) :
    (mergeEntries below above).map (·.1) = below.map (·.1) := by
  induction above generalizing below with
  | nil => rfl
  | cons e rest ih =>
    obtain ⟨k, w⟩ := e
    rw [List.map_cons, List.forall_mem_cons] at known
    have same (merged : Toml) :
        (Dictionary.insertEntry k merged below).map (·.1) = below.map (·.1) :=
      Dictionary.keys_insert_of_mem h known.1
    rw [mergeEntries, ih (Dictionary.Sorted.insert h _ _), same]
    rw [same]
    exact known.2

/-- Entries in order that are laid over entries with smaller keys are put behind them. -/
theorem mergeEntries_of_forall_lt (less : ∀ a ∈ below, ∀ b ∈ above, a.1 < b.1)
    (sorted : Dictionary.Sorted ⟨above⟩) : mergeEntries below above = below ++ above := by
  induction above generalizing below with
  | nil => rw [mergeEntries, List.append_nil]
  | cons e rest ih =>
    obtain ⟨k, v⟩ := e
    obtain ⟨greater, later⟩ := List.pairwise_cons.mp sorted
    have smaller : ∀ a ∈ below, a.1 < k := fun a ha ↦ less a ha _ List.mem_cons_self
    have absent : Dictionary.lookup k below = none := by
      rw [Dictionary.lookup_eq_none_iff, List.mem_map]
      rintro ⟨a, ha, rfl⟩
      exact String.lt_irrefl _ (smaller a ha)
    rw [mergeEntries, absent, Dictionary.insertEntry_of_forall_lt smaller, ih _ later,
      List.append_assoc, List.singleton_append]
    intro a ha b hb
    obtain ha | ha := List.mem_append.mp ha
    · exact less a ha b (List.mem_cons_of_mem _ hb)
    · rw [List.mem_singleton.mp ha]
      exact greater b hb

/-- Entries in order that are laid over nothing. -/
theorem mergeEntries_nil (sorted : Dictionary.Sorted ⟨above⟩) : mergeEntries [] above = above :=
  mergeEntries_of_forall_lt (by simp) sorted

/-! ### Paths -/

theorem at?_cons_table (key : String) (path : List String) (entries : List (String × Toml)) :
    at? (key :: path) (.table entries) = (Dictionary.lookup key entries).bind (at? path) := rfl

@[simp]
theorem at?_singleton (key : String) (entries : List (String × Toml)) :
    at? [key] (.table entries) = Dictionary.lookup key entries := by
  rw [at?_cons_table]
  cases Dictionary.lookup key entries <;> rfl

/-- What stands under a path is found step by step. -/
theorem at?_append (path rest : List String) (v : Toml) :
    v.at? (path ++ rest) = (v.at? path).bind (at? rest) := by
  induction path generalizing v with
  | nil => rfl
  | cons key path ih =>
    cases v with
    | table entries =>
      rw [List.cons_append, at?_cons_table, at?_cons_table, Option.bind_assoc]
      congr 1
      exact funext ih
    | _ => rfl

/-- A path leads on through a table. -/
theorem leads_cons_iff :
    v.Leads (key :: path) ↔ v.IsTable ∧ ∀ w ∈ v.at? [key], w.Leads path := by
  cases v with
  | table entries =>
    rw [at?_singleton]
    exact ⟨fun h ↦ ⟨⟨entries, rfl⟩, h⟩, fun h ↦ h.2⟩
  | _ => exact ⟨fun h ↦ h.elim, fun ⟨⟨_, h⟩, _⟩ ↦ nomatch h⟩

/-- A path leads on to an entry of what it leads to. -/
theorem leads_concat_iff :
    v.Leads (path ++ [key]) ↔ v.Leads path ∧ ∀ w ∈ v.at? path, w.IsTable := by
  induction path generalizing v with
  | nil =>
    rw [List.nil_append, leads_cons_iff]
    exact ⟨fun h ↦ ⟨trivial, fun w hw ↦ Option.some.inj hw ▸ h.1⟩,
      fun h ↦ ⟨h.2 v rfl, fun _ _ ↦ trivial⟩⟩
  | cons first path ih =>
    have onward : v.at? (first :: path) = (v.at? [first]).bind (at? path) :=
      at?_append [first] path v
    rw [List.cons_append, leads_cons_iff, leads_cons_iff, onward]
    simp only [ih, Option.mem_def, Option.bind_eq_some_iff]
    constructor
    · rintro ⟨table, h⟩
      exact ⟨⟨table, fun w hw ↦ (h w hw).1⟩, fun u ⟨w, hw, hu⟩ ↦ (h w hw).2 u hu⟩
    · rintro ⟨⟨table, h⟩, h'⟩
      exact ⟨table, fun w hw ↦ ⟨h w hw, fun u hu ↦ h' u ⟨w, hw, hu⟩⟩⟩

/-- What stands in a well-formed value is well-formed. -/
theorem WellFormed.at? (formed : v.WellFormed) (h : v.at? path = some a) : a.WellFormed := by
  induction path generalizing v with
  | nil => exact Option.some.inj h ▸ formed
  | cons key path ih =>
    cases formed with
    | table sorted inside =>
      rw [at?_cons_table, Option.bind_eq_some_iff] at h
      obtain ⟨w, hw, h⟩ := h
      exact ih (inside _ (Dictionary.mem_of_lookup hw)) h
    | _ => cases h

/-- The entries of a well-formed table are in order. -/
theorem sorted_entriesOf {given : Option Toml} (formed : ∀ v ∈ given, v.WellFormed) :
    Dictionary.Sorted ⟨entriesOf given⟩ := by
  unfold entriesOf
  split
  · cases formed _ rfl with
    | table sorted _ => exact sorted
  · exact .nil

/-- The entries of a table in a well-formed value are in order. -/
theorem WellFormed.sorted_entriesOf (formed : v.WellFormed) (path : List String) :
    Dictionary.Sorted ⟨entriesOf (v.at? path)⟩ :=
  Toml.sorted_entriesOf fun _ found ↦ formed.at? found

private theorem exists_of_leads_cons (h : v.Leads (key :: path)) :
    ∃ entries, v = .table entries ∧ ∀ w ∈ Dictionary.lookup key entries, w.Leads path := by
  cases v with
  | table entries => exact ⟨entries, rfl, h⟩
  | _ => exact h.elim

/-- What stands under a path when one value was laid over another. -/
theorem at?_merge (ha : a.Leads path) (hb : b.Leads path) (formed : b.WellFormed) :
    (a.merge b).at? path = layOver (a.at? path) (b.at? path) := by
  induction path generalizing a b with
  | nil => rfl
  | cons key path ih =>
    obtain ⟨below, rfl, ha⟩ := exists_of_leads_cons ha
    obtain ⟨above, rfl, hb⟩ := exists_of_leads_cons hb
    cases formed with
    | table sorted inside =>
      rw [merge, at?_cons_table, at?_cons_table, at?_cons_table, lookup_mergeEntries sorted.nodup]
      cases upper : Dictionary.lookup key above with
      | none => simp
      | some w =>
        cases lower : Dictionary.lookup key below with
        | none => simp
        | some u =>
          have formed : w.WellFormed := inside _ (Dictionary.mem_of_lookup upper)
          exact ih (ha u lower) (hb w upper) formed

/-- What is not a table in the lower value is what the upper value has there, if it has
anything. -/
theorem at?_merge_of_not_isTable (ha : a.Leads path) (hb : b.Leads path) (formed : b.WellFormed)
    (leaf : ∀ v ∈ a.at? path, ¬ v.IsTable) :
    (a.merge b).at? path = (b.at? path).or (a.at? path) := by
  rw [at?_merge ha hb formed]
  cases upper : b.at? path with
  | none => simp
  | some w =>
    cases lower : a.at? path with
    | none => simp
    | some u =>
      rw [layOver, merge_of_not_isTable_below (leaf u lower)]
      rfl

end LanguageHub.Toml
