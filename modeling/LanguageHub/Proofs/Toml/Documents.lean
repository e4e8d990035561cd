import LanguageHub.Proofs.Dictionary
import LanguageHub.Toml.Parser

/-!
# What documents hold

In a document that was read, the entries of every table stand in the order of their keys, each key
but once, and every integer is a signed word of 64 bits.
-/

namespace LanguageHub.Toml

variable {key : String} {path current : List String} {v : Toml} {entries result : Entries}
  {cs rest : List Char}

/-- What values a document may hold. -/
inductive WellFormed : Toml → Prop where
  | text (s : String) : WellFormed (.text s)
  | integer {n : Int} (low : -0x8000000000000000 ≤ n) (high : n < 0x8000000000000000) :
      WellFormed (.integer n)
  | float (x : Float) : WellFormed (.float x)
  | boolean (b : Bool) : WellFormed (.boolean b)
  | dateTime (d : DateTime) : WellFormed (.dateTime d)
  | array {items : List Toml} (inside : ∀ v ∈ items, WellFormed v) : WellFormed (.array items)
  | table {entries : List (String × Toml)} (sorted : Dictionary.Sorted ⟨entries⟩)
      (inside : ∀ e ∈ entries, WellFormed e.2) : WellFormed (.table entries)

/-- What parts a document may be built of. -/
inductive Item.WellFormed : Item → Prop where
  | value {v : Toml} (h : v.WellFormed) : Item.WellFormed (.value v)
  | table (origin : Origin) {entries : Entries} (sorted : Dictionary.Sorted ⟨entries⟩)
      (inside : ∀ e ∈ entries, Item.WellFormed e.2) : Item.WellFormed (.table origin entries)
  | tables {elements : List Entries} (sorted : ∀ es ∈ elements, Dictionary.Sorted ⟨es⟩)
      (inside : ∀ es ∈ elements, ∀ e ∈ es, Item.WellFormed e.2) :
      Item.WellFormed (.tables elements)

/-- What entries a table may have while it is built. -/
structure Entries.WellFormed (entries : Entries) : Prop where
  sorted : Dictionary.Sorted ⟨entries⟩
  inside : ∀ e ∈ entries, Item.WellFormed e.2

/-! ### Building tables -/

theorem Entries.wellFormed_nil : Entries.WellFormed [] := ⟨.nil, nofun⟩

private theorem Item.wellFormed_tables {elements : List Entries}
    (h : ∀ es ∈ elements, Entries.WellFormed es) : Item.WellFormed (.tables elements) :=
  .tables (fun es hes ↦ (h es hes).sorted) fun es hes ↦ (h es hes).inside

private theorem Item.WellFormed.elements {elements : List Entries}
    (h : Item.WellFormed (.tables elements)) : ∀ es ∈ elements, Entries.WellFormed es := by
  cases h with
  | tables sorted inside => exact fun es hes ↦ ⟨sorted es hes, inside es hes⟩

/-- Entries stay well-formed when one is put in. -/
theorem Entries.WellFormed.insert (h : entries.WellFormed) (key : String) {item : Item}
    (hitem : item.WellFormed) : Entries.WellFormed (Dictionary.insertEntry key item entries) := by
  refine ⟨Dictionary.Sorted.insert h.sorted key item, fun e he ↦ ?_⟩
  obtain rfl | he := Dictionary.mem_insertEntry he
  · exact hitem
  · exact h.inside e he

/-- Entries stay well-formed when a table is changed that a path leads to. -/
theorem wellFormed_of_changeAt {byKey isDotted : Bool}
    {change : (isDotted : Bool) → Entries → Option Entries}
    (keeps : ∀ isDotted es es', Entries.WellFormed es → change isDotted es = some es' →
      Entries.WellFormed es')
    (h : entries.WellFormed) (changed : changeAt byKey change path isDotted entries = some result) :
    result.WellFormed := by
  induction path generalizing isDotted entries result with
  | nil => exact keeps isDotted entries result h changed
  | cons key path ih =>
    rw [changeAt] at changed
    cases found : Dictionary.lookup key entries with
    | none =>
      simp only [found, Option.bind_eq_bind, Option.bind_eq_some_iff, Option.pure_def,
        Option.some.injEq] at changed
      obtain ⟨inner, hinner, rfl⟩ := changed
      have inside := ih Entries.wellFormed_nil hinner
      exact h.insert key (.table _ inside.sorted inside.inside)
    | some item =>
      have hitem : item.WellFormed := h.inside (key, item) (Dictionary.mem_of_lookup found)
      cases item with
      | value v => simp [found] at changed
      | tables elements =>
        simp only [found, Option.bind_eq_bind, Option.bind_eq_some_iff, Option.pure_def,
          Option.some.injEq] at changed
        obtain ⟨last, hlast, inner, hinner, rfl⟩ := changed
        have each := hitem.elements
        have changedLast := ih (each last (List.mem_of_getLast? hlast)) hinner
        refine h.insert key (Item.wellFormed_tables fun es hes ↦ ?_)
        obtain hes | hes := List.mem_append.mp hes
        · exact each es (List.dropLast_subset elements hes)
        · exact List.mem_singleton.mp hes ▸ changedLast
      | table origin es =>
        cases hitem with
        | table _ sorted inside =>
          simp only [found, Option.bind_eq_bind, Option.pure_def] at changed
          split at changed
          · cases changed
          · simp only [Option.bind_eq_some_iff, Option.some.injEq] at changed
            obtain ⟨inner, hinner, rfl⟩ := changed
            have after := ih ⟨sorted, inside⟩ hinner
            exact h.insert key (.table _ after.sorted after.inside)

/-- Entries stay well-formed when a value is entered. -/
theorem wellFormed_of_assign (hv : v.WellFormed) (h : entries.WellFormed)
    (assigned : assign path v entries = some result) : result.WellFormed := by
  unfold assign at assigned
  split at assigned
  · cases assigned
  · refine wellFormed_of_changeAt (fun isDotted es es' hes entered ↦ ?_) h assigned
    unfold enter at entered
    split at entered
    · cases entered
    · split at entered
      · cases entered
      · cases entered
        exact hes.insert _ (.value hv)

private theorem wellFormed_of_openTable (h : entries.WellFormed)
    (opened : openTable key entries = some result) : result.WellFormed := by
  unfold openTable at opened
  split at opened
  · cases opened
    exact h.insert key (.table _ .nil nofun)
  · next inner found =>
    cases opened
    cases h.inside _ (Dictionary.mem_of_lookup found) with
    | table _ sorted inside => exact h.insert key (.table _ sorted inside)
  · cases opened

private theorem wellFormed_of_openElement (h : entries.WellFormed)
    (opened : openElement key entries = some result) : result.WellFormed := by
  unfold openElement at opened
  split at opened
  · cases opened
    have fresh := List.forall_mem_singleton.mpr Entries.wellFormed_nil
    exact h.insert key (Item.wellFormed_tables fresh)
  · next elements found =>
    cases opened
    have each := (h.inside _ (Dictionary.mem_of_lookup found)).elements
    refine h.insert key (Item.wellFormed_tables fun es hes ↦ ?_)
    obtain hes | hes := List.mem_append.mp hes
    · exact each es hes
    · exact List.mem_singleton.mp hes ▸ Entries.wellFormed_nil
  · cases opened

private theorem wellFormed_of_atHeader {change : String → Entries → Option Entries}
    (keeps : ∀ key es es', Entries.WellFormed es → change key es = some es' →
      Entries.WellFormed es')
    (h : entries.WellFormed) (changed : atHeader change path entries = some result) :
    result.WellFormed := by
  unfold atHeader at changed
  split at changed
  · cases changed
  · exact wellFormed_of_changeAt (fun _ ↦ keeps _) h changed

/-- What statements may be carried out: they assign well-formed values. -/
def Statement.WellFormed : Statement → Prop
  | .assign _ v => v.WellFormed
  | .openTable _ => True
  | .openElement _ => True

/-- Entries stay well-formed when statements are carried out. -/
theorem wellFormed_of_execute {statements : List Statement}
    (hs : ∀ s ∈ statements, s.WellFormed) (h : entries.WellFormed)
    (executed : execute current entries statements = some result) : result.WellFormed := by
  induction statements generalizing current entries with
  | nil =>
    cases executed
    exact h
  | cons s rest ih =>
    rw [List.forall_mem_cons] at hs
    cases s with
    | assign path v =>
      rw [execute, Option.bind_eq_bind, Option.bind_eq_some_iff] at executed
      obtain ⟨after, assigned, executed⟩ := executed
      have keeps := wellFormed_of_changeAt (fun _ _ _ ↦ wellFormed_of_assign hs.1) h assigned
      exact ih hs.2 keeps executed
    | openTable path =>
      rw [execute, Option.bind_eq_bind, Option.bind_eq_some_iff] at executed
      obtain ⟨after, opened, executed⟩ := executed
      exact ih hs.2 (wellFormed_of_atHeader (fun _ _ _ ↦ wellFormed_of_openTable) h opened) executed
    | openElement path =>
      rw [execute, Option.bind_eq_bind, Option.bind_eq_some_iff] at executed
      obtain ⟨after, opened, executed⟩ := executed
      exact ih hs.2 (wellFormed_of_atHeader (fun _ _ _ ↦ wellFormed_of_openElement) h opened)
        executed

/-! ### Values of parts -/

private theorem keys_entriesToToml (entries : Entries) :
    (entriesToToml entries).map (·.1) = entries.map (·.1) := by
  induction entries with
  | nil => rfl
  | cons e rest ih => rw [entriesToToml, List.map_cons, List.map_cons, ih]

private theorem mem_entriesToToml {e : String × Toml} (h : e ∈ entriesToToml entries) :
    ∃ item, (e.1, item) ∈ entries ∧ item.toToml = e.2 := by
  induction entries with
  | nil => cases h
  | cons first rest ih =>
    rw [entriesToToml] at h
    obtain rfl | h := List.mem_cons.mp h
    · exact ⟨first.2, List.mem_cons_self, rfl⟩
    · obtain ⟨item, mem, same⟩ := ih h
      exact ⟨item, List.mem_cons_of_mem _ mem, same⟩

private theorem wellFormed_table_of_entries
    (h : ∀ e ∈ entries, e.2.toToml.WellFormed) (sorted : Dictionary.Sorted ⟨entries⟩) :
    WellFormed (.table (entriesToToml entries)) := by
  refine .table ?_ fun e he ↦ ?_
  · rw [Dictionary.sorted_iff, Dictionary.keys, keys_entriesToToml]
    exact Dictionary.sorted_iff.mp sorted
  · obtain ⟨item, mem, same⟩ := mem_entriesToToml he
    exact same ▸ h _ mem

private theorem mem_elementsToToml {elements : List Entries} (h : v ∈ elementsToToml elements) :
    ∃ es ∈ elements, v = .table (entriesToToml es) := by
  induction elements with
  | nil => cases h
  | cons first rest ih =>
    rw [elementsToToml] at h
    obtain rfl | h := List.mem_cons.mp h
    · exact ⟨first, List.mem_cons_self, rfl⟩
    · obtain ⟨es, mem, same⟩ := ih h
      exact ⟨es, List.mem_cons_of_mem _ mem, same⟩

/-- The value of a well-formed part. -/
theorem Item.WellFormed.toToml {item : Item} (h : item.WellFormed) : item.toToml.WellFormed := by
  induction h with
  | value h => exact h
  | table origin sorted inside ih => exact wellFormed_table_of_entries ih sorted
  | tables sorted inside ih =>
    refine .array fun v hv ↦ ?_
    obtain ⟨es, hes, rfl⟩ := mem_elementsToToml hv
    exact wellFormed_table_of_entries (ih es hes) (sorted es hes)

/-- The table of well-formed entries. -/
theorem Entries.WellFormed.toToml (h : entries.WellFormed) :
    Toml.WellFormed (.table (entriesToToml entries)) :=
  wellFormed_table_of_entries (fun e he ↦ (h.inside e he).toToml) h.sorted

/-! ### Reading values -/

private theorem wellFormed_of_assigns {pairs : List (List String × Toml)}
    (hp : ∀ p ∈ pairs, p.2.WellFormed) (h : entries.WellFormed)
    (assigned : pairs.foldlM (fun es (path, value) ↦ assign path value es) entries = some result) :
    result.WellFormed := by
  induction pairs generalizing entries with
  | nil =>
    cases assigned
    exact h
  | cons p rest ih =>
    rw [List.forall_mem_cons] at hp
    rw [List.foldlM_cons, Option.bind_eq_bind, Option.bind_eq_some_iff] at assigned
    obtain ⟨mid, first, assigned⟩ := assigned
    exact ih hp.2 (wellFormed_of_assign hp.1 h first) assigned

private theorem wellFormed_of_tableOfPairs {pairs : List (List String × Toml)}
    (hp : ∀ p ∈ pairs, p.2.WellFormed) (h : tableOfPairs pairs = some v) : v.WellFormed := by
  simp only [tableOfPairs, Option.bind_eq_bind, Option.bind_eq_some_iff, Option.pure_def,
    Option.some.injEq] at h
  obtain ⟨es, assigned, rfl⟩ := h
  exact (wellFormed_of_assigns hp Entries.wellFormed_nil assigned).toToml

private theorem wellFormed_of_readInteger {n : Int} (h : readInteger cs = some (n, rest)) :
    WellFormed (.integer n) := by
  have word {m k : Int} (h : signedWord? m = some k) : WellFormed (.integer k) := by
    unfold signedWord? at h
    split at h
    · next bounds =>
      cases h
      exact .integer bounds.1 bounds.2
    · cases h
  unfold readInteger at h
  split at h
  all_goals
    simp only [Option.bind_eq_bind, Option.bind_eq_some_iff, Option.pure_def, Option.some.injEq,
      Prod.mk.injEq] at h
    obtain ⟨_, _, m, hm, rfl, rfl⟩ := h
    exact word hm

private theorem wellFormed_of_readScalar (h : readScalar cs = some (v, rest)) : v.WellFormed := by
  unfold readScalar at h
  split at h
  · simp only [Option.map_eq_some_iff, Prod.mk.injEq] at h
    obtain ⟨s, _, rfl, _⟩ := h
    exact .text s.1
  · simp only [Option.map_eq_some_iff, Prod.mk.injEq] at h
    obtain ⟨s, _, rfl, _⟩ := h
    exact .text s.1
  · cases h
    exact .boolean true
  · cases h
    exact .boolean false
  · split at h
    · next d _ _ =>
      cases h
      exact .dateTime d
    · split at h
      · next x _ _ =>
        cases h
        exact .float x
      · simp only [Option.map_eq_some_iff, Prod.mk.injEq] at h
        obtain ⟨⟨n, behind⟩, hn, rfl, _⟩ := h
        exact wellFormed_of_readInteger hn

/-- A reader of values that gives well-formed values only. -/
def Sound (read : Reader Toml) : Prop := ∀ cs v rest, read cs = some (v, rest) → v.WellFormed

private theorem wellFormed_of_readPair {read : Reader Toml} (sound : Sound read)
    {pair : List String × Toml} (h : readPair read cs = some (pair, rest)) :
    pair.2.WellFormed := by
  simp only [readPair, Option.bind_eq_bind, Option.bind_eq_some_iff, Option.pure_def,
    Option.some.injEq, Prod.mk.injEq] at h
  obtain ⟨_, _, _, _, ⟨v, behind⟩, hv, rfl, _⟩ := h
  exact sound _ _ _ hv

private theorem wellFormed_of_readPairs {read : Reader Toml} (sound : Sound read) {steps : Nat}
    {pairs : List (List String × Toml)} (h : readPairs read steps cs = some (pairs, rest)) :
    ∀ p ∈ pairs, p.2.WellFormed := by
  induction steps generalizing cs pairs with
  | zero => cases h
  | succ steps ih =>
    simp only [readPairs, Option.bind_eq_bind, Option.bind_eq_some_iff] at h
    obtain ⟨⟨pair, behind⟩, hpair, h⟩ := h
    have first := wellFormed_of_readPair sound hpair
    dsimp only at h
    split at h
    · simp only [Option.bind_eq_some_iff, Option.pure_def, Option.some.injEq, Prod.mk.injEq] at h
      obtain ⟨⟨more, last⟩, hmore, rfl, rfl⟩ := h
      exact List.forall_mem_cons.mpr ⟨first, ih hmore⟩
    · cases h
      exact List.forall_mem_singleton.mpr first
    · cases h

private theorem wellFormed_of_readItems {read : Reader Toml} (sound : Sound read) {steps : Nat}
    {items : List Toml} (h : readItems read steps cs = some (items, rest)) :
    ∀ v ∈ items, v.WellFormed := by
  induction steps generalizing cs items with
  | zero => cases h
  | succ steps ih =>
    unfold readItems at h
    split at h
    · cases h
      exact nofun
    · simp only [Option.bind_eq_bind, Option.bind_eq_some_iff] at h
      obtain ⟨⟨v, behind⟩, hv, h⟩ := h
      have first := sound _ _ _ hv
      dsimp only at h
      split at h
      · simp only [Option.bind_eq_some_iff, Option.pure_def, Option.some.injEq, Prod.mk.injEq] at h
        obtain ⟨⟨more, last⟩, hmore, rfl, rfl⟩ := h
        exact List.forall_mem_cons.mpr ⟨first, ih hmore⟩
      · cases h
        exact List.forall_mem_singleton.mpr first
      · cases h

/-- Values of every depth are read well-formed. -/
theorem sound_readValue (depth : Nat) : Sound (readValue depth) := by
  induction depth with
  | zero =>
    intro cs v rest h
    unfold readValue at h
    split at h
    · cases h
    · cases h
    · exact wellFormed_of_readScalar h
  | succ depth ih =>
    intro cs v rest h
    unfold readValue at h
    split at h
    · simp only [Option.bind_eq_bind, Option.bind_eq_some_iff, Option.pure_def, Option.some.injEq,
        Prod.mk.injEq] at h
      obtain ⟨⟨items, _⟩, hitems, rfl, _⟩ := h
      exact .array (wellFormed_of_readItems ih hitems)
    · split at h
      · cases h
        exact .table .nil nofun
      · simp only [Option.bind_eq_bind, Option.bind_eq_some_iff, Option.pure_def, Option.some.injEq,
          Prod.mk.injEq] at h
        obtain ⟨⟨pairs, _⟩, hpairs, table, htable, rfl, _⟩ := h
        exact wellFormed_of_tableOfPairs (wellFormed_of_readPairs ih hpairs) htable
    · exact wellFormed_of_readScalar h

/-! ### Reading documents -/

private theorem wellFormed_of_readStatement {s : Statement}
    (h : readStatement cs = some (s, rest)) : s.WellFormed := by
  unfold readStatement at h
  split at h
  all_goals
    simp only [Option.bind_eq_bind, Option.bind_eq_some_iff, Option.pure_def, Option.some.injEq,
      Prod.mk.injEq] at h
  · obtain ⟨_, _, _, _, _, _, _, _, rfl, _⟩ := h
    trivial
  · obtain ⟨_, _, _, _, _, _, rfl, _⟩ := h
    trivial
  · obtain ⟨_, hpair, _, _, rfl, _⟩ := h
    exact wellFormed_of_readPair (sound_readValue _) hpair

private theorem wellFormed_of_readStatements {steps : Nat} {statements : List Statement}
    (h : readStatements steps cs = some statements) : ∀ s ∈ statements, s.WellFormed := by
  induction steps generalizing cs statements with
  | zero => cases h
  | succ steps ih =>
    unfold readStatements at h
    split at h
    · cases h
      exact nofun
    · split at h
      · cases h
        exact nofun
      · cases h
    · simp only [Option.bind_eq_bind, Option.bind_eq_some_iff, Option.pure_def,
        Option.some.injEq] at h
      obtain ⟨⟨s, behind⟩, hs, more, hmore, rfl⟩ := h
      exact List.forall_mem_cons.mpr ⟨wellFormed_of_readStatement hs, ih hmore⟩

/-- A document that is read is a well-formed table. -/
theorem wellFormed_of_parse {document : String} (h : parse document = some v) :
    v.WellFormed ∧ ∃ entries, v = .table entries := by
  simp only [parse, Option.bind_eq_bind, Option.bind_eq_some_iff, Option.pure_def,
    Option.some.injEq] at h
  obtain ⟨statements, hstatements, es, executed, rfl⟩ := h
  have built := wellFormed_of_execute (wellFormed_of_readStatements hstatements)
    Entries.wellFormed_nil executed
  exact ⟨built.toToml, _, rfl⟩

end LanguageHub.Toml
