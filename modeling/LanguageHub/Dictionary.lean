/-!
# Dictionaries

Values under text keys, listed in the increasing order of the keys. `get?_insert` and
`get?_erase` say what each operation does to every look-up; they hold for any list of entries,
the order of the keys is a matter of `Sorted` alone.
-/

namespace LanguageHub

universe u

/-- Values under text keys, in the order of the keys. -/
structure Dictionary (α : Type u) where
  entries : List (String × α)
  deriving Repr, DecidableEq

namespace Dictionary

variable {α : Type u}

/-- Put an entry into a list in the order of the keys, in place of an entry with the same key. -/
def insertEntry (key : String) (value : α) : List (String × α) → List (String × α)
  | [] => [(key, value)]
  | (k, v) :: rest =>
    if key < k then (key, value) :: (k, v) :: rest
    else if key = k then (key, value) :: rest
    else (k, v) :: insertEntry key value rest

/-- The value of the first entry with the given key. -/
def lookup (key : String) : List (String × α) → Option α
  | [] => none
  | (k, v) :: rest => if key = k then some v else lookup key rest

/-- No entries. -/
def empty : Dictionary α := ⟨[]⟩

instance : Inhabited (Dictionary α) := ⟨empty⟩

/-- The value under a key. -/
def get? (d : Dictionary α) (key : String) : Option α := lookup key d.entries

/-- Whether there is a value under a key. -/
def contains (d : Dictionary α) (key : String) : Bool := (d.get? key).isSome

/-- Put a value under a key, in place of the one that was there. -/
def insert (d : Dictionary α) (key : String) (value : α) : Dictionary α :=
  ⟨insertEntry key value d.entries⟩

/-- Remove what is under a key. -/
def erase (d : Dictionary α) (key : String) : Dictionary α :=
  ⟨d.entries.filter fun e ↦ e.1 ≠ key⟩

/-- The keys in order. -/
def keys (d : Dictionary α) : List String := d.entries.map (·.1)

/-- The number of entries. -/
def size (d : Dictionary α) : Nat := d.entries.length

/-- The dictionary of a list of entries, of which the last under a key stands. -/
def ofList (entries : List (String × α)) : Dictionary α :=
  entries.foldl (fun d (k, v) ↦ d.insert k v) empty

/-- The entries stand in the strictly increasing order of their keys. -/
def Sorted (d : Dictionary α) : Prop := d.entries.Pairwise fun a b ↦ a.1 < b.1

/-- A look-up among entries after one was put in. -/
theorem lookup_insertEntry (key k : String) (value : α) (l : List (String × α)) :
    lookup k (insertEntry key value l) = if k = key then some value else lookup k l := by
  induction l with
  | nil => simp [insertEntry, lookup]
  | cons e rest ih =>
    obtain ⟨a, v⟩ := e
    simp only [insertEntry]
    split
    · simp [lookup]
    · split
      · rename_i h
        subst h
        by_cases hk : k = key <;> simp [lookup, hk]
      · simp only [lookup, ih]
        by_cases hk : k = key
        · subst hk
          simp_all
        · simp [hk]

/-- A look-up after an insertion. -/
@[simp]
theorem get?_insert (d : Dictionary α) (key k : String) (value : α) :
    (d.insert key value).get? k = if k = key then some value else d.get? k :=
  lookup_insertEntry key k value d.entries

/-- A look-up after a removal. -/
@[simp]
theorem get?_erase (d : Dictionary α) (key k : String) :
    (d.erase key).get? k = if k = key then none else d.get? k := by
  simp only [get?, erase]
  induction d.entries with
  | nil => simp [lookup]
  | cons e rest ih =>
    obtain ⟨a, v⟩ := e
    by_cases ha : a = key
    · by_cases hk : k = key
      · subst hk; simpa [lookup, ha] using ih
      · have : k ≠ a := fun h ↦ hk (h.trans ha)
        simpa [lookup, ha, hk, this] using ih
    · by_cases hk : k = a
      · subst hk; simp [lookup, ha]
      · simpa [lookup, ha, hk] using ih

/-- Nothing is found in the empty dictionary. -/
@[simp]
theorem get?_empty (k : String) : (empty : Dictionary α).get? k = none := rfl

/-- The empty dictionary is sorted. -/
theorem sorted_empty : (empty : Dictionary α).Sorted := .nil

/-- What is among entries after one was put in. -/
theorem mem_insertEntry {key : String} {value : α} {l : List (String × α)}
    {e : String × α} (h : e ∈ insertEntry key value l) : e = (key, value) ∨ e ∈ l := by
  induction l with
  | nil => simpa [insertEntry] using h
  | cons a rest ih =>
    simp only [insertEntry] at h
    split at h
    · simpa using h
    · split at h
      · rcases List.mem_cons.1 h with h | h
        · exact .inl h
        · exact .inr (List.mem_cons_of_mem _ h)
      · rcases List.mem_cons.1 h with h | h
        · exact .inr (h ▸ List.mem_cons_self)
        · rcases ih h with h | h
          · exact .inl h
          · exact .inr (List.mem_cons_of_mem _ h)

/-- Insertion keeps a dictionary sorted. -/
theorem Sorted.insert {d : Dictionary α} (h : d.Sorted) (key : String) (value : α) :
    (d.insert key value).Sorted := by
  obtain ⟨l⟩ := d
  simp only [Sorted, Dictionary.insert] at h ⊢
  induction l with
  | nil => simp [insertEntry]
  | cons a rest ih =>
    obtain ⟨ha, hrest⟩ := List.pairwise_cons.1 h
    simp only [insertEntry]
    split
    · rename_i hlt
      refine List.pairwise_cons.2 ⟨fun b hb ↦ ?_, h⟩
      rcases List.mem_cons.1 hb with rfl | hb
      · exact hlt
      · exact String.lt_trans hlt (ha b hb)
    · split
      · rename_i _ heq
        exact List.pairwise_cons.2 ⟨fun b hb ↦ heq ▸ ha b hb, hrest⟩
      · rename_i hnlt hne
        refine List.pairwise_cons.2 ⟨fun b hb ↦ ?_, ih hrest⟩
        rcases mem_insertEntry hb with rfl | hb
        · exact Std.lt_of_le_of_ne (String.not_lt.1 hnlt) (Ne.symm hne)
        · exact ha b hb

/-- Removal keeps a dictionary sorted. -/
theorem Sorted.erase {d : Dictionary α} (h : d.Sorted) (key : String) : (d.erase key).Sorted :=
  h.filter _

end Dictionary

end LanguageHub
