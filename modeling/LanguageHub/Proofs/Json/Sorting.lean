import LanguageHub.Proofs.Dictionary
import LanguageHub.Proofs.Json.RoundTrip

/-!
# Values with sorted members

A value whose members were sorted has the members that it had before, each sorted itself. If it has
nothing but texts, truth values, integers of a 64-bit word and few enough levels of containers, it
is read back from its text (`Writable.parse_render`).
-/

namespace LanguageHub.Json

variable {members : List (String × Json)}

theorem sortedItems_eq_map (items : List Json) : sortedItems items = items.map sorted := by
  induction items with
  | nil => rfl
  | cons item items ih => rw [sortedItems, ih, List.map_cons]

/-- A member that is looked up among sorted ones is the member that was there, sorted. -/
@[simp]
theorem lookup_sortedMembers (name : String) (members : List (String × Json)) :
    Dictionary.lookup name (sortedMembers members) =
      (Dictionary.lookup name members).map sorted := by
  induction members with
  | nil => rfl
  | cons member rest ih =>
    rw [sortedMembers, Dictionary.lookup_insertEntry, Dictionary.lookup, ih]
    split <;> rfl

/-- Sorted members are in order. -/
theorem sorted_sortedMembers (members : List (String × Json)) :
    (⟨sortedMembers members⟩ : Dictionary Json).Sorted := by
  induction members with
  | nil => exact Dictionary.sorted_empty
  | cons member rest ih => exact ih.insert member.1 member.2.sorted

/-- Every sorted member comes from one that was there. -/
theorem exists_of_mem_sortedMembers {member : String × Json}
    (h : member ∈ sortedMembers members) : ∃ m ∈ members, member = (m.1, m.2.sorted) := by
  induction members with
  | nil => cases h
  | cons first rest ih =>
    obtain rfl | h := Dictionary.mem_insertEntry h
    · exact ⟨first, List.mem_cons_self, rfl⟩
    · obtain ⟨m, hm, rfl⟩ := ih h
      exact ⟨m, List.mem_cons_of_mem _ hm, rfl⟩

/-- Members that are in order stay as they are when an object is made of them. -/
theorem ofMembers_of_sorted (order : (⟨members⟩ : Dictionary Json).Sorted) :
    ofMembers members = .object members := by
  have key : ∀ before : List (String × Json),
      (before ++ members).Pairwise (fun a b ↦ a.1 < b.1) →
      members.foldl (fun sorted m ↦ Dictionary.insertEntry m.1 m.2 sorted) before =
        before ++ members := by
    clear order
    induction members with
    | nil => simp
    | cons member rest ih =>
      obtain ⟨name, value⟩ := member
      intro before order
      have greatest : ∀ e ∈ before, e.1 < name := fun e he ↦
        (List.pairwise_append.mp order).2.2 e he (name, value) List.mem_cons_self
      rw [List.foldl_cons]
      dsimp only
      rw [Dictionary.insertEntry_of_forall_lt greatest, ih _ (by simpa using order),
        List.append_assoc, List.singleton_append]
  exact congrArg Json.object (key [] order)

/-- The value has at most so many levels of containers, and its numbers are integers of a 64-bit
word. -/
inductive Writable : Nat → Json → Prop where
  | null {levels : Nat} : Writable levels .null
  | bool {levels : Nat} (b : Bool) : Writable levels (.bool b)
  | text {levels : Nat} (s : String) : Writable levels (.text s)
  | integer {levels : Nat} {n : Int} (word : IsWord n) : Writable levels (.ofInt n)
  | array {levels : Nat} {items : List Json} (all : ∀ item ∈ items, Writable levels item) :
      Writable (levels + 1) (.array items)
  | object {levels : Nat} {members : List (String × Json)}
      (all : ∀ m ∈ members, Writable levels m.2) : Writable (levels + 1) (.object members)

private theorem plainItems_of_forall {levels : Nat} {items : List Json}
    (all : ∀ item ∈ items, item.Plain levels) : PlainItems levels items := by
  induction items with
  | nil => trivial
  | cons item items ih =>
    rw [List.forall_mem_cons] at all
    exact ⟨all.1, ih all.2⟩

private theorem plainMembers_of_forall {levels : Nat} (all : ∀ m ∈ members, m.2.Plain levels) :
    PlainMembers levels members := by
  induction members with
  | nil => trivial
  | cons m members ih =>
    rw [List.forall_mem_cons] at all
    exact ⟨all.1, ih all.2⟩

namespace Writable

attribute [simp] null bool text

@[simp]
theorem array_iff {levels : Nat} {items : List Json} :
    Writable (levels + 1) (.array items) ↔ ∀ item ∈ items, item.Writable levels :=
  ⟨fun h ↦ by cases h; assumption, .array⟩

@[simp]
theorem object_iff {levels : Nat} :
    Writable (levels + 1) (.object members) ↔ ∀ m ∈ members, m.2.Writable levels :=
  ⟨fun h ↦ by cases h; assumption, .object⟩

@[simp]
theorem unsigned8 {levels : Nat} (n : UInt8) : Writable levels (.ofInt n.toNat) := by
  have below : n.toNat < 256 := n.toNat_lt
  exact .integer ⟨by omega, by omega⟩

@[simp]
theorem unsigned32 {levels : Nat} (n : UInt32) : Writable levels (.ofInt n.toNat) := by
  have below : n.toNat < 4294967296 := n.toNat_lt
  exact .integer ⟨by omega, by omega⟩

@[simp]
theorem signed64 {levels : Nat} (n : Int64) : Writable levels (.ofInt n.toInt) := by
  have least := n.le_toInt
  have greatest := n.toInt_lt
  exact .integer ⟨by omega, by omega⟩

/-- A value that can be written is plain when its members are sorted. -/
theorem plain_sorted {levels : Nat} {v : Json} (writable : v.Writable levels) :
    v.sorted.Plain levels := by
  induction writable with
  | null | bool | text => trivial
  | integer word => exact word
  | array _ ih =>
    refine plainItems_of_forall ?_
    rw [sortedItems_eq_map, List.forall_mem_map]
    exact ih
  | @object levels members _ ih =>
    refine ⟨ofMembers_of_sorted (sorted_sortedMembers members), plainMembers_of_forall ?_⟩
    intro m hm
    obtain ⟨member, hmember, rfl⟩ := exists_of_mem_sortedMembers hm
    exact ih member hmember

/-- A value that can be written is read back from its text, with its members sorted. -/
theorem parse_render {v : Json} (writable : v.Writable (maxDepth - 1)) :
    parse v.sorted.render = .ok v.sorted :=
  Json.parse_render writable.plain_sorted

end Writable

end LanguageHub.Json
