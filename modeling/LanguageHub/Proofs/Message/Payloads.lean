import LanguageHub.Proofs.Completion
import LanguageHub.Proofs.Diagnostic

/-!
# Payloads survive the wire

A diagnostic, a completion item and everything of which they consist is read back from what is
written for it. A value that is read from an object is read from the same object in other words as
well: in whatever order its members stand, whatever other members there are, and whether an optional
member that the value lacks is missing or null.
-/

namespace LanguageHub

open Json (Lawful Reworded Writable)

variable {α σ : Type}

/-- Values survive the wire: each is read back from what is written for it, as a value and from its
text, and what is read from an object with distinct names is read from it in other words too.
`names` are the names of the members that are understood, and `lacks` are the names of the optional
members that a value lacks. -/
structure Survives (encode : α → Json) (decode : Json.Decoder α) (names : List String)
    (lacks : α → List String) : Prop where
  read : ∀ a, decode (encode a) = .ok a
  received : ∀ a, ∃ v, Json.parse (encode a).sorted.render = .ok v ∧ decode v = .ok a
  reworded : ∀ {a members members'}, (members.map (·.1)).Nodup →
    decode (.object members) = .ok a → Reworded names (lacks a) members members' →
      decode (.object members') = .ok a

namespace Survives

variable {encode : α → Json} {decode : Json.Decoder α} {lacks : α → List String}

/-- What is not read from objects survives if it is read back. -/
theorem of_scalar (lawful : Lawful encode decode)
    (writable : ∀ a, (encode a).Writable (Json.maxDepth - 1))
    (scalar : ∀ members a, decode (.object members) ≠ .ok a) : Survives encode decode [] lacks where
  read := lawful.read Json.rewriting_id
  received a := ⟨_, (writable a).parse_render, lawful.read Json.rewriting_sorted a⟩
  reworded _ read _ := absurd read (scalar _ _)

/-- What is read from objects survives if it is read back, and if the record from which it is made
takes null, or nothing, for what is lacking. -/
theorem of_record (lawful : Lawful encode decode)
    (writable : ∀ a, (encode a).Writable (Json.maxDepth - 1)) {r : Json.Record σ}
    {fields : List (Json.Field σ)} (consists : r.Consists fields) {start : σ}
    {finished : σ → α → Prop}
    (decode_iff : ∀ {members a}, decode (.object members) = .ok a ↔
      ∃ t, r.read start (.object members) = .ok t ∧ finished t a)
    (lacking : ∀ t a, finished t a → ∀ f ∈ fields, f.name ∈ lacks a →
      f.Takes start none t ∧ f.Takes start (some .null) t) :
    Survives encode decode (fields.map (·.name)) lacks where
  read := lawful.read Json.rewriting_id
  received a := ⟨_, (writable a).parse_render, lawful.read Json.rewriting_sorted a⟩
  reworded := consists.decode_of_reworded decode_iff fun t ↦ lacking t _

/-- What is read from objects survives if it is read back, and if the record from which it is made
holds exactly what it has. -/
theorem of_draft (lawful : Lawful encode decode)
    (writable : ∀ a, (encode a).Writable (Json.maxDepth - 1)) {r : Json.Record σ}
    {fields : List (Json.Field σ)} (consists : r.Consists fields) {start : σ} {draft : α → σ}
    (decode_iff : ∀ {v a}, decode v = .ok a ↔ r.read start v = .ok (draft a))
    (lacking : ∀ a, ∀ f ∈ fields, f.name ∈ lacks a →
      f.Takes start none (draft a) ∧ f.Takes start (some .null) (draft a)) :
    Survives encode decode (fields.map (·.name)) lacks := by
  have decode_object {members : List (String × Json)} {a : α} : decode (.object members) = .ok a ↔
      ∃ t, r.read start (.object members) = .ok t ∧ t = draft a := by
    rw [decode_iff]
    simp
  refine of_record lawful writable consists decode_object ?_
  rintro _ a rfl
  exact lacking a

end Survives

/-- Diagnostics, completion items and their parts survive the wire. -/
theorem payloads_survive :
    Survives Diagnostic.toJson Diagnostic.ofJson
      ["range", "severity", "code", "source", "message"] Diagnostic.lacks ∧
    Survives CompletionItem.toJson CompletionItem.ofJson
      ["label", "kind", "detail", "documentation", "insertText", "sortText"] CompletionItem.lacks ∧
    Survives Documentation.toJson Documentation.ofJson ["kind", "value"] (fun _ ↦ []) ∧
    Survives Range.toJson Range.ofJson ["start", "end"] (fun _ ↦ []) ∧
    Survives Position.toJson Position.ofJson ["line", "character"] (fun _ ↦ []) ∧
    Survives Severity.toJson Severity.ofJson [] (fun _ ↦ []) ∧
    Survives CompletionKind.toJson CompletionKind.ofJson [] (fun _ ↦ []) ∧
    Survives DiagnosticCode.toJson DiagnosticCode.ofJson [] (fun _ ↦ []) := by
  refine ⟨?_, ?_, ?_, ?_, ?_, ?_, ?_, ?_⟩
  · exact .of_draft Diagnostic.lawful (·.writable _) Diagnostic.consists Diagnostic.ofJson_iff
      (·.takes_of_lacks)
  · exact .of_draft CompletionItem.lawful (·.writable _) CompletionItem.consists
      CompletionItem.ofJson_iff (·.takes_of_lacks)
  · exact .of_record Documentation.lawful (·.writable _) Documentation.consists
      (Documentation.ofJson_object.trans Documentation.markupOfJson_iff)
      fun _ _ _ _ _ h ↦ by cases h
  · exact .of_draft Range.lawful (·.writable _) Range.consists Range.ofJson_iff
      fun _ _ _ h ↦ by cases h
  · exact .of_draft Position.lawful (·.writable _) Position.consists Position.ofJson_iff
      fun _ _ _ h ↦ by cases h
  · exact .of_scalar Severity.lawful (·.writable _) fun _ _ h ↦ by cases h
  · exact .of_scalar CompletionKind.lawful (·.writable _) fun _ _ h ↦ by cases h
  · exact .of_scalar DiagnosticCode.lawful (·.writable _) fun _ _ h ↦ by cases h

/-- A diagnostic with nothing but its range and its message, in another order, with a member that
is not understood and with a severity that is null. -/
theorem bare_diagnostic_in_other_words :
    Diagnostic.ofJson (.object [("severity", .null), ("tags", .array []),
      ("message", .text "unused"), ("range", (Range.mk ⟨3, 0⟩ ⟨3, 7⟩).toJson)]) =
        .ok ⟨⟨⟨3, 0⟩, ⟨3, 7⟩⟩, none, none, none, "unused"⟩ := by
  let range := ("range", (Range.mk ⟨3, 0⟩ ⟨3, 7⟩).toJson)
  let message := ("message", Json.text "unused")
  let tags := ("tags", Json.array [])
  have written : Diagnostic.ofJson (.object [range, message]) =
      .ok ⟨⟨⟨3, 0⟩, ⟨3, 7⟩⟩, none, none, none, "unused"⟩ := rfl
  refine payloads_survive.1.reworded (by simp [range, message]) written
    (.trans (.reorder (.swap message range [])) ?_)
  refine .trans ?_ (.setNull (by decide) [tags, message, range])
  exact .add (by decide) (by simp [range, message]) _

end LanguageHub
