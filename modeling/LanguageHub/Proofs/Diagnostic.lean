import LanguageHub.Diagnostic
import LanguageHub.Proofs.Json.Records

/-!
# Diagnostics that are written are read back

Positions, ranges, severities, codes and diagnostics are read back from what is written for them
(`Diagnostic.lawful`), and each of the records takes its fields one by one (`Diagnostic.consists`).
-/

namespace LanguageHub

open Json (Lawful Writable)

/-! ### Positions and ranges -/

namespace Position

/-- The fields of a position. -/
def fields : List (Json.Field Draft) := [
  .required "line" Json.unsigned32 Draft.line fun a d ↦ { d with line := a },
  .required "character" Json.unsigned32 Draft.character fun a d ↦ { d with character := a }]

theorem consists : record.Consists fields where
  names := rfl
  distinct := by decide
  takes := by
    simp only [fields, List.forall_mem_cons]
    exact ⟨.required fun _ _ ↦ rfl, .required fun _ _ ↦ rfl, List.forall_mem_nil _⟩
  get_set := by simp [fields, Json.Field.required]
  get_set_of_ne := by simp [fields, Json.Field.required]
  ext := by
    rintro ⟨_, _⟩ ⟨_, _⟩
    simp [fields, Json.Field.required]

/-- A position as it is read. -/
def draft (p : Position) : Draft := ⟨some p.line, some p.character⟩

theorem ofJson_iff {v : Json} {p : Position} :
    ofJson v = .ok p ↔ record.read {} v = .ok p.draft := by
  constructor
  · intro h
    obtain ⟨⟨line, character⟩, read, h⟩ := Json.eq_ok_of_bind h
    obtain ⟨_, hline, h⟩ := Json.eq_ok_of_bind h
    obtain ⟨_, hcharacter, h⟩ := Json.eq_ok_of_bind h
    cases Json.required_eq_ok_iff.mp hline
    cases Json.required_eq_ok_iff.mp hcharacter
    cases h
    exact read
  · intro h
    rw [ofJson, h]
    rfl

/-- A position is read back. -/
theorem lawful : Lawful toJson ofJson where
  read rewriting p := by
    refine ofJson_iff.mpr (consists.read_rewritten rewriting (by simp) ?_)
    simp only [fields, List.forall_mem_cons]
    exact ⟨.required Json.lawful_unsigned32 rewriting rfl,
      .required Json.lawful_unsigned32 rewriting rfl, List.forall_mem_nil _⟩
  null _ h := by cases h

theorem writable (p : Position) (levels : Nat) : p.toJson.Writable (levels + 1) := by
  simp [toJson]

end Position

namespace Range

/-- The fields of a range. -/
def fields : List (Json.Field Draft) := [
  .required "start" Position.ofJson Draft.start fun a d ↦ { d with start := a },
  .required "end" Position.ofJson Draft.stop fun a d ↦ { d with stop := a }]

theorem consists : record.Consists fields where
  names := rfl
  distinct := by decide
  takes := by
    simp only [fields, List.forall_mem_cons]
    exact ⟨.required fun _ _ ↦ rfl, .required fun _ _ ↦ rfl, List.forall_mem_nil _⟩
  get_set := by simp [fields, Json.Field.required]
  get_set_of_ne := by simp [fields, Json.Field.required]
  ext := by
    rintro ⟨_, _⟩ ⟨_, _⟩
    simp [fields, Json.Field.required]

/-- A range as it is read. -/
def draft (r : Range) : Draft := ⟨some r.start, some r.stop⟩

theorem ofJson_iff {v : Json} {r : Range} :
    ofJson v = .ok r ↔ record.read {} v = .ok r.draft := by
  constructor
  · intro h
    obtain ⟨⟨start, stop⟩, read, h⟩ := Json.eq_ok_of_bind h
    obtain ⟨_, hstart, h⟩ := Json.eq_ok_of_bind h
    obtain ⟨_, hstop, h⟩ := Json.eq_ok_of_bind h
    cases Json.required_eq_ok_iff.mp hstart
    cases Json.required_eq_ok_iff.mp hstop
    cases h
    exact read
  · intro h
    rw [ofJson, h]
    rfl

/-- A range is read back. -/
theorem lawful : Lawful toJson ofJson where
  read rewriting r := by
    refine ofJson_iff.mpr (consists.read_rewritten rewriting (by simp) ?_)
    simp only [fields, List.forall_mem_cons]
    exact ⟨.required Position.lawful rewriting rfl, .required Position.lawful rewriting rfl,
      List.forall_mem_nil _⟩
  null _ h := by cases h

theorem writable (r : Range) (levels : Nat) : r.toJson.Writable (levels + 2) := by
  simp [toJson, Position.writable]

end Range

/-! ### Severities and codes -/

/-- A severity is read back. -/
theorem Severity.lawful : Lawful toJson ofJson where
  read rewriting s := by
    rw [ofJson, toJson, Json.lawful_unsigned8.read rewriting]
    cases s <;> rfl
  null _ h := by cases h

theorem Severity.writable (s : Severity) (levels : Nat) : s.toJson.Writable levels :=
  .unsigned8 s.code

/-- A code is read back: a text is no number, so that the first alternative leaves it to the
second. -/
theorem DiagnosticCode.lawful : Lawful toJson ofJson where
  read rewriting c := by
    cases c with
    | number n =>
      simp only [ofJson, toJson, Json.firstOf, List.findSome?_cons,
        Json.lawful_signed64.read rewriting]
      rfl
    | text s =>
      rw [toJson, rewriting.text]
      rfl
  null _ h := by cases h

theorem DiagnosticCode.writable (c : DiagnosticCode) (levels : Nat) : c.toJson.Writable levels := by
  cases c with
  | number n => exact .signed64 n
  | text s => exact .text s

/-! ### Diagnostics -/

namespace Diagnostic

/-- The fields of a diagnostic. -/
def fields : List (Json.Field Draft) := [
  .required "range" Range.ofJson Draft.range fun a d ↦ { d with range := a },
  .optional "severity" Severity.ofJson Draft.severity fun a d ↦ { d with severity := a },
  .optional "code" DiagnosticCode.ofJson Draft.code fun a d ↦ { d with code := a },
  .optional "source" Json.string Draft.source fun a d ↦ { d with source := a },
  .required "message" Json.string Draft.message fun a d ↦ { d with message := a }]

theorem consists : record.Consists fields where
  names := rfl
  distinct := by decide
  takes := by
    simp only [fields, List.forall_mem_cons]
    exact ⟨.required fun _ _ ↦ rfl, .optional fun _ _ ↦ rfl, .optional fun _ _ ↦ rfl,
      .optional fun _ _ ↦ rfl, .required fun _ _ ↦ rfl, List.forall_mem_nil _⟩
  get_set := by simp [fields, Json.Field.required, Json.Field.optional]
  get_set_of_ne := by simp [fields, Json.Field.required, Json.Field.optional]
  ext := by
    rintro ⟨_, _, _, _, _⟩ ⟨_, _, _, _, _⟩
    simp [fields, Json.Field.required, Json.Field.optional]

/-- A diagnostic as it is read. -/
def draft (d : Diagnostic) : Draft := ⟨some d.range, d.severity, d.code, d.source, some d.message⟩

theorem ofJson_iff {v : Json} {d : Diagnostic} :
    ofJson v = .ok d ↔ record.read {} v = .ok d.draft := by
  constructor
  · intro h
    obtain ⟨⟨range, severity, code, source, message⟩, read, h⟩ := Json.eq_ok_of_bind h
    obtain ⟨_, hrange, h⟩ := Json.eq_ok_of_bind h
    obtain ⟨_, hmessage, h⟩ := Json.eq_ok_of_bind h
    cases Json.required_eq_ok_iff.mp hrange
    cases Json.required_eq_ok_iff.mp hmessage
    cases h
    exact read
  · intro h
    rw [ofJson, h]
    rfl

/-- A diagnostic is read back. -/
theorem lawful : Lawful toJson ofJson where
  read rewriting d := by
    refine ofJson_iff.mpr (consists.read_rewritten rewriting ?_ ?_)
    · simp only [List.map_append]
      refine List.Sublist.nodup ?_ consists.distinct
      exact ((((List.Sublist.refl ["range"]).append (Json.names_optional_sublist _ _)).append
        (Json.names_optional_sublist _ _)).append (Json.names_optional_sublist _ _)).append
          (List.Sublist.refl ["message"])
    · simp only [fields, List.forall_mem_cons, Json.Field.name_required, Json.Field.name_optional,
        List.cons_append, List.nil_append, List.append_assoc, Dictionary.lookup, String.reduceEq,
        Json.lookup_optional_append, Option.or_none, ↓reduceIte]
      exact ⟨.required Range.lawful rewriting rfl, .optional Severity.lawful rewriting rfl rfl,
        .optional DiagnosticCode.lawful rewriting rfl rfl,
        .optional Json.lawful_string rewriting rfl rfl,
        .required Json.lawful_string rewriting rfl, List.forall_mem_nil _⟩
  null _ h := by cases h

theorem writable (d : Diagnostic) (levels : Nat) : d.toJson.Writable (levels + 3) := by
  refine .object ?_
  simp only [List.forall_mem_append, List.forall_mem_singleton]
  exact ⟨⟨⟨⟨d.range.writable levels, Json.writable_optional (fun s ↦ s.writable _) _ _⟩,
    Json.writable_optional (fun c ↦ c.writable _) _ _⟩,
    Json.writable_optional .text _ _⟩, .text _⟩

/-- The optional members that a diagnostic lacks. -/
def lacks (d : Diagnostic) : List String :=
  Json.absent "severity" d.severity ++ Json.absent "code" d.code ++ Json.absent "source" d.source

/-- The fields that a diagnostic lacks may be missing or null. -/
theorem takes_of_lacks (d : Diagnostic) : ∀ f ∈ fields, f.name ∈ d.lacks →
    f.Takes {} none d.draft ∧ f.Takes {} (some .null) d.draft := by
  simp only [fields, List.forall_mem_cons, lacks, List.mem_append, Json.mem_absent,
    Json.Field.name_required, Json.Field.name_optional, String.reduceEq, false_and, true_and,
    false_or, or_false, false_implies]
  exact ⟨fun h ↦ ⟨h, .null h⟩, fun h ↦ ⟨h, .null h⟩, fun h ↦ ⟨h, .null h⟩, List.forall_mem_nil _⟩

end Diagnostic

end LanguageHub
