import LanguageHub.Config.Files
import LanguageHub.Proofs.Config.Layering

/-!
# One document, loaded in two ways

A single document can be read directly as a configuration, or it can be laid over the defaults like
a file that was named. Laying it over the defaults changes nothing (`config_merge_defaults_iff`), so
the two ways come to the same (`loadFile_agrees`), as far as the reader takes the document alike
when it reads it directly and when it reads it as a value.
-/

namespace LanguageHub

open Toml

variable {isExact : Bool} {given : Option Toml} {t v : Toml} {c : Config} {document path : String}
  {files : FileTree}

/-! ### Documents without days and times -/

namespace Toml

mutual

/-- Whether a day or time stands anywhere in a value. -/
def hasDate : Toml → Bool
  | .dateTime _ => true
  | .array items => itemsHaveDate items
  | .table entries => entriesHaveDate entries
  | .text _ | .integer _ | .float _ | .boolean _ => false

/-- The same for the items of an array. -/
def itemsHaveDate : List Toml → Bool
  | [] => false
  | v :: rest => v.hasDate || itemsHaveDate rest

/-- The same for the entries of a table. -/
def entriesHaveDate : List (String × Toml) → Bool
  | [] => false
  | (_, v) :: rest => v.hasDate || entriesHaveDate rest

end

mutual

/-- Nothing is replaced in a value without days and times. -/
theorem withoutDates_eq_self : (v : Toml) → v.hasDate = false → v.withoutDates = v
  | .text _, _ | .integer _, _ | .float _, _ | .boolean _, _ => by rw [withoutDates]
  | .dateTime _, dated => by simp [hasDate] at dated
  | .array items, dateless => by
    rw [hasDate] at dateless
    rw [withoutDates, itemsWithoutDates_eq_self items dateless]
  | .table entries, dateless => by
    rw [hasDate] at dateless
    rw [withoutDates, entriesWithoutDates_eq_self entries dateless]

private theorem itemsWithoutDates_eq_self :
    (items : List Toml) → itemsHaveDate items = false → itemsWithoutDates items = items
  | [], _ => by rw [itemsWithoutDates]
  | v :: rest, dateless => by
    rw [itemsHaveDate, Bool.or_eq_false_iff] at dateless
    rw [itemsWithoutDates, withoutDates_eq_self v dateless.1,
      itemsWithoutDates_eq_self rest dateless.2]

private theorem entriesWithoutDates_eq_self :
    (entries : List (String × Toml)) → entriesHaveDate entries = false →
      entriesWithoutDates entries = entries
  | [], _ => by rw [entriesWithoutDates]
  | (_, v) :: rest, dateless => by
    rw [entriesHaveDate, Bool.or_eq_false_iff] at dateless
    rw [entriesWithoutDates, withoutDates_eq_self v dateless.1,
      entriesWithoutDates_eq_self rest dateless.2]

end

end Toml

/-! ### Laying a document over the defaults -/

namespace Schema

variable {α : Type} {read : Schema α} {default a : α} {d : Toml}

/-- A setting over its default, written out, is the setting alone. -/
private theorem gives_layOver_iff (written : read d = .ok default)
    (above : ∀ v ∈ given, read (d.merge v) = .ok a ↔ read v = .ok a) :
    Gives read default (layOver (some d) given) a ↔ Gives read default given a := by
  cases given with
  | none =>
    rw [layOver_none_right, Gives, Gives, written, Except.ok.injEq]
    exact eq_comm
  | some v => exact above v rfl

/-- The same for a setting that is not written as a table. -/
private theorem gives_layOver_leaf_iff (written : read d = .ok default) (leaf : ¬ d.IsTable) :
    Gives read default (layOver (some d) given) a ↔ Gives read default given a :=
  gives_layOver_iff written fun v _ ↦ by rw [merge_of_not_isTable_below leaf]

private theorem log_merge_iff {l : LogSettings} (formed : v.WellFormed) :
    log isExact ((Config.logToToml {}).merge v) = .ok l ↔ log isExact v = .ok l := by
  cases formed with
  | table sorted inside =>
    have above (key : String) :=
      @lookup_mergeEntries [("level", .text "info")] _ sorted.nodup key
    change log isExact ((Toml.table [("level", .text "info")]).merge _) = _ ↔ _
    rw [Toml.merge, log_table_iff, log_table_iff, above, above]
    exact and_congr (by rw [Dictionary.lookup, if_neg (by decide), Dictionary.lookup,
      layOver_none_left]) (gives_layOver_leaf_iff rfl (by rintro ⟨_, ⟨⟩⟩))
  | _ => rw [Toml.merge]

/-- A value over a table without entries is the value alone. -/
private theorem merge_empty (formed : v.WellFormed) : (Toml.table []).merge v = v := by
  cases formed with
  | table sorted inside => rw [Toml.merge, mergeEntries_nil sorted]
  | _ => rw [Toml.merge]

private theorem lsp_merge_iff {l : ServerSettings} (formed : v.WellFormed) :
    lsp isExact ((Config.lspToToml {}).merge v) = .ok l ↔ lsp isExact v = .ok l := by
  cases formed with
  | table sorted inside =>
    have above (key : String) := @lookup_mergeEntries
      [("enabled", .boolean true), ("request_timeout_secs", .integer 0), ("servers", .table [])]
      _ sorted.nodup key
    change lsp isExact ((Toml.table [("enabled", .boolean true),
      ("request_timeout_secs", .integer 0), ("servers", .table [])]).merge _) = _ ↔ _
    rw [Toml.merge, lsp_table_iff, lsp_table_iff, above, above, above]
    refine and_congr (gives_layOver_leaf_iff rfl (by rintro ⟨_, ⟨⟩⟩))
      (and_congr (gives_layOver_leaf_iff rfl (by rintro ⟨_, ⟨⟩⟩)) (gives_layOver_iff rfl fun w hw ↦ ?_))
    rw [merge_empty (inside _ (Dictionary.mem_of_lookup hw))]
  | _ => rw [Toml.merge]

/-- A document over the defaults, written out, is read like the document alone. -/
theorem config_merge_defaults_iff (formed : t.WellFormed) (whole : t.IsTable) :
    config isExact ((Config.layer {}).merge t) = .ok c ↔ config isExact t = .ok c := by
  obtain ⟨entries, rfl⟩ := whole
  cases formed with
  | table sorted inside =>
    have above (key : String) := @lookup_mergeEntries
      [("log", Config.logToToml {}), ("lsp", Config.lspToToml {})] _ sorted.nodup key
    rw [Config.layer, Toml.merge, config_table_iff, config_table_iff, above, above]
    refine and_congr (gives_layOver_iff ?_ fun w hw ↦ ?_) (gives_layOver_iff ?_ fun w hw ↦ ?_)
    · rfl
    · exact log_merge_iff (inside _ (Dictionary.mem_of_lookup hw))
    · rfl
    · exact lsp_merge_iff (inside _ (Dictionary.mem_of_lookup hw))

end Schema

/-! ### The two ways -/

namespace Config

/-- What two ways come to is the same: one configuration, or faults of one kind, and where a setting
cannot be used, it is the same setting for the same reason. -/
inductive Agrees : Except ConfigFault Config → Except ConfigFault Config → Prop where
  | same (c : Config) : Agrees (.ok c) (.ok c)
  | unread (origin reason origin' reason' : String) :
      Agrees (.error (.parse origin reason)) (.error (.parse origin' reason'))
  | unusable (key reason : String) :
      Agrees (.error (.invalid key reason)) (.error (.invalid key reason))

/-- The reader takes a document alike when it reads it directly and when it reads it as a value. -/
def ReadsAlike (document : String) : Prop :=
  ∀ t, Toml.parse document = some t →
    ∀ c, Schema.config false t.withoutDates = .ok c ↔ Schema.config true t = .ok c

/-- A document whose groups of settings are tables, and in which there are no days and times, is
taken alike. -/
theorem readsAlike_of_isLayer
    (plain : (Toml.parse document).all fun t ↦ t.isLayer && !t.hasDate) : ReadsAlike document := by
  intro t parsed c
  rw [parsed, Option.all_some, Bool.and_eq_true, Bool.not_eq_true'] at plain
  have distinct : (keysOf (t.at? serversPath)).Nodup :=
    ((wellFormed_of_parse parsed).1.sorted_entriesOf serversPath).nodup
  have layer : t.IsLayer := .of_isLayer plain.1
  rw [withoutDates_eq_self t plain.2, Schema.config_iff layer distinct,
    Schema.config_iff layer distinct]

/-- The violations of a configuration are settings that cannot be used. -/
theorem exists_of_mem_violations {fault : ConfigFault} (h : fault ∈ c.violations) :
    ∃ key reason, fault = .invalid key reason := by
  simp only [violations, ServerEntry.violations, List.mem_append, List.mem_flatMap,
    List.mem_ite_nil_right, List.mem_singleton, List.mem_map] at h
  obtain ⟨-, rfl⟩ | ⟨e, -, (⟨-, rfl⟩ | ⟨-, rfl⟩) | ⟨reason, -, rfl⟩⟩ := h
  all_goals exact ⟨_, _, rfl⟩

/-- What comes of the check of one configuration agrees with itself. -/
theorem agrees_validated (c : Config) : Agrees c.validated c.validated := by
  unfold validated
  split
  · exact .same c
  · next fault rest found =>
    have mem : fault ∈ c.violations := by
      rw [found]
      exact List.mem_cons_self
    obtain ⟨key, reason, rfl⟩ := exists_of_mem_violations mem
    exact .unusable key reason

/-- Where a text can be read there is a file. -/
theorem isFile_of_readText (content : files.readText path = .ok document) :
    files.isFile path = true := by
  obtain ⟨bytes, read, -⟩ := bind_eq_ok_iff.mp content
  obtain ⟨⟨l, e⟩, found, read⟩ := bind_eq_ok_iff.mp read
  cases e with
  | file content isExecutable => rw [FileTree.isFile, found]
  | directory => cases read

/-- A file that was named is laid over the defaults and checked. -/
theorem loadFile_eq (content : files.readText path = .ok document) :
    loadFile files path = (overlayFile {} path document >>= validated) := by
  have there := isFile_of_readText content
  have read : readFile files path = .ok document := by
    rw [readFile, content]
    rfl
  rw [loadFile, there, read]
  rfl

/-- What is laid over the defaults is the document alone. -/
theorem overlay_defaults_eq_ok_iff :
    overlay {} document = .ok c ↔
      ∃ t, Toml.parse document = some t ∧ Schema.config true t = .ok c := by
  rw [overlay_eq_ok_iff]
  have small : ({} : Config).lsp.requestTimeoutSecs.toNat < 0x8000000000000000 := by decide
  constructor
  · rintro ⟨-, t, parsed, read⟩
    obtain ⟨formed, whole⟩ := wellFormed_of_parse parsed
    exact ⟨t, parsed, (Schema.config_merge_defaults_iff formed whole).mp read⟩
  · rintro ⟨t, parsed, read⟩
    obtain ⟨formed, whole⟩ := wellFormed_of_parse parsed
    exact ⟨small, t, parsed, (Schema.config_merge_defaults_iff formed whole).mpr read⟩

/-- What cannot be laid over a configuration is a fault of the text. -/
theorem exists_parse_of_overlay {below : Config} {fault : ConfigFault}
    (failed : below.overlay document = .error fault) :
    ∃ reason, fault = .parse inlineOrigin reason := by
  have schema {β : Type} {x : Except SchemaFault β} {fault : ConfigFault}
      (h : x.mapError ofSchemaFault = .error fault) :
      ∃ reason, fault = .parse inlineOrigin reason := by
    cases x with
    | error f =>
      cases h
      exact ⟨_, rfl⟩
    | ok => cases h
  unfold overlay at failed
  cases written : below.toToml?.mapError ofSchemaFault with
  | error f =>
    rw [written] at failed
    cases failed
    exact schema written
  | ok lower =>
    rw [written] at failed
    change (parse document >>= _) = _ at failed
    unfold parse at failed
    split at failed
    · exact schema failed
    · cases failed
      exact ⟨_, rfl⟩

/-- A text that is not TOML is not read directly. -/
private theorem ofDocument_of_not_parse (unparsed : Toml.parse document = none) :
    ofDocument document = .error (.parse inlineOrigin syntaxReason) := by
  rw [ofDocument, parse, unparsed]
  rfl

/-- A text that is TOML is read directly as its value is. -/
private theorem ofDocument_of_parse (parsed : Toml.parse document = some t) :
    ofDocument document =
      match Schema.config false t.withoutDates with
      | .ok c => c.validated
      | .error _ => .error (.parse inlineOrigin syntaxReason) := by
  rw [ofDocument, parse, parsed]
  rfl

/-- Reading a document directly and loading a file that holds it come to the same: to equal
configurations, or to faults of one kind, and where a setting cannot be used, it is the same setting
for the same reason. -/
theorem loadFile_agrees (content : files.readText path = .ok document)
    (alike : ReadsAlike document) : Agrees (ofDocument document) (loadFile files path) := by
  rw [loadFile_eq content, overlayFile]
  have refused {fault : ConfigFault} {reason : String}
      (laid : overlay {} document = .error fault) :
      Agrees (.error (.parse inlineOrigin reason))
        ((Except.error fault : Except ConfigFault Config).mapError (.inFile path) >>=
          validated) := by
    obtain ⟨_, rfl⟩ := exists_parse_of_overlay laid
    exact .unread ..
  cases parsed : Toml.parse document with
  | none =>
    rw [ofDocument_of_not_parse parsed]
    cases laid : overlay {} document with
    | error fault => exact refused laid
    | ok c =>
      obtain ⟨t, parsed', -⟩ := overlay_defaults_eq_ok_iff.mp laid
      cases parsed.symm.trans parsed'
  | some t =>
    rw [ofDocument_of_parse parsed]
    cases direct : Schema.config false t.withoutDates with
    | ok c =>
      have read := (alike t parsed c).mp direct
      rw [overlay_defaults_eq_ok_iff.mpr ⟨t, parsed, read⟩]
      exact agrees_validated c
    | error f =>
      cases laid : overlay {} document with
      | error fault => exact refused laid
      | ok c =>
        obtain ⟨_, parsed', read⟩ := overlay_defaults_eq_ok_iff.mp laid
        cases parsed.symm.trans parsed'
        cases direct.symm.trans ((alike t parsed c).mpr read)

/-- A document in which an extension is written with its dot. -/
def dottedExtension : String :=
  "[log]\nlevel = \"debug\"\n\n[lsp.servers.zig]\ncommand = \"zls\"\nextensions = [\".zig\"]\n"

/-- A tree with one file. -/
def filesOfOne (document : String) : FileTree :=
  { entries := [(["hub.toml"], .file document.toUTF8 false)] }

/-- Neither way takes the extension. -/
theorem agrees_dottedExtension :
    (filesOfOne dottedExtension).readText "/hub.toml" = .ok dottedExtension ∧
      ReadsAlike dottedExtension ∧
      ofDocument dottedExtension =
        .error (.invalid "lsp.servers.zig.extensions" "write \".zig\" without the leading dot") ∧
      Agrees (ofDocument dottedExtension) (loadFile (filesOfOne dottedExtension) "/hub.toml") := by
  have content : (filesOfOne dottedExtension).readText "/hub.toml" = .ok dottedExtension := by
    decide +kernel
  have alike : ReadsAlike dottedExtension := readsAlike_of_isLayer (by decide +kernel)
  exact ⟨content, alike, by decide +kernel, loadFile_agrees content alike⟩

end Config

end LanguageHub
