import LanguageHub.Proofs.Config.Settings
import Mathlib.Algebra.Group.Nat.Defs

/-!
# Layers of configuration

A configuration is written as a document that is read back as the same configuration. So each
setting of a configuration over which documents were laid is what the last document says that says
anything about it (`settings_of_overlays`).
-/

namespace LanguageHub

open Toml

namespace Config

variable {base below c : Config} {t : Toml} {document : String} {documents : List String}

/-! ### Writing a configuration -/

/-- The document that a configuration is written as. -/
def layer (c : Config) : Toml := .table [("log", logToToml c.log), ("lsp", lspToToml c.lsp)]

theorem toToml?_eq_ok_iff :
    c.toToml? = .ok t ↔ c.lsp.requestTimeoutSecs.toNat < 0x8000000000000000 ∧ t = c.layer := by
  unfold toToml?
  split
  · next small => exact ⟨fun h ↦ ⟨small, (Except.ok.inj h).symm⟩, fun h ↦ congrArg _ h.2.symm⟩
  · next great => exact ⟨nofun, fun h ↦ absurd h.1 great⟩

/-- The entries of a table of servers. -/
def serverTables (c : Config) : List (String × Toml) :=
  c.lsp.servers.entries.map fun (language, e) ↦ (language, e.toToml)

private theorem at?_layer_servers (c : Config) :
    c.layer.at? serversPath = some (.table c.serverTables) := rfl

theorem keys_serverTables (c : Config) :
    c.serverTables.map (·.1) = c.lsp.servers.keys := by
  rw [serverTables, List.map_map]
  rfl

theorem lookup_serverTables (c : Config) (language : String) :
    Dictionary.lookup language c.serverTables =
      (c.lsp.servers.get? language).map ServerEntry.toToml := by
  rw [serverTables, Dictionary.get?]
  induction c.lsp.servers.entries with
  | nil => rfl
  | cons e rest ih =>
    rw [List.map_cons, Dictionary.lookup, Dictionary.lookup, ih]
    split <;> rfl

private theorem at?_layer_server (c : Config) (language : String) (path : List String) :
    c.layer.at? (serversPath ++ language :: path) =
      (c.lsp.servers.get? language).bind fun e ↦ e.toToml.at? path := by
  rw [at?_append, at?_layer_servers, Option.bind_some, at?_cons_table, lookup_serverTables,
    Option.bind_map]
  rfl

/-- A configuration is written as a layer. -/
theorem isLayer_layer (c : Config) : c.layer.IsLayer := by
  refine ⟨⟨_, rfl⟩, fun path hpath v hv ↦ ?_⟩
  cases hpath with
  | log => exact ⟨_, (Option.some.inj hv).symm⟩
  | lsp => exact ⟨_, (Option.some.inj hv).symm⟩
  | servers => exact ⟨_, (Option.some.inj hv).symm⟩
  | server language =>
    rw [Option.mem_def, at?_layer_server, Option.bind_eq_some_iff] at hv
    obtain ⟨e, -, he⟩ := hv
    exact ⟨_, (Option.some.inj he).symm⟩

private theorem log_at? (l : LogSettings) :
    (logToToml l).at? ["level"] = some (.text l.level.name) ∧
      (logToToml l).at? ["file"] = l.file.map .text := by
  obtain ⟨level, file⟩ := l
  cases file <;> exact ⟨rfl, rfl⟩

/-- No setting is written as a table. -/
theorem not_isTable_of_layer (c : Config) (s : Setting) :
    ∀ v ∈ c.layer.at? s.path, ¬ v.IsTable := by
  intro v hv
  have inServer {language : String} {path : List String}
      (h : c.layer.at? (serversPath ++ language :: path) = some v) :
      ∃ e : ServerEntry, e.toToml.at? path = some v := by
    rw [at?_layer_server, Option.bind_eq_some_iff] at h
    obtain ⟨e, -, he⟩ := h
    exact ⟨e, he⟩
  cases s with
  | level =>
    have written : some (Toml.text c.log.level.name) = some v := (log_at? c.log).1.symm.trans hv
    cases written
    exact nofun
  | file =>
    have written : c.log.file.map Toml.text = some v := (log_at? c.log).2.symm.trans hv
    obtain ⟨path, -, rfl⟩ := Option.map_eq_some_iff.mp written
    exact nofun
  | enabled =>
    cases hv
    exact nofun
  | seconds =>
    cases hv
    exact nofun
  | command language =>
    obtain ⟨e, he⟩ := inServer hv
    cases he
    exact nofun
  | args language =>
    obtain ⟨e, he⟩ := inServer hv
    cases he
    exact nofun
  | extensions language =>
    obtain ⟨e, he⟩ := inServer hv
    cases he
    exact nofun

private theorem texts_map (texts : List String) :
    Schema.texts (.array (texts.map .text)) = .ok texts := by
  rw [Schema.texts, mapM_eq_ok_iff, List.forall₂_map_left_iff]
  exact List.forall₂_same.mpr fun _ _ ↦ rfl

theorem server_toToml (e : ServerEntry) : Schema.server true e.toToml = .ok e :=
  Schema.server_table_iff.mpr ⟨rfl, texts_map e.args, texts_map e.extensions⟩

private theorem natural_toNat (n : UInt64) : Schema.natural (.integer n.toNat) = .ok n := by
  have inRange : 0 ≤ (n.toNat : Int) ∧ (n.toNat : Int) < UInt64.size := by
    have := n.toNat_lt_size
    omega
  rw [Schema.natural, if_pos inRange, Int.toNat_natCast, UInt64.ofNat_toNat]

private theorem levelOfName_name (l : LogLevel) : Schema.levelOfName l.name = .ok l := by
  cases l <;> rfl

/-- A configuration is read back as it was written. -/
theorem config_layer (c : Config) : Schema.config true c.layer = .ok c := by
  refine Schema.config_table_iff.mpr ⟨?_, ?_⟩
  · change Schema.log true (logToToml c.log) = .ok c.log
    have written := log_at? c.log
    rw [logToToml, at?_singleton, at?_singleton] at written
    refine Schema.log_table_iff.mpr ⟨?_, ?_⟩
    · rw [written.2]
      cases c.log.file <;> rfl
    · rw [written.1]
      exact levelOfName_name c.log.level
  · change Schema.lsp true (lspToToml c.lsp) = .ok c.lsp
    refine Schema.lsp_table_iff.mpr ⟨rfl, natural_toNat _, ?_⟩
    refine Schema.servers_table_iff.mpr (List.forall₂_map_left_iff.mpr ?_)
    exact List.forall₂_same.mpr fun x _ ↦ ⟨rfl, server_toToml x.2⟩

/-! ### Laying a document over a configuration -/

/-- A document is laid over a configuration by reading it merged over what the configuration is
written as. -/
theorem overlay_eq_ok_iff :
    below.overlay document = .ok c ↔
      below.lsp.requestTimeoutSecs.toNat < 0x8000000000000000 ∧
      ∃ t, Toml.parse document = some t ∧ Schema.config true (below.layer.merge t) = .ok c := by
  have parsed {t : Toml} : parse document = .ok t ↔ Toml.parse document = some t := by
    unfold parse
    cases Toml.parse document with
    | none => exact ⟨nofun, nofun⟩
    | some u =>
      exact ⟨fun h ↦ congrArg _ (Except.ok.inj h), fun h ↦ congrArg _ (Option.some.inj h)⟩
  simp only [overlay, bind_eq_ok_iff, mapError_eq_ok_iff, toToml?_eq_ok_iff, parsed]
  constructor
  · rintro ⟨_, ⟨small, rfl⟩, t, ht, read⟩
    exact ⟨small, t, ht, read⟩
  · rintro ⟨small, t, ht, read⟩
    exact ⟨_, ⟨small, rfl⟩, t, ht, read⟩

private theorem at?_merge_servers (below : Config) (upper : t.IsLayer) (formed : t.WellFormed) :
    (below.layer.merge t).at? serversPath =
      some (.table (mergeEntries below.serverTables (entriesOf (t.at? serversPath)))) := by
  rw [at?_merge (below.isLayer_layer.leads_group .servers) (upper.leads_group .servers) formed,
    at?_layer_servers]
  cases given : t.at? serversPath with
  | none => rw [layOver_none_right, show entriesOf none = [] from rfl, mergeEntries]
  | some v =>
    obtain ⟨entries, rfl⟩ := upper.group _ .servers v given
    rw [layOver, Toml.merge, entriesOf]

theorem sorted_serverTables (sorted : below.lsp.servers.Sorted) :
    Dictionary.Sorted ⟨below.serverTables⟩ := by
  rw [Dictionary.sorted_iff, Dictionary.keys, keys_serverTables]
  exact Dictionary.sorted_iff.mp sorted

/-- A configuration is what is written of it. -/
theorem readsAs_layer (sorted : c.lsp.servers.Sorted) (s : Setting) : s.ReadsAs c.layer c := by
  have distinct : (keysOf (c.layer.at? serversPath)).Nodup :=
    (sorted_serverTables sorted).nodup
  exact ((Schema.config_iff c.isLayer_layer distinct).mp c.config_layer).2 s

private theorem readsAs_merge_iff (sorted : below.lsp.servers.Sorted) (upper : t.IsLayer)
    (formed : t.WellFormed) (s : Setting) :
    s.ReadsAs (below.layer.merge t) c ↔
      Schema.Gives s.read (s.value below) (t.at? s.path) (s.value c) := by
  rw [Setting.ReadsAs, at?_merge_of_not_isTable (below.isLayer_layer.leads s) (upper.leads s) formed
    (below.not_isTable_of_layer s)]
  cases t.at? s.path with
  | some v => rfl
  | none =>
    have own := readsAs_layer sorted s
    constructor
    · exact fun h ↦ h.unique own
    · intro same
      rw [show s.value c = s.value below from same]
      exact own

/-- A document laid over a configuration makes another if and only if this has the servers of both
and each of its settings is what the document says, or else what it was. -/
theorem config_merge_iff (sorted : below.lsp.servers.Sorted) (upper : t.IsLayer)
    (formed : t.WellFormed) :
    Schema.config true (below.layer.merge t) = .ok c ↔
      (mergeEntries below.serverTables (entriesOf (t.at? serversPath))).map (·.1) =
        c.lsp.servers.keys ∧
      ∀ s : Setting, Schema.Gives s.read (s.value below) (t.at? s.path) (s.value c) := by
  have servers := at?_merge_servers below upper formed
  have distinct : (keysOf ((below.layer.merge t).at? serversPath)).Nodup := by
    rw [servers]
    exact (sorted_mergeEntries (sorted_serverTables sorted) _).nodup
  rw [Schema.config_iff (below.isLayer_layer.merge upper formed) distinct, servers]
  simp only [readsAs_merge_iff sorted upper formed]
  rfl

/-- What becomes of a configuration when a document is laid over it. -/
structure Laid (below : Config) (t : Toml) (c : Config) : Prop where
  keys : ∀ language, language ∈ c.lsp.servers.keys ↔
    language ∈ below.lsp.servers.keys ∨ language ∈ keysOf (t.at? serversPath)
  settings : ∀ s : Setting, Schema.Gives s.read (s.value below) (t.at? s.path) (s.value c)
  sorted : c.lsp.servers.Sorted

/-- What is accepted over a configuration is laid over it. -/
theorem laid_of_overlay (sorted : below.lsp.servers.Sorted) (upper : t.IsLayer)
    (parsed : Toml.parse document = some t) (accepted : below.overlay document = .ok c) :
    Laid below t c := by
  obtain ⟨-, _, parsed', read⟩ := overlay_eq_ok_iff.mp accepted
  cases parsed.symm.trans parsed'
  have formed := (wellFormed_of_parse parsed).1
  obtain ⟨keys, settings⟩ := (config_merge_iff sorted upper formed).mp read
  refine ⟨fun language ↦ ?_, settings, ?_⟩
  · rw [← keys, mem_keys_mergeEntries (formed.sorted_entriesOf serversPath).nodup,
      keys_serverTables]
    rfl
  · rw [Dictionary.sorted_iff, ← keys]
    exact Dictionary.sorted_iff.mp (sorted_mergeEntries (sorted_serverTables sorted) _)

private theorem toNat_lt_of_natural {v : Toml} {n : UInt64} (formed : v.WellFormed)
    (read : Schema.natural v = .ok n) : n.toNat < 0x8000000000000000 := by
  unfold Schema.natural at read
  split at read
  · next k =>
    cases formed with
    | integer low high =>
      split at read
      · next inRange =>
        cases read
        rw [UInt64.toNat_ofNat']
        omega
      · cases read
  · cases read

/-- What was read over a configuration can be written. -/
theorem Laid.toNat_lt (laid : Laid below t c) (formed : t.WellFormed)
    (small : below.lsp.requestTimeoutSecs.toNat < 0x8000000000000000) :
    c.lsp.requestTimeoutSecs.toNat < 0x8000000000000000 := by
  have seconds := laid.settings .seconds
  cases given : t.at? Setting.seconds.path with
  | none =>
    rw [given] at seconds
    rw [show c.lsp.requestTimeoutSecs = below.lsp.requestTimeoutSecs from seconds]
    exact small
  | some v =>
    rw [given] at seconds
    exact toNat_lt_of_natural (formed.at? given) seconds

/-- A document that was laid over a configuration changes nothing when it is laid over it once
more. -/
theorem overlay_overlay (sorted : below.lsp.servers.Sorted)
    (layer : ∀ t, Toml.parse document = some t → t.IsLayer)
    (accepted : below.overlay document = .ok c) : c.overlay document = .ok c := by
  obtain ⟨small, t, parsed, -⟩ := overlay_eq_ok_iff.mp accepted
  have upper := layer t parsed
  have formed := (wellFormed_of_parse parsed).1
  have laid := laid_of_overlay sorted upper parsed accepted
  refine overlay_eq_ok_iff.mpr ⟨laid.toNat_lt formed small, t, parsed, ?_⟩
  refine (config_merge_iff laid.sorted upper formed).mpr ⟨?_, fun s ↦ ?_⟩
  · rw [keys_mergeEntries (sorted_serverTables laid.sorted), keys_serverTables]
    rw [keys_serverTables]
    exact fun language known ↦ (laid.keys language).mpr (.inr known)
  · have setting := laid.settings s
    cases given : t.at? s.path with
    | none => rfl
    | some v => rwa [given] at setting

/-- A document without settings changes nothing. -/
theorem overlay_empty (small : c.lsp.requestTimeoutSecs.toNat < 0x8000000000000000)
    (empty : Toml.parse document = some (.table [])) : c.overlay document = .ok c := by
  refine overlay_eq_ok_iff.mpr ⟨small, _, empty, ?_⟩
  have same : c.layer.merge (.table []) = c.layer := by
    rw [layer, Toml.merge, mergeEntries]
  rw [same]
  exact c.config_layer

/-! ### Laying documents over a configuration -/

end Config

/-- The values that documents give to a setting, in the order of the documents. -/
def Setting.given (s : Setting) (documents : List String) : List Toml :=
  documents.filterMap fun document ↦ (Toml.parse document).bind (at? s.path)

namespace Config

/-- The languages that a document has servers for. -/
def languagesIn (document : String) : List String :=
  keysOf ((Toml.parse document).bind (at? serversPath))

/-- What documents that are accepted one after the other make of a configuration: each setting is
what the last document says that says anything about it. -/
theorem settings_of_foldlM (sorted : base.lsp.servers.Sorted)
    (layers : ∀ document ∈ documents, ∀ t, Toml.parse document = some t → t.IsLayer)
    (accepted : documents.foldlM overlay base = .ok c) :
    (∀ s : Setting, Schema.Gives s.read (s.value base) (s.given documents).getLast? (s.value c)) ∧
      ∀ language, language ∈ c.lsp.servers.keys ↔
        language ∈ base.lsp.servers.keys ∨
          ∃ document ∈ documents, language ∈ languagesIn document := by
  induction documents generalizing base with
  | nil =>
    cases accepted
    exact ⟨fun s ↦ rfl, fun language ↦ by simp⟩
  | cons document rest ih =>
    rw [List.forall_mem_cons] at layers
    rw [List.foldlM_cons, bind_eq_ok_iff] at accepted
    obtain ⟨mid, first, accepted⟩ := accepted
    obtain ⟨-, t, parsed, -⟩ := overlay_eq_ok_iff.mp first
    have laid := laid_of_overlay sorted (layers.1 t parsed) parsed first
    obtain ⟨settings, keys⟩ := ih laid.sorted layers.2 accepted
    constructor
    · intro s
      have here : s.given (document :: rest) = (t.at? s.path).toList ++ s.given rest := by
        rw [Setting.given, List.filterMap_cons, parsed, Option.bind_some]
        cases t.at? s.path <;> rfl
      have later := settings s
      rw [here, List.getLast?_append]
      cases last : (s.given rest).getLast? with
      | some v =>
        rw [last] at later
        exact later
      | none =>
        rw [last] at later
        rw [show s.value c = s.value mid from later, Option.none_or]
        have now := laid.settings s
        cases given : t.at? s.path with
        | none => rwa [given] at now
        | some v => rwa [given] at now
    · intro language
      have here : language ∈ languagesIn document ↔ language ∈ keysOf (t.at? serversPath) := by
        rw [languagesIn, parsed, Option.bind_some]
      rw [keys, laid.keys, ← here, List.exists_mem_cons_iff]
      exact or_assoc

/-- Documents that are accepted over a configuration one after the other settle it: each setting
is what the last document says that says anything about it, or else what it was, and there are
servers for the languages that any of them has one for. A document without settings changes
nothing, and neither does a document that was just laid over. -/
theorem settings_of_overlays (sorted : base.lsp.servers.Sorted)
    (small : base.lsp.requestTimeoutSecs.toNat ≤ 2 ^ 63 - 1)
    (layers : ∀ document ∈ documents, ∀ t, Toml.parse document = some t → t.IsLayer)
    (accepted : documents.foldlM overlay base = .ok c) :
    (∀ s : Setting, Schema.Gives s.read (s.value base) (s.given documents).getLast? (s.value c)) ∧
      (∀ language, language ∈ c.lsp.servers.keys ↔
        language ∈ base.lsp.servers.keys ∨
          ∃ document ∈ documents, language ∈ languagesIn document) ∧
      (∀ document, Toml.parse document = some (.table []) → base.overlay document = .ok base) ∧
      ∀ document, (∀ t, Toml.parse document = some t → t.IsLayer) →
        (base.overlay document >>= fun once ↦ once.overlay document) = base.overlay document := by
  obtain ⟨settings, keys⟩ := settings_of_foldlM sorted layers accepted
  refine ⟨settings, keys, fun document empty ↦ overlay_empty (by omega) empty, ?_⟩
  intro document layer
  cases first : base.overlay document with
  | error fault => rfl
  | ok once => exact overlay_overlay sorted layer first

/-- A document with a server, and one that gives arguments to it. -/
def twoLayers : List String := [
  "[lsp.servers.python]\ncommand = \"pylsp\"\nextensions = [\"py\"]\n",
  "[lsp.servers.python]\nargs = [\"-v\"]\n"]

/-- What the two documents make of the defaults. -/
def layered : Config :=
  { lsp := { servers := ⟨[("python", ⟨"pylsp", ["-v"], ["py"]⟩)]⟩ } }

theorem settings_layered :
    twoLayers.foldlM overlay {} = .ok layered ∧
      ∀ s : Setting,
        Schema.Gives s.read (s.value {}) (s.given twoLayers).getLast? (s.value layered) := by
  have accepted : twoLayers.foldlM overlay {} = .ok layered := by decide +kernel
  have seen : ∀ document ∈ twoLayers, (Toml.parse document).all isLayer := by decide +kernel
  have layers : ∀ document ∈ twoLayers, ∀ t, Toml.parse document = some t → t.IsLayer := by
    intro document mem t parsed
    have layer := seen document mem
    rw [parsed] at layer
    exact .of_isLayer layer
  exact ⟨accepted,
    (settings_of_overlays Dictionary.sorted_empty (by decide) layers accepted).1⟩

end Config

end LanguageHub
