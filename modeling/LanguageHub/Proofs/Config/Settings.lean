import LanguageHub.Config.Layers
import LanguageHub.Config.Schema
import LanguageHub.Proofs.Dictionary
import LanguageHub.Proofs.Results
import LanguageHub.Proofs.Toml.Merging

/-!
# Settings one by one

A group of settings that is a table is read if and only if each of its settings is: each setting
has the value that stands under its key, or its default if there is none.

A configuration is what its settings are: `config_iff` says that a document is read as a
configuration if and only if the document has servers for the same languages and each setting is
what stands under its path, or its default.
-/

namespace LanguageHub.Schema

variable {α β : Type} {isExact : Bool} {key : String} {read : Schema α} {default a : α}
  {v : Toml} {entries : List (String × Toml)}

/-! ### Settings that may be missing -/

/-- Read a setting that need not be there. -/
def optional (read : Schema α) : Schema (Option α) := fun v ↦ (read v).map some

/-- What a setting is when a value may be given to it: what the value is read as, else its
default. -/
def Gives (read : Schema α) (default : α) : (given : Option Toml) → α → Prop
  | none, a => a = default
  | some v, a => read v = .ok a

/-- A setting is one thing only. -/
theorem Gives.unique {given : Option Toml} {b : α} (ha : Gives read default given a)
    (hb : Gives read default given b) : a = b := by
  cases given with
  | none => exact ha.trans hb.symm
  | some v => exact Except.ok.inj (ha.symm.trans hb)

private theorem under_eq_ok_iff : under key read v = .ok a ↔ read v = .ok a := mapError_eq_ok_iff

theorem entry?_eq_ok_iff {x : Option α} :
    entry? key read entries = .ok x ↔
      Gives (optional read) none (Dictionary.lookup key entries) x := by
  unfold entry?
  cases Dictionary.lookup key entries with
  | none => exact ⟨fun h ↦ (Except.ok.inj h).symm, fun h ↦ congrArg _ h.symm⟩
  | some v =>
    change (under key read v).map some = .ok x ↔ (read v).map some = .ok x
    simp only [map_eq_ok_iff, under_eq_ok_iff]

/-- A setting with a default is read if what is given to it is. -/
theorem entry?_getD_iff :
    (∃ x, entry? key read entries = .ok x ∧ x.getD default = a) ↔
      Gives read default (Dictionary.lookup key entries) a := by
  simp only [entry?_eq_ok_iff]
  cases Dictionary.lookup key entries with
  | none =>
    simp only [Gives, exists_eq_left, Option.getD_none]
    exact eq_comm
  | some v =>
    simp only [Gives, optional, map_eq_ok_iff]
    constructor
    · rintro ⟨x, ⟨b, hb, rfl⟩, rfl⟩
      exact hb
    · exact fun h ↦ ⟨some a, ⟨a, h, rfl⟩, rfl⟩

/-! ### Groups of settings -/

theorem log_table_iff {l : LogSettings} :
    log isExact (.table entries) = .ok l ↔
      Gives (optional (text "path string")) none (Dictionary.lookup "file" entries) l.file ∧
      Gives level .info (Dictionary.lookup "level" entries) l.level := by
  rw [← entry?_eq_ok_iff, ← entry?_getD_iff]
  simp only [log, bind_eq_ok_iff]
  constructor
  · rintro ⟨file, hfile, level, hlevel, h⟩
    cases h
    exact ⟨hfile, level, hlevel, rfl⟩
  · rintro ⟨hfile, level, hlevel, same⟩
    refine ⟨l.file, hfile, level, hlevel, ?_⟩
    rw [same]
    rfl

theorem server_table_iff {e : ServerEntry} :
    server isExact (.table entries) = .ok e ↔
      Gives (optional (text "a string")) none (Dictionary.lookup "command" entries)
        (some e.command) ∧
      Gives texts [] (Dictionary.lookup "args" entries) e.args ∧
      Gives texts [] (Dictionary.lookup "extensions" entries) e.extensions := by
  rw [← entry?_eq_ok_iff, ← entry?_getD_iff, ← entry?_getD_iff]
  simp only [server, bind_eq_ok_iff]
  constructor
  · rintro ⟨args, hargs, command?, hcommand, extensions, hextensions, h⟩
    cases command? with
    | none => cases h
    | some command =>
      cases h
      exact ⟨hcommand, ⟨args, hargs, rfl⟩, extensions, hextensions, rfl⟩
  · rintro ⟨hcommand, ⟨args, hargs, sameArgs⟩, extensions, hextensions, sameExtensions⟩
    refine ⟨args, hargs, some e.command, hcommand, extensions, hextensions, ?_⟩
    rw [sameArgs, sameExtensions]
    rfl

theorem servers_table_iff {d : Dictionary ServerEntry} :
    servers isExact (.table entries) = .ok d ↔
      List.Forall₂ (fun x y ↦ x.1 = y.1 ∧ server isExact x.2 = .ok y.2) entries d.entries := by
  have entry (x : String × Toml) (y : String × ServerEntry) :
      (under x.1 (server isExact) x.2).map (fun e ↦ (x.1, e)) = .ok y ↔
        x.1 = y.1 ∧ server isExact x.2 = .ok y.2 := by
    rw [map_eq_ok_iff]
    simp only [under_eq_ok_iff]
    constructor
    · rintro ⟨e, he, rfl⟩
      exact ⟨rfl, he⟩
    · rintro ⟨same, he⟩
      exact ⟨y.2, he, Prod.ext same rfl⟩
  simp only [servers, bind_eq_ok_iff, mapM_eq_ok_iff, entry]
  constructor
  · rintro ⟨read, hread, h⟩
    cases h
    exact hread
  · exact fun h ↦ ⟨d.entries, h, rfl⟩

theorem lsp_table_iff {s : ServerSettings} :
    lsp isExact (.table entries) = .ok s ↔
      Gives boolean true (Dictionary.lookup "enabled" entries) s.enabled ∧
      Gives natural 0 (Dictionary.lookup "request_timeout_secs" entries) s.requestTimeoutSecs ∧
      Gives (servers isExact) .empty (Dictionary.lookup "servers" entries) s.servers := by
  rw [← entry?_getD_iff, ← entry?_getD_iff, ← entry?_getD_iff]
  simp only [lsp, bind_eq_ok_iff]
  constructor
  · rintro ⟨enabled, henabled, seconds, hseconds, servers, hservers, h⟩
    cases h
    exact ⟨⟨enabled, henabled, rfl⟩, ⟨seconds, hseconds, rfl⟩, servers, hservers, rfl⟩
  · rintro ⟨⟨enabled, henabled, h₁⟩, ⟨seconds, hseconds, h₂⟩, servers, hservers, h₃⟩
    refine ⟨enabled, henabled, seconds, hseconds, servers, hservers, ?_⟩
    rw [h₁, h₂, h₃]
    rfl

theorem config_table_iff {c : Config} :
    config isExact (.table entries) = .ok c ↔
      Gives (log isExact) {} (Dictionary.lookup "log" entries) c.log ∧
      Gives (lsp isExact) {} (Dictionary.lookup "lsp" entries) c.lsp := by
  rw [← entry?_getD_iff, ← entry?_getD_iff]
  simp only [config, bind_eq_ok_iff]
  constructor
  · rintro ⟨log, hlog, lsp, hlsp, h⟩
    cases h
    exact ⟨⟨log, hlog, rfl⟩, lsp, hlsp, rfl⟩
  · rintro ⟨⟨log, hlog, h₁⟩, lsp, hlsp, h₂⟩
    refine ⟨log, hlog, lsp, hlsp, ?_⟩
    rw [h₁, h₂]
    rfl

end LanguageHub.Schema

namespace LanguageHub

open Toml

variable {isExact : Bool} {given : Option Toml} {t : Toml} {c : Config}

/-- A setting of a configuration. -/
inductive Setting where
  | level
  | file
  | enabled
  | seconds
  | command (language : String)
  | args (language : String)
  | extensions (language : String)

namespace Setting

/-- The keys that lead to a setting. -/
def path : Setting → List String
  | level => ["log", "level"]
  | file => ["log", "file"]
  | enabled => ["lsp", "enabled"]
  | seconds => ["lsp", "request_timeout_secs"]
  | command language => ["lsp", "servers", language, "command"]
  | args language => ["lsp", "servers", language, "args"]
  | extensions language => ["lsp", "servers", language, "extensions"]

/-- What a setting can be. The command of a language is absent if there is no server for it. -/
def Value : Setting → Type
  | level => LogLevel
  | file => Option String
  | enabled => Bool
  | seconds => UInt64
  | command _ => Option String
  | args _ => List String
  | extensions _ => List String

/-- Reads a setting from the value that is given to it. -/
def read : (s : Setting) → Schema s.Value
  | level => Schema.level
  | file => Schema.optional (Schema.text "path string")
  | enabled => Schema.boolean
  | seconds => Schema.natural
  | command _ => Schema.optional (Schema.text "a string")
  | args _ => Schema.texts
  | extensions _ => Schema.texts

/-- What a setting is in a configuration. A language without a server has neither arguments nor
extensions. -/
def value : (s : Setting) → Config → s.Value
  | level, c => c.log.level
  | file, c => c.log.file
  | enabled, c => c.lsp.enabled
  | seconds, c => c.lsp.requestTimeoutSecs
  | command language, c => (c.lsp.servers.get? language).map (·.command)
  | args language, c => ((c.lsp.servers.get? language).map (·.args)).getD []
  | extensions language, c => ((c.lsp.servers.get? language).map (·.extensions)).getD []

/-- A setting is in a configuration what a document gives to it, or its default. -/
def ReadsAs (s : Setting) (t : Toml) (c : Config) : Prop :=
  Schema.Gives s.read (s.value {}) (t.at? s.path) (s.value c)

end Setting

/-- The keys that lead to the servers. -/
def serversPath : List String := ["lsp", "servers"]

/-- The keys that lead to a group of settings. -/
inductive IsGroup : List String → Prop where
  | log : IsGroup ["log"]
  | lsp : IsGroup ["lsp"]
  | servers : IsGroup serversPath
  | server (language : String) : IsGroup (serversPath ++ [language])

/-- A setting is an entry of a group. -/
theorem Setting.exists_group (s : Setting) :
    ∃ group key, IsGroup group ∧ s.path = group ++ [key] := by
  cases s with
  | level => exact ⟨_, "level", .log, rfl⟩
  | file => exact ⟨_, "file", .log, rfl⟩
  | enabled => exact ⟨_, "enabled", .lsp, rfl⟩
  | seconds => exact ⟨_, "request_timeout_secs", .lsp, rfl⟩
  | command language => exact ⟨_, "command", .server language, rfl⟩
  | args language => exact ⟨_, "args", .server language, rfl⟩
  | extensions language => exact ⟨_, "extensions", .server language, rfl⟩

/-- A document in which the groups of settings are tables, as far as they are there. -/
structure Toml.IsLayer (t : Toml) : Prop where
  whole : t.IsTable
  group : ∀ path, IsGroup path → ∀ v ∈ t.at? path, v.IsTable

/-- Whether a value is seen to be a table. -/
def Toml.isTable : Toml → Bool
  | .table _ => true
  | _ => false

/-- Whether a document is seen to be a layer: its groups and the entries of its servers are
tables. -/
def Toml.isLayer (t : Toml) : Bool :=
  t.isTable && (t.at? ["log"]).all isTable && (t.at? ["lsp"]).all isTable &&
    (t.at? serversPath).all isTable && (entriesOf (t.at? serversPath)).all (·.2.isTable)

namespace Toml.IsLayer

/-- What is seen to be a layer is one. -/
theorem of_isLayer (h : t.isLayer) : t.IsLayer := by
  have table {v : Toml} (h : v.isTable) : v.IsTable := by
    cases v with
    | table entries => exact ⟨entries, rfl⟩
    | _ => cases h
  simp only [isLayer, Bool.and_eq_true, List.all_eq_true, Option.all_eq_true] at h
  obtain ⟨⟨⟨⟨whole, log⟩, lsp⟩, servers⟩, inside⟩ := h
  refine ⟨table whole, fun path hpath v hv ↦ table ?_⟩
  cases hpath with
  | log => exact log v hv
  | lsp => exact lsp v hv
  | servers => exact servers v hv
  | server language =>
    rw [at?_append, Option.mem_def, Option.bind_eq_some_iff] at hv
    obtain ⟨all, hall, hv⟩ := hv
    cases all with
    | table entries =>
      rw [at?_singleton] at hv
      rw [hall] at inside
      exact inside _ (Dictionary.mem_of_lookup hv)
    | _ => cases hv

/-- Every group can be reached in a layer. -/
theorem leads_group (layer : t.IsLayer) {group : List String} (h : IsGroup group) :
    t.Leads group := by
  have top (key : String) : t.Leads [key] :=
    leads_cons_iff.mpr ⟨layer.whole, fun _ _ ↦ trivial⟩
  have servers : t.Leads serversPath :=
    leads_concat_iff.mpr ⟨top "lsp", layer.group _ .lsp⟩
  cases h with
  | log => exact top "log"
  | lsp => exact top "lsp"
  | servers => exact servers
  | server language => exact leads_concat_iff.mpr ⟨servers, layer.group _ .servers⟩

/-- Every setting can be reached in a layer. -/
theorem leads (layer : t.IsLayer) (s : Setting) : t.Leads s.path := by
  obtain ⟨group, key, hgroup, hpath⟩ := s.exists_group
  rw [hpath]
  exact leads_concat_iff.mpr ⟨layer.leads_group hgroup, layer.group group hgroup⟩

/-- A layer over a layer is a layer. -/
theorem merge {above : Toml} (layer : t.IsLayer) (upper : above.IsLayer)
    (formed : above.WellFormed) : (t.merge above).IsLayer := by
  have tables {a b : Toml} (ha : a.IsTable) (hb : b.IsTable) : (a.merge b).IsTable := by
    obtain ⟨below, rfl⟩ := ha
    obtain ⟨added, rfl⟩ := hb
    exact ⟨_, by rw [Toml.merge]⟩
  refine ⟨tables layer.whole upper.whole, fun path hpath v hv ↦ ?_⟩
  rw [at?_merge (layer.leads_group hpath) (upper.leads_group hpath) formed] at hv
  cases hb : above.at? path with
  | none =>
    rw [hb, layOver_none_right] at hv
    exact layer.group path hpath v hv
  | some b =>
    cases ha : t.at? path with
    | none =>
      rw [ha, hb, layOver_none_left] at hv
      exact upper.group path hpath v (hb.trans hv)
    | some a =>
      rw [ha, hb] at hv
      cases hv
      exact tables (layer.group path hpath a ha) (upper.group path hpath b hb)

end Toml.IsLayer

namespace Schema

/-! ### Groups that need not be there -/

private theorem gives_log_iff {l : LogSettings} (h : ∀ v ∈ given, v.IsTable) :
    Gives (log isExact) {} given l ↔
      Gives (optional (text "path string")) none (given.bind (at? ["file"])) l.file ∧
      Gives level .info (given.bind (at? ["level"])) l.level := by
  cases given with
  | none =>
    obtain ⟨level, file⟩ := l
    simp only [Gives, Option.bind_none, LogSettings.mk.injEq]
    exact and_comm
  | some v =>
    obtain ⟨entries, rfl⟩ := h v rfl
    simp only [Option.bind_some, at?_singleton]
    exact log_table_iff

private theorem gives_lsp_iff {s : ServerSettings} (h : ∀ v ∈ given, v.IsTable) :
    Gives (lsp isExact) {} given s ↔
      Gives boolean true (given.bind (at? ["enabled"])) s.enabled ∧
      Gives natural 0 (given.bind (at? ["request_timeout_secs"])) s.requestTimeoutSecs ∧
      Gives (servers isExact) .empty (given.bind (at? ["servers"])) s.servers := by
  cases given with
  | none =>
    obtain ⟨enabled, seconds, servers⟩ := s
    simp only [Gives, Option.bind_none, ServerSettings.mk.injEq]
  | some v =>
    obtain ⟨entries, rfl⟩ := h v rfl
    simp only [Option.bind_some, at?_singleton]
    exact lsp_table_iff

/-- What is read of the server of one language. -/
private structure ReadsServer (given : Option Toml) (e? : Option ServerEntry) : Prop where
  command : Gives (optional (text "a string")) none (given.bind (at? ["command"]))
    (e?.map (·.command))
  args : Gives texts [] (given.bind (at? ["args"])) ((e?.map (·.args)).getD [])
  extensions : Gives texts [] (given.bind (at? ["extensions"])) ((e?.map (·.extensions)).getD [])

private theorem readsServer_some_iff {v : Toml} {e : ServerEntry} (h : v.IsTable) :
    ReadsServer (some v) (some e) ↔ server isExact v = .ok e := by
  obtain ⟨entries, rfl⟩ := h
  rw [server_table_iff]
  constructor
  · rintro ⟨hcommand, hargs, hextensions⟩
    simp only [Option.bind_some, at?_singleton, Option.map_some] at hcommand hargs hextensions
    exact ⟨hcommand, hargs, hextensions⟩
  · rintro ⟨hcommand, hargs, hextensions⟩
    constructor
    all_goals simpa only [Option.bind_some, at?_singleton, Option.map_some]

private theorem readsServer_of_rel {e? : Option ServerEntry}
    (h : Option.Rel (server isExact · = .ok ·) given e?) (table : ∀ v ∈ given, v.IsTable) :
    ReadsServer given e? := by
  cases h with
  | none => exact ⟨rfl, rfl, rfl⟩
  | some hread => exact (readsServer_some_iff (table _ rfl)).mpr hread

private theorem gives_servers_iff {d : Dictionary ServerEntry} (h : ∀ v ∈ given, v.IsTable)
    (inside : ∀ language, ∀ v ∈ given.bind (at? [language]), v.IsTable)
    (distinct : (keysOf given).Nodup) :
    Gives (servers isExact) .empty given d ↔
      keysOf given = d.keys ∧
      ∀ language, ReadsServer (given.bind (at? [language])) (d.get? language) := by
  cases given with
  | none =>
    obtain ⟨entries⟩ := d
    constructor
    · intro empty
      cases empty
      exact ⟨rfl, fun _ ↦ ⟨rfl, rfl, rfl⟩⟩
    · rintro ⟨keys, -⟩
      have : entries = [] := List.map_eq_nil_iff.mp keys.symm
      exact congrArg _ this
  | some v =>
    obtain ⟨entries, rfl⟩ := h v rfl
    simp only [Option.bind_some, at?_singleton] at inside ⊢
    change servers isExact (.table entries) = .ok d ↔ _
    rw [servers_table_iff]
    constructor
    · intro both
      refine ⟨Dictionary.keys_of_forall₂ (R := (server isExact · = .ok ·)) both,
        fun language ↦ ?_⟩
      have found := Dictionary.lookup_of_forall₂ (R := (server isExact · = .ok ·)) both language
      exact readsServer_of_rel found (inside language)
    · rintro ⟨keys, reads⟩
      have same : entries.map (·.1) = d.entries.map (·.1) := keys
      refine Dictionary.forall₂_of_lookup (R := (server isExact · = .ok ·)) same
        distinct fun language v e hv he ↦ ?_
      have hread := reads language
      rw [hv, show d.get? language = some e from he] at hread
      exact (readsServer_some_iff (inside language v hv)).mp hread

/-- A document is read as a configuration if and only if the configuration has servers for the
languages that the document has some for, and each of its settings is what the document gives to
it. -/
theorem config_iff (layer : t.IsLayer) (distinct : (keysOf (t.at? serversPath)).Nodup) :
    config isExact t = .ok c ↔
      keysOf (t.at? serversPath) = c.lsp.servers.keys ∧ ∀ s : Setting, s.ReadsAs t c := by
  have groups : config isExact t = .ok c ↔
      Gives (log isExact) {} (t.at? ["log"]) c.log ∧
      Gives (lsp isExact) {} (t.at? ["lsp"]) c.lsp := by
    obtain ⟨entries, rfl⟩ := layer.whole
    simp only [at?_singleton]
    exact config_table_iff
  have inLsp (rest : List String) : (t.at? ["lsp"]).bind (at? rest) = t.at? ("lsp" :: rest) :=
    (at?_append ["lsp"] rest t).symm
  have inServers (rest : List String) :
      (t.at? serversPath).bind (at? rest) = t.at? (serversPath ++ rest) :=
    (at?_append serversPath rest t).symm
  have ofServer (language key : String) :
      ((t.at? serversPath).bind (at? [language])).bind (at? [key]) =
        t.at? ["lsp", "servers", language, key] := by
    rw [inServers, ← at?_append]
    rfl
  have inside : ∀ language, ∀ v ∈ (t.at? serversPath).bind (at? [language]), v.IsTable := by
    intro language
    rw [inServers]
    exact layer.group _ (.server language)
  rw [groups, gives_log_iff (layer.group _ .log), gives_lsp_iff (layer.group _ .lsp),
    inLsp ["enabled"], inLsp ["request_timeout_secs"], inLsp ["servers"],
    ← at?_append ["log"] ["file"], ← at?_append ["log"] ["level"]]
  change _ ∧ _ ∧ _ ∧ Gives (servers isExact) .empty (t.at? serversPath) c.lsp.servers ↔ _
  rw [gives_servers_iff (layer.group _ .servers) inside distinct]
  constructor
  · rintro ⟨⟨file, level⟩, enabled, seconds, keys, reads⟩
    refine ⟨keys, fun s ↦ ?_⟩
    cases s with
    | level => exact level
    | file => exact file
    | enabled => exact enabled
    | seconds => exact seconds
    | command language =>
      have h := (reads language).command
      rw [ofServer] at h
      exact h
    | args language =>
      have h := (reads language).args
      rw [ofServer] at h
      exact h
    | extensions language =>
      have h := (reads language).extensions
      rw [ofServer] at h
      exact h
  · rintro ⟨keys, reads⟩
    refine ⟨⟨reads .file, reads .level⟩, reads .enabled, reads .seconds, keys, fun language ↦ ?_⟩
    constructor
    · rw [ofServer]
      exact reads (.command language)
    · rw [ofServer]
      exact reads (.args language)
    · rw [ofServer]
      exact reads (.extensions language)

end Schema

end LanguageHub
