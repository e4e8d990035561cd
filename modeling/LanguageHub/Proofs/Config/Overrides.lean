import LanguageHub.Config.Files
import LanguageHub.Config.Servers
import LanguageHub.Proofs.Config.Layering
import LanguageHub.Proofs.Language.Commands

/-!
# Servers of a project

A language may be spelled in several ways, each with a server of its own. The command line that
serves the language is that of the spelling that comes last in the order of the keys. The servers
of a project are laid over those of its user under the keys as they are spelled, so that a server
of the project takes effect unless the user has one for the same language under a greater key
(`commandFor_iff_of_load`).
-/

namespace LanguageHub

namespace Config

variable {c : Config} {key language : String} {e : ServerEntry}

/-- The servers of a language under all its spellings. -/
def spellings (c : Config) (language : String) : List (String × ServerEntry) :=
  c.lsp.servers.entries.filter fun s ↦ Language.normalize s.1 = Language.normalize language

theorem mem_spellings {s : String × ServerEntry} : s ∈ c.spellings language ↔
    s ∈ c.lsp.servers.entries ∧ Language.normalize s.1 = Language.normalize language := by
  rw [spellings, List.mem_filter, decide_eq_true_eq]

/-- The configured servers are entered in the order of their keys. -/
theorem commandTable_eq_enter (c : Config) : c.commandTable =
    Language.CommandTable.builtin.enter
      (c.lsp.servers.entries.map fun s ↦ (s.1, s.2.commandLine)) := by
  rw [commandTable, Language.CommandTable.enter, List.foldl_map]

/-- A language is served by its last spelling, and without one by what is known without
configuration. -/
theorem commandFor_commandTable (c : Config) (language : String) :
    c.commandTable.commandFor language =
      ((c.spellings language).getLast?.map (·.2.commandLine)).getD
        (Language.CommandTable.builtin.commandFor language) := by
  have last : Language.CommandTable.lastGiven?
      (c.lsp.servers.entries.map fun s ↦ (s.1, s.2.commandLine)) (Language.normalize language) =
        (c.spellings language).getLast?.map (·.2.commandLine) := by
    simp only [Language.CommandTable.lastGiven?, spellings, List.filter_map, List.getLast?_map,
      Option.map_map, Function.comp_def]
  rw [commandTable_eq_enter,
    Language.CommandTable.commandFor_enter Language.CommandTable.formed_builtin, last]

/-- A spelling comes last if it is the greatest. -/
theorem getLast?_spellings (sorted : c.lsp.servers.Sorted) :
    (c.spellings language).getLast? = some (key, e) ↔
      (key, e) ∈ c.spellings language ∧ ∀ s ∈ c.spellings language, s.1 ≤ key := by
  have inOrder : (c.spellings language).Pairwise fun a b ↦ a.1 < b.1 := sorted.filter _
  have greatest {x : String × ServerEntry} (last : (c.spellings language).getLast? = some x) :
      ∀ s ∈ c.spellings language, s = x ∨ s.1 < x.1 := by
    obtain ⟨before, split⟩ := List.getLast?_eq_some_iff.mp last
    rw [split, List.pairwise_append] at inOrder
    intro s hs
    rw [split] at hs
    obtain hs | hs := List.mem_append.mp hs
    · exact .inr (inOrder.2.2 s hs x List.mem_cons_self)
    · exact .inl (List.mem_singleton.mp hs)
  constructor
  · intro last
    refine ⟨List.mem_of_getLast? last, fun s hs ↦ ?_⟩
    obtain rfl | less := greatest last s hs
    · exact String.le_refl _
    · exact Std.le_of_lt less
  · rintro ⟨mem, above⟩
    have nonempty := List.getLast?_isSome.mpr (List.ne_nil_of_mem mem)
    obtain ⟨x, last⟩ := Option.isSome_iff_exists.mp nonempty
    obtain same | less := greatest last _ mem
    · rw [last, same]
    · exact absurd (above x (List.mem_of_getLast? last)) (String.not_le.mpr less)

end Config

end LanguageHub

namespace LanguageHub

open Toml

variable {isExact : Bool} {given : Option Toml} {t : Toml}

namespace Schema

/-- What tells that entries are read as servers. -/
abbrev ServersFrom (entries : List (String × Toml)) (d : Dictionary ServerEntry) : Prop :=
  List.Forall₂ (fun x y ↦ x.1 = y.1 ∧ server true x.2 = .ok y.2) entries d.entries

private theorem isTable_of_servers {v : Toml} {d : Dictionary ServerEntry}
    (read : servers true v = .ok d) : v.IsTable := by
  cases v with
  | table entries => exact ⟨entries, rfl⟩
  | _ => cases read

private theorem serversFrom_of_gives {d : Dictionary ServerEntry}
    (h : Gives (servers true) .empty given d) : ServersFrom (entriesOf given) d := by
  cases given with
  | none =>
    cases h
    exact .nil
  | some v =>
    obtain ⟨entries, rfl⟩ := isTable_of_servers h
    exact servers_table_iff.mp h

private theorem servers_of_lsp_array {items : List Toml} {s : ServerSettings}
    (read : lsp true (.array items) = .ok s) : Gives (servers true) .empty items[2]? s.servers := by
  simp only [lsp, bind_eq_ok_iff] at read
  obtain ⟨enabled, -, seconds, -, servers?, hservers, h⟩ := read
  have same : servers?.getD .empty = s.servers := by
    unfold finish at h
    split at h
    · cases h
    · exact congrArg ServerSettings.servers (Except.ok.inj h)
  unfold element? at hservers
  cases given : items[2]? with
  | none =>
    rw [given] at hservers
    cases hservers
    exact same.symm
  | some v =>
    rw [given] at hservers
    obtain ⟨d, read, rfl⟩ := map_eq_ok_iff.mp hservers
    exact same ▸ read

end Schema

namespace Config

variable {below c : Config} {document : String}

/-- The entries for servers in a document. The group that they belong to may be written as an
array, in which they come third. -/
def serverEntries (t : Toml) : List (String × Toml) :=
  match t.at? ["lsp"] with
  | some (.array items) => entriesOf items[2]?
  | _ => entriesOf (t.at? serversPath)

private theorem at?_serversPath (t : Toml) :
    t.at? serversPath = (t.at? ["lsp"]).bind (at? ["servers"]) := at?_append ["lsp"] ["servers"] t

/-- The servers of a configuration over which a document was laid: those of the document, and
below them those that there were, unless the document writes the whole group as an array. -/
theorem servers_of_overlay (parsed : Toml.parse document = some t)
    (accepted : below.overlay document = .ok c) :
    Schema.ServersFrom (serverEntries t) c.lsp.servers ∨
      Schema.ServersFrom (mergeEntries below.serverTables (serverEntries t)) c.lsp.servers := by
  obtain ⟨-, _, parsed', read⟩ := overlay_eq_ok_iff.mp accepted
  cases parsed.symm.trans parsed'
  obtain ⟨formed, entries, rfl⟩ := wellFormed_of_parse parsed
  have distinct : (entries.map (·.1)).Nodup := (formed.sorted_entriesOf []).nodup
  rw [layer, Toml.merge, Schema.config_table_iff] at read
  have group := read.2
  rw [lookup_mergeEntries distinct] at group
  change Schema.Gives (Schema.lsp true) {}
    (layOver (some (lspToToml below.lsp)) (Dictionary.lookup "lsp" entries)) c.lsp at group
  rw [serverEntries, at?_serversPath, at?_singleton]
  cases upper : Dictionary.lookup "lsp" entries with
  | none =>
    rw [upper, layOver_none_right] at group
    exact .inr (Schema.serversFrom_of_gives (Schema.lsp_table_iff.mp group).2.2)
  | some v =>
    rw [upper] at group
    cases v with
    | table settings =>
      have inner : (settings.map (·.1)).Nodup := by
        have sorted := formed.sorted_entriesOf ["lsp"]
        rw [at?_singleton, upper] at sorted
        exact sorted.nodup
      rw [layOver, lspToToml, Toml.merge] at group
      have servers := (Schema.lsp_table_iff.mp group).2.2
      rw [lookup_mergeEntries inner] at servers
      change Schema.Gives (Schema.servers true) .empty
        (layOver (some (.table below.serverTables)) (Dictionary.lookup "servers" settings))
        c.lsp.servers at servers
      right
      simp only [Option.bind_some, at?_singleton]
      cases given : Dictionary.lookup "servers" settings with
      | none =>
        rw [given] at servers
        exact Schema.serversFrom_of_gives servers
      | some w =>
        rw [given] at servers
        by_cases table : w.IsTable
        · obtain ⟨es, rfl⟩ := table
          rw [layOver, Toml.merge] at servers
          exact Schema.serversFrom_of_gives servers
        · rw [layOver, merge_of_not_isTable table] at servers
          exact absurd (Schema.isTable_of_servers servers) table
    | array items => exact .inl (Schema.serversFrom_of_gives (Schema.servers_of_lsp_array group))
    | _ => cases group

private theorem sorted_serverEntries (formed : t.WellFormed) :
    Dictionary.Sorted ⟨serverEntries t⟩ := by
  unfold serverEntries
  split
  · next items found =>
    cases formed.at? found with
    | array inside =>
      exact sorted_entriesOf fun v hv ↦ inside v (List.mem_of_getElem? hv)
  · exact formed.sorted_entriesOf serversPath

/-- The servers of a configuration over which a document was laid are in order. -/
theorem sorted_of_overlay (sorted : below.lsp.servers.Sorted)
    (accepted : below.overlay document = .ok c) : c.lsp.servers.Sorted := by
  obtain ⟨-, t, parsed, -⟩ := overlay_eq_ok_iff.mp accepted
  have formed := (wellFormed_of_parse parsed).1
  have inherit {entries : List (String × Toml)} (inOrder : Dictionary.Sorted ⟨entries⟩)
      (read : Schema.ServersFrom entries c.lsp.servers) : c.lsp.servers.Sorted := by
    have keys := Dictionary.keys_of_forall₂ (R := (Schema.server true · = .ok ·)) read
    rw [Dictionary.sorted_iff, Dictionary.keys, ← keys]
    exact Dictionary.sorted_iff.mp inOrder
  obtain alone | merged := servers_of_overlay parsed accepted
  · exact inherit (sorted_serverEntries formed) alone
  · exact inherit (sorted_mergeEntries (sorted_serverTables sorted) _) merged

/-- The servers of a language under a key, over those of a configuration: a server of the document
is read by itself or over the one that there was under the key. -/
theorem server_of_overlay (parsed : Toml.parse document = some t)
    (accepted : below.overlay document = .ok c) (key : String) :
    Option.Rel (Schema.server true · = .ok ·) (Dictionary.lookup key (serverEntries t))
        (c.lsp.servers.get? key) ∨
      Option.Rel (Schema.server true · = .ok ·)
        (layOver ((below.lsp.servers.get? key).map ServerEntry.toToml)
          (Dictionary.lookup key (serverEntries t)))
        (c.lsp.servers.get? key) := by
  have distinct := (sorted_serverEntries (wellFormed_of_parse parsed).1).nodup
  refine (servers_of_overlay parsed accepted).imp (fun h ↦ ?_) fun h ↦ ?_
  · exact Dictionary.lookup_of_forall₂ h key
  · rw [← lookup_serverTables, ← lookup_mergeEntries distinct]
    exact Dictionary.lookup_of_forall₂ h key

/-! ### Loading -/

variable {files files' : FileTree} {directory start path key : String} {user : Config}

/-- The configuration of a user without that of a project. -/
def userLayer (files : FileTree) (directory : String) : Except ConfigFault Config := do
  let path := Path.join directory fileName
  let document ← readFile files path
  if hasContent document then overlayFile {} path document else .ok {}

theorem sorted_of_userLayer (h : userLayer files directory = .ok user) :
    user.lsp.servers.Sorted := by
  obtain ⟨document, -, h⟩ := bind_eq_ok_iff.mp h
  split at h
  · exact sorted_of_overlay Dictionary.sorted_empty (mapError_eq_ok_iff.mp h)
  · cases h
    exact Dictionary.sorted_empty

private theorem eq_of_validated (h : user.validated = .ok c) : c = user := by
  unfold validated at h
  split at h
  · exact (Except.ok.inj h).symm
  · cases h

private theorem overlay_of_projectLayer {user : Config}
    (found : findProject? files start = some path) (read : readFile files path = .ok document)
    (h : (match findProject? files start with
      | none => user.validated
      | some projectPath => do
        let whole ← overlayFile user projectPath (← readFile files projectPath)
        whole.validated) = .ok c) : user.overlay document = .ok c := by
  rw [found] at h
  simp only [bind_eq_ok_iff] at h
  obtain ⟨_, read', whole, overlaid, valid⟩ := h
  cases read.symm.trans read'
  rw [eq_of_validated valid]
  exact mapError_eq_ok_iff.mp overlaid

private theorem exists_user_of_readLayers
    (layers : readLayers files directory (some start) = .ok c)
    (found : findProject? files start = some path) (read : readFile files path = .ok document) :
    ∃ user, userLayer files directory = .ok user ∧ user.overlay document = .ok c := by
  obtain ⟨own, hown, layers⟩ := bind_eq_ok_iff.mp layers
  have userLayer_of {user : Config}
      (h : (if hasContent own then overlayFile {} (Path.join directory fileName) own else .ok {}) =
        .ok user) : userLayer files directory = .ok user :=
    bind_eq_ok_iff.mpr ⟨own, hown, h⟩
  dsimp only at layers
  split at layers
  · next content =>
    obtain ⟨user, huser, layers⟩ := bind_eq_ok_iff.mp layers
    exact ⟨user, userLayer_of (by rwa [if_pos content]), overlay_of_projectLayer found read layers⟩
  · next content =>
    obtain ⟨user, huser, layers⟩ := bind_eq_ok_iff.mp layers
    exact ⟨user, userLayer_of (by rwa [if_neg content]), overlay_of_projectLayer found read layers⟩

/-- What is loaded in a project is the configuration of the user with that of the project laid
over it. -/
theorem exists_user_of_load (loaded : load files directory (some start) = (.ok c, files'))
    (found : findProject? files' start = some path) (read : readFile files' path = .ok document) :
    ∃ user, userLayer files' directory = .ok user ∧ user.overlay document = .ok c := by
  unfold load at loaded
  split at loaded
  · cases (Prod.mk.inj loaded).1
  · obtain ⟨layers, rfl⟩ := Prod.mk.inj loaded
    exact exists_user_of_readLayers layers found read

/-! ### Which server takes effect -/

/-- A server that a document has under a key, read by itself or over the one that there was under
the key. -/
def ReadOver (user : Config) (key : String) (v : Toml) (e : ServerEntry) : Prop :=
  Schema.server true v = .ok e ∨
    ∃ old, user.lsp.servers.get? key = some old ∧ Schema.server true (old.toToml.merge v) = .ok e

private theorem exists_of_rel_left {α β : Type} {R : α → β → Prop} {a : α} {y : Option β}
    (h : Option.Rel R (some a) y) : ∃ b, y = some b ∧ R a b := by
  cases h with
  | some related => exact ⟨_, rfl, related⟩

private theorem exists_of_rel_right {α β : Type} {R : α → β → Prop} {x : Option α} {b : β}
    (h : Option.Rel R x (some b)) : ∃ a, x = some a ∧ R a b := by
  cases h with
  | some related => exact ⟨_, rfl, related⟩

/-- A server of a document is read. -/
theorem exists_readOver (parsed : Toml.parse document = some t)
    (accepted : user.overlay document = .ok c) {v : Toml}
    (given : Dictionary.lookup key (serverEntries t) = some v) :
    ∃ e, c.lsp.servers.get? key = some e ∧ ReadOver user key v e := by
  obtain alone | merged := server_of_overlay parsed accepted key
  · rw [given] at alone
    obtain ⟨e, he, read⟩ := exists_of_rel_left alone
    exact ⟨e, he, .inl read⟩
  · rw [given] at merged
    cases old : user.lsp.servers.get? key with
    | none =>
      rw [old] at merged
      obtain ⟨e, he, read⟩ := exists_of_rel_left merged
      exact ⟨e, he, .inl read⟩
    | some below =>
      rw [old] at merged
      obtain ⟨e, he, read⟩ := exists_of_rel_left merged
      exact ⟨e, he, .inr ⟨below, old, read⟩⟩

/-- A server that a document does not mention is the one that there was. -/
theorem kept_of_notMem (parsed : Toml.parse document = some t)
    (accepted : user.overlay document = .ok c) {e : ServerEntry}
    (absent : key ∉ (serverEntries t).map (·.1)) (found : c.lsp.servers.get? key = some e) :
    user.lsp.servers.get? key = some e := by
  have missing := Dictionary.lookup_eq_none_iff.mpr absent
  obtain alone | merged := server_of_overlay parsed accepted key
  · rw [missing, found] at alone
    cases alone
  · rw [missing, layOver_none_right, found] at merged
    obtain ⟨v, hv, read⟩ := exists_of_rel_right merged
    obtain ⟨below, old, rfl⟩ := Option.map_eq_some_iff.mp hv
    rw [old, Except.ok.inj ((server_toToml below).symm.trans read)]

/-- A server that stands before another one of the same language: its key is greater, and the
greatest of those that name the language. -/
structure Overrules (c : Config) (key other : String) (e : ServerEntry) : Prop where
  configured : c.lsp.servers.get? other = some e
  same : Language.normalize other = Language.normalize key
  greater : key < other
  greatest : ∀ third ∈ c.lsp.servers.keys,
    Language.normalize third = Language.normalize key → third ≤ other

/-- A server serves its language if and only if it has the same command line as the one that
overrules it, if there is one. -/
theorem commandFor_iff {e : ServerEntry} {language : String} (sorted : c.lsp.servers.Sorted)
    (configured : c.lsp.servers.get? key = some e)
    (same : Language.normalize language = Language.normalize key) :
    c.commandTable.commandFor language = e.commandLine ↔
      ∀ other f, Overrules c key other f → f.commandLine = e.commandLine := by
  have mem {k : String} {f : ServerEntry} : (k, f) ∈ c.spellings language ↔
      c.lsp.servers.get? k = some f ∧ Language.normalize k = Language.normalize key := by
    rw [mem_spellings, same]
    exact and_congr_left fun _ ↦
      ⟨Dictionary.lookup_of_mem sorted.nodup, Dictionary.mem_of_lookup⟩
  have own : (key, e) ∈ c.spellings language := mem.mpr ⟨configured, rfl⟩
  have nonempty := List.getLast?_isSome.mpr (List.ne_nil_of_mem own)
  obtain ⟨⟨last, f⟩, hlast⟩ := Option.isSome_iff_exists.mp nonempty
  obtain ⟨hf, greatest⟩ := (getLast?_spellings sorted).mp hlast
  have serves : c.commandTable.commandFor language = f.commandLine := by
    rw [commandFor_commandTable, hlast]
    rfl
  rw [serves]
  constructor
  · intro effective other g overrules
    have atEnd : (c.spellings language).getLast? = some (other, g) := by
      refine (getLast?_spellings sorted).mpr ⟨mem.mpr ⟨overrules.configured, overrules.same⟩, ?_⟩
      rintro ⟨third, h⟩ hthird
      obtain ⟨there, named⟩ := mem.mp hthird
      refine overrules.greatest third ?_ named
      exact Dictionary.isSome_lookup_iff.mp (Option.isSome_iff_exists.mpr ⟨h, there⟩)
    cases hlast.symm.trans atEnd
    exact effective
  · intro agree
    obtain ⟨there, named⟩ := mem.mp hf
    by_cases first : key = last
    · subst first
      cases there.symm.trans configured
      rfl
    · refine agree last f ⟨there, named, ?_, fun third hthird hnamed ↦ ?_⟩
      · exact Std.lt_of_le_of_ne (greatest _ own) first
      · obtain ⟨h, found⟩ := Option.isSome_iff_exists.mp (Dictionary.isSome_lookup_iff.mpr hthird)
        exact greatest (third, h) (mem.mpr ⟨found, hnamed⟩)

/-- The keys of the servers in a document. -/
def serverKeys (document : String) : List String :=
  (((Toml.parse document).map serverEntries).getD []).map (·.1)

/-- A server of a project takes effect for its language, however this is spelled, unless another
one overrules it that has another command line; and such a server is the user's, under another
spelling of the language that the key-wise laying over does not see. -/
theorem commandFor_iff_of_load (loaded : load files directory (some start) = (.ok c, files'))
    (found : findProject? files' start = some path) (read : readFile files' path = .ok document)
    (mem : key ∈ serverKeys document)
    (alone : ∀ other ∈ serverKeys document,
      Language.normalize other = Language.normalize key → other = key) :
    ∃ user e, userLayer files' directory = .ok user ∧ c.lsp.servers.get? key = some e ∧
      (∃ t v, Toml.parse document = some t ∧ (key, v) ∈ serverEntries t ∧ ReadOver user key v e) ∧
      (∀ other f, c.lsp.servers.get? other = some f →
        Language.normalize other = Language.normalize key →
        other ≠ key → user.lsp.servers.get? other = some f) ∧
      ∀ language, Language.normalize language = Language.normalize key →
        (c.commandTable.commandFor language = e.commandLine ↔
          ∀ other f, Overrules c key other f → f.commandLine = e.commandLine) := by
  obtain ⟨user, huser, accepted⟩ := exists_user_of_load loaded found read
  have userSorted := sorted_of_userLayer huser
  have sorted := sorted_of_overlay userSorted accepted
  obtain ⟨-, t, parsed, -⟩ := overlay_eq_ok_iff.mp accepted
  have keys : serverKeys document = (serverEntries t).map (·.1) := by
    rw [serverKeys, parsed]
    rfl
  rw [keys] at mem alone
  obtain ⟨v, hv⟩ := Option.isSome_iff_exists.mp (Dictionary.isSome_lookup_iff.mpr mem)
  obtain ⟨e, he, read⟩ := exists_readOver parsed accepted hv
  refine ⟨user, e, huser, he, ⟨t, v, parsed, Dictionary.mem_of_lookup hv, read⟩, ?_,
    fun language same ↦ commandFor_iff sorted he same⟩
  intro other f hf named different
  refine kept_of_notMem parsed accepted (fun known ↦ different ?_) hf
  exact alone other known named

/-- A document with a server for one language. -/
def serverDocument (key command : String) : String :=
  "[lsp.servers." ++ key ++ "]\ncommand = \"" ++ command ++ "\"\n"

/-- The files of a user and of a project that both have a server for one language. -/
def filesOfBoth (userKey projectKey : String) : FileTree :=
  let file (document : String) : FileEntry := .file document.toUTF8 false
  { entries := [
      (["home"], .directory), (["home", "config.toml"], file (serverDocument userKey "pylsp")),
      (["work"], .directory), (["work", ".polyglot"], .directory),
      (["work", ".polyglot", "config.toml"], file (serverDocument projectKey "pyright"))] }

/-- The configuration of a user and of a project that spell one language differently. -/
def configOfBoth (capital small : String) : Config :=
  { lsp := { servers := ⟨[("Python", ⟨capital, [], []⟩), ("python", ⟨small, [], []⟩)]⟩ } }

theorem commandFor_projectPython :
    (load (filesOfBoth "Python" "python") "/home" (some "/work")).1 =
        .ok (configOfBoth "pylsp" "pyright") ∧
      ∃ e, (configOfBoth "pylsp" "pyright").lsp.servers.get? "python" = some e ∧
        ((configOfBoth "pylsp" "pyright").commandTable.commandFor " PYTHON" = e.commandLine ↔
          ∀ other f, Overrules (configOfBoth "pylsp" "pyright") "python" other f →
            f.commandLine = e.commandLine) := by
  have result : (load (filesOfBoth "Python" "python") "/home" (some "/work")).1 =
      .ok (configOfBoth "pylsp" "pyright") := by
    decide +kernel
  have loaded : load (filesOfBoth "Python" "python") "/home" (some "/work") =
      (.ok (configOfBoth "pylsp" "pyright"),
        (load (filesOfBoth "Python" "python") "/home" (some "/work")).2) := by
    rw [← result]
  have found : findProject? (load (filesOfBoth "Python" "python") "/home" (some "/work")).2
      "/work" = some "/work/.polyglot/config.toml" := by
    decide +kernel
  have read : readFile (load (filesOfBoth "Python" "python") "/home" (some "/work")).2
      "/work/.polyglot/config.toml" = .ok (serverDocument "python" "pyright") := by
    decide +kernel
  have keys : serverKeys (serverDocument "python" "pyright") = ["python"] := by
    decide +kernel
  have mem : "python" ∈ serverKeys (serverDocument "python" "pyright") := by
    rw [keys]
    exact List.mem_cons_self
  have alone : ∀ other ∈ serverKeys (serverDocument "python" "pyright"),
      Language.normalize other = Language.normalize "python" → other = "python" := by
    rw [keys]
    exact fun other hother _ ↦ List.mem_singleton.mp hother
  obtain ⟨_, e, -, he, -, -, serves⟩ := commandFor_iff_of_load loaded found read mem alone
  exact ⟨result, e, he, serves " PYTHON" (by decide +kernel)⟩

/-- A server of a project for a language that its user spells in small letters and the project
with a capital has no effect. -/
theorem override_without_effect :
    (load (filesOfBoth "python" "Python") "/home" (some "/work")).1 =
        .ok (configOfBoth "pyright" "pylsp") ∧
      serverKeys (serverDocument "Python" "pyright") = ["Python"] ∧
      (configOfBoth "pyright" "pylsp").lsp.servers.get? "Python" = some ⟨"pyright", [], []⟩ ∧
      (configOfBoth "pyright" "pylsp").commandTable.commandFor "Python" = ["pylsp"] := by
  refine ⟨?_, ?_, ?_, ?_⟩ <;> decide +kernel

end Config

end LanguageHub
