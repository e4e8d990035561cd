import LanguageHub.Language.CommandTable
import LanguageHub.Proofs.Dictionary
import LanguageHub.Proofs.Language
import Mathlib.Data.Set.Card

/-!
# Commands of languages

Whatever is entered, a table of servers keeps its ids in order and holds no empty command line
(`CommandTable.Formed.insert`), which is why all look-ups of a language agree. What they find is
the command line that was given last under any spelling of the language, and nothing if that one is
empty (`CommandTable.holds_last_commands`).
-/

namespace LanguageHub.Language.CommandTable

variable {t : CommandTable} {s : ServerSpec} {id language : String} {command : List String}

/-! ### What a table keeps -/

/-- The ids stand in order, and no command line is empty. -/
structure Formed (t : CommandTable) : Prop where
  sorted : t.servers.Sorted
  nonempty : ∀ entry ∈ t.servers.entries, entry.2 ≠ []

theorem formed_empty : empty.Formed := ⟨Dictionary.sorted_empty, nofun⟩

theorem formed_builtin : builtin.Formed where
  sorted := Dictionary.sorted_ofList builtinServers
  nonempty entry mem := by
    have all : ∀ server ∈ builtinServers, server.2 ≠ [] := by decide
    exact all entry (Dictionary.mem_of_mem_ofList mem)

/-- Entering a server keeps a table formed, also if its command line is empty. -/
theorem Formed.insert (h : t.Formed) (s : ServerSpec) : (t.insert s).Formed := by
  unfold CommandTable.insert
  split
  · exact ⟨h.sorted.erase s.language, fun entry mem ↦ h.nonempty entry (List.mem_of_mem_filter mem)⟩
  · next proper =>
    refine ⟨h.sorted.insert s.language s.command, fun entry mem ↦ ?_⟩
    obtain rfl | old := Dictionary.mem_insertEntry mem
    · exact mt List.isEmpty_iff.mpr proper
    · exact h.nonempty entry old

/-- What is found under an id is no empty command line. -/
theorem Formed.ne_nil_of_get? (h : t.Formed) (found : t.servers.get? id = some command) :
    command ≠ [] :=
  h.nonempty (id, command) (Dictionary.mem_of_lookup found)

/-- A formed table lists each id once. -/
theorem Formed.size_eq (h : t.Formed) : t.size = {id | id ∈ t.languages}.ncard := by
  have distinct : t.languages.Nodup := h.sorted.nodup
  have listed : {id | id ∈ t.languages} = (t.languages.toFinset : Set String) := by
    rw [List.coe_toFinset]
  rw [listed, Set.ncard_coe_finset, List.toFinset_card_of_nodup distinct]
  exact (List.length_map _).symm

/-! ### Look-ups -/

theorem mem_languages_iff : id ∈ t.languages ↔ ∃ command, t.servers.get? id = some command :=
  Dictionary.isSome_lookup_iff.symm.trans Option.isSome_iff_exists

theorem specFor?_eq_some_iff : t.specFor? language = some s ↔
    t.servers.get? (normalize language) = some s.command ∧ s.language = normalize language := by
  rw [specFor?, Option.map_eq_some_iff]
  constructor
  · rintro ⟨command, found, rfl⟩
    exact ⟨found, rfl⟩
  · rintro ⟨found, named⟩
    exact ⟨s.command, found, named ▸ rfl⟩

/-- A server of a language is found if and only if the normalized id is listed. -/
theorem isSome_specFor?_iff (t : CommandTable) (language : String) :
    (t.specFor? language).isSome ↔ normalize language ∈ t.languages := by
  rw [specFor?, Option.isSome_map]
  exact Dictionary.isSome_lookup_iff

/-- A language is served if and only if a server of it is found. Of a table with an empty command
line this would be wrong. -/
theorem Formed.supports_iff (h : t.Formed) (language : String) :
    t.supports language ↔ (t.specFor? language).isSome := by
  unfold supports commandFor specFor?
  cases found : t.servers.get? (normalize language) with
  | none => simp
  | some command => simpa using h.ne_nil_of_get? found

/-! ### Entering servers one by one -/

/-- Enter servers one by one, each given by a language and a command line. -/
def enter (t : CommandTable) (given : List (String × List String)) : CommandTable :=
  given.foldl (fun t g ↦ t.insert (.make g.1 g.2)) t

/-- The command line that was given last under a spelling of a normalized id. -/
def lastGiven? (given : List (String × List String)) (id : String) : Option (List String) :=
  (given.filter fun g ↦ normalize g.1 = id).getLast?.map (·.2)

variable {given : List (String × List String)}

theorem enter_concat (t : CommandTable) (given : List (String × List String))
    (g : String × List String) :
    t.enter (given ++ [g]) = (t.enter given).insert (.make g.1 g.2) :=
  List.foldl_concat ..

theorem lastGiven?_concat (given : List (String × List String)) (g : String × List String)
    (id : String) : lastGiven? (given ++ [g]) id =
      if id = normalize g.1 then some g.2 else lastGiven? given id := by
  rw [lastGiven?, List.filter_append]
  split
  · next same =>
    rw [List.filter_cons_of_pos (by simpa using same.symm), List.filter_nil, List.getLast?_concat,
      Option.map_some]
  · next other =>
    rw [List.filter_cons_of_neg (by simpa using Ne.symm other), List.filter_nil, List.append_nil,
      lastGiven?]

/-- An id under which a command line was given is normalized. -/
theorem normalize_of_lastGiven? (last : lastGiven? given id = some command) :
    normalize id = id := by
  obtain ⟨g, hg, -⟩ := Option.map_eq_some_iff.mp last
  have named := List.of_mem_filter (List.mem_of_getLast? hg)
  rw [← of_decide_eq_true named, normalize_normalize]

theorem Formed.enter (h : t.Formed) (given : List (String × List String)) :
    (t.enter given).Formed := by
  induction given using List.reverseRecOn with
  | nil => exact h
  | append_singleton given g ih =>
    rw [enter_concat]
    exact ih.insert (.make g.1 g.2)

/-- What is found under an id after a server was entered: its command line if it has this id, and
then nothing if the command line is empty. -/
theorem get?_insert (t : CommandTable) (s : ServerSpec) (id : String) :
    (t.insert s).servers.get? id =
      if id = s.language then (some s.command).filter (· ≠ []) else t.servers.get? id := by
  by_cases none : s.command = []
  · have erased : t.insert s = ⟨t.servers.erase s.language⟩ := if_pos (List.isEmpty_iff.mpr none)
    rw [erased, Dictionary.get?_erase, none]
    rfl
  · have put : t.insert s = ⟨t.servers.insert s.language s.command⟩ :=
      if_neg (mt List.isEmpty_iff.mp none)
    rw [put, Dictionary.get?_insert, Option.filter_some, if_pos (decide_eq_true none)]

/-- What is found under an id after servers were entered is the command line that was given last,
or else what was found before, unless it is empty. -/
theorem get?_enter (h : t.Formed) (given : List (String × List String)) (id : String) :
    (t.enter given).servers.get? id =
      ((lastGiven? given id).or (t.servers.get? id)).filter (· ≠ []) := by
  induction given using List.reverseRecOn with
  | nil =>
    -- Nothing is filtered out of what was there before, for it is no empty command line.
    change t.servers.get? id = (t.servers.get? id).filter (· ≠ [])
    cases found : t.servers.get? id with
    | none => rfl
    | some command => rw [Option.filter_some, if_pos (by simpa using h.ne_nil_of_get? found)]
  | append_singleton given g ih =>
    rw [enter_concat, get?_insert, ih, lastGiven?_concat, ServerSpec.make]
    split <;> rfl

/-- A language is served by the command line that was given last for it, and without one as
before. -/
theorem commandFor_enter (h : t.Formed) (given : List (String × List String))
    (language : String) : (t.enter given).commandFor language =
      (lastGiven? given (normalize language)).getD (t.commandFor language) := by
  have plain (found : Option (List String)) : (found.filter (· ≠ [])).getD [] = found.getD [] := by
    cases found with
    | none => rfl
    | some command => cases command <;> rfl
  rw [commandFor, get?_enter h, plain, Option.getD_or, commandFor]

/-! ### Tables from the beginning -/

/-- The tables into which servers are entered. -/
inductive Origin where
  | empty
  | builtin

namespace Origin

variable {origin : Origin}

/-- The table that there is to begin with. -/
def table : Origin → CommandTable
  | empty => .empty
  | builtin => .builtin

/-- The command lines that are known to begin with. -/
def servers : Origin → List (String × List String)
  | empty => []
  | builtin => builtinServers

/-- The command line that was given last for a normalized id: with the last server entered for it,
or else to begin with. It is empty if the language was taken out. -/
def lastCommand? (origin : Origin) (given : List (String × List String)) (id : String) :
    Option (List String) :=
  (lastGiven? given id).or (Dictionary.lookup id origin.servers)

theorem formed_table (origin : Origin) : origin.table.Formed := by
  cases origin with
  | empty => exact formed_empty
  | builtin => exact formed_builtin

theorem get?_table (origin : Origin) (id : String) :
    origin.table.servers.get? id = Dictionary.lookup id origin.servers := by
  cases origin with
  | empty => rfl
  | builtin =>
    have distinct : (builtinServers.map (·.1)).Nodup := by decide
    exact Dictionary.get?_ofList distinct id

/-- An id under which there ever was a command line is normalized. -/
theorem normalize_of_lastCommand? (last : origin.lastCommand? given id = some command) :
    normalize id = id := by
  obtain entered | ⟨-, known⟩ := Option.or_eq_some_iff.mp last
  · exact normalize_of_lastGiven? entered
  · cases origin with
    | empty => cases known
    | builtin =>
      have all : ∀ server ∈ builtinServers, normalize server.1 = server.1 := by decide +kernel
      exact all (id, command) (Dictionary.mem_of_lookup known)

/-- A command line is found under an id if and only if it was given last and is not empty. -/
theorem get?_enter_table_eq_some_iff : (origin.table.enter given).servers.get? id = some command ↔
    origin.lastCommand? given id = some command ∧ command ≠ [] := by
  rw [get?_enter origin.formed_table, get?_table, Option.filter_eq_some_iff, decide_eq_true_eq,
    lastCommand?]

end Origin

/-- The ids that are served if these are the command lines that were given last. -/
def served (last? : String → Option (List String)) : Set String :=
  {id | ∃ command, last? id = some command ∧ command ≠ []}

/-- A table holds the command lines that were given last, except empty ones, and all look-ups of a
language find the same. -/
structure Holds (t : CommandTable) (last? : String → Option (List String)) : Prop where
  nonempty : ∀ entry ∈ t.servers.entries, entry.2 ≠ []
  increasing : t.languages.Pairwise (· < ·)
  normalized : ∀ id ∈ t.languages, normalize id = id
  listed : ∀ id, id ∈ t.languages ↔ id ∈ served last?
  counted : t.size = (served last?).ncard
  supported : ∀ language, t.supports language ↔ (t.specFor? language).isSome
  found : ∀ language, (t.specFor? language).isSome ↔ normalize language ∈ t.languages
  /-- The server that is found for a language has the command line that is found for it, and this
  is the one that was given last. -/
  command : ∀ language s, t.specFor? language = some s →
    s.language = normalize language ∧ t.commandFor language = s.command ∧
      last? (normalize language) = some s.command

/-- A table into which servers were entered, from nothing or from the built-in ones, holds for each
language the command line that was given last. It lists and counts the languages for which this is
not empty, and serves these and no others. -/
theorem holds_last_commands (origin : Origin) (given : List (String × List String)) :
    (origin.table.enter given).Holds (origin.lastCommand? given) := by
  have formed := origin.formed_table.enter given
  have listed (id : String) : id ∈ (origin.table.enter given).languages ↔
      id ∈ served (origin.lastCommand? given) :=
    mem_languages_iff.trans (exists_congr fun _ ↦ Origin.get?_enter_table_eq_some_iff)
  have normalized : ∀ id ∈ (origin.table.enter given).languages, normalize id = id := by
    intro id mem
    obtain ⟨_, last, -⟩ := (listed id).mp mem
    exact Origin.normalize_of_lastCommand? last
  refine ⟨formed.nonempty, Dictionary.sorted_iff.mp formed.sorted, normalized, listed, ?_,
    formed.supports_iff, isSome_specFor?_iff _, ?_⟩
  · rw [formed.size_eq]
    exact congrArg Set.ncard (Set.ext listed)
  · intro language s hs
    obtain ⟨there, named⟩ := specFor?_eq_some_iff.mp hs
    refine ⟨named, ?_, (Origin.get?_enter_table_eq_some_iff.mp there).1⟩
    rw [commandFor, there, Option.getD_some]

/-- Other spellings replace a built-in server, take one out, and bring a language in again that was
taken out. -/
example :
    let t := builtin.enter [("Python", ["pyright"]), (" JAVA", []), ("zig", []), ("Zig ", ["zls"])]
    t.commandFor "python" = ["pyright"] ∧ t.supports "java" = false ∧ t.size = 13 ∧
      t.specFor? "ZIG" = some ⟨"zig", ["zls"]⟩ := by
  decide +kernel

end LanguageHub.Language.CommandTable
