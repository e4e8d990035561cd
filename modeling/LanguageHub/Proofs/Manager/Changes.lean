import LanguageHub.Manager.Session
import LanguageHub.Proofs.Client.Operations
import LanguageHub.Proofs.Manager.Occurrences

/-!
# What operations make of a manager

An operation changes a manager in a few ways only: it changes a client as operations of clients do,
starts one, joins or leaves the line at a gate, and enters or removes clients in the registry. An
operation on the client of a language does all but the first for this language alone. What none of
these does to a manager, no operation does.
-/

namespace LanguageHub

namespace Client

variable {a : Agent} {c d e : Client}

theorem Moves.refl (c : Client) : Moves a c c := (Keeps.refl c).toMoves

theorem Moves.trans (first : Moves a c d) (second : Moves a d e) : Moves a c e where
  connection := first.connection.trans second.connection
  diagnostics := second.diagnostics.trans first.diagnostics
  language := second.language.trans first.language
  limit := second.limit.trans first.limit
  gone := second.gone ∘ first.gone

end Client

namespace Manager

/-- What an operation that is about some languages makes of a manager, step by step. -/
inductive Moves (a : Agent) (about : String → Prop) (m : Manager) : Manager → Prop where
  | refl : Moves a about m m
  | changes {n : Manager} {i : Nat} {c d : Client} (before : Moves a about m n)
      (client : n.client? i = some c) (moves : Client.Moves a c d) :
      Moves a about m (n.setClient i d)
  | launches {n : Manager} {language : String} {limit : Option Duration}
      (before : Moves a about m n) (own : about language) (command : List String)
      (given : limit = none ∨ limit = n.limit) :
      Moves a about m (n.launch language command limit).2
  | joins {n : Manager} {language : String} (before : Moves a about m n) (own : about language) :
      Moves a about m (n.joinGate language a)
  | leaves {n : Manager} {language : String} (before : Moves a about m n) (own : about language) :
      Moves a about m (n.leaveGate language a)
  | registers {n : Manager} {registry : Dictionary Nat} (before : Moves a about m n)
      (others : ∀ language, ¬ about language →
        registry.get? language = n.registry.get? language) :
      Moves a about m { n with registry }

namespace Moves

variable {a : Agent} {about : String → Prop} {m n k : Manager}

theorem trans (first : Moves a about m n) (second : Moves a about n k) : Moves a about m k := by
  induction second with
  | refl => exact first
  | changes _ client moves ih => exact ih.changes client moves
  | launches _ own command given ih => exact ih.launches own command given
  | joins _ own ih => exact ih.joins own
  | leaves _ own ih => exact ih.leaves own
  | registers _ others ih => exact ih.registers others

/-- An operation may be about more languages. -/
theorem mono (moves : Moves a about m n) {more : String → Prop}
    (within : ∀ language, about language → more language) : Moves a more m n := by
  induction moves with
  | refl => exact .refl
  | changes _ client moves ih => exact ih.changes client moves
  | launches _ own command given ih => exact ih.launches (within _ own) command given
  | joins _ own ih => exact ih.joins (within _ own)
  | leaves _ own ih => exact ih.leaves (within _ own)
  | registers _ others ih =>
    exact ih.registers fun language other ↦ others language (mt (within language) other)

/-- No operation changes what a manager was set up with. -/
theorem settings (moves : Moves a about m n) :
    n.commands = m.commands ∧ n.resolver = m.resolver ∧ n.root = m.root ∧
      n.directory = m.directory := by
  induction moves with
  | refl => exact ⟨rfl, rfl, rfl, rfl⟩
  | changes _ _ _ ih => exact ih
  | launches _ _ _ _ ih => exact ih
  | joins _ _ ih => exact ih
  | leaves _ _ ih => exact ih
  | registers _ _ ih => exact ih

/-- The time that requests are given stays the same. -/
theorem limit (moves : Moves a about m n) : n.limit = m.limit := by
  induction moves with
  | refl => rfl
  | changes _ _ _ ih => exact ih
  | launches _ _ _ _ ih => exact ih
  | joins _ _ ih => exact ih
  | leaves _ _ ih => exact ih
  | registers _ _ ih => exact ih

/-- Clients of other languages are neither entered nor removed. -/
theorem get?_registry (moves : Moves a about m n) {language : String} (other : ¬ about language) :
    n.registry.get? language = m.registry.get? language := by
  induction moves with
  | refl => rfl
  | changes _ _ _ ih => exact ih
  | launches _ _ _ _ ih => exact ih
  | joins _ _ ih => exact ih
  | leaves _ _ ih => exact ih
  | registers _ others ih => exact (others language other).trans ih

/-- The gates of other languages are left alone. -/
theorem gate (moves : Moves a about m n) {language : String} (other : ¬ about language) :
    n.gate language = m.gate language := by
  induction moves with
  | refl => rfl
  | changes _ _ _ ih => exact ih
  | launches _ _ _ _ ih => exact ih
  | joins _ own ih =>
    rw [gate_joinGate, if_neg, ih]
    rintro rfl
    exact other own
  | leaves _ own ih =>
    rw [gate_leaveGate, if_neg, ih]
    rintro rfl
    exact other own
  | registers _ _ ih => exact ih

/-- An operation that is about no language starts no client. -/
theorem client?_eq_none (moves : Moves a about m n) (silent : ∀ language, ¬ about language)
    {i : Nat} (absent : m.client? i = none) : n.client? i = none := by
  induction moves with
  | refl => exact absent
  | changes _ client _ ih =>
    rw [client?_setClient_of_some client, if_neg, ih]
    rintro rfl
    rw [ih] at client
    cases client
  | launches _ own _ _ _ => exact absurd own (silent _)
  | joins _ _ ih => exact ih
  | leaves _ _ ih => exact ih
  | registers _ _ ih => exact ih

/-- A client stays, and is changed as operations of clients do. -/
theorem exists_client? (moves : Moves a about m n) {i : Nat} {c : Client}
    (client : m.client? i = some c) : ∃ d, n.client? i = some d ∧ c.Moves a d := by
  induction moves with
  | refl => exact ⟨c, client, .refl c⟩
  | @changes n j e d _ client' moves ih =>
    obtain ⟨e', found, before⟩ := ih
    rw [client?_setClient_of_some client']
    split
    · next same =>
      subst same
      rw [client'] at found
      cases found
      exact ⟨d, rfl, before.trans moves⟩
    · exact ⟨e', found, before⟩
  | @launches n language limit _ _ command _ ih =>
    obtain ⟨e, found, before⟩ := ih
    obtain ⟨d, launched, -, -⟩ := n.launch_eq language command limit
    rw [launched, client?_addClient]
    refine ⟨e, (if_neg ?_).trans found, before⟩
    rintro rfl
    rw [client?_length] at found
    cases found
  | joins _ _ ih => exact ih
  | leaves _ _ ih => exact ih
  | registers _ _ ih => exact ih

/-- What holds of every client, of one that was just launched as well, and what operations of
clients keep. -/
theorem all_clients (moves : Moves a about m n) {P : Client → Prop}
    (fresh : ∀ language limit capacity, limit = none ∨ limit = m.limit → P {
      language, limit
      connection := .ofTransport { sink.capacity := some capacity } false
      child := some .running })
    (keeps : ∀ c d, P c → c.Moves a d → P d) (all : ∀ i c, m.client? i = some c → P c) {i : Nat}
    {d : Client} (client : n.client? i = some d) : P d := by
  induction moves generalizing i d with
  | refl => exact all i d client
  | changes _ client' moves ih =>
    obtain ⟨-, rfl⟩ | ⟨-, found⟩ := eq_or_client?_of_setClient client' client
    · exact keeps _ _ (ih client') moves
    · exact ih found
  | @launches n language limit before _ command given ih =>
    have launched : ((n.addClient ⟨command, {
        language, limit
        connection := .ofTransport { sink.capacity := some n.capacity } false
        child := some .running }⟩).client? i) = some d := client
    rw [client?_addClient] at launched
    split at launched
    · cases launched
      rw [before.limit] at given
      exact fresh language limit n.capacity given
    · exact ih launched
  | joins _ _ ih => exact ih client
  | leaves _ _ ih => exact ih client
  | registers _ _ ih => exact ih client

end Moves

end Manager

open Manager (Moves)

variable {a : Agent} {now : Nat} {refusal : Refusal} {language : String}

/-! ### The way to a client -/

namespace Obtaining

variable {m n : Manager} {p : Progress Obtaining Outcome}

/-- The end of a way. -/
theorem moves_finish (a : Agent) (language : String) (hasGate : Bool) (answer : Outcome)
    (m : Manager) : m.Moves a (· = language) (finish a language hasGate answer m).2 := by
  unfold finish
  split
  · exact .leaves .refl rfl
  · exact .refl

/-- The start of a client. -/
theorem moves_launch (a : Agent) (refusal : Refusal) (language : String) (m : Manager) :
    m.Moves a (· = language) (launch a refusal language m).2 := by
  unfold launch
  simp only
  split
  · exact moves_finish ..
  · exact moves_finish ..
  · have launched := Moves.launches (.refl : m.Moves a (· = language) m) rfl
      (m.commands.commandFor language) (.inr rfl)
    split
    · exact launched.trans (moves_finish ..)
    · next c client =>
      have keeps := Connecting.keeps_start a (Connecting.greeting 0
        ((m.launch language (m.commands.commandFor language) m.limit).2.uriOf
          (m.launch language (m.commands.commandFor language) m.limit).2.root)) c
      split
      all_goals
        next hstart =>
        rw [hstart] at keeps
        have changed := launched.changes client keeps.toMoves
        first
          | exact changed
          | exact changed.trans (moves_finish ..)

/-- A way that goes on without a registered client. -/
theorem moves_goOn (a : Agent) (refusal : Refusal) (language : String) (hasGate : Bool)
    (m : Manager) : m.Moves a (· = language) (goOn a refusal language hasGate m).2 := by
  unfold goOn
  split
  · exact moves_launch ..
  · split
    · exact .joins .refl rfl
    · exact .refl

/-- The look for a registered client. -/
theorem moves_seek (a : Agent) (now : Nat) (refusal : Refusal) (language : String)
    (hasGate : Bool) (m : Manager) :
    m.Moves a (· = language) (seek a now refusal language hasGate m).2 := by
  unfold seek
  split
  · exact moves_goOn ..
  · split
    · exact moves_goOn ..
    · next i c client =>
      split
      · exact moves_finish ..
      · have erased : m.Moves a (· = language)
            { m with registry := m.registry.erase language } :=
          .registers .refl fun other different ↦ by
            rw [Dictionary.get?_erase, if_neg different]
        have keeps := Shutdown.keeps_start a now c
        simp only
        split
        all_goals
          next hstart =>
          rw [hstart] at keeps
          have changed := erased.changes client keeps.toMoves
          first
            | exact changed
            | exact changed.trans (moves_goOn ..)

/-- The begin of a way. -/
theorem moves_start (h : start a now refusal language m = (p, n)) :
    m.Moves a (· = language) n := by
  have moves := moves_seek a now refusal language false m
  unfold start at h
  rwa [h] at moves

/-- The registration of a client. -/
theorem moves_publish (a : Agent) (now : Nat) (language : String) (i : Nat) (m : Manager) :
    m.Moves a (· = language) (publish a now language i m).2 := by
  have entered : m.Moves a (· = language)
      { m with registry := m.registry.insert language i } :=
    .registers .refl fun other different ↦ by rw [Dictionary.get?_insert, if_neg different]
  unfold publish
  simp only
  split
  · exact entered.trans (moves_finish ..)
  · split
    · exact entered.trans (moves_finish ..)
    · next c client =>
      have keeps := Shutdown.keeps_start a now c
      split
      all_goals
        next hstart =>
        rw [hstart] at keeps
        have changed := entered.changes client keeps.toMoves
        first
          | exact changed
          | exact changed.trans (moves_finish ..)

/-- A step of the way to a client. -/
theorem moves_step? {o : Obtaining} (step : o.step? a now refusal language m = some (p, n)) :
    m.Moves a (· = language) n := by
  cases o with
  | queued =>
    simp only [step?] at step
    split at step
    · have moves := moves_seek a now refusal language true m
      rwa [Option.some.inj step] at moves
    · cases step
  | evicting hasGate i k =>
    simp only [step?, Option.bind_eq_bind, Option.bind_eq_some_iff, Prod.exists] at step
    obtain ⟨c, client, q, d, hstep, h⟩ := step
    have changed : m.Moves a (· = language) (m.setClient i d) :=
      .changes .refl client (Shutdown.keeps_of_step? hstep).toMoves
    cases q with
    | running =>
      cases h
      exact changed
    | finished =>
      have moves := moves_goOn a refusal language hasGate (m.setClient i d)
      rw [Option.some.inj h] at moves
      exact changed.trans moves
  | connecting i k =>
    simp only [step?, Option.bind_eq_bind, Option.bind_eq_some_iff, Prod.exists] at step
    obtain ⟨c, client, q, d, hstep, h⟩ := step
    have changed : m.Moves a (· = language) (m.setClient i d) :=
      .changes .refl client (Connecting.keeps_of_step? hstep).toMoves
    rcases q with _ | (_ | _)
    · cases h
      exact changed
    · cases h
      exact changed.leaves rfl
    · have moves := moves_publish a now language i (m.setClient i d)
      rw [Option.some.inj h] at moves
      exact changed.trans moves
  | displacing i j k =>
    simp only [step?, Option.bind_eq_bind, Option.bind_eq_some_iff, Prod.exists] at step
    obtain ⟨c, client, q, d, hstep, h⟩ := step
    have changed : m.Moves a (· = language) (m.setClient j d) :=
      .changes .refl client (Shutdown.keeps_of_step? hstep).toMoves
    cases q with
    | running =>
      cases h
      exact changed
    | finished =>
      have moves := moves_finish a language true (.ok i) (m.setClient j d)
      cases h
      exact changed.trans moves

end Obtaining

/-! ### Operations -/

namespace ManagerTask

variable {m n : Manager} {about : String → Prop} {p : Progress ManagerTask ManagerAnswer}

/-- The use of a client. -/
theorem moves_serve (a : Agent) (about : String → Prop) (goal : Goal) (i : Nat) (m : Manager) :
    m.Moves a about (serve a goal i m).2 := by
  unfold serve
  split
  · exact .refl
  · next c client =>
    cases goal with
    | client => exact .refl
    | document r =>
      have moves := Client.moves_startDocument a r c
      simp only
      split <;> next hstart => rw [hstart] at moves; exact .changes .refl client moves
    | completion uri position =>
      have keeps := Client.keeps_startCompletion a uri position c
      simp only
      split <;> next hstart => rw [hstart] at keeps; exact .changes .refl client keeps.toMoves

/-- What follows a way to a client. -/
theorem moves_follow (a : Agent) (about : String → Prop) (language : String) (goal : Goal)
    (q : Progress Obtaining Obtaining.Outcome) (m : Manager) :
    m.Moves a about (follow a language goal (q, m)).2 := by
  rcases q with _ | (_ | i)
  · exact .refl
  · exact .refl
  · exact moves_serve a about goal i m

/-- The start of an operation on the client of a language. -/
theorem moves_obtain (a : Agent) (now : Nat) (refusal : Refusal) (language : String)
    (goal : Goal) (m : Manager) :
    m.Moves a (· = language) (obtain a now refusal (.ok language) goal m).2 :=
  (Obtaining.moves_seek a now refusal language false m).trans (moves_follow ..)

/-- The shutdown of a list of clients. -/
theorem moves_shutDownAll (a : Agent) (about : String → Prop) (now : Nat) (is : List Nat)
    (m : Manager) : m.Moves a about (shutDownAll a now is m).2 := by
  induction is generalizing m with
  | nil => exact .refl
  | cons i others ih =>
    unfold shutDownAll
    split
    · exact ih m
    · next c client =>
      have keeps := Shutdown.keeps_start a now c
      split
      all_goals
        next hstart =>
        rw [hstart] at keeps
        have changed : m.Moves a about _ := .changes .refl client keeps.toMoves
        first
          | exact changed
          | exact changed.trans (ih _)

/-- The start of a client that is not registered. -/
theorem moves_startUnregistered (a : Agent) (refusal : Refusal) (own : about language)
    (command : List String) (m : Manager) :
    m.Moves a about (startUnregistered a refusal language command m).2 := by
  unfold startUnregistered
  split
  · exact .refl
  · exact .refl
  · have launched : m.Moves a about (m.launch language command none).2 :=
      .launches .refl own command (.inl rfl)
    simp only
    split
    · exact launched
    · next c client =>
      have keeps := Connecting.keeps_start a (Connecting.greeting 0
        ((m.launch language command none).2.uriOf (m.launch language command none).2.directory)) c
      split <;> next hstart => rw [hstart] at keeps; exact launched.changes client keeps.toMoves

/-- The start of an operation. It is about the language whose client it obtains or starts, and the
shutdown of all clients about all languages. -/
theorem moves_start (a : Agent) (now : Nat) (refusal : Refusal) (r : ManagerRequest)
    (m : Manager) (own : ∀ language, r.language? m = some language → about language)
    (all : r = .shutdown → ∀ language, about language)
    (unmanaged : ∀ language command, r = .start language command → about language) :
    m.Moves a about (start a now refusal r m).2 := by
  have obtains {spoken : Except Failure String} (goal : Goal)
      (own : ∀ language, spoken.toOption = some language → about language) :
      m.Moves a about (obtain a now refusal spoken goal m).2 := by
    cases spoken with
    | error => exact .refl
    | ok language =>
      exact (moves_obtain a now refusal language goal m).mono fun _ same ↦
        same ▸ own language rfl
  cases r with
  | opened | changed | saved | completion | client =>
    simp only [start]
    exact obtains _ own
  | shutdown =>
    have cleared : m.Moves a about { m with registry := .empty } :=
      .registers .refl fun language other ↦ absurd (all rfl language) other
    exact cleared.trans (moves_shutDownAll ..)
  | stop i => exact moves_shutDownAll a about now [i] m
  | start language command => exact moves_startUnregistered a refusal (unmanaged _ _ rfl) command m

/-- A step of an operation. It is about the language whose client it is on the way to. -/
theorem moves_step? {task : ManagerTask}
    (own : ∀ language goal o, task = .obtaining language goal o → about language)
    (step : task.step? a now refusal m = some (p, n)) : m.Moves a about n := by
  cases task with
  | obtaining language goal o =>
    simp only [step?, Option.map_eq_some_iff, Prod.exists] at step
    obtain ⟨q, k, hway, h⟩ := step
    have way : m.Moves a about k := (Obtaining.moves_step? hway).mono fun _ same ↦
      same ▸ own language goal o rfl
    have moves := moves_follow a about language goal q k
    rw [h] at moves
    exact way.trans moves
  | document i call =>
    simp only [step?, Option.bind_eq_bind, Option.bind_eq_some_iff, Prod.exists] at step
    obtain ⟨c, client, q, d, hstep, h⟩ := step
    have keeps := Client.keeps_stepNotice? hstep
    cases q <;> cases h <;> exact .changes .refl client keeps.toMoves
  | completion i call =>
    simp only [step?, Option.bind_eq_bind, Option.bind_eq_some_iff, Prod.exists] at step
    obtain ⟨c, client, q, d, hstep, h⟩ := step
    have keeps := Client.keeps_stepCompletion? hstep
    cases q <;> cases h <;> exact .changes .refl client keeps.toMoves
  | shutdown i k others =>
    simp only [step?, Option.bind_eq_bind, Option.bind_eq_some_iff, Prod.exists] at step
    obtain ⟨c, client, q, d, hstep, h⟩ := step
    have changed : m.Moves a about (m.setClient i d) :=
      .changes .refl client (Shutdown.keeps_of_step? hstep).toMoves
    cases q with
    | running =>
      cases h
      exact changed
    | finished =>
      have moves := moves_shutDownAll a about now others (m.setClient i d)
      rw [Option.some.inj h] at moves
      exact changed.trans moves
  | starting i k =>
    simp only [step?, Option.bind_eq_bind, Option.bind_eq_some_iff, Prod.exists] at step
    obtain ⟨c, client, q, d, hstep, h⟩ := step
    have keeps := Connecting.keeps_of_step? hstep
    cases q <;> cases h <;> exact .changes .refl client keeps.toMoves

end ManagerTask

/-! ### What happens beside operations -/

namespace ManagerSession

variable {s t : ManagerSession} {i : Nat}

/-- A step of the task that reads of a client changes this client alone. -/
theorem exists_stepReading? (step : s.advanceReading? i = some t) :
    ∃ c d event, s.manager.client? i = some c ∧ c.stepReading? = some (d, event) ∧
      t.manager = s.manager.setClient i d ∧ t.tasks = s.tasks := by
  simp only [advanceReading?, Option.bind_eq_bind, Option.bind_eq_some_iff, Prod.exists] at step
  obtain ⟨c, client, d, event, hstep, h⟩ := step
  refine ⟨c, d, event, client, hstep, ?_⟩
  rcases event with _ | (_ | _)
  · cases h
    exact ⟨rfl, rfl⟩
  · cases h
    simp only [observe]
    split <;> exact ⟨rfl, rfl⟩
  · cases h
    exact ⟨rfl, rfl⟩

/-- An event changes at most one client, as its server does. -/
theorem exists_apply (s : ManagerSession) (e : Event) :
    (s.happen e).tasks = s.tasks ∧ ((s.happen e).manager = s.manager ∨
      ∃ (i : Nat) (c : Client) (event : ServerEvent), s.manager.client? i = some c ∧
        (s.happen e).manager = s.manager.setClient i (event.apply c)) := by
  cases e with
  | tick | setCallback => exact ⟨rfl, .inl rfl⟩
  | server i event =>
    simp only [happen, mapClient]
    split
    · next c client => exact ⟨rfl, .inr ⟨i, c, event, client, rfl⟩⟩
    · exact ⟨rfl, .inl rfl⟩

end ManagerSession

end LanguageHub
