import LanguageHub.Proofs.Client.Serving

/-!
# The stages of a client

A client begins, asks the server, tells it that the handshake is complete, and then serves until it
is shut down; or its handshake fails. What it has said and what has gone out of that at each stage
carries over to the next (`Stage.start`, `Stage.advance`, `Stage.read`, `Stage.event`), so on every
run the client is at one of the stages (`Run.stage`).
-/

namespace LanguageHub

namespace History

variable {h shown : History} {rest : List ClientMessage}

/-- What was said before a handshake failed. -/
inductive Cut (h : History) : Prop where
  | silent (said : h.messages = [])
  | greeted {id : Int} {rootUri : String} (said : h.messages = [.greeting id rootUri])
  | confirmed {id : Int} {rootUri : String}
      (said : h.messages = [.greeting id rootUri, .notice .handshakeDone])
      (accepted : h.Accepted id rootUri) (sent : h.Sent [.greeting id rootUri])

/-- The handshake is complete, and this was said after it. -/
def Opened (h : History) (rest : List ClientMessage) : Prop :=
  ∃ id rootUri, h.messages = .greeting id rootUri :: .notice .handshakeDone :: rest ∧
    h.Accepted id rootUri ∧ h.Sent [.greeting id rootUri, .notice .handshakeDone]

theorem Cut.append (cut : h.Cut) (silent : shown.messages = [])
    (sent : ∀ messages, h.Sent messages → (h ++ shown).Sent messages) : (h ++ shown).Cut := by
  have same : (h ++ shown).messages = h.messages := by
    rw [messages_append, silent, List.append_nil]
  cases cut with
  | silent said => exact .silent (same.trans said)
  | greeted said => exact .greeted (same.trans said)
  | confirmed said accepted out =>
    exact .confirmed (same.trans said) (accepted.append shown) (sent _ out)

theorem Opened.append (opened : h.Opened rest)
    (sent : ∀ messages, h.Sent messages → (h ++ shown).Sent messages) :
    (h ++ shown).Opened (rest ++ shown.messages) := by
  obtain ⟨id, rootUri, said, accepted, out⟩ := opened
  exact ⟨id, rootUri, by rw [messages_append, said]; rfl, accepted.append shown, sent _ out⟩

end History

namespace ClientSession

/-- The tasks of a client when only the handshake was begun, and what it has come to. -/
def handshakeOnly (n : Nat) :
    Progress Connecting (Except Failure Unit) → Tasks ClientTask ClientAnswer
  | .running k => ⟨[(n, .connect k)], []⟩
  | .finished answer => ⟨[], [(n, .connected answer)]⟩

/-- The stages of a client, with what it has said at each. -/
inductive Stage (h : History) (s : ClientSession) : Prop where
  | fresh (tasks : s.tasks = {}) (phase : s.client.phase = .starting) (said : h.messages = [])
      (empty : s.client.connection.table.pending = []) (undisturbed : s.Undisturbed h)
  | asking {n : Nat} {k : Call} {rootUri : String}
      (tasks : s.tasks = handshakeOnly n (.running (.asking k)))
      (phase : s.client.phase = .starting)
      (asked : Asked h k rootUri s.client.connection.table)
      (sent : ∀ due, k.phase = .waiting due → h.Sent [.greeting k.id rootUri])
      (undisturbed : s.Undisturbed h)
  | confirming {n : Nat} {server : Option Party} {call : WriteCall} {id : Int} {rootUri : String}
      (tasks : s.tasks = handshakeOnly n (.running (.confirming server call)))
      (phase : s.client.phase = .starting)
      (said : h.messages = [.greeting id rootUri, .notice .handshakeDone])
      (accepted : h.Accepted id rootUri) (sent : h.Sent [.greeting id rootUri])
      (undisturbed : s.Undisturbed h)
  | failing {n : Nat} {p : Progress Connecting (Except Failure Unit)}
      (tasks : s.tasks = handshakeOnly n p)
      (fails : Connecting.Fails p ∨ ∃ f, p = .finished (.error f))
      (unready : s.client.phase ≠ .ready) (cut : h.Cut)
  | serving {operations : List ClientMessage} (answered : s.tasks.answers ≠ [])
      (tasks : s.tasks.All ClientTask.Serves) (phase : s.client.phase = .ready)
      (only : ∀ m ∈ operations, m.IsOperation) (opened : h.Opened operations)
      (undisturbed : s.Undisturbed h)
  | ending {operations : List ClientMessage} (answered : s.tasks.answers ≠ [])
      (tasks : s.tasks.All ClientTask.Follows)
      (gone : s.client.phase = .shuttingDown ∨ s.client.phase = .terminated)
      (only : ∀ m ∈ operations, m.IsOperation)
      (opened : h.Opened (operations ++ [.notice .shutdown]))

variable {s t : ClientSession} {h shown : History} {n m : Nat}

/-! ### While only the handshake was begun -/

section Handshake

variable {k : Connecting} {p : Progress Connecting (Except Failure Unit)}

/-- A handshake begins. -/
theorem start_connect (new : s.tasks = {}) (n : Nat) (root : String) :
    ∃ p, Connecting.start (.operation n) (Connecting.greeting 0 (Uri.pathToUri "/" root)) s.client =
        (p, (s.start n (.connect root)).client) ∧
      (s.start n (.connect root)).tasks = handshakeOnly n p := by
  obtain ⟨p, hstart, -, htasks⟩ := start_spec s n (.connect root)
  simp only [ClientTask.start] at hstart
  split at hstart <;> next hbegins =>
    obtain ⟨rfl, hclient⟩ := Prod.mk.inj hstart
    rw [new] at htasks
    rw [hclient] at hbegins
    exact ⟨_, hbegins, htasks.trans rfl⟩

/-- A handshake is told from another one by its number and by what it has come to. -/
theorem handshakeOnly_inj {q : Progress Connecting (Except Failure Unit)}
    (same : handshakeOnly n p = handshakeOnly m q) : n = m ∧ p = q := by
  cases p <;> cases q <;> simp_all [handshakeOnly]

/-- The handshake goes on. -/
theorem advance_connect (alone : s.tasks = handshakeOnly n (.running k))
    (step : s.advance? m = some t) :
    m = n ∧ ∃ p, k.step? (.operation n) s.now s.client = some (p, t.client) ∧
      t.tasks = handshakeOnly n p := by
  obtain ⟨task, p, going, hstep, -, htasks⟩ := advance_spec step
  rw [alone, handshakeOnly, Tasks.state?_singleton] at going
  split at going
  · next hm =>
    cases going
    subst hm
    simp only [ClientTask.step?, Option.map_eq_some_iff, Prod.exists] at hstep
    obtain ⟨q, e, hstep, he⟩ := hstep
    refine ⟨rfl, q, ?_⟩
    rw [htasks, alone]
    cases q <;> cases he <;> exact ⟨hstep, by simp [handshakeOnly, Tasks.update, Tasks.finish]⟩
  · cases going

/-- A client is not connected before the handshake has succeeded. -/
theorem isConnected_handshakeOnly (alone : s.tasks = handshakeOnly n p)
    (unfinished : p ≠ .finished (.ok ())) : s.isConnected = false := by
  rw [isConnected, alone]
  cases p with
  | running => rfl
  | finished answer =>
    cases answer with
    | ok => exact absurd rfl unfinished
    | error => rfl

/-- Nothing else is admitted before the handshake has succeeded. -/
theorem not_admits (alone : s.tasks = handshakeOnly n p) (unfinished : p ≠ .finished (.ok ()))
    (r : ClientRequest) : ¬ s.Admits r := by
  have connected := isConnected_handshakeOnly alone unfinished
  have numbers : s.numbers ≠ [] := by
    rw [ClientSession.numbers, alone]
    cases p <;> simp [handshakeOnly, Tasks.numbers]
  cases r with
  | connect => exact numbers
  | document | completion | shutdown => simp [Admits, connected]

/-- Only the handshake writes. -/
theorem writers_handshakeOnly (alone : s.tasks = handshakeOnly n (.running k)) (m : Nat) :
    s.writers (.operation m) = if m = n then k.writing? else none := by
  simp only [writers, alone, handshakeOnly, Tasks.state?_singleton]
  split <;> rfl

/-- What the handshake shows. -/
theorem advanceShows_handshakeOnly (alone : s.tasks = handshakeOnly n (.running k)) :
    s.advanceShows n = (ClientTask.connect k).shows n s.now s.client := by
  simp only [advanceShows, alone, handshakeOnly, Tasks.state?_singleton, if_true]

/-- When the first request has an outcome, the handshake says what follows from it. -/
theorem messages_outcome {k : Call} {outcome : Outcome} {connection : Connection}
    (alone : s.tasks = handshakeOnly n (.running (.asking k)))
    (call : k.step? (.operation n) s.now s.client.connection =
      some (.finished outcome, connection)) :
    (s.advanceShows n).messages = (ClientTask.outcomeShows n outcome).messages := by
  simp only [advanceShows_handshakeOnly alone, ClientTask.shows, call, History.messages_append,
    History.messages_map_wire, List.nil_append]

/-- A step of the handshake, told as steps of writers. -/
theorem writes_handshake (alone : s.tasks = handshakeOnly n (.running k))
    (step : s.advance? n = some t) :
    Writes (ClientTask.connect k).Ending s.client.connection.transport s.writers
      (s.advanceShows n).events t.client.connection.transport t.writers := by
  refine writes_advance ?_ step
  rw [alone, handshakeOnly, Tasks.state?_singleton, if_pos rfl]

/-- When the handshake has written its frame, everything that was said has gone out. -/
theorem Undisturbed.sent_handshake (undisturbed : s.Undisturbed h)
    (orderly : Orderly s.client.connection.transport s.writers h.events) (balanced : h.Balanced)
    (alone : s.tasks = handshakeOnly n (.running k)) (written : k.writing? = some (.writing [])) :
    h.Sent h.messages := by
  refine undisturbed.sent_messages orderly balanced (n := n) ?_ fun m hm ↦ ?_
  · rw [writers_handshakeOnly alone, if_pos rfl, written]
  · rw [writers_handshakeOnly alone, if_neg hm]

end Handshake

/-! ### After the handshake -/

section After

variable {q : ClientTask → Prop} {r : ClientRequest} {p : Progress ClientTask ClientAnswer}

/-- Answers stay when an operation begins. -/
theorem answers_start (answered : s.tasks.answers ≠ []) (r : ClientRequest) :
    (s.start n r).tasks.answers ≠ [] := by
  obtain ⟨p, -, -, tasks⟩ := start_spec s n r
  rw [tasks]
  cases p <;> simp [Tasks.start, Tasks.finish, answered]

/-- Answers stay when an operation goes on. -/
theorem answers_advance (answered : s.tasks.answers ≠ []) (step : s.advance? n = some t) :
    t.tasks.answers ≠ [] := by
  obtain ⟨_, p, -, -, -, tasks⟩ := advance_spec step
  rw [tasks]
  cases p <;> simp [Tasks.update, Tasks.finish, answered]

/-- After the first operation no handshake is admitted. -/
theorem admits_later (answered : s.tasks.answers ≠ []) (admitted : s.Admits r) (root : String) :
    r ≠ .connect root := by
  rintro rfl
  have none : s.numbers = [] := admitted
  simp [numbers, answered] at none

/-- What holds of all operations holds when one more begins of which it holds. -/
theorem all_start (all : s.tasks.All q) (fresh : n ∉ s.numbers)
    (tasks : t.tasks = match p with
      | .running task => s.tasks.start n task
      | .finished answer => s.tasks.finish n answer)
    (new : ∀ task, p = .running task → q task) : t.tasks.All q := by
  rw [tasks]
  cases p with
  | running task => exact all.start (fun hn ↦ fresh (List.mem_append_left _ hn)) (new task rfl)
  | finished answer => exact all.finish answer

/-- What holds of all operations holds when one of them goes on and it holds of that. -/
theorem all_advance (all : s.tasks.All q)
    (tasks : t.tasks = match p with
      | .running task => s.tasks.update n task
      | .finished answer => s.tasks.finish n answer)
    (next : ∀ task, p = .running task → q task) : t.tasks.All q := by
  rw [tasks]
  cases p with
  | running task => exact all.update (next task rfl)
  | finished answer => exact all.finish answer

end After

/-! ### From stage to stage -/

namespace Stage

/-- What does not concern the operations leaves the client at its stage. -/
theorem passes (stage : Stage h s) (tasks : t.tasks = s.tasks)
    (phase : t.client.phase = s.client.phase) (silent : shown.messages = [])
    (sent : ∀ messages, h.Sent messages → (h ++ shown).Sent messages)
    (undisturbed : s.Undisturbed h → t.Undisturbed (h ++ shown))
    (empty : s.client.connection.table.pending = [] → t.client.connection.table.pending = [])
    (asked : ∀ {k rootUri}, Asked h k rootUri s.client.connection.table →
      Asked (h ++ shown) k rootUri t.client.connection.table) : Stage (h ++ shown) t := by
  have same : (h ++ shown).messages = h.messages := by
    rw [History.messages_append, silent, List.append_nil]
  have opened {rest : List ClientMessage} (before : h.Opened rest) :
      (h ++ shown).Opened rest := by
    have after := before.append sent
    rwa [silent, List.append_nil] at after
  cases stage with
  | fresh new starting said alone calm =>
    exact .fresh (tasks.trans new) (phase.trans starting) (same.trans said) (empty alone)
      (undisturbed calm)
  | asking alone starting asks out calm =>
    exact .asking (tasks.trans alone) (phase.trans starting) (asked asks)
      (fun due waits ↦ sent _ (out due waits)) (undisturbed calm)
  | confirming alone starting said accepted out calm =>
    exact .confirming (tasks.trans alone) (phase.trans starting) (same.trans said)
      (accepted.append shown) (sent _ out) (undisturbed calm)
  | failing alone fails unready cut =>
    exact .failing (tasks.trans alone) fails (phase ▸ unready) (cut.append silent sent)
  | serving answered serves ready only before calm =>
    exact .serving (tasks ▸ answered) (tasks ▸ serves) (phase.trans ready) only (opened before)
      (undisturbed calm)
  | ending answered follows gone only before =>
    exact .ending (tasks ▸ answered) (tasks ▸ follows) (phase ▸ gone) only (opened before)

variable (orderly : Orderly s.client.connection.transport s.writers h.events)

include orderly

/-- What the other side, the clock, the process and the owner do leaves the client at its stage. -/
theorem event (stage : Stage h s) (e : Event) : Stage h (s.happen e) := by
  have writes := writes_event False s e
  have tasks : (s.happen e).tasks = s.tasks := by cases e <;> rfl
  have phase : (s.happen e).client.phase = s.client.phase := by cases e <;> rfl
  have stopping : (s.happen e).client.connection.stopping = s.client.connection.stopping := by
    cases e <;> rfl
  have table : (s.happen e).client.connection.table = s.client.connection.table := by
    cases e <;> rfl
  have after : Stage (h ++ []) (s.happen e) :=
    stage.passes tasks phase rfl (fun _ out ↦ sent_append out orderly writes)
      (fun calm ↦ calm.writes orderly writes not_false (stopping.trans calm.going))
      (fun empty ↦ by rw [table, empty]) (fun asks ↦ table ▸ asks.append rfl)
  rwa [List.append_nil] at after

/-- The task that reads leaves the client at its stage. -/
theorem read (stage : Stage h s) (balanced : h.Balanced) (step : s.advanceReading? = some t) :
    Stage (h ++ s.client.connection.readingShows) t := by
  obtain ⟨⟨notice, reads⟩, tasks, -, stays, -⟩ := read_spec step
  have writes := writes_read orderly step
  have empty : s.client.connection.table.pending = [] →
      t.client.connection.table.pending = [] := by
    intro empty
    obtain table | ⟨reason, table⟩ | ⟨id, outcome, -, table⟩ := reads.table
    · rw [table, empty]
    · rw [table, CallTable.pending_failAll]
    · refine List.eq_nil_iff_forall_not_mem.mpr fun entry hentry ↦ ?_
      rw [table] at hentry
      have hmem := ((CallTable.mem_pending_take _ _ _ entry).mp hentry).1
      simp [empty] at hmem
  refine stage.passes tasks stays.phase reads.balanced.2
    (fun _ out ↦ sent_append out orderly writes)
    (fun calm ↦ calm.writes orderly writes (by simp [calm.going])
      (reads.stopping.trans calm.going)) empty fun asks ↦ ?_
  obtain table | ⟨reason, table⟩ | ⟨id, outcome, shown, table⟩ := reads.table
  · rw [table]
    exact asks.append reads.balanced.2
  · rw [table]
    exact asks.failAll reads.balanced.2 reason
  · rw [table, shown]
    exact asks.resolve (begun_sublist orderly balanced) id outcome

/-- The end of the task that reads leaves the client at its stage. -/
theorem endReading (stage : Stage h s) (idle : s.client.connection.replying? = none) :
    Stage h s.endReading := by
  have writes := writes_endReading False orderly idle
  have after : Stage (h ++ []) s.endReading :=
    stage.passes rfl rfl rfl (fun _ out ↦ sent_append out orderly writes)
      (fun calm ↦ calm.writes orderly writes not_false calm.going)
      (fun _ ↦ CallTable.pending_failAll _ _) fun asks ↦ asks.failAll rfl _
  rwa [List.append_nil] at after

/-! #### Steps of operations -/

private theorem advance_asking (balanced : h.Balanced) {k : Call} {rootUri : String}
    (alone : s.tasks = handshakeOnly n (.running (.asking k)))
    (starting : s.client.phase = .starting)
    (asks : Asked h k rootUri s.client.connection.table)
    (out : ∀ due, k.phase = .waiting due → h.Sent [.greeting k.id rootUri])
    (calm : s.Undisturbed h) (step : s.advance? n = some t) :
    Stage (h ++ s.advanceShows n) t := by
  obtain ⟨-, p, hstep, tasks⟩ := advance_connect alone step
  have writes := writes_handshake alone step
  have shows := advanceShows_handshakeOnly alone
  obtain ⟨k', hcall, rfl, phase⟩ | ⟨outcome, connection, hcall, hafter⟩ :=
    Connecting.cases_asking hstep
  · -- The call goes on.
    obtain ⟨hid, hticket, stopping, table, waits⟩ := Call.spec_of_goesOn hcall
    have silent : (s.advanceShows n).messages = [] := by
      simp only [shows, ClientTask.shows, hcall, History.messages_map_wire, List.append_nil]
    have asked : Asked (h ++ s.advanceShows n) k' rootUri t.client.connection.table := by
      rw [table]
      exact (asks.append silent).goOn hid hticket
    refine .asking tasks (phase.trans starting) asked (fun due waiting ↦ ?_)
      (calm.writes orderly writes not_false (stopping.trans calm.going))
    have all := calm.sent_handshake orderly balanced alone (waits due waiting)
    rw [asks.said, ← hid] at all
    exact sent_append all orderly writes
  · have said : (h ++ s.advanceShows n).messages =
        .greeting k.id rootUri :: (ClientTask.outcomeShows n outcome).messages := by
      rw [History.messages_append, asks.said, messages_outcome alone hcall]
      rfl
    obtain ⟨v, server, call, rfl, accepts, rfl, phase, stopping, done⟩ | ⟨fails, silent⟩ :=
      Connecting.cases_afterOutcome hafter
    · -- The server has accepted, and it did so when the greeting had gone out.
      obtain ⟨rfl, ⟨due, waiting⟩, -⟩ := Call.spec_of_returns hcall
      rw [done] at said
      exact .confirming tasks (phase.trans starting) said ((asks.accepted hcall accepts).append _)
        (sent_append (out due waiting) orderly writes)
        (calm.writes orderly writes not_false (stopping.trans calm.going))
    · rw [silent] at said
      exact .failing tasks (.inl fails) (fails.unready hstep starting) (.greeted said)

private theorem advance_confirming (balanced : h.Balanced) {server : Option Party}
    {call : WriteCall} {id : Int} {rootUri : String}
    (alone : s.tasks = handshakeOnly n (.running (.confirming server call)))
    (starting : s.client.phase = .starting)
    (said : h.messages = [.greeting id rootUri, .notice .handshakeDone])
    (accepted : h.Accepted id rootUri) (out : h.Sent [.greeting id rootUri])
    (calm : s.Undisturbed h) (step : s.advance? n = some t) :
    Stage (h ++ s.advanceShows n) t := by
  obtain ⟨-, p, hstep, tasks⟩ := advance_connect alone step
  have writes := writes_handshake alone step
  have said' :
      (h ++ s.advanceShows n).messages = [.greeting id rootUri, .notice .handshakeDone] := by
    simp only [advanceShows_handshakeOnly alone, ClientTask.shows, History.messages_append, said,
      History.messages_map_wire, List.append_nil]
  have accepted' := accepted.append (s.advanceShows n)
  have out' := sent_append out orderly writes
  obtain ⟨call', rfl, phase, stopping⟩ | ⟨rfl, rfl, phase, stopping⟩ | fails :=
    Connecting.cases_confirming hstep
  · exact .confirming tasks (phase.trans starting) said' accepted' out'
      (calm.writes orderly writes not_false (stopping.trans calm.going))
  · -- The server knows that the handshake is complete.
    have all := calm.sent_handshake orderly balanced alone rfl
    rw [said] at all
    have none : t.tasks.All ClientTask.Serves := by
      intro m task hm
      rw [tasks] at hm
      cases hm
    exact .serving (by simp [tasks, handshakeOnly]) none phase (by simp)
      ⟨id, rootUri, said', accepted', sent_append all orderly writes⟩
      (calm.writes orderly writes not_false (stopping.trans calm.going))
  · exact .failing tasks (.inl fails) (fails.unready hstep starting)
      (.confirmed said' accepted' out')

private theorem advance_failing {p : Progress Connecting (Except Failure Unit)}
    (alone : s.tasks = handshakeOnly m p)
    (fails : Connecting.Fails p ∨ ∃ f, p = .finished (.error f))
    (unready : s.client.phase ≠ .ready) (cut : h.Cut) (step : s.advance? n = some t) :
    Stage (h ++ s.advanceShows n) t := by
  obtain ⟨f, k, rfl⟩ | ⟨f, rfl⟩ := fails
  · obtain ⟨rfl, p, hstep, tasks⟩ := advance_connect alone step
    obtain ⟨further, unready⟩ := Connecting.cases_abandoning hstep unready
    have silent : (s.advanceShows n).messages = [] := by
      simp only [advanceShows_handshakeOnly alone, ClientTask.shows, List.append_nil,
        History.messages_map_wire]
    exact .failing tasks (further.imp_right fun h ↦ ⟨f, h⟩) unready
      (cut.append silent fun _ out ↦ sent_append out orderly (writes_handshake alone step))
  · obtain ⟨task, _, going, -⟩ := advance_spec step
    rw [alone] at going
    cases going

private theorem advance_serving {operations : List ClientMessage}
    (answered : s.tasks.answers ≠ []) (serves : s.tasks.All ClientTask.Serves)
    (ready : s.client.phase = .ready) (only : ∀ m ∈ operations, m.IsOperation)
    (opened : h.Opened operations) (calm : s.Undisturbed h) (step : s.advance? n = some t) :
    Stage (h ++ s.advanceShows n) t := by
  obtain ⟨task, p, going, hstep, -, tasks⟩ := advance_spec step
  have writes := writes_advance going step
  have hserves := serves n task going
  obtain ⟨rests, next⟩ := hserves.step hstep
  have silent : (s.advanceShows n).messages = [] := by
    simp only [advanceShows, going]
    exact hserves.messages_shows
  have opened' := opened.append fun _ out ↦ sent_append out orderly writes
  rw [silent, List.append_nil] at opened'
  exact .serving (answers_advance answered step) (all_advance serves tasks next)
    (rests.phase.trans ready) only opened'
    (calm.writes orderly writes hserves.not_ending (rests.stopping.trans calm.going))

private theorem advance_ending {operations : List ClientMessage}
    (answered : s.tasks.answers ≠ []) (follows : s.tasks.All ClientTask.Follows)
    (gone : s.client.phase = .shuttingDown ∨ s.client.phase = .terminated)
    (only : ∀ m ∈ operations, m.IsOperation)
    (opened : h.Opened (operations ++ [.notice .shutdown])) (step : s.advance? n = some t) :
    Stage (h ++ s.advanceShows n) t := by
  obtain ⟨task, p, going, hstep, -, tasks⟩ := advance_spec step
  have writes := writes_advance going step
  obtain ⟨next, gone', silent⟩ := (follows n task going).step hstep gone
  have silent : (s.advanceShows n).messages = [] := by
    simp only [advanceShows, going]
    exact silent
  have opened' := opened.append fun _ out ↦ sent_append out orderly writes
  rw [silent, List.append_nil] at opened'
  exact .ending (answers_advance answered step) (all_advance follows tasks next) gone'
    only opened'

/-- A step of an operation leads to the same stage or to the next. -/
theorem advance (stage : Stage h s) (balanced : h.Balanced) (step : s.advance? n = some t) :
    Stage (h ++ s.advanceShows n) t := by
  cases stage with
  | fresh new =>
    obtain ⟨task, _, going, -⟩ := advance_spec step
    rw [new] at going
    cases going
  | asking alone starting asks out calm =>
    obtain ⟨rfl, -⟩ := advance_connect alone step
    exact advance_asking orderly balanced alone starting asks out calm step
  | confirming alone starting said accepted out calm =>
    obtain ⟨rfl, -⟩ := advance_connect alone step
    exact advance_confirming orderly balanced alone starting said accepted out calm step
  | failing alone fails unready cut =>
    exact advance_failing orderly alone fails unready cut step
  | serving answered serves ready only opened calm =>
    exact advance_serving orderly answered serves ready only opened calm step
  | ending answered follows gone only opened =>
    exact advance_ending orderly answered follows gone only opened step

/-! #### New operations -/

private theorem start_fresh (fresh : n ∉ s.numbers) (new : s.tasks = {})
    (starting : s.client.phase = .starting) (said : h.messages = [])
    (empty : s.client.connection.table.pending = []) (calm : s.Undisturbed h) (root : String) :
    Stage (h ++ s.startShows n (.connect root)) (s.start n (.connect root)) := by
  have writes := writes_start False fresh (.connect root)
  obtain ⟨p, hstart, tasks⟩ := start_connect new n root
  obtain ⟨k, rfl, phase, hcall⟩ | ⟨fails, closed⟩ := Connecting.cases_start hstart
  · obtain ⟨hid, ⟨call, sending⟩, opened, stopping, pending, fate⟩ :=
      Call.spec_of_starts hcall empty
    have asked : Asked (h ++ s.startShows n (.connect root)) k (Uri.pathToUri "/" root)
        (s.start n (.connect root)).client.connection.table := by
      refine ⟨?_, by simp [pending], by simp [fate]⟩
      rw [History.messages_append, said, hid]
      simp only [startShows, ClientTask.startShows, Connection.callShows, opened]
      rfl
    exact .asking tasks (phase.trans starting) asked (by simp [sending])
      (calm.writes orderly writes not_false (stopping.trans calm.going))
  · have unready : (s.start n (.connect root)).client.phase ≠ .ready := by
      have stays := (Connecting.spec_start (.operation n)
        (Connecting.greeting 0 (Uri.pathToUri "/" root)) s.client).1
      rw [hstart] at stays
      rw [show (s.start n (.connect root)).client.phase = .starting from
        stays.phase.trans starting]
      exact ClientPhase.noConfusion
    refine .failing tasks (.inl fails) unready (.silent ?_)
    rw [History.messages_append, said]
    simp only [startShows, ClientTask.startShows, Connection.callShows, closed]
    rfl

private theorem start_serving {operations : List ClientMessage} (fresh : n ∉ s.numbers)
    (answered : s.tasks.answers ≠ []) (serves : s.tasks.All ClientTask.Serves)
    (ready : s.client.phase = .ready) (only : ∀ m ∈ operations, m.IsOperation)
    (opened : h.Opened operations) (calm : s.Undisturbed h) {r : ClientRequest}
    (later : ∀ root, r ≠ .connect root) : Stage (h ++ s.startShows n r) (s.start n r) := by
  have writes := writes_start False fresh r
  have opened' := opened.append fun _ out ↦ sent_append out orderly writes
  obtain ⟨p, hstart, -, tasks⟩ := start_spec s n r
  -- An operation with documents adds its message, if it is accepted.
  have goesOn (used : r.Serves) : Stage (h ++ s.startShows n r) (s.start n r) := by
    obtain ⟨rests, next⟩ := ClientTask.serves_start used hstart
    have operates : ∀ m ∈ (s.startShows n r).messages, m.IsOperation :=
      ClientTask.isOperation_startShows used
    exact .serving (answers_start answered r) (all_start serves fresh tasks next)
      (rests.phase.trans ready) (fun m hm ↦ (List.mem_append.mp hm).elim (only m) (operates m))
      opened' (calm.writes orderly writes not_false (rests.stopping.trans calm.going))
  cases r with
  | connect root => exact absurd rfl (later root)
  | document | completion => exact goesOn trivial
  | shutdown =>
    obtain ⟨next, phase, shows⟩ := ClientTask.spec_of_startShutdown hstart ready
    rw [show (s.startShows n .shutdown).messages = _ from shows] at opened'
    exact .ending (answers_start answered _)
      (all_start (fun m task hm ↦ (serves m task hm).follows) fresh tasks next) (.inl phase) only
      opened'

private theorem start_ending {operations : List ClientMessage} (fresh : n ∉ s.numbers)
    (answered : s.tasks.answers ≠ []) (follows : s.tasks.All ClientTask.Follows)
    (gone : s.client.phase = .shuttingDown ∨ s.client.phase = .terminated)
    (only : ∀ m ∈ operations, m.IsOperation)
    (opened : h.Opened (operations ++ [.notice .shutdown])) {r : ClientRequest}
    (later : ∀ root, r ≠ .connect root) : Stage (h ++ s.startShows n r) (s.start n r) := by
  have opened' := opened.append fun _ out ↦ sent_append out orderly (writes_start False fresh r)
  obtain ⟨p, hstart, -, tasks⟩ := start_spec s n r
  obtain ⟨next, gone', shows⟩ := ClientTask.spec_of_start_gone hstart gone later
  have silent : (s.startShows n r).messages = [] := congrArg History.messages shows
  rw [silent, List.append_nil] at opened'
  exact .ending (answers_start answered r) (all_start follows fresh tasks next) gone' only opened'

/-- The start of an operation leads to the same stage or to the next. -/
theorem start (stage : Stage h s) (fresh : n ∉ s.numbers) {r : ClientRequest}
    (admitted : s.Admits r) : Stage (h ++ s.startShows n r) (s.start n r) := by
  cases stage with
  | fresh new starting said empty calm =>
    cases r with
    | document | completion | shutdown =>
      have connected : s.isConnected = false := by rw [isConnected, new]; rfl
      simp [Admits, connected] at admitted
    | connect root => exact start_fresh orderly fresh new starting said empty calm root
  | asking alone => exact absurd admitted (not_admits alone (by simp) r)
  | confirming alone => exact absurd admitted (not_admits alone (by simp) r)
  | failing alone fails =>
    refine absurd admitted (not_admits alone ?_ r)
    obtain ⟨f, k, rfl⟩ | ⟨f, rfl⟩ := fails <;> simp
  | serving answered serves ready only opened calm =>
    exact start_serving orderly fresh answered serves ready only opened calm
      (admits_later answered admitted)
  | ending answered follows gone only opened =>
    exact start_ending orderly fresh answered follows gone only opened
      (admits_later answered admitted)

end Stage

variable {accepted : List Client.DocumentRequest} {language : String} {limit : Option Duration}
  {capacity : Nat} {installed : Bool} {child : Option Child}

/-- On every run the client is at one of its stages. -/
theorem Run.stage (run : Run (hosted language limit capacity installed child) h accepted s) :
    Stage h s := by
  induction run with
  | refl => exact .fresh rfl rfl rfl rfl ⟨rfl, rfl, rfl, fun _ ↦ List.not_mem_nil, rfl⟩
  | start run _ _ fresh admitted ih => exact ih.start run.orderly fresh admitted
  | advance run _ step ih => exact ih.advance run.orderly run.balanced step
  | read run step ih => exact ih.read run.orderly run.balanced step
  | callbackFails run step called ih =>
    exact (ih.read run.orderly run.balanced step).endReading (run.read step).orderly
      (replying?_of_called step called)
  | event run e ih => exact ih.event run.orderly e

/-- A client whose server has answered the first request with this message, over pipes that hold so
many bytes. -/
def answered (reply : String) (capacity : Nat) (child : Option Child) : ClientSession :=
  let s := settle advanceAny? 20
    ((hosted "python" none capacity true child).start 0 (.connect "/w"))
  settle advanceAny? 40 (s.happen (.arrive (Frame.encode reply)))

theorem run_answered (reply : String) (capacity : Nat) (child : Option Child) :
    ∃ h, Run (hosted "python" none capacity true child) h [] (answered reply capacity child) := by
  have begins : Run (hosted "python" none capacity true child) [] [] _ := .refl
  obtain ⟨_, asked⟩ := (begins.start 0 (.connect "/w") List.not_mem_nil rfl).settle 20
  obtain ⟨h, run⟩ := (asked.event (.arrive (Frame.encode reply))).settle 40
  exact ⟨h, run⟩

/-- A client whose server has accepted. -/
def greeted (capacity : Nat) (child : Option Child) : ClientSession :=
  answered "\x7b\"id\":1,\"result\":\x7b\"capabilities\":\x7b\x7d\x7d\x7d" capacity child

theorem run_greeted (capacity : Nat) (child : Option Child) :
    ∃ h, Run (hosted "python" none capacity true child) h [] (greeted capacity child) :=
  run_answered _ capacity child

end ClientSession

end LanguageHub
