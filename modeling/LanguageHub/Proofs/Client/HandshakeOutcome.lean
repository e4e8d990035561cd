import LanguageHub.Proofs.Client.Lifecycle
import LanguageHub.Proofs.Message.Documents

/-!
# What comes of a handshake

A handshake succeeds exactly if the first request has returned a result that can be read and the
server was then told that the handshake is complete. In every other case it fails as a handshake,
and the client is gone: it writes and reads nothing any more, and its process is gone as well.
-/

namespace LanguageHub

/-! ### What the server was told -/

namespace ClientMessage

/-- The first message of a client is no notification. -/
theorem frame_greeting_ne (id : Int) (rootUri : String) (n : Notice) :
    (greeting id rootUri).frame ≠ (notice n).frame := fun same ↦
  Request.encode_ne_encode _ id n (Frame.encode_injective same)

end ClientMessage

namespace History

variable {h : History} {id : Int} {rootUri : String}

/-- The server was told that the handshake is complete: the frame that says so has gone out. -/
def Told (h : History) : Prop := (ClientMessage.notice .handshakeDone).frame ∈ h.finished

/-- As long as only the first message was said, the server was not told. -/
theorem not_told_of_greeted (said : ∀ m ∈ h.messages, ∃ id rootUri, m = .greeting id rootUri)
    (finished : h.finished.Sublist (h.messages.map (·.frame))) : ¬ h.Told := by
  intro told
  obtain ⟨m, hm, same⟩ := List.mem_map.mp (finished.subset told)
  obtain ⟨id, rootUri, rfl⟩ := said m hm
  exact ClientMessage.frame_greeting_ne id rootUri _ same

/-- As long as only the first message has gone out, the server was not told. -/
theorem not_told_of_sent (sent : h.Sent [.greeting id rootUri]) (few : h.finished.length < 2) :
    ¬ h.Told := by
  obtain ⟨more, hmore⟩ := sent
  have none : more = [] := by
    rw [← hmore, List.length_append, List.length_map, List.length_singleton] at few
    exact List.length_eq_zero_iff.mp (by omega)
  rw [Told, ← hmore, none]
  simpa using (ClientMessage.frame_greeting_ne id rootUri .handshakeDone).symm

end History

namespace ClientSession

variable {s₀ s t : ClientSession} {h shown more : History} {n m : Nat}
  {accepted : List Client.DocumentRequest} {disturbed : Prop}

/-- As long as an operation has something left to write, not all that was said has gone out. -/
theorem finished_lt (orderly : Orderly s.client.connection.transport s.writers h.events)
    (balanced : h.Balanced) {call : WriteCall} (going : s.writers (.operation n) = some call)
    (unwritten : call ≠ .writing []) : h.finished.length < h.messages.length := by
  have inOrder := orderly.inOrder.filterMap operationFrame?
  rw [List.filterMap_append, balanced.operations] at inOrder
  have long := inOrder.length_le
  rw [List.length_append, List.length_map] at long
  cases call with
  | queued data =>
    -- Its frame still waits.
    have waits : data ∈ (s.writers.orders s.client.connection.transport.writers.line).filterMap
        operationFrame? := by
      refine List.mem_filterMap.mpr ⟨(.operation n, data), ?_, rfl⟩
      refine List.mem_filterMap.mpr ⟨.operation n, (orderly.inLine _).mpr (by simp [going]), ?_⟩
      rw [going]
      rfl
    have waiting := List.length_pos_of_mem waits
    have begun := h.finished_sublist_begun.length_le
    rw [History.begun, History.wire] at begun
    omega
  | writing rest =>
    -- Its frame is the last one that was begun, and a part of it is missing.
    obtain ⟨xs, x, hwire, hauthor, hframe, -⟩ := orderly.current _ rest going
    have part : x.sent ≠ x.frame := by
      intro whole
      rw [whole] at hframe
      exact unwritten (congrArg _ (List.append_right_eq_self.mp hframe))
    have finished : h.finished.length ≤ ((xs.map (·.order)).filterMap operationFrame?).length := by
      rw [History.finished, WireEvent.completed, hwire, List.filter_append,
        List.filter_cons_of_neg (by simpa using part), List.filter_nil, List.append_nil]
      exact ((List.filter_sublist.map _).filterMap _).length_le
    have last : operationFrame? x.order = some x.frame := by
      rw [Shipment.order, hauthor]
      rfl
    rw [hwire, List.map_append, List.filterMap_append, List.map_singleton,
      List.filterMap_cons_some last, List.length_append, List.length_cons] at long
    omega

/-- While no operation writes and none begins to, nothing more of what was said goes out. -/
theorem finished_append (orderly : Orderly s.client.connection.transport s.writers h.events)
    (writes : Writes disturbed s.client.connection.transport s.writers shown.events
      t.client.connection.transport t.writers)
    (balanced : shown.Balanced) (silent : shown.messages = [])
    (idle : ∀ m, s.writers (.operation m) = none) : (h ++ shown).finished = h.finished := by
  rw [History.finished, History.finished, History.events_append]
  refine orderly.completed_writes_others writes (fun a frame writing ↦ ?_)
    fun a asked frame hm ↦ ?_
  · cases a with
    | reading => rfl
    | operation m => exact absurd (idle m) writing
  · cases a with
    | reading => rfl
    | operation m =>
      have order : (.operation m, asked) ∈ WireEvent.orders shown.events :=
        List.mem_filterMap.mpr ⟨_, hm, rfl⟩
      have begun : asked ∈ (WireEvent.orders shown.events).filterMap operationFrame? :=
        List.mem_filterMap.mpr ⟨_, order, rfl⟩
      rw [balanced.operations, silent] at begun
      cases begun

/-! ### What the stages say of it -/

namespace Stage

variable {k : Call}

/-- A client that has begun nothing has said nothing. -/
theorem said_of_fresh (stage : Stage h s) (new : s.tasks = {}) : h.messages = [] := by
  cases stage with
  | fresh _ _ said => exact said
  | asking alone | confirming alone =>
    rw [new] at alone
    cases alone
  | @failing _ p alone =>
    rw [new] at alone
    cases p <;> cases alone
  | serving answered | ending answered => simp [new] at answered

/-- A client that asks has said its first message. -/
theorem said_of_asking (stage : Stage h s)
    (alone : s.tasks = handshakeOnly n (.running (.asking k))) :
    ∃ id rootUri, h.messages = [.greeting id rootUri] := by
  cases stage with
  | fresh new =>
    rw [new] at alone
    cases alone
  | asking _ _ asked => exact ⟨_, _, asked.said⟩
  | confirming other =>
    cases (handshakeOnly_inj (other.symm.trans alone)).2
  | failing other fails =>
    obtain ⟨-, rfl⟩ := handshakeOnly_inj (other.symm.trans alone)
    obtain ⟨_, _, h⟩ | ⟨_, h⟩ := fails <;> cases h
  | serving answered | ending answered => simp [alone, handshakeOnly] at answered

/-- A client that tells the server that the handshake is complete has said this last, and its first
message has gone out. -/
theorem said_of_confirming (stage : Stage h s) {server : Option Party} {call : WriteCall}
    (alone : s.tasks = handshakeOnly n (.running (.confirming server call))) :
    ∃ id rootUri, h.messages = [.greeting id rootUri, .notice .handshakeDone] ∧
      h.Sent [.greeting id rootUri] := by
  cases stage with
  | fresh new =>
    rw [new] at alone
    cases alone
  | asking other => cases (handshakeOnly_inj (other.symm.trans alone)).2
  | confirming _ _ said _ sent => exact ⟨_, _, said, sent⟩
  | failing other fails =>
    obtain ⟨-, rfl⟩ := handshakeOnly_inj (other.symm.trans alone)
    obtain ⟨_, _, h⟩ | ⟨_, h⟩ := fails <;> cases h
  | serving answered | ending answered => simp [alone, handshakeOnly] at answered

/-- The server of a client that is connected was told, and no handshake is going on. -/
theorem of_connected (stage : Stage h s) (connected : s.isConnected = true) :
    h.Told ∧ s.tasks.All ClientTask.Follows := by
  have told {operations : List ClientMessage} (opened : h.Opened operations) : h.Told := by
    obtain ⟨id, rootUri, -, -, sent⟩ := opened
    exact sent.subset (by simp)
  have none {n : Nat} {p : Progress Connecting (Except Failure Unit)}
      (alone : s.tasks = handshakeOnly n p) (unfinished : p ≠ .finished (.ok ())) : False := by
    rw [isConnected_handshakeOnly alone unfinished] at connected
    cases connected
  cases stage with
  | fresh new =>
    rw [isConnected, new] at connected
    cases connected
  | asking alone | confirming alone => exact (none alone (by simp)).elim
  | failing alone fails =>
    refine (none alone ?_).elim
    obtain ⟨f, k, rfl⟩ | ⟨f, rfl⟩ := fails <;> simp
  | serving _ serves _ _ opened => exact ⟨told opened, fun m task hm ↦ (serves m task hm).follows⟩
  | ending _ follows _ _ opened => exact ⟨told opened, follows⟩

end Stage

end ClientSession

/-! ### Answers of handshakes -/

/-- A handshake that fails when the server is to be told has something left to write. -/
theorem Connecting.unwritten_of_fails {n now : Nat} {c d : Client} {server : Option Party}
    {call : WriteCall} {p : Progress Connecting (Except Failure Unit)}
    (step : (confirming server call).step? (.operation n) now c = some (p, d)) (fails : Fails p)
    (sound : c.connection.transport.sink.faultyAt = none) :
    call ≠ .writing [] ∧ call.shows (.operation n) c.connection.transport = [] := by
  obtain ⟨f, k, rfl⟩ := fails
  simp only [step?] at step
  split at step
  · cases step
  · cases step
  · cases step
  · next hstep =>
    obtain ⟨_, hcall, -⟩ := Client.spec_of_stepNotice? hstep
    refine ⟨?_, WriteCall.shows_of_finished hcall⟩
    rintro rfl
    simp [WriteCall.step?, WriteCall.finish, Outflow.flush, sound, Except.mapError] at hcall

/-- Only a handshake that begins is answered as one. -/
theorem ClientTask.not_connected_of_start {n now : Nat} {c d : Client} {r : ClientRequest}
    {answer : ClientAnswer} (later : ∀ root, r ≠ .connect root)
    (begins : start n now r c = (.finished answer, d)) (result : Except Failure Unit) :
    answer ≠ .connected result := by
  rintro rfl
  cases r with
  | connect root => exact later root rfl
  | document | completion | shutdown =>
    simp only [start] at begins
    split at begins <;> cases begins

/-- Only a handshake that goes on is answered as one. -/
theorem ClientTask.Follows.not_connected {n now : Nat} {c d : Client} {task : ClientTask}
    {answer : ClientAnswer} (follows : task.Follows)
    (step : task.step? n now c = some (.finished answer, d)) (result : Except Failure Unit) :
    answer ≠ .connected result := by
  rintro rfl
  cases task with
  | connect => exact follows
  | document | completion | shutdown =>
    simp only [step?, Option.map_eq_some_iff, Prod.exists] at step
    obtain ⟨q, e, -, he⟩ := step
    cases q <;> cases he

namespace ClientSession

variable {s₀ s t u : ClientSession} {h shown more : History} {n m : Nat}
  {accepted more' : List Client.DocumentRequest} {disturbed : Prop}

/-- The answers of handshakes stay when another operation begins. -/
theorem answer?_connected_start {r : ClientRequest} (later : ∀ root, r ≠ .connect root)
    {result : Except Failure Unit}
    (answered : (s.start n r).tasks.answer? m = some (.connected result)) :
    s.tasks.answer? m = some (.connected result) := by
  obtain ⟨p, hstart, -, tasks⟩ := start_spec s n r
  rw [tasks] at answered
  cases p with
  | running task => rwa [Tasks.answer?_start] at answered
  | finished answer =>
    rw [Tasks.answer?_finish, Option.or_eq_some_iff] at answered
    obtain before | ⟨-, new⟩ := answered
    · exact before
    · split at new
      · cases new
        exact absurd rfl (ClientTask.not_connected_of_start later hstart result)
      · cases new

/-- The answers of handshakes stay when another operation goes on. -/
theorem answer?_connected_advance (follows : s.tasks.All ClientTask.Follows)
    (step : s.advance? n = some t) {result : Except Failure Unit}
    (answered : t.tasks.answer? m = some (.connected result)) :
    s.tasks.answer? m = some (.connected result) := by
  obtain ⟨task, p, going, hstep, -, tasks⟩ := advance_spec step
  rw [tasks] at answered
  cases p with
  | running task => rwa [Tasks.answer?_update] at answered
  | finished answer =>
    rw [Tasks.answer?_finish, Option.or_eq_some_iff] at answered
    obtain before | ⟨-, new⟩ := answered
    · exact before
    · split at new
      · cases new
        exact absurd rfl ((follows n task going).not_connected hstep result)
      · cases new

/-! ### The course of a handshake -/

/-- On the way to a session, the first request of the handshake with this number has returned a
result that can be read, when the server was not told yet that the handshake is complete. -/
inductive Welcomed (s₀ : ClientSession) (n : Nat) : History → ClientSession → Prop where
  | returns {h : History} {accepted : List Client.DocumentRequest} {s t : ClientSession} {k : Call}
      {v : Json} {r : HandshakeResult} {connection : Connection} (run : Run s₀ h accepted s)
      (untold : ¬ h.Told) (going : s.tasks.state? n = some (.connect (.asking k)))
      (returned : k.step? (.operation n) s.now s.client.connection =
        some (.finished (.ok v), connection))
      (decodes : HandshakeResult.ofJson v = .ok r) (step : s.advance? n = some t) :
      Welcomed s₀ n (h ++ s.advanceShows n) t
  | goOn {h more : History} {accepted : List Client.DocumentRequest} {s t : ClientSession}
      (before : Welcomed s₀ n h s) (rest : Run s more accepted t) : Welcomed s₀ n (h ++ more) t

/-- How the handshake of a client has gone so far. -/
inductive Course (s₀ : ClientSession) (h : History) (s : ClientSession) : Prop where
  | fresh (tasks : s.tasks = {})
  | asking {n : Nat} {k : Call} (tasks : s.tasks = handshakeOnly n (.running (.asking k)))
  | confirming {n : Nat} {server : Option Party} {call : WriteCall}
      (tasks : s.tasks = handshakeOnly n (.running (.confirming server call)))
      (welcomed : Welcomed s₀ n h s)
  | failing {n : Nat} {p : Progress Connecting (Except Failure Unit)}
      (tasks : s.tasks = handshakeOnly n p)
      (fails : Connecting.Fails p ∨ ∃ f, p = .finished (.error f)) (untold : ¬ h.Told)
  | succeeded (connected : s.isConnected = true)
      (answers : ∀ n result, s.tasks.answer? n = some (.connected result) →
        result = .ok () ∧ Welcomed s₀ n h s)

variable {p : Progress Connecting (Except Failure Unit)}

/-- A handshake that has failed does not write. -/
theorem idle_of_fails (alone : s.tasks = handshakeOnly n p)
    (fails : Connecting.Fails p ∨ ∃ f, p = .finished (.error f)) (m : Nat) :
    s.writers (.operation m) = none := by
  obtain ⟨f, k, rfl⟩ | ⟨f, rfl⟩ := fails
  · rw [writers_handshakeOnly alone]
    split <;> rfl
  · simp only [writers, alone]
    rfl

namespace Course

/-- What does not concern the operations leaves the handshake where it is. -/
theorem keep (course : Course s₀ h s) (rest : Run s shown more' t) (tasks : t.tasks = s.tasks)
    (quiet : (∀ m, s.writers (.operation m) = none) → (h ++ shown).finished = h.finished) :
    Course s₀ (h ++ shown) t := by
  cases course with
  | fresh new => exact .fresh (tasks.trans new)
  | asking alone => exact .asking (tasks.trans alone)
  | confirming alone welcomed => exact .confirming (tasks.trans alone) (welcomed.goOn rest)
  | failing alone fails untold =>
    refine .failing (tasks.trans alone) fails ?_
    rwa [History.Told, quiet (idle_of_fails alone fails)]
  | succeeded connected answers =>
    refine .succeeded ?_ fun n result answered ↦ ?_
    · rwa [isConnected, tasks]
    · obtain ⟨success, welcomed⟩ := answers n result (tasks ▸ answered)
      exact ⟨success, welcomed.goOn rest⟩

/-- A handshake or another operation begins. -/
theorem start (course : Course s₀ h s) (stage : Stage h s) (fresh : n ∉ s.numbers)
    {r : ClientRequest} (admitted : s.Admits r)
    (finished : (h ++ s.startShows n r).finished.Sublist
      ((h ++ s.startShows n r).messages.map (·.frame))) :
    Course s₀ (h ++ s.startShows n r) (s.start n r) := by
  cases course with
  | fresh new =>
    cases r with
    | document | completion | shutdown =>
      have connected : s.isConnected = false := by rw [isConnected, new]; rfl
      simp [Admits, connected] at admitted
    | connect root =>
      obtain ⟨p, hstart, tasks⟩ := start_connect new n root
      obtain ⟨k, rfl, -, -⟩ | ⟨fails, closed⟩ := Connecting.cases_start hstart
      · exact .asking tasks
      · refine .failing tasks (.inl fails) (History.not_told_of_greeted ?_ finished)
        rw [History.messages_append, stage.said_of_fresh new]
        simp [startShows, ClientTask.startShows, Connection.callShows, closed, History.messages]
  | asking alone | confirming alone => exact absurd admitted (not_admits alone (by simp) r)
  | failing alone fails =>
    refine absurd admitted (not_admits alone ?_ r)
    obtain ⟨f, k, rfl⟩ | ⟨f, rfl⟩ := fails <;> simp
  | succeeded connected answers =>
    have later : ∀ root, r ≠ .connect root := by
      rintro root rfl
      exact numbers_ne_nil connected admitted
    have rest : Run s (s.startShows n r) (s.accepts r) (s.start n r) :=
      .start .refl n r fresh admitted
    refine .succeeded (isConnected_start connected n r) fun m result answered ↦ ?_
    obtain ⟨success, welcomed⟩ := answers m result (answer?_connected_start later answered)
    exact ⟨success, welcomed.goOn rest⟩

/-- The first request goes on, or it has an outcome. -/
private theorem advance_asking (run : Run s₀ h accepted s) (stage : Stage h s) {k : Call}
    (alone : s.tasks = handshakeOnly n (.running (.asking k))) (step : s.advance? n = some t)
    (before : h.finished.Sublist (h.messages.map (·.frame)))
    (finished : (h ++ s.advanceShows n).finished.Sublist
      ((h ++ s.advanceShows n).messages.map (·.frame))) :
    Course s₀ (h ++ s.advanceShows n) t := by
  obtain ⟨-, p, hstep, tasks⟩ := advance_connect alone step
  obtain ⟨id, rootUri, said⟩ := stage.said_of_asking alone
  obtain ⟨k', -, rfl, -⟩ | ⟨outcome, connection, hcall, hafter⟩ := Connecting.cases_asking hstep
  · exact .asking tasks
  obtain ⟨v, server, call, rfl, accepts, rfl, -⟩ | ⟨fails, silent⟩ :=
    Connecting.cases_afterOutcome hafter
  · -- The result can be read.
    obtain ⟨r, decodes⟩ : ∃ r, HandshakeResult.ofJson v = .ok r := by
      unfold Connecting.serverOf at accepts
      split at accepts
      · next r decodes => exact ⟨r, decodes⟩
      · cases accepts
    have going : s.tasks.state? n = some (.connect (.asking k)) := by
      rw [alone, handshakeOnly, Tasks.state?_singleton, if_pos rfl]
    have untold : ¬ h.Told := by
      refine History.not_told_of_greeted (fun m hm ↦ ⟨id, rootUri, ?_⟩) before
      rwa [said, List.mem_singleton] at hm
    exact .confirming tasks (.returns run untold going hcall decodes step)
  · refine .failing tasks (.inl fails) (History.not_told_of_greeted (fun m hm ↦ ?_) finished)
    rw [History.messages_append, said, messages_outcome alone hcall, silent, List.append_nil,
      List.mem_singleton] at hm
    exact ⟨id, rootUri, hm⟩

/-- The server is told, or it is not. -/
private theorem advance_confirming (stage : Stage h s)
    (orderly : Orderly s.client.connection.transport s.writers h.events) (balanced : h.Balanced)
    (sound : s.client.connection.transport.sink.faultyAt = none) {server : Option Party}
    {call : WriteCall} (alone : s.tasks = handshakeOnly n (.running (.confirming server call)))
    (welcomed : Welcomed s₀ n h s) (step : s.advance? n = some t) :
    Course s₀ (h ++ s.advanceShows n) t := by
  obtain ⟨-, p, hstep, tasks⟩ := advance_connect alone step
  have rest : Run s (s.advanceShows n) [] t := .advance .refl n step
  obtain ⟨call', rfl, -⟩ | ⟨rfl, -⟩ | fails := Connecting.cases_confirming hstep
  · exact .confirming tasks (welcomed.goOn rest)
  · refine .succeeded ?_ fun m result answered ↦ ?_
    · rw [isConnected, tasks]
      rfl
    · rw [tasks, handshakeOnly, Tasks.answer?_singleton] at answered
      split at answered
      · next hm =>
        cases answered
        exact ⟨rfl, hm ▸ welcomed.goOn rest⟩
      · cases answered
  · refine .failing tasks (.inl fails) ?_
    obtain ⟨unwritten, silent⟩ := Connecting.unwritten_of_fails hstep fails sound
    obtain ⟨id, rootUri, said, sent⟩ := stage.said_of_confirming alone
    have writing : s.writers (.operation n) = some call := by
      rw [writers_handshakeOnly alone, if_pos rfl]
      rfl
    have few := finished_lt orderly balanced writing unwritten
    rw [said] at few
    have shows : s.advanceShows n = [] := by
      rw [advanceShows_handshakeOnly alone]
      simp [ClientTask.shows, ClientTask.writing?, Connecting.writing?, WriteCall.showsOf, silent]
    rw [shows, List.append_nil]
    exact History.not_told_of_sent sent few

/-- The client ends, or it has ended. -/
private theorem advance_failing (alone : s.tasks = handshakeOnly m p)
    (fails : Connecting.Fails p ∨ ∃ f, p = .finished (.error f)) (untold : ¬ h.Told)
    (step : s.advance? n = some t) : Course s₀ (h ++ s.advanceShows n) t := by
  obtain ⟨f, k, rfl⟩ | ⟨f, rfl⟩ := fails
  · obtain ⟨rfl, p, hstep, tasks⟩ := advance_connect alone step
    have further : Connecting.Fails p ∨ ∃ f, p = .finished (.error f) := by
      simp only [Connecting.step?] at hstep
      split at hstep
      · cases hstep
      · exact .inl ⟨_, _, (Prod.mk.inj (Option.some.inj hstep)).1.symm⟩
      · exact .inr ⟨_, (Prod.mk.inj (Option.some.inj hstep)).1.symm⟩
    have shows : s.advanceShows n = [] := by
      rw [advanceShows_handshakeOnly alone]
      rfl
    rw [shows, List.append_nil]
    exact .failing tasks further untold
  · obtain ⟨task, _, going, -⟩ := advance_spec step
    rw [alone] at going
    cases going

/-- The handshake or another operation goes on. -/
theorem advance (course : Course s₀ h s) (run : Run s₀ h accepted s) (stage : Stage h s)
    (orderly : Orderly s.client.connection.transport s.writers h.events) (balanced : h.Balanced)
    (sound : s.client.connection.transport.sink.faultyAt = none) (step : s.advance? n = some t)
    (before : h.finished.Sublist (h.messages.map (·.frame)))
    (finished : (h ++ s.advanceShows n).finished.Sublist
      ((h ++ s.advanceShows n).messages.map (·.frame))) :
    Course s₀ (h ++ s.advanceShows n) t := by
  cases course with
  | fresh new =>
    obtain ⟨task, _, going, -⟩ := advance_spec step
    rw [new] at going
    cases going
  | asking alone =>
    obtain ⟨rfl, -⟩ := advance_connect alone step
    exact advance_asking run stage alone step before finished
  | confirming alone welcomed =>
    obtain ⟨rfl, -⟩ := advance_connect alone step
    exact advance_confirming stage orderly balanced sound alone welcomed step
  | failing alone fails untold => exact advance_failing alone fails untold step
  | succeeded connected answers =>
    have rest : Run s (s.advanceShows n) [] t := .advance .refl n step
    obtain ⟨-, follows⟩ := stage.of_connected connected
    refine .succeeded (isConnected_advance connected step) fun m result answered ↦ ?_
    obtain ⟨success, welcomed⟩ := answers m result
      (answer?_connected_advance follows step answered)
    exact ⟨success, welcomed.goOn rest⟩

end Course

variable {language : String} {limit : Option Duration} {capacity : Nat} {installed : Bool}
  {child : Option Child}

/-- On every run the frames that have gone out are some of those of what was said. -/
theorem Run.finished_sublist
    (run : Run (hosted language limit capacity installed child) h accepted s) :
    h.finished.Sublist (h.messages.map (·.frame)) :=
  h.finished_sublist_begun.trans (begun_sublist run.orderly run.balanced)

/-- On every run the handshake takes its course. -/
theorem Run.course (run : Run (hosted language limit capacity installed child) h accepted s) :
    Course (hosted language limit capacity installed child) h s := by
  induction run with
  | refl => exact .fresh rfl
  | start run n r fresh admitted ih =>
    exact ih.start run.stage fresh admitted (run.start n r fresh admitted).finished_sublist
  | advance run n step ih =>
    exact ih.advance run run.stage run.orderly run.balanced run.reachable.onward.faults step
      run.finished_sublist (run.advance n step).finished_sublist
  | read run step ih =>
    obtain ⟨⟨_, reads⟩, tasks, -⟩ := read_spec step
    exact ih.keep (.read .refl step) tasks fun idle ↦ finished_append run.orderly
      (writes_read run.orderly step) reads.balanced.1 reads.balanced.2 idle
  | callbackFails run step called ih =>
    obtain ⟨⟨_, reads⟩, tasks, -⟩ := read_spec step
    exact ih.keep (.callbackFails .refl step called) tasks fun idle ↦ finished_append run.orderly
      (writes_read run.orderly step) reads.balanced.1 reads.balanced.2 idle
  | event run e ih =>
    rename_i h _ s
    have after := ih.keep (.event .refl e) (by cases e <;> rfl) fun _ ↦ by rw [List.append_nil]
    rwa [List.append_nil] at after

/-! ### The end of a handshake -/

/-- The handshake of a client has failed, and the client is gone. -/
structure Failed (n : Nat) (f : Failure) (s : ClientSession) : Prop where
  tasks : s.tasks = handshakeOnly n (.finished (.error f))
  gone : s.client.Gone

/-- A client that is gone reads nothing any more. -/
theorem advanceReading?_of_gone (gone : s.client.Gone) : s.advanceReading? = none := by
  simp [advanceReading?, Client.stepReading?, Connection.stepReading?, gone.connection.ended]

namespace Failed

variable {f : Failure}

/-- Whatever happens, nothing is written any more. -/
theorem step (failed : s.Failed n f) (next : Step s t) :
    t.Failed n f ∧
      t.client.connection.transport.sink.written =
        s.client.connection.transport.sink.written := by
  have silent := advanceReading?_of_gone failed.gone
  cases next with
  | start m r fresh admitted => exact absurd admitted (not_admits failed.tasks (by simp) r)
  | advance m step =>
    obtain ⟨task, _, going, -⟩ := advance_spec step
    rw [failed.tasks] at going
    cases going
  | read step | callbackFails step =>
    rw [silent] at step
    cases step
  | event e =>
    have passes := passes_event s e
    refine ⟨⟨passes.tasks.trans failed.tasks,
      failed.gone.onward passes.aside.onward passes.aside.phase⟩, ?_⟩
    cases e with
    | deliver count => exact Outflow.written_deliver _ _
    | arrive | endInflow | breakSink | tick | childExits | setCallback => rfl

/-- Whatever comes of the client, nothing is written any more. -/
theorem reachable (failed : s.Failed n f) (later : Reachable s t) :
    t.Failed n f ∧
      t.client.connection.transport.sink.written =
        s.client.connection.transport.sink.written := by
  induction later with
  | refl => exact ⟨failed, rfl⟩
  | step _ next ih =>
    obtain ⟨failed, same⟩ := ih
    obtain ⟨failed', same'⟩ := failed.step next
    exact ⟨failed', same'.trans same⟩

end Failed

/-- The failure of a handshake that has failed. -/
def failure? (s : ClientSession) (n : Nat) : Option Failure :=
  match s.tasks.answer? n with
  | some (.connected (.error f)) => some f
  | _ => none

end ClientSession

end LanguageHub
