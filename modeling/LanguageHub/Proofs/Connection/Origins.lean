import LanguageHub.Proofs.Connection.Outgoing

/-!
# Where the occurrences of a history come from

A number is used once. Every frame that somebody wants to write is the request of a call, a
notification, or the answer to a request of the server, and only the task that reads gives a
frame up, when the connection is closed.
-/

namespace LanguageHub

/-- The number under which an operation began. -/
def Occurrence.number? : Occurrence → Option Nat
  | called n _ _ => some n
  | notified n _ => some n
  | _ => none

namespace History

/-- The numbers under which operations began. -/
def numbers (h : History) : List Nat := h.filterMap Occurrence.number?

@[simp]
theorem numbers_append (h more : History) : numbers (h ++ more) = numbers h ++ numbers more :=
  List.filterMap_append

/-- The history shows what made somebody want to write a frame. -/
def Accounts (h : History) : Agent → Bytes → Prop
  | .operation n, frame =>
    (∃ id request, .called n id request ∈ h ∧ frame = Frame.encode (request.encode id)) ∨
      ∃ notice, .notified n notice ∈ h ∧ frame = Frame.encode notice.encode
  | .reading, frame => ∃ id, .requested id ∈ h ∧ frame = Frame.encode (encodeNullReply id)

variable {h more : History} {a : Agent} {frame : Bytes}

/-- What a writer did stands in the history. -/
theorem mem_events_iff {e : WireEvent} : e ∈ h.events ↔ .wire e ∈ h := by
  simp only [events, List.mem_filterMap]
  constructor
  · rintro ⟨x, hx, he⟩
    cases x with
    | wire event =>
      cases he
      exact hx
    | _ => cases he
  · exact fun he ↦ ⟨_, he, rfl⟩

/-- Who wants to write a frame has joined the line with it. -/
theorem mem_orders_iff {order : Agent × Bytes} :
    order ∈ WireEvent.orders h.events ↔ .wire (.asked order.1 order.2) ∈ h := by
  simp only [WireEvent.orders, List.mem_filterMap, mem_events_iff]
  constructor
  · rintro ⟨e, he, horder⟩
    cases e with
    | asked a frame =>
      cases horder
      exact he
    | _ => cases horder
  · exact fun he ↦ ⟨_, he, rfl⟩

/-- What a writer did is one of the things that the writers did. -/
theorem mem_of_wire_mem_map {log : List WireEvent} {e : WireEvent}
    (he : .wire e ∈ log.map Occurrence.wire) : e ∈ log := by
  obtain ⟨f, hf, hfe⟩ := List.mem_map.mp he
  cases hfe
  exact hf

/-- A longer history accounts for as much. -/
theorem Accounts.mono (hsub : ∀ x ∈ h, x ∈ more) (accounts : h.Accounts a frame) :
    more.Accounts a frame := by
  cases a with
  | operation n =>
    refine accounts.imp ?_ ?_
    · exact fun ⟨id, request, hx, hframe⟩ ↦ ⟨id, request, hsub _ hx, hframe⟩
    · exact fun ⟨notice, hx, hframe⟩ ↦ ⟨notice, hsub _ hx, hframe⟩
  | reading =>
    obtain ⟨id, hx, hframe⟩ := accounts
    exact ⟨id, hsub _ hx, hframe⟩

/-- What is accounted for is the encoding of a body. -/
theorem Accounts.exists_body (accounts : h.Accounts a frame) :
    ∃ body, frame = Frame.encode body := by
  cases a with
  | operation n =>
    obtain ⟨_, _, _, hframe⟩ | ⟨_, _, hframe⟩ := accounts
    · exact ⟨_, hframe⟩
    · exact ⟨_, hframe⟩
  | reading =>
    obtain ⟨_, _, hframe⟩ := accounts
    exact ⟨_, hframe⟩

end History

/-- The task that reads shows a response, a request with its answer, or something of its write. -/
theorem Connection.ReadingStep.shows {c d : Connection} {shown : History}
    {notice : Option ServerNotice} (h : c.ReadingStep shown d notice) :
    (∃ id outcome, shown = [.responded id outcome]) ∨
      (∃ id, shown =
        [.requested id, .wire (.asked .reading (Frame.encode (encodeNullReply id)))]) ∨
      ∃ log : List WireEvent, shown = log.map .wire ∧ ∀ e ∈ log,
        (∃ frame, e = .opened .reading frame) ∨ (∃ bytes, e = .wrote bytes) ∨
          e = .gaveUp .reading ∧ d.reading = .ended ∧ d.stopping = true := by
  cases h with
  | resolves => exact .inl ⟨_, _, rfl⟩
  | replies => exact .inr (.inl ⟨_, rfl⟩)
  | stops | reads | passes | ends => exact .inr (.inr ⟨[], rfl, by simp⟩)
  | @givesUp call _ told =>
    refine .inr (.inr ⟨_, rfl, fun e he ↦ ?_⟩)
    cases call with
    | queued data => cases he
    | writing rest =>
      cases List.mem_singleton.mp he
      exact .inr (.inr ⟨rfl, rfl, told⟩)
  | writes | replied =>
    exact .inr (.inr ⟨_, rfl, fun e he ↦ (WriteCall.mem_shows he).imp_right .inl⟩)

namespace ConnectionSession

variable {s s₀ t : ConnectionSession} {h : History} {n m : Nat}

/-- A number is given away when it has a state or an answer. -/
theorem mem_numbers_iff :
    n ∈ s.numbers ↔ s.tasks.state? n ≠ none ∨ s.tasks.answer? n ≠ none := by
  rw [ne_eq, ne_eq, Tasks.state?_eq_none_iff, Tasks.answer?_eq_none_iff, not_not, not_not]
  exact List.mem_append

/-- An operation that begins uses its number, and the others stay used. -/
theorem mem_numbers_start (fresh : n ∉ s.numbers) (r : ConnectionRequest) :
    m ∈ (s.start n r).numbers ↔ m = n ∨ m ∈ s.numbers := by
  have hnumber : n ∉ s.tasks.numbers := Tasks.state?_eq_none_iff.mp (state?_of_fresh fresh)
  have hstart : ∀ task, (s.tasks.start n task).state? m ≠ none ∨ s.tasks.answer? m ≠ none ↔
      m = n ∨ m ∈ s.numbers := by
    intro task
    rw [Tasks.state?_start hnumber, mem_numbers_iff]
    by_cases hm : m = n <;> simp [hm]
  cases r with
  | call request limit =>
    rw [mem_numbers_iff]
    cases hc : s.connection.table.closed with
    | true =>
      simp only [start, Call.start, CallTable.register_of_closed hc, Tasks.state?_finish,
        Tasks.answer?_finish]
      rw [mem_numbers_iff]
      by_cases hm : m = n <;> simp [hm]
    | false =>
      obtain ⟨table, ticket, hregister⟩ := CallTable.register_of_open hc s.connection.nextId
      simp only [start, Call.start, hregister]
      exact hstart _
  | notify notice =>
    rw [mem_numbers_iff]
    exact hstart _
  | close =>
    rw [mem_numbers_iff]
    exact hstart _

/-- The numbers that are used stay used. -/
theorem mem_numbers_advance (step : s.advance? n = some t) (hm : m ∈ s.numbers) :
    m ∈ t.numbers := by
  obtain ⟨task, progress, c, going, _, rfl⟩ := advance?_eq_some step
  rw [mem_numbers_iff] at hm ⊢
  cases progress with
  | running next =>
    simp only [record, Tasks.state?_update, Tasks.answer?_update]
    by_cases hmn : m = n
    · simp [hmn, going]
    · simpa [hmn] using hm
  | finished answer =>
    simp only [record, Tasks.state?_finish, Tasks.answer?_finish]
    by_cases hmn : m = n
    · simp [hmn]
    · simpa [hmn] using hm

/-- What a step of an operation shows is something of its write. -/
theorem advanceShows_eq (s : ConnectionSession) (n : Nat) :
    ∃ log : List WireEvent, s.advanceShows n = log.map .wire ∧ ∀ e ∈ log,
      (∃ frame, e = .opened (.operation n) frame) ∨ ∃ bytes, e = .wrote bytes := by
  unfold advanceShows
  split
  · exact ⟨_, rfl, fun e he ↦ WriteCall.mem_shows he⟩
  · exact ⟨[], rfl, by simp⟩

private theorem numbers_map_wire (log : List WireEvent) :
    History.numbers (log.map .wire) = [] := by
  simp only [History.numbers, List.filterMap_map]
  exact List.filterMap_eq_nil_iff.mpr fun _ _ ↦ rfl

/-- What an operation that begins shows. -/
theorem mem_startShows {r : ConnectionRequest} {x : Occurrence} (hx : x ∈ s.startShows n r) :
    (∃ id request, x = .called n id request) ∨ (∃ notice, x = .notified n notice) ∨
      ∃ frame, x = .wire (.asked (.operation n) frame) ∧
        History.Accounts (s.startShows n r) (.operation n) frame := by
  cases r with
  | call request limit =>
    rcases List.mem_cons.mp hx with rfl | hx
    · exact .inl ⟨_, _, rfl⟩
    · split at hx
      · cases hx
      · rw [List.mem_singleton.mp hx]
        exact .inr (.inr ⟨_, rfl, .inl ⟨_, request, List.mem_cons_self, rfl⟩⟩)
  | notify notice =>
    rcases List.mem_cons.mp hx with rfl | hx
    · exact .inr (.inl ⟨_, rfl⟩)
    · rw [List.mem_singleton.mp hx]
      exact .inr (.inr ⟨_, rfl, .inr ⟨notice, List.mem_cons_self, rfl⟩⟩)
  | close => cases hx

/-- An operation that begins shows its number once, if at all. -/
theorem numbers_startShows (s : ConnectionSession) (n : Nat) (r : ConnectionRequest) :
    History.numbers (s.startShows n r) = [] ∨ History.numbers (s.startShows n r) = [n] := by
  cases r with
  | call request limit =>
    refine .inr ?_
    simp only [startShows]
    split <;> rfl
  | notify notice => exact .inr rfl
  | close => exact .inl rfl

/-- A number is used once. -/
theorem Run.numbers {capacity : Nat} {handlerFails : Bool}
    (run : Run (overPipes capacity handlerFails) h s) :
    h.numbers.Nodup ∧ ∀ n ∈ h.numbers, n ∈ s.numbers := by
  induction run with
  | refl => exact ⟨List.nodup_nil, by simp [History.numbers]⟩
  | @start h s _ n r fresh ih =>
    obtain ⟨hnodup, hsub⟩ := ih
    rw [History.numbers_append]
    have hstart := fun m ↦ mem_numbers_start (m := m) fresh r
    rcases numbers_startShows s n r with hshows | hshows
    · rw [hshows, List.append_nil]
      exact ⟨hnodup, fun m hm ↦ (hstart m).mpr (.inr (hsub m hm))⟩
    · rw [hshows]
      refine ⟨List.nodup_append.mpr ⟨hnodup, by simp, fun m hm k hk hmk ↦ ?_⟩, fun m hm ↦ ?_⟩
      · cases List.mem_singleton.mp hk
        exact fresh (hmk ▸ hsub m hm)
      · rcases List.mem_append.mp hm with hm | hm
        · exact (hstart m).mpr (.inr (hsub m hm))
        · exact (hstart m).mpr (.inl (List.mem_singleton.mp hm))
  | @advance h s t _ n step ih =>
    obtain ⟨log, hlog, _⟩ := advanceShows_eq s n
    rw [hlog, History.numbers_append, numbers_map_wire, List.append_nil]
    exact ⟨ih.1, fun m hm ↦ mem_numbers_advance step (ih.2 m hm)⟩
  | @read h s t _ step ih =>
    obtain ⟨notice, c, hstep, rfl⟩ := readingStep_of_advanceReading? step
    have hshown : History.numbers s.connection.readingShows = [] := by
      obtain ⟨_, _, hs⟩ | ⟨_, hs⟩ | ⟨log, hs, _⟩ := hstep.shows
      · rw [hs]; rfl
      · rw [hs]; rfl
      · rw [hs, numbers_map_wire]
    rw [History.numbers_append, hshown, List.append_nil]
    exact ih
  | @event h s _ e ih =>
    have hnumbers : (s.happen e).numbers = s.numbers := by cases e <;> rfl
    rw [hnumbers]
    exact ih

/-- Every frame that somebody wants to write is accounted for. -/
theorem Run.accounts (run : Run s₀ h s) {a : Agent} {frame : Bytes}
    (asked : .wire (.asked a frame) ∈ h) : h.Accounts a frame := by
  induction run with
  | refl => cases asked
  | @start h s _ n r _ ih =>
    rcases List.mem_append.mp asked with asked | asked
    · exact (ih asked).mono fun x hx ↦ List.mem_append_left _ hx
    · refine History.Accounts.mono (h := s.startShows n r)
        (fun x hx ↦ List.mem_append_right _ hx) ?_
      obtain ⟨_, _, hx⟩ | ⟨_, hx⟩ | ⟨frame, hx, accounts⟩ := mem_startShows asked
      · cases hx
      · cases hx
      · cases hx
        exact accounts
  | @advance h s t _ n step ih =>
    rcases List.mem_append.mp asked with asked | asked
    · exact (ih asked).mono fun x hx ↦ List.mem_append_left _ hx
    · obtain ⟨log, hlog, hcases⟩ := advanceShows_eq s n
      rw [hlog] at asked
      obtain ⟨_, h⟩ | ⟨_, h⟩ := hcases _ (History.mem_of_wire_mem_map asked) <;> cases h
  | @read h s t _ step ih =>
    rcases List.mem_append.mp asked with asked | asked
    · exact (ih asked).mono fun x hx ↦ List.mem_append_left _ hx
    · refine History.Accounts.mono (h := s.connection.readingShows)
        (fun x hx ↦ List.mem_append_right _ hx) ?_
      obtain ⟨notice, _, hstep, rfl⟩ := readingStep_of_advanceReading? step
      obtain ⟨_, _, hs⟩ | ⟨id, hs⟩ | ⟨log, hs, hcases⟩ := hstep.shows
      · rw [hs] at asked
        cases List.mem_singleton.mp asked
      · rw [hs] at asked ⊢
        simp only [List.mem_cons, reduceCtorEq, List.not_mem_nil, or_false, false_or,
          Occurrence.wire.injEq] at asked
        cases asked
        exact ⟨id, List.mem_cons_self, rfl⟩
      · rw [hs] at asked
        obtain ⟨_, h⟩ | ⟨_, h⟩ | ⟨h, _⟩ :=
          hcases _ (History.mem_of_wire_mem_map asked) <;> cases h
  | event _ e ih => exact ih asked

/-- Only the task that reads gives a frame up, and only because it is told to stop. -/
theorem Run.gaveUp (run : Run s₀ h s) {a : Agent} (gave : .wire (.gaveUp a) ∈ h) :
    a = .reading ∧ s.connection.reading = .ended ∧ s.connection.stopping = true := by
  induction run with
  | refl => cases gave
  | @start h s _ n r _ ih =>
    obtain ⟨reading, stopping⟩ := start_reading s n r
    rcases List.mem_append.mp gave with gave | gave
    · obtain ⟨ha, hended, hstopping⟩ := ih gave
      exact ⟨ha, reading.trans hended, stopping hstopping⟩
    · obtain ⟨_, _, hx⟩ | ⟨_, hx⟩ | ⟨_, hx, _⟩ := mem_startShows gave <;> cases hx
  | @advance h s t _ n step ih =>
    obtain ⟨reading, stopping⟩ := advance_reading step
    rcases List.mem_append.mp gave with gave | gave
    · obtain ⟨ha, hended, hstopping⟩ := ih gave
      exact ⟨ha, reading.trans hended, stopping.trans hstopping⟩
    · obtain ⟨log, hlog, hcases⟩ := advanceShows_eq s n
      rw [hlog] at gave
      obtain ⟨_, h⟩ | ⟨_, h⟩ := hcases _ (History.mem_of_wire_mem_map gave) <;> cases h
  | @read h s t _ step ih =>
    obtain ⟨notice, c, hstep, rfl⟩ := readingStep_of_advanceReading? step
    rcases List.mem_append.mp gave with gave | gave
    · exact absurd (ih gave).2.1 hstep.ne_ended
    · obtain ⟨_, _, hs⟩ | ⟨_, hs⟩ | ⟨log, hs, hcases⟩ := hstep.shows
      · rw [hs] at gave
        cases List.mem_singleton.mp gave
      · rw [hs] at gave
        simp only [List.mem_cons, reduceCtorEq, List.not_mem_nil, or_false,
          Occurrence.wire.injEq] at gave
      · rw [hs] at gave
        obtain ⟨_, h⟩ | ⟨_, h⟩ | ⟨h, hended, hstopping⟩ :=
          hcases _ (History.mem_of_wire_mem_map gave) <;> cases h
        exact ⟨rfl, hended, hstopping⟩
  | @event h s _ e ih =>
    obtain ⟨reading, stopping⟩ := happen_reading s e
    obtain ⟨ha, hended, hstopping⟩ := ih gave
    exact ⟨ha, reading.trans hended, stopping.trans hstopping⟩

end ConnectionSession

end LanguageHub
