import LanguageHub.Proofs.Connection.Calls

/-!
# Responses reach their calls

Calls take increasing ids and their requests go out in this order. A call returns what the first
response with its id carries, no response ends two calls, and a response that comes too late makes
no difference.
-/

namespace LanguageHub

namespace History

/-- The id of the request that somebody joined the line with, if it was a call. -/
def orderId? (h : History) (order : Agent × Bytes) : Option Int :=
  match order.1 with
  | .operation n => h.idOf? n
  | .reading => none

/-- The ids of the requests that somebody joined the line with, in order. -/
def orderIds (h : History) : List Int := (WireEvent.orders h.events).filterMap h.orderId?

variable {h more : History} {n : Nat}

/-- A number under which nothing began has no id. -/
theorem idOf?_eq_none_of_notMem (hn : n ∉ h.numbers) : h.idOf? n = none := by
  refine List.findSome?_eq_none_iff.mpr fun x hx ↦ ?_
  cases x with
  | called m id request =>
    refine if_neg fun hmn ↦ hn (List.mem_filterMap.mpr ⟨_, hx, ?_⟩)
    exact congrArg some hmn
  | _ => rfl

/-- Who joined the line has begun under a number. -/
theorem Accounts.mem_numbers {frame : Bytes} (accounts : h.Accounts (.operation n) frame) :
    n ∈ h.numbers := by
  obtain ⟨id, request, hx, _⟩ | ⟨notice, hx, _⟩ := accounts
  · exact List.mem_filterMap.mpr ⟨_, hx, rfl⟩
  · exact List.mem_filterMap.mpr ⟨_, hx, rfl⟩

/-- Two occurrences under one number are the same. -/
theorem eq_of_number? {x y : Occurrence} (nodup : h.numbers.Nodup) (hx : x ∈ h) (hy : y ∈ h)
    (hxn : x.number? = some n) (hyn : y.number? = some n) : x = y := by
  induction h with
  | nil => cases hx
  | cons z h ih =>
    have only : ∀ w ∈ h, w.number? = some n → z.number? ≠ some n := by
      intro w hw hwn hzn
      rw [numbers, List.filterMap_cons_some hzn] at nodup
      exact (List.nodup_cons.mp nodup).1 (List.mem_filterMap.mpr ⟨w, hw, hwn⟩)
    have hrest : (numbers h).Nodup :=
      nodup.sublist ((List.sublist_cons_self z h).filterMap _)
    rcases List.mem_cons.mp hx with rfl | hx' <;> rcases List.mem_cons.mp hy with rfl | hy'
    · rfl
    · exact absurd hxn (only y hy' hyn)
    · exact absurd hyn (only x hx' hxn)
    · exact ih hrest hx' hy'

/-- A frame that was accounted for by a call is the request of this call. -/
theorem Accounts.eq_request {frame : Bytes} {id : Int} {request : Request}
    (accounts : h.Accounts (.operation n) frame) (nodup : h.numbers.Nodup)
    (called : .called n id request ∈ h) : frame = Frame.encode (request.encode id) := by
  obtain ⟨id', request', hx, rfl⟩ | ⟨notice, hx, _⟩ := accounts
  · cases eq_of_number? nodup hx called rfl rfl
    rfl
  · cases eq_of_number? nodup hx called rfl rfl

/-- The requests keep the order of their calls as the history goes on. -/
theorem orderIds_append (used : ∀ n frame, (.operation n, frame) ∈ WireEvent.orders h.events →
      more.idOf? n = none)
    (hmore : ((WireEvent.orders more.events).filterMap (orderId? (h ++ more))).Sublist more.callIds)
    (ih : h.orderIds.Sublist h.callIds) : (orderIds (h ++ more)).Sublist (h ++ more).callIds := by
  have hsame : (WireEvent.orders h.events).filterMap (orderId? (h ++ more)) = h.orderIds := by
    refine List.filterMap_congr fun order horder ↦ ?_
    obtain ⟨a, frame⟩ := order
    cases a with
    | reading => rfl
    | operation n => simp only [orderId?, idOf?_append, used n frame horder, Option.or_none]
  rw [orderIds, events_append, WireEvent.orders_append, List.filterMap_append, hsame,
    callIds_append]
  exact ih.append hmore

/-- The requests on the wire are some of those that somebody joined the line with, in order. -/
theorem requestIds_eq (h : History) :
    h.requestIds = (h.wire.map (·.order)).filterMap h.orderId? := by
  rw [List.filterMap_map]
  rfl

end History

namespace ConnectionSession

open History

variable {s t : ConnectionSession} {h : History} {capacity : Nat} {handlerFails : Bool}

private theorem orders_map_wire {log : List WireEvent} (none : ∀ e ∈ log, e.order? = none) :
    WireEvent.orders (History.events (log.map .wire)) = [] := by
  rw [events_map_wire]
  exact List.filterMap_eq_nil_iff.mpr none

/-- The requests join the line in the order in which the calls begin. -/
theorem Run.orderIds (run : Run (overPipes capacity handlerFails) h s) :
    h.orderIds.Sublist h.callIds := by
  induction run with
  | refl => exact List.Sublist.slnil
  | @start h s run n r fresh ih =>
    have hn : n ∉ h.numbers := fun hn ↦ fresh (run.numbers.2 n hn)
    have hnone := idOf?_eq_none_of_notMem hn
    refine orderIds_append (fun m frame horder ↦ ?_) ?_ ih
    · have hm : m ∈ h.numbers := (run.accounts (mem_orders_iff.mp horder)).mem_numbers
      have hmn : n ≠ m := fun hmn ↦ hn (hmn ▸ hm)
      refine idOf?_eq_none_of_notMem fun hm' ↦ ?_
      rcases numbers_startShows s n r with hshows | hshows
      · rw [hshows] at hm'
        cases hm'
      · rw [hshows] at hm'
        exact hmn (List.mem_singleton.mp hm').symm
    · cases r with
      | call request limit =>
        simp only [startShows]
        split
        · exact List.nil_sublist _
        · have hid : ∀ more, idOf? (h ++ .called n s.connection.nextId request :: more) n =
              some s.connection.nextId := by
            intro more
            rw [idOf?_append, hnone]
            simp [idOf?, Occurrence.idOf?]
          simp only [History.events, WireEvent.orders, List.filterMap_cons, List.filterMap_nil,
            Occurrence.wireEvent?, WireEvent.order?, orderId?, hid]
          exact List.Sublist.refl _
      | notify notice =>
        have hid : idOf? (h ++ s.startShows n (.notify notice)) n = none := by
          rw [idOf?_append, hnone]
          rfl
        simp only [startShows] at hid ⊢
        simp only [History.events, WireEvent.orders, List.filterMap_cons, List.filterMap_nil,
          Occurrence.wireEvent?, WireEvent.order?, orderId?, hid]
        exact List.nil_sublist _
      | close => exact List.nil_sublist _
  | @advance h s t _ n step ih =>
    obtain ⟨log, hlog, hcases⟩ := advanceShows_eq s n
    rw [hlog]
    refine orderIds_append (fun m _ _ ↦ (silent_map_wire log).idOf? m) ?_ ih
    rw [orders_map_wire]
    · exact List.nil_sublist _
    · intro e he
      obtain ⟨_, rfl⟩ | ⟨_, rfl⟩ := hcases e he <;> rfl
  | @read h s t _ step ih =>
    obtain ⟨notice, c, hstep, rfl⟩ := readingStep_of_advanceReading? step
    obtain ⟨_, _, hs⟩ | ⟨_, hs⟩ | ⟨log, hs, hcases⟩ := hstep.shows <;> rw [hs]
    · exact orderIds_append (fun _ _ _ ↦ rfl) (List.nil_sublist _) ih
    · exact orderIds_append (fun _ _ _ ↦ rfl) (List.nil_sublist _) ih
    · refine orderIds_append (fun m _ _ ↦ (silent_map_wire log).idOf? m) ?_ ih
      rw [orders_map_wire]
      · exact List.nil_sublist _
      · intro e he
        obtain ⟨_, rfl⟩ | ⟨_, rfl⟩ | ⟨rfl, _⟩ := hcases e he <;> rfl
  | event _ e ih => exact ih

/-- A call that returns what a response carries returns what the first response to it carries. -/
theorem Run.first_response (run : Run (overPipes capacity handlerFails) h s) {n : Nat}
    {outcome : Outcome} (answered : s.tasks.answer? n = some (.outcome outcome))
    (reply : outcome.IsReply) : ∃ id p, h.idOf? n = some id ∧
      h.responseTo? n = some (p, outcome) ∧ h[p]? = some (.responded id outcome) := by
  have hreturned : s.ledger.returned n = some outcome := by
    simp [ledger, answered, ConnectionAnswer.outcome?]
  obtain ⟨p, hp⟩ := run.kept.returned n outcome hreturned reply
  obtain ⟨id, hid, hget⟩ := getElem?_of_responseTo? hp
  exact ⟨id, p, hid, hp, hget⟩

/-- A response is the first one to one call only. -/
theorem Run.response_unique (run : Run (overPipes capacity handlerFails) h s) {n m p : Nat}
    {o o' : Outcome} (hn : h.responseTo? n = some (p, o)) (hm : h.responseTo? m = some (p, o')) :
    n = m := by
  obtain ⟨i, hi, hpi⟩ := getElem?_of_responseTo? hn
  obtain ⟨j, hj, hpj⟩ := getElem?_of_responseTo? hm
  rw [hpi] at hpj
  cases hpj
  exact run.kept.distinct n m i hi hj

/-- A decoded response settles the call that waits under its id, and nothing else changes about
calls. -/
theorem resolve_of_responded (step : s.advanceReading? = some t) {id : Int} {outcome : Outcome}
    (responded : .responded id outcome ∈ s.connection.readingShows) :
    t.tasks = s.tasks ∧ t.handled = s.handled ∧
      t.connection.table = (s.connection.table.resolve id outcome).1 := by
  obtain ⟨notice, c, hcase, rfl⟩ := readingStep_of_advanceReading? step
  generalize s.connection.readingShows = shown at hcase responded
  cases hcase with
  | resolves =>
    cases List.mem_singleton.mp responded
    exact ⟨rfl, List.append_nil _, rfl⟩
  | stops | reads | passes | ends => cases responded
  | givesUp | writes | replied =>
    obtain ⟨_, _, h⟩ := List.mem_map.mp responded
    cases h
  | replies =>
    simp only [List.mem_cons, reduceCtorEq, List.not_mem_nil, or_self] at responded

/-- Requests go out under increasing ids in the order of their calls; a call that returns a result
or an error of the server returns what the first response to it carries; a response ends one call
at most, and one that comes too late makes no difference. -/
theorem responses_reach_their_calls (run : Run (overPipes capacity handlerFails) h s) :
    (h.callIds.Pairwise (· < ·) ∧ h.requestIds.Sublist h.callIds ∧
      h.requestIds.Pairwise (· < ·) ∧
      s.connection.transport.sink.written = h.wire.flatMap (·.sent) ∧
      ∀ x ∈ h.wire, ∀ n id request, x.author = .operation n → .called n id request ∈ h →
        x.frame = Frame.encode (request.encode id)) ∧
    (∀ n outcome, s.tasks.answer? n = some (.outcome outcome) → outcome.IsReply →
      ∃ id p, h.idOf? n = some id ∧ h.responseTo? n = some (p, outcome) ∧
        h[p]? = some (.responded id outcome)) ∧
    (∀ n m p o o', h.responseTo? n = some (p, o) → h.responseTo? m = some (p, o') → n = m) ∧
    ∀ t id outcome, s.advanceReading? = some t →
      .responded id outcome ∈ s.connection.readingShows →
      t.tasks = s.tasks ∧ t.handled = s.handled ∧
      (∀ n k, s.tasks.state? n = some (.call k) → k.id ≠ id →
        t.connection.table.fate? k.ticket = s.connection.table.fate? k.ticket) ∧
      ∀ n, h.idOf? n = some id → (s.tasks.answer? n ≠ none ∨ h.responseTo? n ≠ none) →
        t.connection.table = s.connection.table := by
  have kept := run.kept
  have orderly := run.orderly
  have hsub : h.requestIds.Sublist h.callIds := by
    rw [requestIds_eq]
    have hwire : (h.wire.map (·.order)).Sublist (WireEvent.orders h.events) :=
      (List.sublist_append_left _ _).trans orderly.inOrder
    exact (hwire.filterMap _).trans run.orderIds
  refine ⟨⟨kept.increasing, hsub, kept.increasing.sublist hsub, orderly.written,
    fun x hx n id request hauthor called ↦ ?_⟩, fun n outcome ↦ run.first_response,
    fun n m p o o' ↦ run.response_unique, fun t id outcome step responded ↦ ?_⟩
  · have horder : x.order ∈ WireEvent.orders h.events :=
      orderly.inOrder.subset (List.mem_append_left _ (List.mem_map_of_mem hx))
    have haccounts := run.accounts (mem_orders_iff.mp horder)
    rw [Shipment.order, hauthor] at haccounts
    exact haccounts.eq_request run.numbers.1 called
  · obtain ⟨htasks, hhandled, htable⟩ := resolve_of_responded step responded
    refine ⟨htasks, hhandled, fun n k going other ↦ ?_, fun n called late ↦ ?_⟩
    · have hgoing : s.ledger.going n = some (k.id, k.ticket) := by
        simp [ledger, going, ConnectionTask.entry?]
      rw [htable]
      exact kept.sound.fate?_take_other _ (kept.notMem_pending hgoing other)
    · have hgone : id ∉ s.connection.table.ids := by
        rcases late with answered | response
        · exact run.notMem_ids_of_answered called answered
        · exact kept.notMem_ids_of_response called response
      rw [htable, CallTable.resolve, CallTable.take_of_notMem hgone]

/-- The server answers two calls in the opposite order. -/
def answeredBackwards : ConnectionSession :=
  let request := ConnectionRequest.call (.completion "file:///a.py" ⟨0, 0⟩) none
  let s := settle advanceAny? 20 ((overPipes 1000 false).start 0 request)
  let s := settle advanceAny? 20 (s.start 1 request)
  let s := s.happen (.arrive (Frame.encode "\x7b\"id\":2,\"result\":\"b\"\x7d"))
  let s := (settle advanceAny? 20 s).happen
    (.arrive (Frame.encode "\x7b\"id\":1,\"result\":\"a\"\x7d"))
  settle advanceAny? 20 s

private def replyText? : ConnectionAnswer → Option String
  | .outcome (.ok (.text text)) => some text
  | _ => none

private theorem answer_eq (n : Nat) (text : String)
    (h : (answeredBackwards.tasks.answer? n).bind replyText? = some text) :
    answeredBackwards.tasks.answer? n = some (.outcome (.ok (.text text))) := by
  obtain ⟨answer, hanswer, htext⟩ := Option.bind_eq_some_iff.mp h
  rw [hanswer]
  unfold replyText? at htext
  split at htext
  · rw [Option.some.inj htext]
  · cases htext

/-- Two calls that are answered in the opposite order return the responses to them. -/
theorem first_response_backwards : ∃ h, Run (overPipes 1000 false) h answeredBackwards ∧
    (∃ p, h.responseTo? 0 = some (p, .ok (.text "a"))) ∧
    ∃ p, h.responseTo? 1 = some (p, .ok (.text "b")) := by
  let request := ConnectionRequest.call (.completion "file:///a.py" ⟨0, 0⟩) none
  have run : Run (overPipes 1000 false) [] (overPipes 1000 false) := .refl
  obtain ⟨_, run⟩ := (run.start 0 request (by decide)).settle 20
  obtain ⟨_, run⟩ := (run.start 1 request (by decide +kernel)).settle 20
  obtain ⟨_, run⟩ := (run.event
    (.arrive (Frame.encode "\x7b\"id\":2,\"result\":\"b\"\x7d"))).settle 20
  obtain ⟨h, run⟩ := (run.event
    (.arrive (Frame.encode "\x7b\"id\":1,\"result\":\"a\"\x7d"))).settle 20
  have run : Run (overPipes 1000 false) h answeredBackwards := run
  have first := answer_eq 0 "a" (by decide +kernel)
  have second := answer_eq 1 "b" (by decide +kernel)
  obtain ⟨_, returned, _⟩ := responses_reach_their_calls run
  obtain ⟨_, p, _, hp, _⟩ := returned 0 _ first trivial
  obtain ⟨_, q, _, hq, _⟩ := returned 1 _ second trivial
  exact ⟨h, run, ⟨p, hp⟩, q, hq⟩

end ConnectionSession

end LanguageHub
