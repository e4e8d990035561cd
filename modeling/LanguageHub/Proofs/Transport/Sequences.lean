import LanguageHub.Proofs.Transport.Writing
import Mathlib.Data.List.Infix

/-!
# Writing for a while

Steps of writers one after another. Frames that have gone out completely stay the first of those
that have, in their order. As long as nobody turns away while it waits, the frames that were begun
and those that wait are all that were asked for.
-/

namespace LanguageHub

open WireEvent

variable {t u v : Transport} {ws ws' ws'' : Writers} {log shown : List WireEvent} {a : Agent}
  {disturbed : Prop}

/-! ### What a step of a write shows -/

namespace WriteCall

theorem shows_of_opens {data : Bytes} (first : t.writers.isHeldBy a = true)
    (held : t.hasSink = true) : (queued data).shows a t = [.opened a data] := by
  simp [shows, first, held]

theorem shows_of_sends {rest left : Bytes} {sink : Outflow} (more : rest ≠ [])
    (write : t.sink.write? rest = some (.ok (sink, left))) :
    (writing rest).shows a t = [.wrote (rest.take (t.sink.room rest.length))] := by
  cases rest with
  | nil => exact absurd rfl more
  | cons b rest => simp [shows, write]

/-- A write that has to wait shows nothing. -/
theorem shows_of_stuck {c : WriteCall} (stuck : c.step? a t = none) : c.shows a t = [] := by
  cases c with
  | queued data =>
    simp only [step?] at stuck
    split at stuck
    · split at stuck <;> cases stuck
    · next first => simp [shows, first]
  | writing rest =>
    cases rest with
    | nil => cases stuck
    | cons b rest =>
      simp only [step?] at stuck
      split at stuck
      · next write => simp [shows, write]
      · cases stuck
      · cases stuck

end WriteCall

/-! ### Frames that have gone out -/

/-- The frames that have gone out completely, in order. -/
def WireEvent.completed (log : List WireEvent) : List (Agent × Bytes) :=
  ((wire log).filter fun x ↦ x.sent = x.frame).map (·.order)

private theorem completed_concat (xs : List Shipment) (x : Shipment) :
    ((xs ++ [x]).filter fun x ↦ x.sent = x.frame).map (·.order) =
      (xs.filter fun x ↦ x.sent = x.frame).map (·.order) ++
        if x.sent = x.frame then [x.order] else [] := by
  rw [List.filter_append, List.map_append]
  by_cases hx : x.sent = x.frame <;> simp [hx]

/-- Frames that have gone out completely stay the first of those that have. -/
theorem Orderly.completed_isPrefix (h : Orderly t ws log) (next : WriteStep t ws shown u ws') :
    completed log <+: completed (log ++ shown) := by
  cases next with
  | quiet | finish => rw [List.append_nil]
  | ask a frame idle => simp [completed, after]
  | @go a c d _ going step =>
    generalize hn : (Progress.running d, u) = next at step
    cases WriteCall.takes_of_step? step with
    | opens first held =>
      rw [WriteCall.shows_of_opens first held, completed, completed, wire_append, List.foldl_cons,
        List.foldl_nil, after, completed_concat]
      exact List.prefix_append _ _
    | @sends rest left sink more write =>
      obtain ⟨xs, x, hx, -, hframe, -⟩ := h.current a rest going
      -- The frame at which the writer is at work was not complete.
      have hpart : x.sent ≠ x.frame := by
        intro hall
        rw [hall] at hframe
        exact more (List.append_right_eq_self.mp hframe)
      rw [WriteCall.shows_of_sends more write, completed, completed, wire_append, List.foldl_cons,
        List.foldl_nil, after, hx, List.modifyLast_concat, completed_concat, completed_concat,
        if_neg hpart, List.append_nil]
      exact List.prefix_append _ _
    | refuses | fails | completes => cases hn
  | @giveUp a c going =>
    cases c with
    | queued frame => rw [WriteCall.abandonShows, List.append_nil]
    | writing rest =>
      obtain ⟨xs, x, hx, -, -, -⟩ := h.current a rest going
      rw [WriteCall.abandonShows, completed, completed, wire_append, List.foldl_cons,
        List.foldl_nil, after, hx, List.modifyLast_concat, completed_concat, completed_concat]
      exact List.prefix_rfl

/-- The frames of those who do not write stay as they are, complete or not. -/
theorem Orderly.completed_others {β : Type} (h : Orderly t ws log)
    (next : WriteStep t ws shown u ws') {of : Agent × Bytes → Option β}
    (others : ∀ a frame, ws a ≠ none → of (a, frame) = none) :
    (completed (log ++ shown)).filterMap of = (completed log).filterMap of := by
  cases next with
  | quiet | finish => rw [List.append_nil]
  | ask a frame idle => simp [completed, after]
  | @go a c d _ going step =>
    have silent (frame : Bytes) : of (a, frame) = none := others a frame (by simp [going])
    generalize hn : (Progress.running d, u) = next at step
    cases WriteCall.takes_of_step? step with
    | opens first held =>
      rw [WriteCall.shows_of_opens first held, completed, completed, wire_append, List.foldl_cons,
        List.foldl_nil, after, completed_concat, List.filterMap_append]
      split <;> simp [Shipment.order, silent]
    | @sends rest left sink more write =>
      obtain ⟨xs, x, hx, rfl, -, -⟩ := h.current a rest going
      rw [WriteCall.shows_of_sends more write, completed, completed, wire_append, List.foldl_cons,
        List.foldl_nil, after, hx, List.modifyLast_concat, completed_concat, completed_concat,
        List.filterMap_append, List.filterMap_append]
      split <;> split <;> simp [Shipment.order, silent]
    | refuses | fails | completes => cases hn
  | @giveUp a c going =>
    cases c with
    | queued frame => rw [WriteCall.abandonShows, List.append_nil]
    | writing rest =>
      obtain ⟨xs, x, hx, -, -, -⟩ := h.current a rest going
      rw [WriteCall.abandonShows, completed, completed, wire_append, List.foldl_cons,
        List.foldl_nil, after, hx, List.modifyLast_concat, completed_concat, completed_concat]
      rfl

/-! ### Frames that wait -/

/-- What was begun and what waits is all that was asked for. -/
def Exact (t : Transport) (ws : Writers) (log : List WireEvent) : Prop :=
  log.filterMap opened? ++ ws.orders t.writers.line = orders log

/-- A writer that has begun leaves no frame behind in the line. -/
private theorem orders_leave {rest : Bytes} (going : ws a = some (.writing rest)) (l : Lock) :
    Writers.orders (Function.update ws a none) (l.leave a).line = ws.orders l.line := by
  have hnone : (ws a).bind (WriteCall.order? a) = none := by
    rw [going]
    rfl
  simp only [Lock.leave]
  induction l.line with
  | nil => rfl
  | cons b line ih =>
    by_cases hb : b = a
    · have hskip : ws.orders (b :: line) = ws.orders line := by
        rw [hb]
        exact List.filterMap_cons_none hnone
      rw [List.filter_cons_of_neg (by simp [hb]), ih, hskip]
    · rw [List.filter_cons_of_pos (by simpa using hb), Writers.orders, Writers.orders,
        List.filterMap_cons, List.filterMap_cons, Function.update_of_ne hb]
      simp only [Writers.orders] at ih
      rw [ih]

/-- As long as nobody turns away while it waits, what was begun and what waits is all that was
asked for. -/
theorem Orderly.exact_step (h : Orderly t ws log) (exact : Exact t ws log)
    (next : WriteStep t ws shown u ws')
    (waits : ∀ a frame, ws a = some (.queued frame) → ws' a ≠ none) :
    Exact u ws' (log ++ shown) := by
  unfold Exact at exact ⊢
  cases next with
  | quiet line =>
    rw [List.append_nil, line]
    exact exact
  | ask a frame idle =>
    have hnot : a ∉ t.writers.line := fun ha ↦ (h.inLine a).mp ha idle
    rw [orders_append, ← exact, List.filterMap_append]
    simp only [WriteCall.start, Lock.request, Writers.orders_ask hnot]
    simp [opened?, orders, order?]
  | @go a c d _ going step =>
    generalize hn : (Progress.running d, u) = next at step
    cases WriteCall.takes_of_step? step with
    | opens first held =>
      cases hn
      rw [Writers.orders_open h.nodup going (by simpa [Lock.isHeldBy] using first)] at exact
      rw [WriteCall.shows_of_opens first held, orders_append, ← exact]
      simp [opened?, orders, order?]
    | sends more write =>
      cases hn
      rw [WriteCall.shows_of_sends more write, orders_append, ← exact, List.filterMap_append,
        Writers.orders_begun going rfl]
      simp [opened?, orders, order?, List.filterMap_cons]
    | refuses | fails | completes => cases hn
  | @finish a c _ answer going step =>
    cases c with
    | queued frame => exact absurd (Function.update_self ..) (waits a frame going)
    | writing rest =>
      have hline : u.writers = t.writers.leave a := by
        generalize hn : (Progress.finished answer, u) = next at step
        cases WriteCall.takes_of_step? step with
        | sends => cases hn
        | fails | completes =>
          rw [← WriteCall.finish_spec a _ t |>.1, ← hn]
      rw [List.append_nil, hline, orders_leave going]
      exact exact
  | @giveUp a c going =>
    cases c with
    | queued frame => exact absurd (Function.update_self ..) (waits a frame going)
    | writing rest =>
      rw [orders_append, ← exact, List.filterMap_append]
      simp only [WriteCall.abandon, orders_leave going]
      simp [WriteCall.abandonShows, opened?, orders, order?, List.filterMap_cons]

/-! ### Sequences of steps -/

/-- The write that an operation is at which has come to this; it has none when it has ended. -/
def Progress.writing? {σ α : Type} (of : σ → Option WriteCall) : Progress σ α → Option WriteCall
  | running state => of state
  | finished _ => none

/-- The stream is held on to, nobody gives a frame up, and nobody turns away while it waits. -/
structure Patient (t : Transport) (ws : Writers) (shown : List WireEvent) (u : Transport)
    (ws' : Writers) : Prop where
  closed : u.closed = t.closed
  held : t.closed = false → u.hasSink = t.hasSink
  keeps : ∀ a, .gaveUp a ∉ shown
  waits : t.hasSink = true → ∀ a frame, ws a = some (.queued frame) → ws' a ≠ none

/-- Steps of writers, one after another. They are patient unless they are disturbed. -/
inductive Writes (disturbed : Prop) (t : Transport) (ws : Writers) :
    List WireEvent → Transport → Writers → Prop where
  | refl : Writes disturbed t ws [] t ws
  | step {log shown : List WireEvent} {u v : Transport} {ws' ws'' : Writers}
      (before : Writes disturbed t ws log u ws') (next : WriteStep u ws' shown v ws'')
      (patient : disturbed ∨ Patient u ws' shown v ws'') :
      Writes disturbed t ws (log ++ shown) v ws''

namespace Writes

theorem trans {more : List WireEvent} (first : Writes disturbed t ws log u ws')
    (second : Writes disturbed u ws' more v ws'') :
    Writes disturbed t ws (log ++ more) v ws'' := by
  induction second with
  | refl =>
    rw [List.append_nil]
    exact first
  | step _ next patient ih =>
    rw [← List.append_assoc]
    exact ih.step next patient

theorem mono {certain : Prop} (writes : Writes disturbed t ws log u ws')
    (calm : ¬ disturbed) : Writes certain t ws log u ws' := by
  induction writes with
  | refl => exact .refl
  | step _ next patient ih => exact ih.step next (.inr (patient.resolve_left calm))

theorem single (next : WriteStep t ws shown u ws')
    (patient : disturbed ∨ Patient t ws shown u ws') : Writes disturbed t ws shown u ws' :=
  refl.step next patient

/-- No writer does anything, and the stream is held on to. -/
theorem quiet (line : u.writers = t.writers) (written : u.sink.written = t.sink.written)
    (dead : t.sink.Dead → u.sink.Dead) (closed : u.closed = t.closed)
    (held : u.hasSink = t.hasSink) : Writes disturbed t ws [] u ws :=
  single (.quiet line written dead)
    (.inr ⟨closed, fun _ ↦ held, by simp, fun _ a frame going hnone ↦ by simp [going] at hnone⟩)

/-- No writer does anything more. -/
theorem thenQuiet (first : Writes disturbed t ws log u ws') (line : v.writers = u.writers)
    (written : v.sink.written = u.sink.written) (dead : u.sink.Dead → v.sink.Dead)
    (closed : v.closed = u.closed) (held : v.hasSink = u.hasSink) :
    Writes disturbed t ws log v ws' := by
  rw [← List.append_nil log]
  exact first.trans (.quiet line written dead closed held)

/-- One writer does something, and then something more. -/
theorem goOn {call call' : Option WriteCall} {more : List WireEvent}
    (first : Writes disturbed t ws log u (Function.update ws a call))
    (second : Writes disturbed u (Function.update ws a call) more v
      (Function.update (Function.update ws a call) a call')) :
    Writes disturbed t ws (log ++ more) v (Function.update ws a call') := by
  rw [Function.update_idem] at second
  exact first.trans second

/-- A writer joins the line. -/
theorem ask (a : Agent) (frame : Bytes) (idle : ws a = none) :
    Writes disturbed t ws [.asked a frame] (WriteCall.start a frame t).2
      (Function.update ws a (some (.queued frame))) := by
  refine single (.ask a frame idle)
    (.inr ⟨rfl, fun _ ↦ rfl, by simp, fun _ b other going hnone ↦ ?_⟩)
  by_cases hba : b = a
  · simp [hba, idle] at going
  · rw [Function.update_of_ne hba, going] at hnone
    cases hnone

/-- Who waits for the stream goes on to write, unless the stream is gone. -/
private theorem patient_of_step? {call : WriteCall} {p : Progress WriteCall (Except Failure Unit)}
    (going : ws a = some call) (step : call.step? a t = some (p, u)) :
    Patient t ws (call.shows a t) u (Function.update ws a (p.writing? some)) := by
  have keeps : ∀ b, .gaveUp b ∉ call.shows a t := by
    intro b hb
    obtain ⟨_, h⟩ | ⟨_, h⟩ := WriteCall.mem_shows hb <;> cases h
  have others {c : Option WriteCall} (hc : ∀ frame, call = .queued frame → c ≠ none) :
      ∀ b frame, ws b = some (.queued frame) → Function.update ws a c b ≠ none := by
    intro b frame waiting hnone
    by_cases hba : b = a
    · rw [hba, Function.update_self] at hnone
      rw [hba, going] at waiting
      exact hc frame (Option.some.inj waiting) hnone
    · rw [Function.update_of_ne hba, waiting] at hnone
      cases hnone
  have ends (answer : Except Failure Unit) {rest : Bytes} (hcall : call = .writing rest) :
      Patient t ws (call.shows a t) (WriteCall.finish a answer t).2
        (Function.update ws a none) := by
    refine ⟨?_, fun opened ↦ ?_, keeps, fun _ ↦ others (by simp [hcall])⟩
    · unfold WriteCall.finish
      split <;> rfl
    · simp [WriteCall.finish, opened]
  generalize hn : (p, u) = result at step
  cases WriteCall.takes_of_step? step with
  | opens | sends =>
    cases hn
    exact ⟨rfl, fun _ ↦ rfl, keeps, fun _ ↦ others (by simp [Progress.writing?])⟩
  | refuses first gone =>
    cases hn
    exact ⟨rfl, fun _ ↦ rfl, keeps, fun held ↦ by simp [gone] at held⟩
  | @fails _ reason =>
    cases hn
    exact ends (.error (.transport reason)) rfl
  | completes =>
    cases hn
    exact ends (t.sink.flush.mapError .transport) rfl

/-- A step of a write. -/
theorem of_step? {call : WriteCall} {p : Progress WriteCall (Except Failure Unit)}
    (going : ws a = some call) (step : call.step? a t = some (p, u)) :
    Writes disturbed t ws (call.shows a t) u (Function.update ws a (p.writing? some)) := by
  have patient := patient_of_step? going step
  cases p with
  | running call' => exact single (.go going step) (.inr patient)
  | finished answer =>
    rw [WriteCall.shows_of_finished step] at patient ⊢
    exact single (.finish going step) (.inr patient)

end Writes

/-- Whatever writers do for a while, everything stays in order. -/
theorem Orderly.writes (h : Orderly t ws log) (writes : Writes disturbed t ws shown u ws') :
    Orderly u ws' (log ++ shown) := by
  induction writes with
  | refl =>
    rw [List.append_nil]
    exact h
  | step _ next _ ih =>
    rw [← List.append_assoc]
    exact ih.step next

/-- Frames that have gone out completely stay the first of those that have. -/
theorem Orderly.completed_writes (h : Orderly t ws log)
    (writes : Writes disturbed t ws shown u ws') :
    completed log <+: completed (log ++ shown) := by
  induction writes with
  | refl => rw [List.append_nil]
  | step before next _ ih =>
    rw [← List.append_assoc]
    exact ih.trans ((h.writes before).completed_isPrefix next)

/-- Who writes after a step wrote before it or has just joined the line. -/
theorem WriteStep.writing (next : WriteStep t ws shown u ws') (writes : ws' a ≠ none) :
    ws a ≠ none ∨ ∃ frame, .asked a frame ∈ shown := by
  have others {b : Agent} {c : Option WriteCall} (writes : Function.update ws b c a ≠ none)
      (going : ws b ≠ none) : ws a ≠ none := by
    by_cases same : a = b
    · rwa [same]
    · rwa [Function.update_of_ne same] at writes
  cases next with
  | quiet => exact .inl writes
  | ask b frame idle =>
    by_cases same : a = b
    · exact .inr ⟨frame, by simp [same]⟩
    · rw [Function.update_of_ne same] at writes
      exact .inl writes
  | go going | finish going | giveUp going => exact .inl (others writes (by simp [going]))

/-- The frames of those who do not write stay as they are while none of them joins the line. -/
theorem Orderly.completed_writes_others {β : Type} (h : Orderly t ws log)
    (writes : Writes disturbed t ws shown u ws') {of : Agent × Bytes → Option β}
    (others : ∀ a frame, ws a ≠ none → of (a, frame) = none)
    (silent : ∀ a asked frame, .asked a asked ∈ shown → of (a, frame) = none) :
    (completed (log ++ shown)).filterMap of = (completed log).filterMap of := by
  suffices hboth : (completed (log ++ shown)).filterMap of = (completed log).filterMap of ∧
      ∀ a frame, ws' a ≠ none → of (a, frame) = none from hboth.1
  induction writes with
  | refl =>
    rw [List.append_nil]
    exact ⟨rfl, others⟩
  | step before next _ ih =>
    obtain ⟨same, idle⟩ := ih fun a asked frame hm ↦
      silent a asked frame (List.mem_append_left _ hm)
    refine ⟨?_, fun a frame writing ↦ ?_⟩
    · rw [← List.append_assoc, (h.writes before).completed_others next idle, same]
    · obtain writing | ⟨asked, hm⟩ := next.writing writing
      · exact idle a frame writing
      · exact silent a asked frame (List.mem_append_right _ hm)

/-! ### Streams on which nothing is lost -/

/-- A stream to which the writers hold on, and on which nothing is lost. -/
structure Lossless (t : Transport) (ws : Writers) (log : List WireEvent) : Prop where
  going : t.closed = false
  held : t.hasSink = true
  kept : ∀ a, .gaveUp a ∉ log
  exact : Exact t ws log

namespace Lossless

/-- What writers do undisturbed loses nothing. -/
theorem writes (lossless : Lossless t ws log) (h : Orderly t ws log)
    (writes : Writes False t ws shown u ws') : Lossless u ws' (log ++ shown) := by
  induction writes with
  | refl =>
    rw [List.append_nil]
    exact lossless
  | @step more shown _ _ _ _ before next patient ih =>
    obtain ⟨closed, held, keeps, waits⟩ := patient.resolve_left id
    obtain ⟨going, hasSink, kept, exact⟩ := ih
    rw [← List.append_assoc]
    refine ⟨closed.trans going, (held going).trans hasSink, fun a ha ↦ ?_,
      (h.writes before).exact_step exact next (waits hasSink)⟩
    exact (List.mem_append.mp ha).elim (kept a) (keeps a)

/-- A frame of which a part is missing has nothing behind it. -/
theorem pairwise_sent (lossless : Lossless t ws log) (h : Orderly t ws log) :
    (wire log).Pairwise fun x y ↦ x.sent = x.frame ∨ y.sent = [] := by
  refine List.Pairwise.imp_of_mem (fun {x y} hx _ hxy ↦ ?_) h.apart
  obtain hall | hgiven | hnil := hxy
  · exact .inl hall
  · exact absurd (h.gaveUp x hx hgiven) (lossless.kept _)
  · exact .inr hnil

/-- When a writer has written its frame, the frames of all who have begun have gone out. -/
theorem completed_eq (lossless : Lossless t ws log) (h : Orderly t ws log)
    (frames : ∀ order ∈ orders log, order.2 ≠ []) (going : ws a = some (.writing [])) :
    completed log = log.filterMap opened? := by
  obtain ⟨xs, x, hx, -, hframe, -⟩ := h.current a [] going
  rw [List.append_nil] at hframe
  have hsent : x.sent ≠ [] := by
    rw [hframe]
    refine frames x.order (h.inOrder.subset (List.mem_append_left _ (List.mem_map_of_mem ?_)))
    rw [hx]
    exact List.mem_append_right _ List.mem_cons_self
  have pairs := lossless.pairwise_sent h
  rw [hx, List.pairwise_append] at pairs
  have hall : ∀ y ∈ wire log, y.sent = y.frame := by
    rw [hx]
    intro y hy
    obtain hy | hy := List.mem_append.mp hy
    · exact (pairs.2.2 y hy x List.mem_cons_self).resolve_right hsent
    · rw [List.mem_singleton.mp hy]
      exact hframe
  rw [completed, List.filter_eq_self.mpr fun y hy ↦ decide_eq_true (hall y hy), map_order_wire]

/-- What goes out is the beginning of what was asked for. -/
theorem flatMap_sent_isPrefix (lossless : Lossless t ws log) (h : Orderly t ws log) :
    (wire log).flatMap (·.sent) <+: (orders log).flatMap (·.2) := by
  have begun : ∀ xs : List Shipment, (∀ x ∈ xs, x.sent <+: x.frame) →
      (xs.Pairwise fun x y ↦ x.sent = x.frame ∨ y.sent = []) →
      xs.flatMap (·.sent) <+: xs.flatMap (·.frame) := by
    intro xs part pairs
    induction xs with
    | nil => exact List.nil_prefix
    | cons x xs ih =>
      obtain ⟨hx, hxs⟩ := List.pairwise_cons.mp pairs
      rw [List.flatMap_cons, List.flatMap_cons]
      by_cases hall : x.sent = x.frame
      · rw [hall]
        exact (List.prefix_append_right_inj _).mpr
          (ih (fun y hy ↦ part y (List.mem_cons_of_mem _ hy)) hxs)
      · have hnil : xs.flatMap (·.sent) = [] :=
          List.flatMap_eq_nil_iff.mpr fun y hy ↦ (hx y hy).resolve_left hall
        rw [hnil, List.append_nil]
        exact (part x List.mem_cons_self).trans (List.prefix_append _ _)
  have hframes : (wire log).flatMap (·.frame) = ((wire log).map (·.order)).flatMap (·.2) :=
    (List.flatMap_map Shipment.order Prod.snd _).symm
  refine (begun _ h.part (lossless.pairwise_sent h)).trans ?_
  rw [hframes, map_order_wire, ← lossless.exact, List.flatMap_append]
  exact List.prefix_append _ _

end Lossless

end LanguageHub
