import LanguageHub.Proofs.Transport.Wire
import Mathlib.Data.List.Basic
import Mathlib.Logic.Function.Basic

/-!
# Writing side by side

Any number of writers share the stream of a transport through its lock. Whatever they do, in
whatever order, the frames go out one after another in the order in which their writers asked,
and a frame that stays unfinished has nothing behind it unless its writer gave it up.
-/

namespace LanguageHub

/-- The writes that are going on. -/
abbrev Writers := Agent → Option WriteCall

/-- What can happen to the stream of a transport and to those who write to it, and what it shows
on the wire. -/
inductive WriteStep (t : Transport) (ws : Writers) :
    List WireEvent → Transport → Writers → Prop where
  /-- No writer does anything. -/
  | quiet {u : Transport} (line : u.writers = t.writers)
      (written : u.sink.written = t.sink.written) (dead : t.sink.Dead → u.sink.Dead) :
      WriteStep t ws [] u ws
  | ask (a : Agent) (frame : Bytes) (idle : ws a = none) :
      WriteStep t ws [.asked a frame] (WriteCall.start a frame t).2
        (Function.update ws a (some (.queued frame)))
  | go {a : Agent} {c d : WriteCall} {u : Transport} (going : ws a = some c)
      (step : c.step? a t = some (.running d, u)) :
      WriteStep t ws (c.shows a t) u (Function.update ws a (some d))
  | finish {a : Agent} {c : WriteCall} {u : Transport} {answer : Except Failure Unit}
      (going : ws a = some c) (step : c.step? a t = some (.finished answer, u)) :
      WriteStep t ws [] u (Function.update ws a none)
  | giveUp {a : Agent} {c : WriteCall} (going : ws a = some c) :
      WriteStep t ws (c.abandonShows a) (WriteCall.abandon a t) (Function.update ws a none)

/-- The frame went out, or its writer gave it up, or nothing goes out any more. -/
def Shipment.Over (o : Outflow) (x : Shipment) : Prop :=
  x.sent = x.frame ∨ x.givenUp = true ∨ o.Dead

/-- The frames of those in line who have not begun, in order. -/
def Writers.orders (ws : Writers) (line : List Agent) : List (Agent × Bytes) :=
  line.filterMap fun a ↦ (ws a).bind (WriteCall.order? a)

namespace Writers

variable {ws : Writers} {a : Agent} {line : List Agent}

/-- A writer that is not in line makes no difference to it. -/
theorem orders_update (h : a ∉ line) (c : Option WriteCall) :
    orders (Function.update ws a c) line = ws.orders line := by
  refine List.filterMap_congr fun b hb ↦ ?_
  have hba : b ≠ a := fun hba ↦ h (hba ▸ hb)
  rw [Function.update_of_ne hba]

/-- A writer that has joined the line stands at its end. -/
theorem orders_ask (h : a ∉ line) (frame : Bytes) :
    orders (Function.update ws a (some (.queued frame))) (line ++ [a]) =
      ws.orders line ++ [(a, frame)] := by
  rw [orders, List.filterMap_append]
  exact congrArg₂ (· ++ ·) (orders_update h _) (by simp [WriteCall.order?])

/-- The frame of the first in line, when its writer begins with it. -/
theorem orders_open (nodup : line.Nodup) {frame : Bytes} (going : ws a = some (.queued frame))
    (first : line.head? = some a) :
    ws.orders line =
      (a, frame) :: orders (Function.update ws a (some (.writing frame))) line := by
  cases line with
  | nil => cases first
  | cons b line =>
    cases first
    have hnot : a ∉ line := (List.nodup_cons.mp nodup).1
    have rest : ws.orders line = orders (Function.update ws a (some (.writing frame))) line :=
      (orders_update hnot _).symm
    simp only [orders] at rest
    simp only [orders, List.filterMap_cons, going, Function.update_self, Option.bind_some,
      WriteCall.order?, rest]

/-- A writer that has begun has no frame in the line, as long as it writes and when it leaves. -/
theorem orders_begun {rest : Bytes} (going : ws a = some (.writing rest)) {c : Option WriteCall}
    (begun : c.bind (WriteCall.order? a) = none) (line : List Agent) :
    orders (Function.update ws a c) line = ws.orders line := by
  refine List.filterMap_congr fun b _ ↦ ?_
  by_cases hba : b = a
  · rw [hba, Function.update_self, begun, going]
    rfl
  · rw [Function.update_of_ne hba]

end Writers

open WireEvent in
/-- What holds of a transport, its writers and what has shown on the wire. -/
structure Orderly (t : Transport) (ws : Writers) (log : List WireEvent) : Prop where
  nodup : t.writers.line.Nodup
  inLine : ∀ a, a ∈ t.writers.line ↔ ws a ≠ none
  first : ∀ a rest, ws a = some (.writing rest) → t.writers.line.head? = some a
  written : t.sink.written = (wire log).flatMap (·.sent)
  part : ∀ x ∈ wire log, x.sent <+: x.frame
  inOrder : ((wire log).map (·.order) ++ ws.orders t.writers.line).Sublist (orders log)
  /-- Who writes is at work on the last frame, and the others are over. -/
  current : ∀ a rest, ws a = some (.writing rest) → ∃ xs x, wire log = xs ++ [x] ∧
    x.author = a ∧ x.sent ++ rest = x.frame ∧ ∀ y ∈ xs, y.Over t.sink
  idle : (∀ a rest, ws a ≠ some (.writing rest)) → ∀ x ∈ wire log, x.Over t.sink
  apart : (wire log).Pairwise fun x y ↦ x.sent = x.frame ∨ x.givenUp = true ∨ y.sent = []
  gaveUp : ∀ x ∈ wire log, x.givenUp = true → .gaveUp x.author ∈ log

namespace Orderly

open WireEvent

variable {t u : Transport} {ws : Writers} {log : List WireEvent} {a : Agent}

/-- Nobody waits and nothing was written when a connection begins. -/
theorem start (free : t.writers.line = []) (empty : t.sink.written = []) :
    Orderly t (fun _ ↦ none) [] where
  nodup := by simp [free]
  inLine := by simp [free]
  first := by simp
  written := empty
  part := by simp [wire]
  inOrder := by simp [Writers.orders, wire]
  current := by simp
  idle := by simp [wire]
  apart := List.Pairwise.nil
  gaveUp := by simp [wire]

private theorem writing_update {b : Agent} {rest : Bytes} {c : Option WriteCall}
    (hc : ∀ rest, c ≠ some (.writing rest))
    (h : Function.update ws a c b = some (.writing rest)) : ws b = some (.writing rest) := by
  by_cases hba : b = a
  · subst hba
    rw [Function.update_self] at h
    exact absurd h (hc rest)
  · rwa [Function.update_of_ne hba] at h

private theorem eq_of_update_writing {b : Agent} {left rest : Bytes}
    (only : ∀ rest, ws b = some (.writing rest) → b = a)
    (h : Function.update ws a (some (.writing left)) b = some (.writing rest)) :
    b = a ∧ rest = left := by
  by_cases hba : b = a
  · subst hba
    simp only [Function.update_self, Option.some.injEq, WriteCall.writing.injEq] at h
    exact ⟨rfl, h.symm⟩
  · rw [Function.update_of_ne hba] at h
    exact absurd (only rest h) hba

private theorem inLine_update (h : Orderly t ws log) {c d : WriteCall} (going : ws a = some c)
    (b : Agent) : b ∈ t.writers.line ↔ Function.update ws a (some d) b ≠ none := by
  rw [h.inLine]
  by_cases hba : b = a
  · subst hba
    simp [going]
  · rw [Function.update_of_ne hba]

private theorem forall_mem_concat {p : Shipment → Prop} {xs : List Shipment} {x : Shipment}
    (hxs : ∀ y ∈ xs, p y) (hx : p x) : ∀ y ∈ xs ++ [x], p y :=
  List.forall_mem_append.mpr ⟨hxs, List.forall_mem_singleton.mpr hx⟩

private theorem pairwise_concat {r : Shipment → Shipment → Prop} {xs : List Shipment}
    {x : Shipment} (hxs : xs.Pairwise r) (hx : ∀ y ∈ xs, r y x) : (xs ++ [x]).Pairwise r := by
  refine List.pairwise_append.mpr ⟨hxs, List.pairwise_singleton .., fun y hy z hz ↦ ?_⟩
  rw [List.mem_singleton.mp hz]
  exact hx y hy

/-- At most one writes at a time. -/
theorem writing_unique (h : Orderly t ws log) {b : Agent} {rest rest' : Bytes}
    (ha : ws a = some (.writing rest)) (hb : ws b = some (.writing rest')) : a = b := by
  have hfirst := h.first a rest ha
  rw [h.first b rest' hb] at hfirst
  exact (Option.some.inj hfirst).symm

/-- Nothing changes as long as no writer does anything. -/
theorem quiet (h : Orderly t ws log) (line : u.writers = t.writers)
    (written : u.sink.written = t.sink.written) (dead : t.sink.Dead → u.sink.Dead) :
    Orderly u ws log := by
  have stays : ∀ x : Shipment, x.Over t.sink → x.Over u.sink := fun x hx ↦
    hx.imp_right fun hx ↦ hx.imp_right dead
  refine { h with
    nodup := line ▸ h.nodup
    inLine := line ▸ h.inLine
    first := line ▸ h.first
    written := written.trans h.written
    inOrder := line ▸ h.inOrder
    current := fun a rest hw ↦ ?_
    idle := fun hw x hx ↦ stays x (h.idle hw x hx) }
  obtain ⟨xs, x, hwire, hauthor, hframe, hover⟩ := h.current a rest hw
  exact ⟨xs, x, hwire, hauthor, hframe, fun y hy ↦ stays y (hover y hy)⟩

/-- A writer joins the line. -/
theorem ask (h : Orderly t ws log) (frame : Bytes) (hidle : ws a = none) :
    Orderly (WriteCall.start a frame t).2 (Function.update ws a (some (.queued frame)))
      (log ++ [.asked a frame]) := by
  have hnot : a ∉ t.writers.line := fun ha ↦ (h.inLine a).mp ha hidle
  have hwire : wire (log ++ [.asked a frame]) = wire log := by simp [after]
  have back : ∀ b rest, Function.update ws a (some (.queued frame)) b = some (.writing rest) →
      ws b = some (.writing rest) := fun b rest ↦ writing_update (by simp)
  refine ⟨?_, ?_, ?_, ?_, ?_, ?_, ?_, ?_, ?_, ?_⟩
  · exact List.nodup_append.mpr ⟨h.nodup, by simp, fun b hb c hc hbc ↦ by
      simp only [List.mem_singleton] at hc
      exact hnot (hc ▸ hbc ▸ hb)⟩
  · intro b
    simp only [WriteCall.start, Lock.request, List.mem_append, List.mem_singleton, h.inLine b]
    by_cases hba : b = a
    · simp [hba]
    · simp [hba]
  · intro b rest hb
    have hfirst := h.first b rest (back b rest hb)
    simp only [WriteCall.start, Lock.request, List.head?_append, hfirst, Option.some_or]
  · rw [hwire]
    exact h.written
  · rw [hwire]
    exact h.part
  · rw [hwire, orders_append]
    simp only [WriteCall.start, Lock.request, Writers.orders_ask hnot]
    rw [← List.append_assoc]
    exact h.inOrder.append (List.Sublist.refl _)
  · intro b rest hb
    rw [hwire]
    exact h.current b rest (back b rest hb)
  · intro hw
    rw [hwire]
    refine h.idle fun b rest hb ↦ hw b rest ?_
    have hba : b ≠ a := fun hba ↦ by simp [hba, hidle] at hb
    rwa [Function.update_of_ne hba]
  · rw [hwire]
    exact h.apart
  · rw [hwire]
    exact fun x hx hg ↦ List.mem_append_left _ (h.gaveUp x hx hg)

/-- The first in line begins with its frame. -/
theorem opens (h : Orderly t ws log) {frame : Bytes} (going : ws a = some (.queued frame))
    (first : t.writers.line.head? = some a) :
    Orderly t (Function.update ws a (some (.writing frame))) (log ++ [.opened a frame]) := by
  have hnone : ∀ b rest, ws b ≠ some (.writing rest) := by
    intro b rest hb
    have hba := h.first b rest hb
    rw [first] at hba
    cases hba
    simp [going] at hb
  have hover := h.idle hnone
  have hwire : wire (log ++ [.opened a frame]) = wire log ++ [{ author := a, frame }] := by
    simp [after]
  have back : ∀ b rest, Function.update ws a (some (.writing frame)) b = some (.writing rest) →
      b = a ∧ rest = frame := fun b _ ↦
    eq_of_update_writing fun rest hb ↦ absurd hb (hnone b rest)
  refine ⟨h.nodup, h.inLine_update going, ?_, ?_, ?_, ?_, ?_, ?_, ?_, ?_⟩
  · intro b rest hb
    rw [(back b rest hb).1, first]
  · rw [hwire, h.written]
    simp
  · rw [hwire]
    exact forall_mem_concat h.part List.nil_prefix
  · have horder := h.inOrder
    rw [Writers.orders_open h.nodup going first] at horder
    rw [hwire, orders_append]
    simpa [Shipment.order, orders, order?, List.filterMap_cons] using horder
  · intro b rest hb
    obtain ⟨rfl, rfl⟩ := back b rest hb
    exact ⟨wire log, _, hwire, rfl, List.nil_append _, hover⟩
  · exact fun hw ↦ absurd (Function.update_self ..) (hw a frame)
  · rw [hwire]
    exact pairwise_concat h.apart fun _ _ ↦ .inr (.inr rfl)
  · rw [hwire]
    refine forall_mem_concat (fun x hx hg ↦ ?_) fun hg ↦ ?_
    · exact List.mem_append_left _ (h.gaveUp x hx hg)
    · cases hg

/-- Who writes sends a further part of its frame. -/
theorem sends (h : Orderly t ws log) {part left : Bytes} {sink : Outflow}
    (going : ws a = some (.writing (part ++ left))) (alive : ¬ t.sink.Dead)
    (written : sink.written = t.sink.written ++ part) :
    Orderly { t with sink } (Function.update ws a (some (.writing left)))
      (log ++ [.wrote part]) := by
  obtain ⟨xs, x, hx, hauthor, hframe, hover⟩ := h.current a _ going
  have hdone : ∀ y ∈ xs, y.sent = y.frame ∨ y.givenUp = true := fun y hy ↦
    (hover y hy).imp_right fun h ↦ h.resolve_right alive
  have hwire : wire (log ++ [.wrote part]) = xs ++ [{ x with sent := x.sent ++ part }] := by
    simp [after, hx, List.modifyLast_concat]
  have back : ∀ b rest, Function.update ws a (some (.writing left)) b = some (.writing rest) →
      b = a ∧ rest = left := fun b _ ↦
    eq_of_update_writing fun rest hb ↦ h.writing_unique hb going
  have hold : ∀ y ∈ xs ++ [x], y ∈ wire log := fun y hy ↦ hx ▸ hy
  refine ⟨h.nodup, h.inLine_update going, ?_, ?_, ?_, ?_, ?_, ?_, ?_, ?_⟩
  · intro b rest hb
    rw [(back b rest hb).1]
    exact h.first a _ going
  · rw [hwire]
    simp [written, h.written, hx]
  · rw [hwire]
    refine forall_mem_concat (fun y hy ↦ h.part y (hold y (List.mem_append_left _ hy))) ?_
    exact ⟨left, by rw [← hframe, List.append_assoc]⟩
  · have horder := h.inOrder
    rw [hx] at horder
    rw [hwire, Writers.orders_begun going rfl, orders_append]
    simpa [Shipment.order, orders, order?, List.filterMap_cons] using horder
  · intro b rest hb
    obtain ⟨rfl, rfl⟩ := back b rest hb
    exact ⟨xs, _, hwire, hauthor, by rw [← hframe, List.append_assoc],
      fun y hy ↦ (hdone y hy).imp_right .inl⟩
  · exact fun hw ↦ absurd (Function.update_self ..) (hw a left)
  · have hapart := h.apart
    rw [hx] at hapart
    rw [hwire]
    exact pairwise_concat (List.pairwise_append.mp hapart).1 fun y hy ↦
      (hdone y hy).imp_right .inl
  · rw [hwire]
    refine forall_mem_concat (fun y hy hg ↦ ?_) fun hg ↦ ?_
    · exact List.mem_append_left _ (h.gaveUp y (hold y (List.mem_append_left _ hy)) hg)
    · exact List.mem_append_left _ (h.gaveUp x (hold x (by simp)) hg)

/-- Who writes says that it gives its frame up. -/
theorem marks (h : Orderly t ws log) {rest : Bytes} (going : ws a = some (.writing rest)) :
    Orderly t ws (log ++ [.gaveUp a]) ∧
      ∃ xs x, wire (log ++ [.gaveUp a]) = xs ++ [x] ∧ x.givenUp = true := by
  obtain ⟨xs, x, hx, hauthor, hframe, hover⟩ := h.current a rest going
  have hwire : wire (log ++ [.gaveUp a]) = xs ++ [{ x with givenUp := true }] := by
    simp [after, hx, List.modifyLast_concat]
  have hold : ∀ y ∈ xs ++ [x], y ∈ wire log := fun y hy ↦ hx ▸ hy
  refine ⟨{ h with
    written := ?_
    part := ?_
    inOrder := ?_
    current := ?_
    idle := fun hw ↦ absurd going (hw a rest)
    apart := ?_
    gaveUp := ?_ }, xs, _, hwire, rfl⟩
  · rw [hwire, h.written, hx]
    simp
  · rw [hwire]
    refine forall_mem_concat (fun y hy ↦ h.part y (hold y (List.mem_append_left _ hy))) ?_
    exact h.part x (hold x (by simp))
  · have horder := h.inOrder
    rw [hx] at horder
    rw [hwire, orders_append]
    simpa [Shipment.order, orders, order?, List.filterMap_cons] using horder
  · intro b rest' hb
    obtain ⟨xs', x', hx', hauthor', hframe', hover'⟩ := h.current b rest' hb
    obtain ⟨rfl, rfl⟩ := List.append_singleton_inj.mp (hx.symm.trans hx')
    exact ⟨xs, _, hwire, hauthor', hframe', hover⟩
  · have hapart := h.apart
    rw [hx] at hapart
    obtain ⟨hxs, _, hlast⟩ := List.pairwise_append.mp hapart
    rw [hwire]
    exact pairwise_concat hxs fun y hy ↦ hlast y hy x (by simp)
  · rw [hwire]
    refine forall_mem_concat (fun y hy hg ↦ ?_) fun _ ↦ ?_
    · exact List.mem_append_left _ (h.gaveUp y (hold y (List.mem_append_left _ hy)) hg)
    · simp [hauthor]

/-- A writer leaves the line; if it has begun a frame, that frame is over. -/
theorem leave (h : Orderly t ws log) {c : WriteCall} (going : ws a = some c)
    (line : u.writers = t.writers.leave a) (written : u.sink.written = t.sink.written)
    (dead : t.sink.Dead → u.sink.Dead)
    (ended : ∀ rest xs x, c = .writing rest → wire log = xs ++ [x] → x.Over u.sink) :
    Orderly u (Function.update ws a none) log := by
  have hline : u.writers.line = t.writers.line.filter fun b ↦ b ≠ a := congrArg Lock.line line
  have stays : ∀ x : Shipment, x.Over t.sink → x.Over u.sink := fun x hx ↦
    hx.imp_right fun hx ↦ hx.imp_right dead
  have back : ∀ b rest, Function.update ws a none b = some (.writing rest) →
      b ≠ a ∧ ws b = some (.writing rest) := by
    intro b rest hb
    refine ⟨fun hba ↦ ?_, writing_update (by simp) hb⟩
    rw [hba, Function.update_self] at hb
    cases hb
  refine { h with
    nodup := hline ▸ h.nodup.filter _
    inLine := fun b ↦ ?_
    first := fun b rest hb ↦ ?_
    written := written.trans h.written
    inOrder := ?_
    current := fun b rest hb ↦ ?_
    idle := fun hw ↦ ?_ }
  · rw [hline, List.mem_filter, h.inLine]
    by_cases hba : b = a
    · simp [hba]
    · simp [hba]
  · obtain ⟨hba, hb⟩ := back b rest hb
    have hfirst := h.first b rest hb
    cases hl : t.writers.line with
    | nil => simp [hl] at hfirst
    | cons b' l =>
      rw [hl] at hfirst
      cases hfirst
      simp [hline, hl, hba]
  · have hnot : a ∉ u.writers.line := by simp [hline]
    have hsub : u.writers.line.Sublist t.writers.line := hline ▸ List.filter_sublist
    rw [Writers.orders_update hnot]
    exact ((List.Sublist.refl _).append (hsub.filterMap _)).trans h.inOrder
  · obtain ⟨xs, x, hwire, hauthor, hframe, hover⟩ := h.current b rest (back b rest hb).2
    exact ⟨xs, x, hwire, hauthor, hframe, fun y hy ↦ stays y (hover y hy)⟩
  · cases c with
    | writing rest =>
      obtain ⟨xs, x, hwire, _, _, hover⟩ := h.current a rest going
      rw [hwire]
      exact forall_mem_concat (fun y hy ↦ stays y (hover y hy)) (ended rest xs x rfl hwire)
    | queued frame =>
      refine fun x hx ↦ stays x (h.idle (fun b rest hb ↦ hw b rest ?_) x hx)
      have hba : b ≠ a := fun hba ↦ by simp [hba, going] at hb
      rwa [Function.update_of_ne hba]

/-- Whatever happens, everything stays in order. -/
theorem step (h : Orderly t ws log) {shown : List WireEvent} {ws' : Writers}
    (next : WriteStep t ws shown u ws') : Orderly u ws' (log ++ shown) := by
  cases next with
  | quiet line written dead =>
    rw [List.append_nil]
    exact h.quiet line written dead
  | ask a frame idle => exact h.ask frame idle
  | @go a c d _ going step =>
    generalize hn : (Progress.running d, u) = next at step
    cases WriteCall.takes_of_step? step with
    | @opens data first held =>
      cases hn
      have hshows : (WriteCall.queued data).shows a t = [.opened a data] := by
        simp [WriteCall.shows, first, held]
      rw [hshows]
      exact h.opens going (by simpa [Lock.isHeldBy] using first)
    | @sends rest left sink more write =>
      cases hn
      obtain ⟨alive, rfl, rfl, _⟩ := Outflow.write?_eq_ok write
      have hshows : (WriteCall.writing rest).shows a t =
          [.wrote (rest.take (t.sink.room rest.length))] := by
        cases rest with
        | nil => exact absurd rfl more
        | cons b rest => simp [WriteCall.shows, write]
      rw [hshows]
      refine h.sends ?_ alive (by simp [Outflow.written])
      rw [going, List.take_append_drop]
    | refuses | fails | completes => cases hn
  | @finish a c _ answer going step =>
    rw [List.append_nil]
    generalize hn : (Progress.finished answer, u) = next at step
    cases WriteCall.takes_of_step? step with
    | opens | sends => cases hn
    | refuses first gone =>
      cases hn
      exact h.leave going rfl rfl id (by simp)
    | fails more write =>
      obtain ⟨line, written, dead⟩ := WriteCall.finish_spec a (.error (.transport _)) t
      rw [← hn] at line written dead
      refine h.leave going line written dead fun _ _ _ _ _ ↦ ?_
      exact .inr (.inr (dead (Outflow.dead_of_write?_eq_error write)))
    | completes =>
      obtain ⟨line, written, dead⟩ :=
        WriteCall.finish_spec a (t.sink.flush.mapError .transport) t
      rw [← hn] at line written dead
      refine h.leave going line written dead fun rest xs x hrest hx ↦ .inl ?_
      obtain ⟨xs', x', hx', _, hframe, _⟩ := h.current a [] going
      obtain ⟨rfl, rfl⟩ := List.append_singleton_inj.mp (hx.symm.trans hx')
      rw [← hframe, List.append_nil]
  | @giveUp a c going =>
    cases c with
    | queued frame =>
      rw [WriteCall.abandonShows, List.append_nil]
      exact h.leave going rfl rfl id (by simp)
    | writing rest =>
      obtain ⟨hmarked, xs, x, hx, hgiven⟩ := h.marks going
      refine hmarked.leave going rfl rfl id fun _ xs' x' _ hx' ↦ .inr (.inl ?_)
      obtain ⟨rfl, rfl⟩ := List.append_singleton_inj.mp (hx.symm.trans hx')
      exact hgiven

end Orderly

end LanguageHub
