import LanguageHub.Stream.Outflow
import LanguageHub.Transport.Basic
import Mathlib.Data.List.Induction
import Mathlib.Data.List.ModifyLast

/-!
# The wire

A write puts a beginning of its bytes behind those that were written before, and once a write has
failed, every later one fails. What writers do to the stream of a transport, one event after
another, and what comes of it: the frames that were begun, in order, each with the bytes of it that
went out.
-/

namespace LanguageHub.Outflow

variable {o u : Outflow} {bytes rest : Bytes}

/-- No write goes through any more. -/
def Dead (o : Outflow) : Prop := o.broken ≠ none ∨ o.faultyAt = some .write

/-- A write that goes through puts some bytes behind the others and gives back the rest. -/
theorem write?_eq_ok (h : o.write? bytes = some (.ok (u, rest))) :
    ¬ o.Dead ∧ u = { o with unread := o.unread ++ bytes.take (o.room bytes.length) } ∧
      rest = bytes.drop (o.room bytes.length) ∧ o.room bytes.length ≠ 0 := by
  simp only [write?] at h
  split at h
  · simp only [Option.some.injEq, reduceCtorEq] at h
  · next hbroken =>
    split at h
    · simp only [Option.some.injEq, reduceCtorEq] at h
    · next hfault =>
      split at h
      · simp only [reduceCtorEq] at h
      · next hroom =>
        simp only [Option.some.injEq, Except.ok.injEq, Prod.mk.injEq] at h
        refine ⟨?_, h.1.symm, h.2.symm, hroom⟩
        rintro (hd | hd)
        · exact hd hbroken
        · exact hfault hd

/-- After a write that fails no write goes through. -/
theorem dead_of_write?_eq_error {reason : String} (h : o.write? bytes = some (.error reason)) :
    o.Dead := by
  simp only [write?] at h
  split at h
  · next reason' hbroken => exact .inl (by simp [hbroken])
  · split at h
    · next hfault => exact .inr hfault
    · split at h <;> simp only [Option.some.injEq, reduceCtorEq] at h

/-- Reading by the other side changes nothing about what was written. -/
@[simp]
theorem written_deliver (o : Outflow) (count : Nat) : (o.deliver count).written = o.written := by
  simp only [written, deliver, List.append_assoc, List.take_append_drop]

end LanguageHub.Outflow

namespace LanguageHub

/-- Something that a writer does. -/
inductive WireEvent where
  /-- It joins the line with a frame to write. -/
  | asked (author : Agent) (frame : Bytes)
  /-- It has the stream and begins with its frame. -/
  | opened (author : Agent) (frame : Bytes)
  /-- The one who has the stream writes some bytes. -/
  | wrote (bytes : Bytes)
  /-- The one who has the stream stops before its frame is written and checked. -/
  | gaveUp (author : Agent)
  deriving DecidableEq, Repr

/-- A frame that was begun. -/
structure Shipment where
  author : Agent
  frame : Bytes
  /-- The bytes of it that were written. -/
  sent : Bytes := []
  givenUp : Bool := false
  deriving DecidableEq, Repr

namespace Shipment

/-- Something of the frame was written, but not all. -/
def Torn (x : Shipment) : Prop := x.sent ≠ [] ∧ x.sent ≠ x.frame

instance (x : Shipment) : Decidable x.Torn := inferInstanceAs (Decidable (_ ∧ _))

/-- The frame and whose it is. -/
def order (x : Shipment) : Agent × Bytes := (x.author, x.frame)

end Shipment

namespace WireEvent

/-- The frames that were begun, after one more event. -/
def after (xs : List Shipment) : WireEvent → List Shipment
  | asked _ _ => xs
  | opened author frame => xs ++ [{ author, frame }]
  | wrote bytes => xs.modifyLast fun x ↦ { x with sent := x.sent ++ bytes }
  | gaveUp _ => xs.modifyLast fun x ↦ { x with givenUp := true }

/-- The frame that somebody joined the line with. -/
def order? : WireEvent → Option (Agent × Bytes)
  | asked author frame => some (author, frame)
  | _ => none

/-- The frames that were begun, in order. -/
def wire (log : List WireEvent) : List Shipment := log.foldl after []

/-- The frames that somebody joined the line with, in order. -/
def orders (log : List WireEvent) : List (Agent × Bytes) := log.filterMap order?

variable {log : List WireEvent}

@[simp]
theorem wire_append (log more : List WireEvent) :
    wire (log ++ more) = more.foldl after (wire log) :=
  List.foldl_append

@[simp]
theorem orders_append (log more : List WireEvent) :
    orders (log ++ more) = orders log ++ orders more :=
  List.filterMap_append

/-! ### The order of the frames on the wire -/

/-- The frame that a writer begins with, and whose it is. -/
def opened? : WireEvent → Option (Agent × Bytes)
  | opened author frame => some (author, frame)
  | _ => none

private theorem map_order_modifyLast {f : Shipment → Shipment} (keeps : ∀ x, (f x).order = x.order)
    (xs : List Shipment) : (xs.modifyLast f).map (·.order) = xs.map (·.order) := by
  induction xs using List.reverseRecOn with
  | nil => rfl
  | append_singleton xs x _ =>
    rw [List.modifyLast_concat, List.map_append, List.map_append, List.map_singleton,
      List.map_singleton, keeps]

private theorem map_order_after (xs : List Shipment) (e : WireEvent) :
    (after xs e).map (·.order) = xs.map (·.order) ++ e.opened?.toList := by
  cases e with
  | asked author frame => simp [after, opened?]
  | opened author frame => simp [after, opened?, Shipment.order]
  | wrote bytes =>
    have hkeeps := map_order_modifyLast (f := fun x ↦ { x with sent := x.sent ++ bytes })
      (fun _ ↦ rfl) xs
    rw [after, hkeeps]
    exact (List.append_nil _).symm
  | gaveUp author =>
    have hkeeps := map_order_modifyLast (f := fun x ↦ { x with givenUp := true }) (fun _ ↦ rfl) xs
    rw [after, hkeeps]
    exact (List.append_nil _).symm

/-- The frames on the wire are those that writers began with, in order. -/
theorem map_order_wire (log : List WireEvent) :
    (wire log).map (·.order) = log.filterMap opened? := by
  induction log using List.reverseRecOn with
  | nil => rfl
  | append_singleton log e ih =>
    rw [wire_append, List.foldl_cons, List.foldl_nil, map_order_after, ih, List.filterMap_append]
    apply congrArg (log.filterMap opened? ++ ·)
    cases e <;> rfl

end WireEvent

namespace WriteCall

/-- What a step of a write shows on the wire. -/
def shows (a : Agent) (c : WriteCall) (t : Transport) : List WireEvent :=
  match c with
  | queued data => if t.writers.isHeldBy a && t.hasSink then [.opened a data] else []
  | writing rest =>
    match rest, t.sink.write? rest with
    | _ :: _, some (.ok _) => [.wrote (rest.take (t.sink.room rest.length))]
    | _, _ => []

/-- A step of a write neither joins the line nor gives anything up. -/
theorem mem_shows {a : Agent} {c : WriteCall} {t : Transport} {e : WireEvent}
    (h : e ∈ c.shows a t) : (∃ frame, e = .opened a frame) ∨ ∃ bytes, e = .wrote bytes := by
  cases c with
  | queued data =>
    simp only [shows] at h
    split at h
    · exact .inl ⟨data, List.mem_singleton.mp h⟩
    · cases h
  | writing rest =>
    simp only [shows] at h
    split at h
    · exact .inr ⟨_, List.mem_singleton.mp h⟩
    · cases h

/-- What giving a write up shows on the wire. -/
def abandonShows (a : Agent) : WriteCall → List WireEvent
  | queued _ => []
  | writing _ => [.gaveUp a]

/-- The frame that a write waits with. -/
def order? (a : Agent) : WriteCall → Option (Agent × Bytes)
  | queued data => some (a, data)
  | writing _ => none

/-- What a step of a write can be. -/
inductive Takes (a : Agent) (t : Transport) :
    WriteCall → Progress WriteCall (Except Failure Unit) × Transport → Prop where
  | opens {data : Bytes} (first : t.writers.isHeldBy a = true) (held : t.hasSink = true) :
      Takes a t (.queued data) (.running (.writing data), t)
  | refuses {data : Bytes} (first : t.writers.isHeldBy a = true) (gone : t.hasSink = false) :
      Takes a t (.queued data)
        (.finished (.error .transportClosed), { t with writers := t.writers.leave a })
  | sends {rest left : Bytes} {sink : Outflow} (more : rest ≠ [])
      (write : t.sink.write? rest = some (.ok (sink, left))) :
      Takes a t (.writing rest) (.running (.writing left), { t with sink })
  | fails {rest : Bytes} {reason : String} (more : rest ≠ [])
      (write : t.sink.write? rest = some (.error reason)) :
      Takes a t (.writing rest) (finish a (.error (.transport reason)) t)
  | completes : Takes a t (.writing []) (finish a (t.sink.flush.mapError .transport) t)

/-- A step of a write is one of these. -/
theorem takes_of_step? {a : Agent} {c : WriteCall} {t : Transport}
    {next : Progress WriteCall (Except Failure Unit) × Transport}
    (h : c.step? a t = some next) : Takes a t c next := by
  cases c with
  | queued data =>
    simp only [step?] at h
    split at h
    · next first =>
      split at h
      · next held =>
        cases h
        exact .opens first held
      · next gone =>
        cases h
        exact .refuses first (Bool.eq_false_iff.mpr gone)
    · cases h
  | writing rest =>
    cases rest with
    | nil =>
      cases h
      exact .completes
    | cons b rest =>
      simp only [step?] at h
      split at h
      · cases h
      · next write =>
        cases h
        exact .fails (by simp) write
      · next write =>
        cases h
        exact .sends (by simp) write

/-- A write fails for a reason of the transport. -/
theorem transport_of_step? {a : Agent} {c : WriteCall} {t u : Transport} {f : Failure}
    (h : c.step? a t = some (.finished (.error f), u)) : ∃ reason, f = .transport reason := by
  generalize hn : (Progress.finished (Except.error f), u) = next at h
  cases takes_of_step? h with
  | opens | sends => cases hn
  | refuses => cases hn; exact ⟨_, rfl⟩
  | fails => cases hn; exact ⟨_, rfl⟩
  | completes =>
    simp only [finish, Prod.mk.injEq, Progress.finished.injEq] at hn
    cases hflush : t.sink.flush with
    | error reason =>
      rw [hflush] at hn
      exact ⟨reason, Except.error.inj hn.1⟩
    | ok x =>
      rw [hflush] at hn
      cases hn.1

/-- The last step of a write shows nothing. -/
theorem shows_of_finished {a : Agent} {c : WriteCall} {t u : Transport}
    {answer : Except Failure Unit} (h : c.step? a t = some (.finished answer, u)) :
    c.shows a t = [] := by
  generalize hn : (Progress.finished answer, u) = next at h
  cases takes_of_step? h with
  | opens | sends => cases hn
  | refuses first gone => simp [shows, gone]
  | @fails rest reason more write =>
    cases rest with
    | nil => rfl
    | cons b rest => simp [shows, write]
  | completes => rfl

/-- The end of a write leaves what was written and passes the lock on. -/
theorem finish_spec (a : Agent) (answer : Except Failure Unit) (t : Transport) :
    (finish a answer t).2.writers = t.writers.leave a ∧
      (finish a answer t).2.sink.written = t.sink.written ∧
      (t.sink.Dead → (finish a answer t).2.sink.Dead) := by
  unfold finish
  split <;> exact ⟨rfl, rfl, id⟩

/-- A write neither opens a transport nor mends its stream. -/
theorem lasts_of_step? {a : Agent} {call : WriteCall} {t u : Transport}
    {p : Progress WriteCall (Except Failure Unit)} (step : call.step? a t = some (p, u)) :
    u.closed = t.closed ∧ u.sink.faultyAt = t.sink.faultyAt := by
  have ends (answer : Except Failure Unit) : (finish a answer t).2.closed = t.closed ∧
      (finish a answer t).2.sink.faultyAt = t.sink.faultyAt := by
    unfold finish
    split <;> exact ⟨rfl, rfl⟩
  generalize hn : (p, u) = next at step
  cases takes_of_step? step with
  | opens | refuses => cases hn; exact ⟨rfl, rfl⟩
  | sends more write =>
    cases hn
    obtain ⟨-, rfl, -⟩ := Outflow.write?_eq_ok write
    exact ⟨rfl, rfl⟩
  | @fails _ reason =>
    cases hn
    exact ends (.error (.transport reason))
  | completes =>
    cases hn
    exact ends (t.sink.flush.mapError .transport)

/-- A step of a write leaves the stream from the server alone. -/
theorem step?_source {a : Agent} {call : WriteCall} {t u : Transport}
    {p : Progress WriteCall (Except Failure Unit)} (step : call.step? a t = some (p, u)) :
    u.source = t.source ∧ u.readers = t.readers ∧ u.hasSource = t.hasSource := by
  generalize hn : (p, u) = next at step
  cases takes_of_step? step with
  | opens | sends | refuses =>
    cases hn
    exact ⟨rfl, rfl, rfl⟩
  | fails | completes =>
    simp only [finish] at hn
    cases hn
    split <;> exact ⟨rfl, rfl, rfl⟩

end WriteCall

end LanguageHub
