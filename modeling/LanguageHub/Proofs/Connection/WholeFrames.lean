import LanguageHub.Proofs.Connection.Origins
import LanguageHub.Proofs.Frame.Splitting

/-!
# Whole frames

What a server receives is one frame after another, and the last may be incomplete. There is one
exception: the answer to a request of the server stays incomplete when the connection is closed
while it is written, and a writer that waits then goes on behind it.
-/

namespace LanguageHub

namespace Frame

/-- Complete frames, and an incomplete one at the end. -/
def Whole (bytes : Bytes) : Prop :=
  ∃ bodies last, bytes = List.flatMap encode bodies ++ last ∧ ∃ body, last <+: encode body

variable {bytes : Bytes}

/-- A beginning of complete frames is complete frames and an incomplete one. -/
theorem Whole.of_isPrefix {part : Bytes} (whole : Whole bytes) (h : part <+: bytes) :
    Whole part := by
  obtain ⟨bodies, last, rfl, body, hbody⟩ := whole
  induction bodies generalizing part with
  | nil => exact ⟨[], part, rfl, body, h.trans hbody⟩
  | cons first bodies ih =>
    rw [List.flatMap_cons, List.append_assoc] at h
    rcases List.prefix_or_prefix_of_prefix h (List.prefix_append _ _) with hp | ⟨rest, rfl⟩
    · exact ⟨[], part, rfl, first, hp⟩
    · obtain ⟨bodies', last', hrest, hlast⟩ := ih ((List.prefix_append_right_inj _).mp h)
      exact ⟨first :: bodies', last', by rw [hrest, List.flatMap_cons, List.append_assoc], hlast⟩

/-- A frame begins with the announcement of its length. -/
theorem encode_announces (body : String) : ∃ digit rest, 48 ≤ digit ∧ digit ≤ 57 ∧
    encode body = Utf8.encode "Content-Length: " ++ digit :: rest := by
  obtain ⟨digit, ds, hdigits⟩ := List.exists_cons_of_ne_nil (digits_ne_nil body.utf8ByteSize)
  have hdigit : isDigitByte digit = true :=
    isDigitByte_of_mem_digits digit (hdigits ▸ List.mem_cons_self)
  simp only [isDigitByte, Bool.and_eq_true, decide_eq_true_eq] at hdigit
  refine ⟨digit, ds ++ (headerEnd ++ Utf8.encode body), hdigit.1, hdigit.2, ?_⟩
  rw [encode_eq_digits, hdigits, announcement, List.cons_append]

end Frame

namespace Shipment

/-- Nothing was written behind a frame of which only a part was written. -/
def Whole (xs : List Shipment) : Prop := xs.Pairwise fun x y ↦ x.Torn → y.sent = []

/-- Frames with nothing behind an incomplete one. -/
theorem Whole.flatMap_sent {xs : List Shipment} (whole : Whole xs)
    (part : ∀ x ∈ xs, x.sent <+: x.frame)
    (encoded : ∀ x ∈ xs, ∃ body, x.frame = Frame.encode body) :
    Frame.Whole (xs.flatMap (·.sent)) := by
  induction xs with
  | nil => exact ⟨[], [], rfl, "", List.nil_prefix⟩
  | cons x xs ih =>
    obtain ⟨hx, hxs⟩ := List.pairwise_cons.mp whole
    obtain ⟨body, hbody⟩ := encoded x List.mem_cons_self
    have hpart := part x List.mem_cons_self
    rw [List.flatMap_cons]
    by_cases torn : x.Torn
    · have hnil : xs.flatMap (·.sent) = [] :=
        List.flatMap_eq_nil_iff.mpr fun y hy ↦ hx y hy torn
      rw [hnil, List.append_nil]
      exact ⟨[], x.sent, rfl, body, hbody ▸ hpart⟩
    · obtain ⟨bodies, last, hrest, hlast⟩ := ih hxs
        (fun y hy ↦ part y (List.mem_cons_of_mem _ hy))
        (fun y hy ↦ encoded y (List.mem_cons_of_mem _ hy))
      rw [hrest]
      by_cases hnil : x.sent = []
      · exact ⟨bodies, last, by rw [hnil, List.nil_append], hlast⟩
      · have hall : x.sent = x.frame := Decidable.not_not.mp fun h ↦ torn ⟨hnil, h⟩
        refine ⟨body :: bodies, last, ?_, hlast⟩
        rw [hall, hbody, List.flatMap_cons, List.append_assoc]

end Shipment

namespace ConnectionSession

variable {s₀ s : ConnectionSession} {h : History}

/-- Every frame that was begun is the encoding of a body. -/
theorem Run.exists_body (run : Run s₀ h s) (orderly : Orderly s.connection.transport s.writers
    h.events) : ∀ x ∈ h.wire, ∃ body, x.frame = Frame.encode body := by
  intro x hx
  have horder : x.order ∈ WireEvent.orders h.events :=
    orderly.inOrder.subset (List.mem_append_left _ (List.mem_map_of_mem hx))
  exact (run.accounts (History.mem_orders_iff.mp horder)).exists_body

/-- Where nothing is written behind an incomplete frame, whole frames arrive. -/
theorem Run.received_whole {capacity : Nat} {handlerFails : Bool}
    (run : Run (overPipes capacity handlerFails) h s) (whole : Shipment.Whole h.wire) :
    Frame.Whole s.connection.transport.sink.received := by
  have hwhole : Frame.Whole s.connection.transport.sink.written :=
    run.orderly.written ▸ whole.flatMap_sent run.orderly.part (run.exists_body run.orderly)
  exact hwhole.of_isPrefix (List.prefix_append _ _)

/-- What a server receives are whole frames exactly when nothing is written behind an answer that
the task that reads gave up, stopped by the closing of the connection. -/
theorem wholeFrames_iff {capacity : Nat} {handlerFails : Bool}
    (run : Run (overPipes capacity handlerFails) h s) :
    s.connection.transport.sink.written = h.wire.flatMap (·.sent) ∧
      (∀ x ∈ h.wire, x.sent <+: x.frame ∧ ∃ body, x.frame = Frame.encode body) ∧
      (∀ x ∈ h.wire, x.givenUp = true → x.author = .reading ∧
        s.connection.reading = .ended ∧ s.connection.stopping = true) ∧
      (Shipment.Whole h.wire ↔
        h.wire.Pairwise fun x y ↦ x.givenUp = true → x.Torn → y.sent = []) ∧
      (Shipment.Whole h.wire → Frame.Whole s.connection.transport.sink.received) := by
  have orderly := run.orderly
  refine ⟨orderly.written, fun x hx ↦ ⟨orderly.part x hx, run.exists_body orderly x hx⟩,
    fun x hx hgiven ↦ ?_, ⟨?_, ?_⟩, run.received_whole⟩
  · exact run.gaveUp (History.mem_events_iff.mp (orderly.gaveUp x hx hgiven))
  · exact List.Pairwise.imp fun hxy _ torn ↦ hxy torn
  · refine fun spared ↦ (spared.and orderly.apart).imp fun ⟨hgiven, happart⟩ torn ↦ ?_
    obtain hall | hgivenUp | hnil := happart
    · exact absurd hall torn.2
    · exact hgiven hgivenUp torn
    · exact hnil

/-- A connection is closed while it answers a request of the server and a notification waits. The
server has read the beginning of the answer and of what comes behind it. -/
def closedInReply : ConnectionSession :=
  let s := (overPipes 16 false).happen (.arrive (Frame.encode "\x7b\"id\":1,\"method\":\"m\"\x7d"))
  let s := (settle advanceAny? 30 s).start 0 (.notify .handshakeDone)
  let s := (settle advanceAny? 30 s).start 1 .close
  let s := (settle advanceAny? 30 s).happen (.deliver 16)
  (settle advanceAny? 30 s).happen (.deliver 16)

private theorem not_whole_twice :
    ¬ Frame.Whole (Utf8.encode "Content-Length: " ++ Utf8.encode "Content-Length: ") := by
  -- Either the bytes begin with a frame, or they are the beginning of one.
  have key : ∀ body, ¬ (Utf8.encode "Content-Length: " ++ Utf8.encode "Content-Length: ") <+:
      Frame.encode body ∧ ¬ Frame.encode body <+:
        (Utf8.encode "Content-Length: " ++ Utf8.encode "Content-Length: ") := by
    intro body
    obtain ⟨digit, rest, _, hdigit, hbody⟩ := Frame.encode_announces body
    have hne : (67 : UInt8) ≠ digit := fun h ↦ absurd (h ▸ hdigit) (by decide)
    have hbytes : Utf8.encode "Content-Length: " = 67 :: Utf8.encode "ontent-Length: " := by
      decide +kernel
    rw [hbody, List.prefix_append_right_inj, List.prefix_append_right_inj, hbytes]
    simp only [List.cons_prefix_cons, hne, hne.symm, false_and, not_false_eq_true, and_self]
  rintro ⟨bodies, last, hbytes, body, hlast⟩
  cases bodies with
  | nil => exact (key body).1 (hbytes ▸ hlast)
  | cons first bodies =>
    refine (key first).2 (hbytes ▸ ?_)
    rw [List.flatMap_cons, List.append_assoc]
    exact List.prefix_append _ _

private theorem run_closedInReply : ∃ h, Run (overPipes 16 false) h closedInReply := by
  have run : Run (overPipes 16 false) [] (overPipes 16 false) := .refl
  obtain ⟨_, run⟩ :=
    (run.event (.arrive (Frame.encode "\x7b\"id\":1,\"method\":\"m\"\x7d"))).settle 30
  obtain ⟨_, run⟩ := (run.start 0 (.notify .handshakeDone) (by decide +kernel)).settle 30
  obtain ⟨_, run⟩ := (run.start 1 .close (by decide +kernel)).settle 30
  obtain ⟨h, run⟩ := (run.event (.deliver 16)).settle 30
  exact ⟨h, run.event (.deliver 16)⟩

private theorem not_whole_closedInReply :
    ¬ Frame.Whole closedInReply.connection.transport.sink.received := by
  have received : closedInReply.connection.transport.sink.received =
      Utf8.encode "Content-Length: " ++ Utf8.encode "Content-Length: " := by decide +kernel
  exact received ▸ not_whole_twice

/-- The connection that is closed in its reply has given an incomplete frame up. -/
theorem givenUp_closedInReply : ∃ h, Run (overPipes 16 false) h closedInReply ∧
    ∃ x ∈ h.wire, x.givenUp = true ∧ x.Torn := by
  obtain ⟨h, run⟩ := run_closedInReply
  obtain ⟨_, _, _, hiff, hwhole⟩ := wholeFrames_iff run
  refine ⟨h, run, by_contra fun none ↦ not_whole_closedInReply (hwhole (hiff.mpr ?_))⟩
  exact List.pairwise_iff_forall_sublist.mpr fun {x y} hxy hgiven torn ↦
    absurd ⟨x, hxy.subset List.mem_cons_self, hgiven, torn⟩ none

/-- There is a run in which something is written behind an incomplete frame, and what the server
receives is not made of whole frames. -/
theorem exists_frame_behind_torn_reply :
    ∃ h s, Run (overPipes 16 false) h s ∧ ¬ Shipment.Whole h.wire ∧
      ¬ Frame.Whole s.connection.transport.sink.received := by
  obtain ⟨h, run⟩ := run_closedInReply
  exact ⟨h, closedInReply, run, fun whole ↦ not_whole_closedInReply (run.received_whole whole),
    not_whole_closedInReply⟩

end ConnectionSession

end LanguageHub
