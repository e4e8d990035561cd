import LanguageHub.Proofs.Frame.RoundTrip
import LanguageHub.Proofs.Transport.Answers

/-!
# Which frames are fatal

As long as a stream does not fail, the read of a frame fails for good if the stream ends inside the
frame, if the frame is too great, or if a line of its header is no text. Any other fault costs one
protocol failure, and the next read goes on behind it (`TransportSession.readFrame_fails_iff`).
-/

namespace LanguageHub.TransportSession

variable {s t : TransportSession} {n : Nat} {answer : FrameAnswer}

/-- Whether no more bytes come than have arrived. -/
def Over (s : TransportSession) : Prop := s.transport.ending = .ended

/-- The read of a frame, as a function of the bytes. -/
private theorem outcome_readFrame (bytes : Bytes) (ending : Ending) :
    (TransportTask.readFrame (.inHeader "" (.queued (.line [])))).outcome bytes ending =
      (.frame (Frame.readBehind "" bytes ending).1, (Frame.readBehind "" bytes ending).2) := by
  have start := FrameCall.outcome_start (.operation 0) {} bytes ending
  rw [← start]
  rfl

/-- The answer of the read of a frame is what the bytes give, however the stream goes on. -/
private theorem Quiet.readFrame_answered (hs : s.Quiet n) {answer : TransportAnswer}
    (answered : s.perform n .readFrame = (t, some answer)) :
    t.Quiet (n + 1) ∧ t.transport.ending = s.transport.ending ∧
      ∀ ending, s.transport.source.inflow.Allows [] ending →
        answer = .frame (Frame.readBehind "" s.transport.incoming ending).1 ∧
          t.transport.incoming = (Frame.readBehind "" s.transport.incoming ending).2 := by
  obtain ⟨quiet, hending, hits⟩ := hs.perform_foreseen (r := .readFrame) rfl answered
  refine ⟨quiet, hending, fun ending allowed ↦ ?_⟩
  have outcome := hits [] ending allowed
  rw [List.append_nil, List.append_nil, outcome_readFrame] at outcome
  obtain ⟨hanswer, hleft⟩ := Prod.mk.inj outcome
  exact ⟨hanswer.symm, hleft.symm⟩

/-- The read of a frame waits only if it would fail as the stream does. -/
private theorem Quiet.readFrame_waits (hs : s.Quiet n)
    (waits : (s.perform n .readFrame).2 = none) :
    ¬ s.Over ∧ ∀ reason, (Frame.readBehind "" s.transport.incoming (.failing reason)).1 =
      .error (.transport reason) := by
  obtain ⟨hending, fails⟩ := hs.perform_waits (r := .readFrame) rfl waits
  constructor
  · intro atEnd
    rw [Over, hending] at atEnd
    cases atEnd
  · intro reason
    have := fails reason
    rw [outcome_readFrame] at this
    exact this

/-- Bytes that have an answer of their own are answered. -/
private theorem Quiet.readFrame_of_gives (hs : s.Quiet n) {left : Bytes}
    (gives : Frame.Gives s.Over s.transport.incoming answer left) :
    ∃ t, s.perform n .readFrame = (t, some (.frame answer)) ∧ t.Quiet (n + 1) ∧
      t.transport.ending = s.transport.ending ∧ t.transport.incoming = left := by
  cases hperform : s.perform n .readFrame with
  | mk t given =>
    cases given with
    | none =>
      -- The failures of two streams are not the same.
      obtain ⟨open', fails⟩ := hs.readFrame_waits (by rw [hperform])
      have first := fails "a"
      have second := fails "b"
      rw [gives _ fun atEnd ↦ absurd atEnd open'] at first second
      rw [first] at second
      simp at second
    | some given =>
      obtain ⟨quiet, hending, hits⟩ := hs.readFrame_answered hperform
      obtain ⟨ending, allowed⟩ := s.transport.source.inflow.exists_allows (.inr (rfl : [] = []))
      have ends : s.Over → ending = .ended := by
        intro atEnd
        obtain h | ⟨-, h⟩ := allowed.possible
        · exact absurd (atEnd.symm.trans h) (by simp)
        · exact h.symm.trans atEnd
      obtain ⟨hanswer, hleft⟩ := hits ending allowed
      rw [gives ending ends] at hanswer hleft
      exact ⟨t, by rw [hanswer], quiet, hending, hleft⟩

/-- An unfinished frame is not answered. -/
private theorem Quiet.readFrame_of_unfinished (hs : s.Quiet n)
    (goesOn : ∀ reason, s.transport.ending ≠ .failing reason)
    (unfinished : Frame.Unfinished s.Over s.transport.incoming) :
    (s.perform n .readFrame).2 = none := by
  cases hperform : s.perform n .readFrame with
  | mk t given =>
    cases given with
    | none => rfl
    | some given =>
      have undecided : s.transport.ending = .undecided := by
        cases hending : s.transport.ending with
        | undecided => rfl
        | ended => exact absurd hending unfinished.not_over
        | failing reason => exact absurd hending (goesOn reason)
      obtain ⟨-, -, hits⟩ := hs.readFrame_answered hperform
      have fails (reason : String) : given = .frame (.error (.transport reason)) := by
        rw [(hits (.failing reason) ⟨by simp, .inl undecided⟩).1, unfinished.fails]
      have clash := (fails "a").symm.trans (fails "b")
      simp at clash

/-- A fault behind which a stream is not read on. -/
private def Fatal (isOver : Prop) (bytes : Bytes) : Prop :=
  Frame.BreaksOff isOver bytes ∨ Frame.TooGreat isOver bytes ∨ Frame.Garbled isOver bytes

private theorem Quiet.readFrame_of_fatal (hs : s.Quiet n)
    (fatal : Fatal s.Over s.transport.incoming) :
    ∃ reason, (s.perform n .readFrame).2 = some (.frame (.error (.transport reason))) := by
  have gives : ∃ reason left,
      Frame.Gives s.Over s.transport.incoming (.error (.transport reason)) left := by
    obtain h | h | h := fatal
    · exact h.gives
    · exact h.gives
    · exact h.gives
  obtain ⟨reason, left, gives⟩ := gives
  obtain ⟨t, hperform, -⟩ := hs.readFrame_of_gives gives
  exact ⟨reason, by rw [hperform]⟩

private theorem Quiet.readFrame_of_malformed (hs : s.Quiet n) {left : Bytes}
    (malformed : Frame.Malformed s.Over s.transport.incoming left) :
    ∃ reason t, s.perform n .readFrame = (t, some (.frame (.error (.protocol reason)))) ∧
      t.Quiet (n + 1) ∧ t.transport.ending = s.transport.ending ∧ t.transport.incoming = left := by
  obtain ⟨reason, gives⟩ := malformed.gives
  exact ⟨reason, hs.readFrame_of_gives gives⟩

/-- A read of a frame that fails has met a fatal fault or a malformed frame. -/
private theorem Quiet.fault_of_readFrame (hs : s.Quiet n)
    (goesOn : ∀ reason, s.transport.ending ≠ .failing reason) {f : Failure}
    (failed : (s.perform n .readFrame).2 = some (.frame (.error f))) :
    Fatal s.Over s.transport.incoming ∨
      ∃ left, Frame.Malformed s.Over s.transport.incoming left := by
  cases Frame.exists_shape s.Over s.transport.incoming with
  | breaksOff h => exact .inl (.inl h)
  | tooGreat h => exact .inl (.inr (.inl h))
  | garbled h => exact .inl (.inr (.inr h))
  | malformed h => exact .inr ⟨_, h⟩
  | blank ended opens =>
    obtain ⟨t, hperform, -⟩ := hs.readFrame_of_gives (opens.gives ended)
    simp [hperform] at failed
  | holds h =>
    obtain ⟨t, hperform, -⟩ := hs.readFrame_of_gives h.gives
    simp [hperform] at failed
  | unfinished h =>
    rw [hs.readFrame_of_unfinished goesOn h] at failed
    cases failed

/-- As long as a stream does not fail, the read of a frame fails for good exactly if the stream ends
inside the frame, if the frame is too great or if a line of its header is no text. It fails with a
protocol failure exactly if the frame is malformed otherwise, and the next read finds the bytes
behind it. It fails in no other way. -/
theorem readFrame_fails_iff (hs : s.Quiet n)
    (goesOn : ∀ reason, s.transport.ending ≠ .failing reason) :
    let bytes := s.transport.incoming
    ((∃ reason, (s.perform n .readFrame).2 = some (.frame (.error (.transport reason)))) ↔
      Frame.BreaksOff s.Over bytes ∨ Frame.TooGreat s.Over bytes ∨ Frame.Garbled s.Over bytes) ∧
    (∀ left, (∃ reason t, s.perform n .readFrame = (t, some (.frame (.error (.protocol reason)))) ∧
        t.Quiet (n + 1) ∧ t.transport.ending = s.transport.ending ∧
        t.transport.incoming = left) ↔ Frame.Malformed s.Over bytes left) ∧
    ∀ f, (s.perform n .readFrame).2 = some (.frame (.error f)) →
      (∃ reason, f = .transport reason) ∨ ∃ reason, f = .protocol reason := by
  refine ⟨⟨?_, hs.readFrame_of_fatal⟩, fun left ↦ ⟨?_, hs.readFrame_of_malformed⟩, ?_⟩
  · rintro ⟨reason, failed⟩
    obtain fatal | ⟨left, malformed⟩ := hs.fault_of_readFrame goesOn failed
    · exact fatal
    · obtain ⟨reason', t, hperform, -⟩ := hs.readFrame_of_malformed malformed
      simp [hperform] at failed
  · rintro ⟨reason, t, failed, -, -, hleft⟩
    obtain fatal | ⟨left', malformed⟩ := hs.fault_of_readFrame goesOn (by rw [failed])
    · obtain ⟨reason', hperform⟩ := hs.readFrame_of_fatal fatal
      simp [failed] at hperform
    · obtain ⟨reason', t', hperform, -, -, hleft'⟩ := hs.readFrame_of_malformed malformed
      rw [hperform] at failed
      cases failed
      rw [← hleft, hleft']
      exact malformed
  · intro f failed
    obtain fatal | ⟨left, malformed⟩ := hs.fault_of_readFrame goesOn failed
    · obtain ⟨reason, hperform⟩ := hs.readFrame_of_fatal fatal
      rw [hperform] at failed
      cases failed
      exact .inl ⟨reason, rfl⟩
    · obtain ⟨reason, t, hperform, -⟩ := hs.readFrame_of_malformed malformed
      rw [hperform] at failed
      cases failed
      exact .inr ⟨reason, rfl⟩

/-- A header without a length, and a frame behind it. -/
def nameless : List Bytes := [Utf8.encode "X: 1\r\n", Utf8.encode "\r\n" ++ Frame.encode "null"]

/-- Such a header costs one protocol failure, and the frame behind it is read next. -/
theorem readFrame_of_nameless :
    let s := overPieces nameless .undecided
    s.Quiet 0 ∧ (∀ reason, s.transport.ending ≠ .failing reason) ∧
      ∃ reason t, s.perform 0 .readFrame = (t, some (.frame (.error (.protocol reason)))) ∧
        t.Quiet 1 ∧ t.transport.ending = .undecided ∧
        t.transport.incoming = Frame.encode "null" := by
  have quiet := quiet_overPieces nameless .undecided 0
  have goesOn : ∀ reason, (overPieces nameless .undecided).transport.ending ≠ .failing reason := by
    intro reason h
    cases h
  have malformed : Frame.Malformed (overPieces nameless .undecided).Over
      (overPieces nameless .undecided).transport.incoming (Frame.encode "null") := by
    rw [incoming_overPieces]
    have line : Text.IsLine "X: 1\r\n" := ⟨"X: 1\r", by decide, rfl⟩
    have separator : Text.IsLine "\r\n" := ⟨"\r", by decide, rfl⟩
    have heads : Frame.Heads (overPieces nameless .undecided).Over nameless.flatten
        ("" ++ "X: 1\r\n") (Frame.encode "null") := by
      refine ⟨by decide, Utf8.encode "\r\n" ++ Frame.encode "null", "\r\n", ?_,
        Frame.firstLine_encode separator _, by decide⟩
      apply Frame.Opens.filled .start _ (by decide)
      rw [nameless, List.flatten_cons, List.flatten_singleton]
      exact Frame.firstLine_encode line _
    exact .header heads rfl
  exact ⟨quiet, goesOn, ((readFrame_fails_iff quiet goesOn).2.1 _).mpr malformed⟩

/-- A header with a byte that is no text, and a frame behind it. -/
def garbledHeader : List Bytes :=
  [[0x58, 0x3A, 0x20, 0xFF, 0x0D, 0x0A, 0x0D, 0x0A], Frame.encode "null"]

/-- Such a header is fatal, although the stream goes on behind it. -/
theorem readFrame_of_garbledHeader :
    let s := overPieces garbledHeader .ended
    (s.perform 0 .readFrame).2 =
        some (.frame (.error (.transport "invalid utf-8 sequence of 1 bytes from index 3"))) ∧
      ¬ Frame.BreaksOff s.Over s.transport.incoming ∧
      ¬ Frame.TooGreat s.Over s.transport.incoming := by
  have bytes : (overPieces garbledHeader .ended).transport.incoming =
      [0x58, 0x3A, 0x20, 0xFF, 0x0D] ++
        ReadGoal.lineFeed :: ([0x0D, 0x0A] ++ Frame.encode "null") := by
    rw [incoming_overPieces]
    rfl
  have first : Frame.FirstLine (overPieces garbledHeader .ended).Over
      (overPieces garbledHeader .ended).transport.incoming
      ([0x58, 0x3A, 0x20, 0xFF, 0x0D] ++ [ReadGoal.lineFeed])
      ([0x0D, 0x0A] ++ Frame.encode "null") := by
    rw [bytes]
    exact .fed _ (by decide)
  have noText (text : String) :
      Utf8.encode text ≠ [0x58, 0x3A, 0x20, 0xFF, 0x0D] ++ [ReadGoal.lineFeed] := by
    intro h
    have none : Utf8.decode? [0x58, 0x3A, 0x20, 0xFF, 0x0D, 0x0A] = none := by rfl
    have some := Utf8.decode?_encode text
    rw [h] at some
    cases some.symm.trans none
  exact ⟨rfl, first.not_breaksOff noText, first.not_tooGreat noText⟩

end LanguageHub.TransportSession
