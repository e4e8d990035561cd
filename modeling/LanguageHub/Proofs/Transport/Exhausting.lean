import LanguageHub.Proofs.Frame.Shapes
import LanguageHub.Proofs.Transport.Answers

/-!
# Reading to the end

A call that reads a frame returns after finitely many lines, and if a further frame may follow it
has taken at least one byte. So frames are read one after the other only as often as there are
bytes, and then the end of the stream or a failure that is more than a protocol failure is met
(`TransportSession.readFrames_ends`).
-/

namespace LanguageHub

/-- Whether a further frame may follow an answer: behind a body and behind a protocol failure. -/
def FrameAnswer.goesOn : FrameAnswer → Bool
  | .ok (some _) | .error (.protocol _) => true
  | _ => false

/-! ### What a frame takes -/

namespace Frame

variable {header : String} {line bytes left : Bytes} {ending : Ending} {answer : FrameAnswer}

/-- Behind the end of a stream nothing more is read. -/
private theorem ne_nil_of_goesOn (done : FrameCall.afterLine header line = .done answer)
    (goesOn : answer.goesOn) : line ≠ [] := by
  rintro rfl
  have nothing : Utf8.decode [] = .ok "" := Utf8.decode_encode ""
  rw [FrameCall.afterLine, nothing] at done
  cases done
  split at goesOn <;> cases goesOn

/-- The read of a body that goes on has taken the body and nothing behind it. -/
private theorem exists_of_readBody {length : Nat}
    (read : readBody length bytes ending = (answer, left)) (goesOn : answer.goesOn) :
    ∃ body, body ++ left = bytes := by
  simp only [readBody, ReadGoal.exactlyOutcome] at read
  split at read
  · next outcome =>
    cases read
    cases goesOn
  · next outcome =>
    cases read
    split at outcome
    · cases outcome
      exact ⟨_, List.take_append_drop length bytes⟩
    · split at outcome <;> cases outcome

/-- The answers to the read of a frame. -/
inductive Answers : FrameAnswer → Prop where
  | body (text : String) : Answers (.ok (some text))
  | atEnd : Answers (.ok none)
  | transport (reason : String) : Answers (.error (.transport reason))
  | protocol (reason : String) : Answers (.error (.protocol reason))

/-- Behind an answer that is the last one the stream is at its end or has failed. -/
theorem Answers.cases_of_last (h : Answers answer) (ends : ¬ answer.goesOn) :
    answer = .ok none ∨ ∃ reason, answer = .error (.transport reason) := by
  cases h with
  | body text => exact absurd rfl ends
  | atEnd => exact .inl rfl
  | transport reason => exact .inr ⟨reason, rfl⟩
  | protocol reason => exact absurd rfl ends

/-- The read of a frame from a stream that ends has one of these answers. -/
theorem answers_readBehind (bytes : Bytes) (decided : ending ≠ .undecided) :
    Answers (readBehind "" bytes ending).1 := by
  have of_gives {given : FrameAnswer} {left : Bytes} (h : Answers given)
      (gives : Gives (ending = .ended) bytes given left) :
      Answers (readBehind "" bytes ending).1 := by
    rw [gives ending id]
    exact h
  cases exists_shape (ending = .ended) bytes with
  | blank ended opens => exact of_gives .atEnd (opens.gives ended)
  | holds h => exact of_gives (.body _) h.gives
  | unfinished h =>
    cases ending with
    | undecided => exact absurd rfl decided
    | ended => exact absurd rfl h.not_over
    | failing reason =>
      rw [h.fails reason]
      exact .transport reason
  | breaksOff h =>
    obtain ⟨reason, left, gives⟩ := h.gives
    exact of_gives (.transport reason) gives
  | tooGreat h =>
    obtain ⟨reason, left, gives⟩ := h.gives
    exact of_gives (.transport reason) gives
  | garbled h =>
    obtain ⟨reason, left, gives⟩ := h.gives
    exact of_gives (.transport reason) gives
  | malformed h =>
    obtain ⟨reason, gives⟩ := h.gives
    exact of_gives (.protocol reason) gives

/-- A frame behind which another may follow has taken at least one byte, and the read stops behind
it. -/
theorem exists_taken (read : readBehind header bytes ending = (answer, left))
    (goesOn : answer.goesOn) : ∃ taken, taken ≠ [] ∧ taken ++ left = bytes := by
  induction hsize : bytes.length using Nat.strongRecOn generalizing header bytes with
  | ind size ih =>
    subst hsize
    rw [readBehind_eq] at read
    cases houtcome : ReadGoal.lineOutcome bytes ending with
    | mk result rest =>
      rw [houtcome] at read
      cases result with
      | error reason =>
        cases read
        cases goesOn
      | ok line =>
        have cut : line ++ rest = bytes := ReadGoal.lineOutcome_eq_ok houtcome
        subst cut
        simp only [readAfter] at read
        cases hafter : FrameCall.afterLine header line with
        | done given =>
          rw [hafter] at read
          cases read
          exact ⟨line, ne_nil_of_goesOn hafter goesOn, rfl⟩
        | body length =>
          rw [hafter] at read
          have filled : line ≠ [] := ne_nil_of_afterLine header line (by simp [hafter])
          obtain ⟨body, rfl⟩ := exists_of_readBody read goesOn
          exact ⟨line ++ body, by simp [filled], List.append_assoc _ _ _⟩
        | header longer =>
          rw [hafter] at read
          have filled : line ≠ [] := ne_nil_of_afterLine header line (by simp [hafter])
          have shorter : rest.length < (line ++ rest).length := by
            have := List.length_pos_iff.mpr filled
            rw [List.length_append]
            omega
          obtain ⟨taken, -, rfl⟩ := ih _ shorter read rfl
          exact ⟨line ++ taken, by simp [filled], List.append_assoc _ _ _⟩

end Frame

/-! ### How many lines a frame takes -/

namespace FrameCall

/-- How many reads of a line end with the next step: one or none. -/
def linesEnded (a : Agent) (c : FrameCall) (t : Transport) : Nat :=
  match c with
  | inHeader _ call =>
    match call.step? a t with
    | some (.finished _, _) => 1
    | _ => 0
  | inBody _ => 0

/-- Some steps of the read of a frame, in which so many lines are read. -/
inductive Reads (a : Agent) (c : FrameCall) (t : Transport) :
    (lines : Nat) → FrameCall → Transport → Prop where
  | start : Reads a c t 0 c t
  | step {lines : Nat} {d e : FrameCall} {u v : Transport} (before : Reads a c t lines d u)
      (step : d.step? a u = some (.running e, v)) : Reads a c t (lines + d.linesEnded a u) e v

/-- The read of a frame returns with an answer after it has read so many lines. -/
def Returns (a : Agent) (c : FrameCall) (t : Transport) (lines : Nat) (answer : FrameAnswer)
    (v : Transport) : Prop :=
  ∃ before d u, Reads a c t before d u ∧ d.step? a u = some (.finished answer, v) ∧
    lines = before + d.linesEnded a u

/-- At least as many lines as the read of a frame can still read. -/
def linesLeft (c : FrameCall) (bytes : Bytes) (ending : Ending) : Nat :=
  match c with
  | inHeader _ call =>
    match call.goal.outcome bytes ending with
    | (.ok line, rest) => line.length + rest.length + 1
    | (.error _, _) => 1
  | inBody _ => 0

/-- A read of a line that has taken nothing has at most as many lines before it as there are bytes,
and the one behind them. -/
private theorem linesLeft_readLine (header : String) (bytes : Bytes) (ending : Ending) :
    (inHeader header (.queued (.line []))).linesLeft bytes ending ≤ bytes.length + 1 := by
  simp only [linesLeft]
  split
  · next line rest outcome =>
    obtain ⟨begun, whole, append⟩ := ReadGoal.outcome_eq_ok outcome
    change line = begun at whole
    have cut : (begun ++ rest).length = begun.length + rest.length := List.length_append
    rw [whole, ← append]
    omega
  · omega

variable {a : Agent} {c : FrameCall} {t u : Transport} {p : Progress FrameCall FrameAnswer}

/-- A line that a step ends is no longer to be read. -/
theorem linesEnded_add_le (readable : t.Readable [a]) (whole : c.call.goal.IsWhole)
    (step : c.step? a t = some (p, u)) :
    (c.linesEnded a t + match p with
      | .running d => d.linesLeft u.incoming u.ending
      | .finished _ => 0) ≤ c.linesLeft t.incoming t.ending := by
  cases c with
  | inBody call =>
    simp only [step?] at step
    split at step <;> cases step <;> exact Nat.le_refl 0
  | inHeader header call =>
    obtain ⟨q, v, hcall, hending, fits⟩ := ReadCall.step?_fits (c := call) readable whole
    cases q with
    | running next =>
      -- The line goes on, and what it will give is the same.
      obtain ⟨-, -, -, same⟩ := fits
      simp only [step?, hcall] at step
      cases step
      simp only [linesEnded, hcall, linesLeft, Nat.zero_add, same]
      exact Nat.le_refl _
    | finished result =>
      obtain ⟨-, result, rfl, outcome⟩ := fits
      cases result with
      | error reason =>
        simp only [step?, hcall] at step
        cases step
        simp only [linesEnded, hcall, linesLeft, outcome]
        exact Nat.le_refl _
      | ok line =>
        have hmap : (.ok line : Except String Bytes).mapError Failure.transport = .ok line := rfl
        simp only [linesEnded, hcall, linesLeft, outcome, step?, hmap] at step ⊢
        cases hafter : afterLine header line with
        | done answer =>
          rw [hafter] at step
          cases step
          simp only
          omega
        | body length =>
          rw [hafter] at step
          cases step
          simp only
          omega
        | header longer =>
          rw [hafter] at step
          cases step
          have filled : line ≠ [] := Frame.ne_nil_of_afterLine header line (by simp [hafter])
          have := List.length_pos_iff.mpr filled
          have few := linesLeft_readLine longer v.incoming v.ending
          simp only
          change 1 + (inHeader longer (.queued (.line []))).linesLeft v.incoming v.ending ≤ _
          omega

end FrameCall

namespace TransportSession

variable {s t u : TransportSession} {n lines : Nat} {answer : FrameAnswer}
  {answers : List FrameAnswer}

/-! ### One call -/

/-- A call that reads a frame: it returns with an answer after it has read so many lines. -/
structure ReadsFrame (s : TransportSession) (n lines : Nat) (answer : FrameAnswer)
    (t : TransportSession) : Prop where
  performed : s.perform n .readFrame = (t, some (.frame answer))
  returned : (FrameCall.start (.operation n) s.transport).1.Returns (.operation n)
    (FrameCall.start (.operation n) s.transport).2 lines answer t.transport

/-- What the read of a frame keeps: the lines that it has read and those that it can still read are
no more than there are bytes, and one. -/
private def Counts (s : TransportSession) (n : Nat) (task : TransportTask) (u : Transport) : Prop :=
  ∃ c lines, task = .readFrame c ∧ u.Readable [.operation n] ∧ c.call.goal.IsWhole ∧
    (FrameCall.start (.operation n) s.transport).1.Reads (.operation n)
      (FrameCall.start (.operation n) s.transport).2 lines c u ∧
    lines + c.linesLeft u.incoming u.ending ≤ s.transport.incoming.length + 1

private def Counted (s : TransportSession) (n : Nat) (answer : TransportAnswer) (u : Transport) :
    Prop :=
  ∃ given lines, answer = .frame given ∧
    (FrameCall.start (.operation n) s.transport).1.Returns (.operation n)
      (FrameCall.start (.operation n) s.transport).2 lines given u ∧
    lines ≤ s.transport.incoming.length + 1

private theorem carries_counts (s : TransportSession) (n : Nat) :
    Carries n (Counts s n) (Counted s n) := by
  constructor
  · rintro _ task' v w ⟨c, lines, rfl, readable, whole, reads, few⟩ step
    obtain ⟨p, w', hstep, -, fits⟩ := TransportTask.stepTask_fits readable
      (show (TransportTask.readFrame c).IsWhole from whole)
    rw [hstep] at step
    cases step
    obtain ⟨readable', whole', less, -⟩ := fits
    simp only [stepTask, Option.map_eq_some_iff] at hstep
    obtain ⟨⟨q, w'⟩, hcall, he⟩ := hstep
    cases q with
    | finished given => cases he
    | running d =>
      cases he
      have drops := FrameCall.linesEnded_add_le readable whole hcall
      simp only at drops
      refine ⟨⟨d, _, rfl, readable', whole', reads.step hcall, ?_⟩, less⟩
      omega
  · rintro _ given v w ⟨c, lines, rfl, readable, whole, reads, few⟩ step
    simp only [stepTask, Option.map_eq_some_iff] at step
    obtain ⟨⟨q, w'⟩, hcall, he⟩ := step
    cases q with
    | running d => cases he
    | finished answer =>
      cases he
      have drops := FrameCall.linesEnded_add_le readable whole hcall
      simp only at drops
      refine ⟨answer, _, rfl, ⟨lines, c, v, reads, hcall, rfl⟩, ?_⟩
      omega

private theorem Idle.quiet (hs : s.Idle n) : s.Quiet n :=
  ⟨hs.running, ⟨hs.readable.line_eq, hs.readable.held, hs.readable.solid⟩, hs.numbered⟩

/-- A call that reads a frame returns, after no more lines than there are bytes and one. If a
further frame may follow it has taken at least one byte. -/
theorem Idle.readsFrame (hs : s.Idle n) : ∃ lines answer t, s.ReadsFrame n lines answer t ∧
    lines ≤ s.transport.incoming.length + 1 ∧ t.Idle (n + 1) ∧ Frame.Answers answer ∧
    (answer.goesOn → ∃ taken, taken ≠ [] ∧
      taken ++ t.transport.incoming = s.transport.incoming) := by
  obtain ⟨t, performed, idle, left, -⟩ := perform_readFrame hs
  have begins : s.start n .readFrame =
      ⟨(FrameCall.start (.operation n) s.transport).2,
        s.tasks.start n (.readFrame (FrameCall.start (.operation n) s.transport).1)⟩ := rfl
  have counts : Counts s n (.readFrame (FrameCall.start (.operation n) s.transport).1)
      (FrameCall.start (.operation n) s.transport).2 := by
    refine ⟨_, 0, rfl, ⟨?_, hs.readable.held, hs.readable.solid, hs.readable.decided⟩, trivial,
      .start, ?_⟩
    · change (s.transport.readers.request (.operation n)).line = _
      rw [Lock.request, hs.readable.line_eq]
      rfl
    · rw [Nat.zero_add]
      exact FrameCall.linesLeft_readLine "" _ _
  have carried := (carries_counts s n).perform hs.quiet begins counts (Nat.le_refl _)
  simp only [performed] at carried
  obtain ⟨waits, -⟩ | ⟨_, hanswer, ⟨answer, lines, rfl, returned, few⟩, -⟩ := carried
  · cases waits
  · cases hanswer
    refine ⟨lines, _, t, ⟨performed, returned⟩, few, idle,
      Frame.answers_readBehind _ hs.readable.decided, fun goesOn ↦ ?_⟩
    exact Frame.exists_taken (Prod.ext rfl left.symm) goesOn

/-! ### Call after call -/

/-- Calls that read a frame, one after the other under the numbers from `n` on, each of them
answered so that a further one may follow. -/
inductive ReadsOn : TransportSession → (n : Nat) → List FrameAnswer → TransportSession → Prop where
  | none (s : TransportSession) (n : Nat) : ReadsOn s n [] s
  | call {s t u : TransportSession} {n : Nat} {answer : FrameAnswer} {answers : List FrameAnswer}
      (performed : s.perform n .readFrame = (t, some (.frame answer))) (goesOn : answer.goesOn)
      (later : ReadsOn t (n + 1) answers u) : ReadsOn s n (answer :: answers) u

/-- Each call has taken a byte. -/
theorem ReadsOn.idle (h : ReadsOn s n answers t) (hs : s.Idle n) :
    t.Idle (n + answers.length) ∧
      answers.length + t.transport.incoming.length ≤ s.transport.incoming.length := by
  induction h with
  | none s n => exact ⟨hs, by simp⟩
  | @call s t u n answer answers performed goesOn later ih =>
    obtain ⟨lines, answer', t', reads, -, idle, -, progress⟩ := hs.readsFrame
    have same := performed.symm.trans reads.performed
    cases same
    obtain ⟨taken, filled, append⟩ := progress goesOn
    have := List.length_pos_iff.mpr filled
    have := congrArg List.length append
    obtain ⟨idle', few⟩ := ih idle
    rw [List.length_append] at this
    rw [List.length_cons, show n + (answers.length + 1) = n + 1 + answers.length by omega]
    exact ⟨idle', by omega⟩

/-- Some call is the last one. -/
theorem Idle.exists_last (hs : s.Idle n) : ∃ answers t last u, ReadsOn s n answers t ∧
    t.perform (n + answers.length) .readFrame = (u, some (.frame last)) ∧ ¬ last.goesOn ∧
    Frame.Answers last := by
  induction hsize : s.transport.incoming.length using Nat.strongRecOn generalizing s n with
  | ind size ih =>
    subst hsize
    obtain ⟨lines, answer, t, reads, -, idle, given, progress⟩ := hs.readsFrame
    by_cases goesOn : answer.goesOn
    · obtain ⟨taken, filled, append⟩ := progress goesOn
      have shorter : t.transport.incoming.length < s.transport.incoming.length := by
        have := List.length_pos_iff.mpr filled
        rw [← append, List.length_append]
        omega
      obtain ⟨answers, v, last, w, later, performed, ends⟩ := ih _ shorter idle rfl
      refine ⟨answer :: answers, v, last, w, .call reads.performed goesOn later, ?_, ends⟩
      rw [List.length_cons, show n + (answers.length + 1) = n + 1 + answers.length by omega]
      exact performed
    · exact ⟨[], s, answer, t, .none s n, reads.performed, goesOn, given⟩

/-- The choice that reading all frames makes behind an answer. -/
private theorem readFrames_succ {fuel : Nat} (given : Frame.Answers answer)
    (performed : s.perform n .readFrame = (t, some (.frame answer))) :
    (readFrames (fuel + 1) n s).2 =
      if answer.goesOn then answer :: (readFrames fuel (n + 1) t).2 else [answer] := by
  rw [readFrames, performed]
  cases given <;> rfl

/-- Reading all frames goes on up to the last call. -/
theorem ReadsOn.readFrames_eq (h : ReadsOn s n answers t) (hs : s.Idle n)
    (performed : t.perform (n + answers.length) .readFrame = (u, some (.frame answer)))
    (ends : ¬ answer.goesOn) {fuel : Nat} (enough : answers.length < fuel) :
    (readFrames fuel n s).2 = answers ++ [answer] := by
  induction h generalizing fuel with
  | none s n =>
    obtain ⟨fuel, rfl⟩ := Nat.exists_eq_succ_of_ne_zero (Nat.ne_zero_of_lt enough)
    obtain ⟨lines, given, v, reads, -, -, answered, -⟩ := hs.readsFrame
    rw [List.length_nil, Nat.add_zero] at performed
    have same := performed.symm.trans reads.performed
    cases same
    rw [readFrames_succ answered performed, if_neg ends]
    rfl
  | @call s t' u' n first answers performed' goesOn later ih =>
    obtain ⟨fuel, rfl⟩ := Nat.exists_eq_succ_of_ne_zero (Nat.ne_zero_of_lt enough)
    obtain ⟨lines, given, v, reads, -, idle, answered, -⟩ := hs.readsFrame
    have same := performed'.symm.trans reads.performed
    cases same
    rw [List.length_cons, show n + (answers.length + 1) = n + 1 + answers.length by omega]
      at performed
    rw [readFrames_succ answered performed', if_pos goesOn,
      ih idle performed (Nat.lt_of_succ_lt_succ enough)]
    rfl

/-- Frames of a stream that ends are read one after the other, however it is cut into pieces: each
call returns after finitely many lines, no more than there are bytes left and one, and takes at
least one byte if a further frame may follow. So there are at most as many such calls as there are bytes,
and behind them comes one that meets the end of the stream or a failure that is more than a protocol
failure. -/
theorem readFrames_ends (pieces : List Bytes) {ending : Ending} (decided : ending ≠ .undecided)
    (n : Nat) :
    let s := overPieces pieces ending
    let size := pieces.flatten.length
    (∀ answers t, s.ReadsOn n answers t → answers.length ≤ size ∧ ∃ lines answer u,
      t.ReadsFrame (n + answers.length) lines answer u ∧
        lines ≤ t.transport.incoming.length + 1 ∧
        (answer.goesOn → ∃ taken, taken ≠ [] ∧
          taken ++ u.transport.incoming = t.transport.incoming)) ∧
    ∃ answers t last u, s.ReadsOn n answers t ∧ answers.length + 1 ≤ size + 1 ∧
      t.perform (n + answers.length) .readFrame = (u, some (.frame last)) ∧
      (last = .ok none ∨ ∃ reason, last = .error (.transport reason)) ∧
      ∀ fuel, size < fuel → (readFrames fuel n s).2 = answers ++ [last] := by
  intro s size
  have idle : s.Idle n := idle_overPieces pieces decided n
  have bytes : s.transport.incoming.length = size := by rw [incoming_overPieces]
  have few {answers : List FrameAnswer} {t : TransportSession} (h : s.ReadsOn n answers t) :
      answers.length ≤ size := by
    have := (h.idle idle).2
    omega
  constructor
  · intro answers t h
    obtain ⟨lines, answer, u, reads, fewLines, -, -, progress⟩ := (h.idle idle).1.readsFrame
    exact ⟨few h, lines, answer, u, reads, fewLines, progress⟩
  · obtain ⟨answers, t, last, u, h, performed, ends, given⟩ := idle.exists_last
    refine ⟨answers, t, last, u, h, Nat.succ_le_succ (few h), performed,
      given.cases_of_last ends, ?_⟩
    intro fuel enough
    exact h.readFrames_eq idle performed ends (Nat.lt_of_le_of_lt (few h) enough)

/-- A header without a length, and a frame with an empty body behind it. -/
def emptyBody : List Bytes :=
  [Utf8.encode "X: 1\r\n\r\nContent-Le", Utf8.encode "ngth: 0\r\n\r\n"]

/-- They are read in three calls, the last of which finds the end of the stream. -/
theorem readFrames_emptyBody : Ending.ended ≠ .undecided ∧ emptyBody.flatten.length = 29 ∧
    ∀ fuel, 29 < fuel → (readFrames fuel 0 (overPieces emptyBody .ended)).2 =
      [.error (.protocol "missing Content-Length header"), .ok (some ""), .ok none] := by
  have decided : Ending.ended ≠ .undecided := nofun
  have size : emptyBody.flatten.length = 29 := by decide
  refine ⟨decided, size, fun fuel enough ↦ ?_⟩
  obtain ⟨-, answers, t, last, u, -, -, -, -, same⟩ := readFrames_ends emptyBody decided 0
  have three : (readFrames 30 0 (overPieces emptyBody .ended)).2 =
      [.error (.protocol "missing Content-Length header"), .ok (some ""), .ok none] := by rfl
  rw [same fuel (size ▸ enough), ← same 30 (by rw [size]; omega), three]

end TransportSession

end LanguageHub
