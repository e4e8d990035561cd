import LanguageHub.Proofs.Transport.Answers

/-!
# Reading loses nothing

Reads of what there is, of lines and of numbers of bytes share one buffer. As long as they succeed,
the bytes that they hand out are, in order, the first bytes of the stream, whatever the sizes and
the pieces (`TransportSession.handed_out_in_order`).
-/

namespace LanguageHub

/-- What a read of what there is hands out: as many bytes as it may at most, and none only if it may
have none or the stream is at its end. -/
theorem Source.Solid.handsOut_of_take? {s t : Source} (h : s.Solid) {limit : Nat} {bytes : Bytes}
    (step : s.take? limit = some (.ok bytes, t)) :
    s.HandsOut bytes t ∧ bytes.length ≤ limit ∧
      (bytes = [] → limit = 0 ∨ s.toBytes = [] ∧ s.inflow.ending = .ended) := by
  by_cases hs : s.toBytes = []
  · rw [h.take?_of_nil hs] at step
    split at step
    · cases step
    · next hend =>
      cases step
      exact ⟨h.handsOut_nil, Nat.zero_le _, fun _ ↦ .inr ⟨hs, hend⟩⟩
    · cases step
  · by_cases hl : limit = 0
    · -- The buffer may be filled, but nothing is taken of it.
      obtain ⟨u, hfill, -, hout⟩ := h.fill?_eq hs
      have small : ¬(s.buffer.isEmpty && Source.bufferSize ≤ limit) = true := by
        simp [hl, Source.bufferSize]
      rw [Source.take?, if_neg small, hfill] at step
      subst hl
      cases step
      exact ⟨hout, Nat.le_refl 0, fun _ ↦ .inl rfl⟩
    · obtain ⟨taken, u, htake, hne, hlen, hout⟩ := h.take?_eq hs (Nat.pos_of_ne_zero hl)
      rw [htake] at step
      cases step
      exact ⟨hout, hlen, fun hnil ↦ absurd hnil hne⟩

/-- A line that is read goes up to the first line feed or, if there is none, up to the end of the
stream. -/
theorem ReadGoal.lineOutcome_ok {bytes start rest : Bytes} {ending : Ending}
    (decided : ending ≠ .undecided) (h : lineOutcome bytes ending = (.ok start, rest)) :
    (∀ line more, lineFeed ∉ line → bytes = line ++ lineFeed :: more →
      start = line ++ [lineFeed]) ∧
      (lineFeed ∉ bytes → start = bytes ∧ ending = .ended) := by
  constructor
  · intro line more hline hbytes
    simp only [hbytes, lineOutcome, splitLine_lineFeed hline] at h
    cases h
    rfl
  · intro hbytes
    simp only [lineOutcome, splitLine_of_not_mem hbytes] at h
    cases ending with
    | undecided => exact absurd rfl decided
    | ended =>
      cases h
      exact ⟨rfl, rfl⟩
    | failing reason => cases h

/-- A read of what there is, of a line or of a number of bytes. -/
def TransportRequest.IsRead : TransportRequest → Prop
  | .read _ | .readLine _ | .readExactly _ => True
  | _ => False

instance : DecidablePred TransportRequest.IsRead
  | .read _ | .readLine _ | .readExactly _ => .isTrue trivial
  | .readFrame | .write _ | .close => .isFalse id

/-- An answer that is no failure. -/
def TransportAnswer.Succeeded : TransportAnswer → Prop
  | .bytes (.ok _) | .line (.ok _) | .frame (.ok _) | .done (.ok _) => True
  | _ => False

/-- An answer that hands out these bytes. The text with a line has them behind the text that was
there before. -/
inductive HandedOut : TransportRequest → TransportAnswer → Bytes → Prop where
  | read (limit : Nat) (bytes : Bytes) : HandedOut (.read limit) (.bytes (.ok bytes)) bytes
  | readLine {before text : String} {bytes : Bytes}
      (behind : Utf8.encode text = Utf8.encode before ++ bytes) :
      HandedOut (.readLine before) (.line (.ok (bytes.length, text))) bytes
  | readExactly (count : Nat) (bytes : Bytes) :
      HandedOut (.readExactly count) (.bytes (.ok bytes)) bytes

/-- What a read may hand out if these bytes are still to come and the stream then ends like this.
What there is is nothing only at the end of the stream, and a line goes up to the next line feed or,
if there is none, up to the end of the stream. -/
def TransportRequest.Asks (r : TransportRequest) (coming : Bytes) (ending : Ending)
    (bytes : Bytes) : Prop :=
  match r with
  | .read limit =>
    bytes.length ≤ limit ∧ (bytes = [] → limit = 0 ∨ coming = [] ∧ ending = .ended)
  | .readLine _ =>
    (∀ line more, ReadGoal.lineFeed ∉ line → coming = line ++ ReadGoal.lineFeed :: more →
      bytes = line ++ [ReadGoal.lineFeed]) ∧
      (ReadGoal.lineFeed ∉ coming → bytes = coming ∧ ending = .ended)
  | .readExactly count => bytes.length = count
  | _ => True

namespace TransportSession

variable {s t : TransportSession} {n : Nat} {answer : TransportAnswer}

/-! ### One read -/

/-- A read of what there is has taken nothing before it ends. -/
private def Looks (before : Source) (limit : Nat) (a : Agent) (task : TransportTask)
    (t : Transport) : Prop :=
  (task = .read (.queued (.upTo limit)) ∨ task = .read (.reading (.upTo limit))) ∧ t.Held [a] ∧
    t.source = before

private def Looked (before : Source) (limit : Nat) (answer : TransportAnswer) (t : Transport) :
    Prop :=
  ∃ result, answer = .bytes result ∧ ∀ bytes, result = .ok bytes → t.Held [] ∧
    before.HandsOut bytes t.source ∧ bytes.length ≤ limit ∧
      (bytes = [] → limit = 0 ∨ before.toBytes = [] ∧ before.inflow.ending = .ended)

private theorem carries_read (before : Source) (limit n : Nat) :
    Carries n (Looks before limit (.operation n)) (Looked before limit) := by
  constructor
  · intro task task' t u looks step
    obtain ⟨rfl | rfl, held, hsource⟩ := looks
    · have first : t.readers.isHeldBy (.operation n) = true := by
        simp [Lock.isHeldBy, held.line_eq]
      simp only [stepTask, ReadCall.step?, first, held.held, if_true] at step
      cases step
      exact ⟨⟨.inr rfl, held, hsource⟩, Nat.lt_succ_self _⟩
    · simp only [stepTask, ReadCall.step?, ReadGoal.step?] at step
      cases htake : t.source.take? limit with
      | none => simp [htake] at step
      | some taken => simp [htake, ReadCall.finish] at step
  · intro task answer t u looks step
    obtain ⟨rfl | rfl, held, rfl⟩ := looks
    · have first : t.readers.isHeldBy (.operation n) = true := by
        simp [Lock.isHeldBy, held.line_eq]
      simp [stepTask, ReadCall.step?, first, held.held] at step
    · simp only [stepTask, ReadCall.step?, ReadGoal.step?] at step
      cases htake : t.source.take? limit with
      | none => simp [htake] at step
      | some taken =>
        obtain ⟨result, source⟩ := taken
        simp only [htake, Option.map_some, ReadCall.finish, Option.some.injEq, Prod.mk.injEq,
          Progress.finished.injEq] at step
        obtain ⟨rfl, rfl⟩ := step
        refine ⟨_, rfl, ?_⟩
        intro bytes hresult
        cases result with
        | error reason => cases hresult
        | ok taken =>
          cases hresult
          obtain ⟨hout, hlen, hnil⟩ := Source.Solid.handsOut_of_take? held.solid htake
          refine ⟨⟨?_, held.held, hout.solid⟩, hout, hlen, hnil⟩
          simp [Lock.leave, held.line_eq]

/-- What a read that succeeds hands out, and what it leaves. -/
private def Serves (s : TransportSession) (n : Nat) (r : TransportRequest)
    (answer : TransportAnswer) (t : TransportSession) : Prop :=
  ∃ bytes, HandedOut r answer bytes ∧ r.Asks s.transport.incoming s.transport.ending bytes ∧
    bytes ++ t.transport.incoming = s.transport.incoming ∧ t.Quiet (n + 1) ∧
    t.transport.ending = s.transport.ending

private theorem Quiet.serves_read (hs : s.Quiet n) {limit : Nat}
    (answered : s.perform n (.read limit) = (t, some answer)) (succeeded : answer.Succeeded) :
    s.Serves n (.read limit) answer t := by
  have start : Looks s.transport.source limit (.operation n) (.read (.queued (.upTo limit)))
      { s.transport with readers := s.transport.readers.request (.operation n) } := by
    refine ⟨.inl rfl, ⟨?_, hs.held.held, hs.held.solid⟩, rfl⟩
    rw [Lock.request, hs.held.line_eq]
    rfl
  have carried := (carries_read s.transport.source limit n).perform hs (r := .read limit) rfl start
    (Nat.le_refl _)
  simp only [answered] at carried
  obtain ⟨waits, -⟩ | ⟨answer', hanswer, ⟨result, rfl, looked⟩, running, numbered⟩ := carried
  · cases waits
  · cases hanswer
    cases result with
    | error f => exact succeeded.elim
    | ok bytes =>
      obtain ⟨held, hout, hlen, hnil⟩ := looked bytes rfl
      exact ⟨bytes, .read limit bytes, ⟨hlen, hnil⟩, hout.append, ⟨running, held, numbered⟩,
        hout.ending⟩

/-- A stream with nothing further to come ends as it does, or fails if it could go on. -/
private theorem exists_allows_ended (f : Inflow) :
    ∃ ending, f.Allows [] ending ∧ (ending = .ended → f.ending = .ended) := by
  cases hending : f.ending with
  | undecided => exact ⟨.failing "", ⟨by simp, .inl hending⟩, by simp⟩
  | ended => exact ⟨.ended, ⟨by simp, .inr ⟨rfl, hending⟩⟩, fun _ ↦ rfl⟩
  | failing reason => exact ⟨.failing reason, ⟨by simp, .inr ⟨rfl, hending⟩⟩, by simp⟩

/-- A text that is read with a line ends in the bytes of the line. -/
private theorem encode_of_lineBehind {before text : String} {line : Bytes} {count : Nat}
    (h : lineBehind before line = .ok (count, text)) :
    count = line.length ∧ Utf8.encode text = Utf8.encode before ++ line := by
  unfold lineBehind at h
  split at h
  · next decoded =>
    cases h
    refine ⟨rfl, ?_⟩
    apply Utf8.encode_of_decode?
    unfold Utf8.decode at decoded
    split at decoded
    · next hsome =>
      cases decoded
      exact hsome
    · cases decoded
  · cases h

/-- What the read of a line answers and leaves, from what the bytes give. -/
private theorem outcome_readLine {before : String} {coming rest : Bytes} {ending : Ending}
    {result : Except String Bytes} (h : ReadGoal.lineOutcome coming ending = (result, rest)) :
    (TransportTask.readLine before (.queued (.line []))).outcome coming ending =
      (.line (match result with
        | .ok line => lineBehind before line
        | .error reason => .error (.transport reason)), rest) := by
  simp only [TransportTask.outcome, ReadCall.goal, ReadGoal.outcome, h]
  cases result <;> rfl

private theorem Quiet.serves_readLine (hs : s.Quiet n) {before : String}
    (answered : s.perform n (.readLine before) = (t, some answer)) (succeeded : answer.Succeeded) :
    s.Serves n (.readLine before) answer t := by
  obtain ⟨quiet, hending, hits⟩ := hs.perform_foreseen rfl answered
  obtain ⟨ending, allowed, hended⟩ := exists_allows_ended s.transport.source.inflow
  have outcome := hits [] ending allowed
  rw [List.append_nil, List.append_nil] at outcome
  cases hline : ReadGoal.lineOutcome s.transport.incoming ending with
  | mk result rest =>
    rw [outcome_readLine hline] at outcome
    cases outcome
    cases result with
    | error reason => exact succeeded.elim
    | ok bytes =>
      obtain ⟨upTo, rest⟩ := ReadGoal.lineOutcome_ok allowed.decided hline
      simp only at succeeded ⊢
      cases htext : lineBehind before bytes with
      | error f =>
        rw [htext] at succeeded
        exact succeeded.elim
      | ok line =>
        obtain ⟨count, text⟩ := line
        obtain ⟨rfl, behind⟩ := encode_of_lineBehind htext
        exact ⟨bytes, .readLine behind, ⟨upTo, fun h ↦ (rest h).imp_right hended⟩,
          ReadGoal.lineOutcome_eq_ok hline, quiet, hending⟩

private theorem Quiet.serves_readExactly (hs : s.Quiet n) {count : Nat}
    (answered : s.perform n (.readExactly count) = (t, some answer))
    (succeeded : answer.Succeeded) :
    s.Serves n (.readExactly count) answer t := by
  obtain ⟨quiet, hending, hits⟩ := hs.perform_foreseen rfl answered
  obtain ⟨ending, allowed, -⟩ := exists_allows_ended s.transport.source.inflow
  have outcome := hits [] ending allowed
  rw [List.append_nil, List.append_nil] at outcome
  simp only [TransportTask.outcome, ReadCall.goal, ReadGoal.outcome, ReadGoal.exactlyOutcome,
    Prod.mk.injEq] at outcome
  obtain ⟨rfl, hrest⟩ := outcome
  split at succeeded
  · next enough =>
    rw [if_pos enough] at hrest ⊢
    refine ⟨s.transport.incoming.take count, .readExactly count _, ?_, ?_, quiet, hending⟩
    · exact List.length_take_of_le enough
    · rw [← hrest]
      exact List.take_append_drop count _
  · split at succeeded <;> exact succeeded.elim

/-- A read that succeeds hands out the first of the bytes that are still to come and leaves the
others. -/
private theorem Quiet.serves (hs : s.Quiet n) {r : TransportRequest} (isRead : r.IsRead)
    (answered : s.perform n r = (t, some answer)) (succeeded : answer.Succeeded) :
    s.Serves n r answer t := by
  cases r with
  | read limit => exact hs.serves_read answered succeeded
  | readLine before => exact hs.serves_readLine answered succeeded
  | readExactly count => exact hs.serves_readExactly answered succeeded
  | readFrame | write | close => exact isRead.elim

/-! ### Sequences of reads -/

/-- Reads that all succeed hand out the bytes that are still to come, in their order and each as
its request asks, and leave those behind them. -/
theorem Quiet.performAll_hands_out (hs : s.Quiet n) {requests : List TransportRequest}
    (isRead : ∀ r ∈ requests, r.IsRead)
    (succeeded : ∀ answer ∈ (s.performAll n requests).2,
      ∃ given, answer = some given ∧ given.Succeeded) :
    ∃ handed : List Bytes, handed.length = requests.length ∧
      handed.flatten ++ (s.performAll n requests).1.transport.incoming = s.transport.incoming ∧
      ∀ i r, requests[i]? = some r → ∃ answer bytes,
        (s.performAll n requests).2[i]? = some (some answer) ∧ handed[i]? = some bytes ∧
        HandedOut r answer bytes ∧
        r.Asks (s.transport.incoming.drop (handed.take i).flatten.length) s.transport.ending
          bytes := by
  induction requests generalizing s n with
  | nil => exact ⟨[], rfl, rfl, by simp⟩
  | cons r requests ih =>
    cases hperform : s.perform n r with
    | mk t answer =>
      simp only [performAll, hperform] at succeeded ⊢
      obtain ⟨given, rfl, good⟩ := succeeded answer List.mem_cons_self
      obtain ⟨bytes, out, asks, append, quiet, hending⟩ :=
        hs.serves (isRead r List.mem_cons_self) hperform good
      obtain ⟨handed, length, flatten, each⟩ := ih quiet
        (fun q hq ↦ isRead q (List.mem_cons_of_mem r hq))
        (fun a ha ↦ succeeded a (List.mem_cons_of_mem _ ha))
      refine ⟨bytes :: handed, by rw [List.length_cons, List.length_cons, length], ?_, ?_⟩
      · rw [List.flatten_cons, List.append_assoc, flatten, append]
      · intro i q hq
        cases i with
        | zero =>
          cases hq
          exact ⟨given, bytes, rfl, rfl, out, asks⟩
        | succ i =>
          obtain ⟨answer, bytes', hanswer, hbytes, out', asks'⟩ := each i q hq
          refine ⟨answer, bytes', hanswer, hbytes, out', ?_⟩
          rw [List.take_succ_cons, List.flatten_cons, List.length_append, ← append,
            List.drop_length_add_append, ← hending]
          exact asks'

/-- As long as reads succeed, they hand out the first bytes of the stream, in their order and each
as its request asks: no byte is lost or comes twice, whatever the pieces and the sizes. -/
theorem handed_out_in_order (pieces : List Bytes) (ending : Ending) (n : Nat)
    {requests : List TransportRequest} (isRead : ∀ r ∈ requests, r.IsRead)
    (succeeded : ∀ answer ∈ ((overPieces pieces ending).performAll n requests).2,
      ∃ given, answer = some given ∧ given.Succeeded) :
    let done := (overPieces pieces ending).performAll n requests
    ∃ handed : List Bytes, handed.length = requests.length ∧
      handed.flatten ++ done.1.transport.incoming = pieces.flatten ∧
      ∀ i r, requests[i]? = some r → ∃ answer bytes,
        done.2[i]? = some (some answer) ∧ handed[i]? = some bytes ∧ HandedOut r answer bytes ∧
        r.Asks (pieces.flatten.drop (handed.take i).flatten.length) ending bytes := by
  have hands := (quiet_overPieces pieces ending n).performAll_hands_out isRead succeeded
  rw [incoming_overPieces] at hands
  exact hands

/-- Two lines in three pieces, the second without its line feed. -/
def twoLines : List Bytes := [[0x61, 0x62, 0x0A], [0x63], [0x64, 0x65]]

/-- Reads of all three kinds, past pieces and up to the end of the stream. -/
def mixedReads : List TransportRequest :=
  [.read 2, .readLine "x", .read 0, .readExactly 3, .read 5, .readLine ""]

/-- What they answer. -/
def mixedAnswers : List TransportAnswer :=
  [.bytes (.ok [0x61, 0x62]), .line (.ok (1, "x\n")), .bytes (.ok []),
    .bytes (.ok [0x63, 0x64, 0x65]), .bytes (.ok []), .line (.ok (0, ""))]

/-- Reads of all three kinds succeed and hand out all bytes of a stream. -/
theorem handed_out_to_the_end :
    (∀ r ∈ mixedReads, r.IsRead) ∧
      ((overPieces twoLines .ended).performAll 0 mixedReads).2 = mixedAnswers.map some ∧
      (∀ answer ∈ mixedAnswers, answer.Succeeded) ∧
      ∃ handed : List Bytes, handed.length = 6 ∧ handed.flatten = twoLines.flatten := by
  have isRead : ∀ r ∈ mixedReads, r.IsRead := by decide
  have run : ((overPieces twoLines .ended).performAll 0 mixedReads).2 =
      mixedAnswers.map some := by rfl
  have nothingLeft :
      ((overPieces twoLines .ended).performAll 0 mixedReads).1.transport.incoming = [] := by rfl
  have good : ∀ answer ∈ mixedAnswers, answer.Succeeded := by
    simp [mixedAnswers, TransportAnswer.Succeeded]
  have succeeded : ∀ answer ∈ ((overPieces twoLines .ended).performAll 0 mixedReads).2,
      ∃ given, answer = some given ∧ given.Succeeded := by
    rw [run]
    intro answer mem
    obtain ⟨given, hgiven, rfl⟩ := List.mem_map.mp mem
    exact ⟨given, rfl, good given hgiven⟩
  obtain ⟨handed, length, flatten, -⟩ := handed_out_in_order twoLines .ended 0 isRead succeeded
  rw [nothingLeft, List.append_nil] at flatten
  exact ⟨isRead, run, good, handed, length, flatten⟩

end TransportSession

end LanguageHub
