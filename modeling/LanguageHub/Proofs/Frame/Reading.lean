import LanguageHub.Frame.Reading
import LanguageHub.Proofs.Stream.Reading

/-!
# What the read of a frame gives

The answer of a read of a frame is a function of the bytes that come and of how the stream ends
(`Frame.readBehind`, `FrameCall.outcome`). Each step of the read keeps it and leaves less to be
done, as long as nobody else reads.
-/

namespace LanguageHub

namespace Frame

/-- What the read of a body of `length` bytes gives, and the bytes that it leaves. -/
def readBody (length : Nat) (bytes : Bytes) (ending : Ending) : FrameAnswer × Bytes :=
  match ReadGoal.exactlyOutcome length bytes ending with
  | (.error reason, rest) => (.error (.transport reason), rest)
  | (.ok body, rest) => (FrameCall.bodyOf body, rest)

/-- What the read of a frame gives behind the lines of a header, and the bytes that it leaves. -/
def readBehind (header : String) (bytes : Bytes) (ending : Ending) : FrameAnswer × Bytes :=
  match ReadGoal.lineOutcome bytes ending with
  | (.error reason, rest) => (.error (.transport reason), rest)
  | (.ok line, rest) =>
    match FrameCall.afterLine header line with
    | .done answer => (answer, rest)
    | .body length => readBody length rest ending
    | .header header =>
      if rest.length < bytes.length then readBehind header rest ending else (.ok none, rest)
termination_by bytes.length

/-- How the read of a frame goes on with what the read of a line has given. -/
def readAfter (header : String) (line : Except String Bytes × Bytes) (ending : Ending) :
    FrameAnswer × Bytes :=
  match line with
  | (.error reason, rest) => (.error (.transport reason), rest)
  | (.ok line, rest) =>
    match FrameCall.afterLine header line with
    | .done answer => (answer, rest)
    | .body length => readBody length rest ending
    | .header header => readBehind header rest ending

/-- The read of a frame goes on only behind a line with bytes. -/
theorem ne_nil_of_afterLine (header : String) (line : Bytes)
    (h : ∀ answer, FrameCall.afterLine header line ≠ .done answer) : line ≠ [] := by
  rintro rfl
  have : Utf8.decode [] = .ok "" := Utf8.decode_encode ""
  simp [FrameCall.afterLine, this] at h

/-- A frame is read line by line. -/
theorem readBehind_eq (header : String) (bytes : Bytes) (ending : Ending) :
    readBehind header bytes ending =
      readAfter header (ReadGoal.lineOutcome bytes ending) ending := by
  rw [readBehind]
  split
  · next hl =>
    rw [hl]
    rfl
  · next line rest hl =>
    rw [hl]
    simp only [readAfter]
    split
    · rfl
    · rfl
    · next ha =>
      have hne : line ≠ [] := ne_nil_of_afterLine header line (by simp [ha])
      have := List.length_pos_iff.mpr hne
      rw [if_pos]
      rw [← ReadGoal.lineOutcome_eq_ok hl, List.length_append]
      omega

end Frame

/-! ### Reads of a transport -/

/-- The stream from the server is held, its ending is decided, and these agents have asked for
it. -/
structure Transport.Readable (t : Transport) (line : List Agent) : Prop where
  line_eq : t.readers.line = line
  held : t.hasSource = true
  solid : t.source.Solid
  decided : t.source.inflow.ending ≠ .undecided

/-- The bytes that a read can still find. -/
def Transport.incoming (t : Transport) : Bytes := t.source.toBytes

/-- How the stream from the server ends. -/
def Transport.ending (t : Transport) : Ending := t.source.inflow.ending

namespace ReadCall

/-- A step of a read changes nothing of a transport but the stream from the server and its lock. -/
theorem eq_of_step? {a : Agent} {c : ReadCall} {t u : Transport}
    {p : Progress ReadCall (Except Failure Bytes)} (step : c.step? a t = some (p, u)) :
    u = { t with source := u.source, readers := u.readers } := by
  cases c with
  | queued goal =>
    simp only [step?] at step
    split at step
    · split at step <;> cases step <;> rfl
    · cases step
  | reading goal =>
    simp only [step?] at step
    split at step <;> cases step <;> rfl

/-- What a read is to hand out. -/
def goal : ReadCall → ReadGoal
  | queued goal => goal
  | reading goal => goal

/-- At least as many steps as a read can take if so many bytes come. -/
def measure (c : ReadCall) (bytes : Bytes) : Nat :=
  3 * bytes.length + 2 * c.goal.taken.length +
    match c with
    | queued _ => 1
    | reading _ => 0

/-- What a step of a read leads to: it goes on with less to do and the same outcome, or it ends
with its outcome and passes the lock on. -/
def Fits (a : Agent) (c : ReadCall) (t : Transport)
    (p : Progress ReadCall (Except Failure Bytes)) (u : Transport) : Prop :=
  match p with
  | .running d =>
    u.Readable [a] ∧ d.goal.IsWhole ∧ d.measure u.incoming < c.measure t.incoming ∧
      d.goal.outcome u.incoming u.ending = c.goal.outcome t.incoming t.ending
  | .finished answer =>
    u.Readable [] ∧ ∃ result, answer = result.mapError .transport ∧
      c.goal.outcome t.incoming t.ending = (result, u.incoming)

private theorem finish_readable {a : Agent} {t u : Transport} (ht : t.Readable [a])
    (hs : u.source.Solid) (he : u.ending = t.ending) (hl : u.readers = t.readers.leave a)
    (hh : u.hasSource = t.hasSource) : u.Readable [] := by
  refine ⟨?_, hh.trans ht.held, hs, ?_⟩
  · rw [hl, Lock.leave, ht.line_eq]
    simp
  · change u.ending ≠ .undecided
    rw [he]
    exact ht.decided

/-- A read that nobody else disturbs takes a step. -/
theorem step?_fits {a : Agent} {c : ReadCall} {t : Transport} (ht : t.Readable [a])
    (hc : c.goal.IsWhole) :
    ∃ p u, c.step? a t = some (p, u) ∧ u.ending = t.ending ∧ Fits a c t p u := by
  cases c with
  | queued g =>
    have hheld : t.readers.isHeldBy a = true := by simp [Lock.isHeldBy, ht.line_eq]
    refine ⟨.running (.reading g), t, ?_, rfl, ht, hc, Nat.lt_succ_self _, rfl⟩
    rw [step?, if_pos hheld, if_pos ht.held]
  | reading g =>
    have hg : g.IsWhole := hc
    obtain ⟨next, s, hstep, hsolid, hend, hfits⟩ := ReadGoal.step?_fits hg ht.solid ht.decided
    cases next with
    | more g' =>
      obtain ⟨hwhole, hlt, htaken, hout⟩ := hfits
      let u : Transport := { t with source := s }
      have hu : u.Readable [a] := ⟨ht.line_eq, ht.held, hsolid, by rw [hend]; exact ht.decided⟩
      refine ⟨.running (.reading g'), u, ?_, hend, hu, hwhole, ?_, hout⟩
      · rw [step?, hstep]
      · have htaken := congrArg List.length htaken
        rw [List.length_append, List.length_append] at htaken
        change 3 * s.toBytes.length + 2 * g'.taken.length + 0 <
          3 * t.source.toBytes.length + 2 * g.taken.length + 0
        omega
    | done answer =>
      let u : Transport := { t with source := s, readers := t.readers.leave a }
      refine ⟨.finished (answer.mapError .transport), u, ?_, hend, ?_, answer, rfl, hfits⟩
      · rw [step?, hstep]
        rfl
      · exact finish_readable ht hsolid hend rfl rfl

end ReadCall

namespace FrameCall

/-- Nor does a step of the read of a frame. -/
theorem eq_of_step? {a : Agent} {c : FrameCall} {t u : Transport}
    {p : Progress FrameCall FrameAnswer} (step : c.step? a t = some (p, u)) :
    u = { t with source := u.source, readers := u.readers } := by
  cases c with
  | inHeader header call =>
    simp only [step?] at step
    split at step
    · cases step
    · next hcall => cases step; exact ReadCall.eq_of_step? hcall
    · next hcall => cases step; exact ReadCall.eq_of_step? hcall
    · next hcall =>
      have heq := ReadCall.eq_of_step? hcall
      split at step <;> cases step <;> rw [heq] <;> rfl
  | inBody call =>
    simp only [step?] at step
    split at step
    · cases step
    all_goals
      next hcall => cases step; exact ReadCall.eq_of_step? hcall

/-- The read that a read of a frame has come to. -/
def call : FrameCall → ReadCall
  | inHeader _ call => call
  | inBody call => call

/-- What a read of a frame gives in the end, and the bytes that it leaves. -/
def outcome (c : FrameCall) (bytes : Bytes) (ending : Ending) : FrameAnswer × Bytes :=
  match c with
  | inHeader header call => Frame.readAfter header (call.goal.outcome bytes ending) ending
  | inBody call =>
    match call.goal.outcome bytes ending with
    | (.error reason, rest) => (.error (.transport reason), rest)
    | (.ok body, rest) => (bodyOf body, rest)

/-- At least as many steps as a read of a frame can take if so many bytes come. -/
def measure (c : FrameCall) (bytes : Bytes) : Nat := c.call.measure bytes

/-- What a step of a read of a frame leads to: it goes on with less to do and the same outcome, or
it ends with its outcome and passes the lock on. -/
def Fits (a : Agent) (c : FrameCall) (t : Transport) (p : Progress FrameCall FrameAnswer)
    (u : Transport) : Prop :=
  match p with
  | .running d =>
    u.Readable [a] ∧ d.call.goal.IsWhole ∧ d.measure u.incoming < c.measure t.incoming ∧
      d.outcome u.incoming u.ending = c.outcome t.incoming t.ending
  | .finished answer => u.Readable [] ∧ c.outcome t.incoming t.ending = (answer, u.incoming)

private theorem outcome_readLine (header : String) (bytes : Bytes) (ending : Ending) :
    (inHeader header (.queued (.line []))).outcome bytes ending =
      Frame.readBehind header bytes ending := by
  rw [Frame.readBehind_eq]
  simp only [outcome, ReadCall.goal, ReadGoal.outcome]
  generalize ReadGoal.lineOutcome bytes ending = p
  obtain ⟨line, rest⟩ := p
  cases line <;> rfl

private theorem outcome_readBody (length : Nat) (bytes : Bytes) (ending : Ending) :
    (inBody (.queued (.exactly length []))).outcome bytes ending =
      Frame.readBody length bytes ending := by
  simp only [outcome, ReadCall.goal, ReadGoal.outcome, Frame.readBody]
  generalize ReadGoal.exactlyOutcome length bytes ending = p
  obtain ⟨body, rest⟩ := p
  cases body <;> rfl

/-- The read of a frame gives what the bytes say. -/
theorem outcome_start (a : Agent) (t : Transport) (bytes : Bytes) (ending : Ending) :
    (start a t).1.outcome bytes ending = Frame.readBehind "" bytes ending :=
  outcome_readLine "" bytes ending

private theorem readable_request {t : Transport} (ht : t.Readable []) (a : Agent) :
    ({ t with readers := t.readers.request a } : Transport).Readable [a] :=
  ⟨by rw [Lock.request, ht.line_eq]; rfl, ht.held, ht.solid, ht.decided⟩

/-- A line that was read counts for more than the read of what comes behind it. -/
private theorem measure_queued_lt {c : ReadCall} {g : ReadGoal} (hg : g.taken = [])
    {bytes line rest : Bytes} {ending : Ending}
    (h : c.goal.outcome bytes ending = (.ok line, rest)) (hl : line ≠ []) :
    (ReadCall.queued g).measure rest < c.measure bytes := by
  obtain ⟨start, rfl, rfl⟩ := ReadGoal.outcome_eq_ok h
  have hpos := List.length_pos_iff.mpr hl
  rw [List.length_append] at hpos
  simp only [ReadCall.measure, List.length_append]
  change 3 * rest.length + 2 * g.taken.length + 1 < _
  rw [hg, List.length_nil]
  omega

private theorem step?_inHeader {a : Agent} {t : Transport} (ht : t.Readable [a]) (header : String)
    {call : ReadCall} (hc : call.goal.IsWhole) :
    ∃ p u, (inHeader header call).step? a t = some (p, u) ∧ u.ending = t.ending ∧
      Fits a (inHeader header call) t p u := by
  obtain ⟨p, u, hstep, hend, hfits⟩ := ReadCall.step?_fits ht hc
  cases p with
  | running d =>
    obtain ⟨hu, hwhole, hlt, hout⟩ := hfits
    refine ⟨.running (.inHeader header d), u, by rw [step?, hstep], hend, hu, hwhole, hlt, ?_⟩
    rw [outcome, outcome, hout, hend]
  | finished answer =>
    obtain ⟨hu, result, rfl, hout⟩ := hfits
    cases result with
    | error reason =>
      refine ⟨.finished (.error (.transport reason)), u, by rw [step?, hstep]; rfl, hend, hu, ?_⟩
      rw [outcome, hout]
      rfl
    | ok line =>
      have hmap : (.ok line : Except String Bytes).mapError Failure.transport = .ok line := rfl
      simp only [Fits, step?, hstep, hmap]
      cases hl : afterLine header line with
      | done answer =>
        refine ⟨_, _, rfl, hend, hu, ?_⟩
        simp only [outcome, hout, Frame.readAfter, hl]
      | body length =>
        have hne : line ≠ [] := Frame.ne_nil_of_afterLine header line (by simp [hl])
        refine ⟨_, _, rfl, hend, readable_request hu a, trivial, measure_queued_lt rfl hout hne, ?_⟩
        simp only [outcome, hout, Frame.readAfter, hl]
        rw [← hend]
        exact outcome_readBody length _ _
      | header header' =>
        have hne : line ≠ [] := Frame.ne_nil_of_afterLine header line (by simp [hl])
        refine ⟨_, _, rfl, hend, readable_request hu a, trivial, measure_queued_lt rfl hout hne, ?_⟩
        simp only [outcome, hout, Frame.readAfter, hl]
        rw [← hend]
        exact outcome_readLine header' _ _

private theorem step?_inBody {a : Agent} {t : Transport} (ht : t.Readable [a])
    {call : ReadCall} (hc : call.goal.IsWhole) :
    ∃ p u, (inBody call).step? a t = some (p, u) ∧ u.ending = t.ending ∧
      Fits a (inBody call) t p u := by
  obtain ⟨p, u, hstep, hend, hfits⟩ := ReadCall.step?_fits ht hc
  cases p with
  | running d =>
    obtain ⟨hu, hwhole, hlt, hout⟩ := hfits
    refine ⟨.running (.inBody d), u, by rw [step?, hstep], hend, hu, hwhole, hlt, ?_⟩
    simp only [outcome, hout]
  | finished answer =>
    obtain ⟨hu, result, rfl, hout⟩ := hfits
    cases result with
    | error reason =>
      refine ⟨.finished (.error (.transport reason)), u, by rw [step?, hstep]; rfl, hend, hu, ?_⟩
      simp only [outcome, hout]
    | ok body =>
      refine ⟨.finished (bodyOf body), u, by rw [step?, hstep]; rfl, hend, hu, ?_⟩
      simp only [outcome, hout]

/-- A read of a frame that nobody else disturbs takes a step. -/
theorem step?_fits {a : Agent} {c : FrameCall} {t : Transport} (ht : t.Readable [a])
    (hc : c.call.goal.IsWhole) :
    ∃ p u, c.step? a t = some (p, u) ∧ u.ending = t.ending ∧ Fits a c t p u := by
  cases c with
  | inHeader header call => exact step?_inHeader ht header hc
  | inBody call => exact step?_inBody ht hc

end FrameCall

end LanguageHub
