import LanguageHub.Proofs.Frame.Reading

/-!
# Bytes that are still to come

A step of a read depends on the bytes that have arrived and on nothing that comes later. A read of
a stream that has not ended can therefore be followed on the stream as it will have been in the
end (`FrameCall.fits_of_step?`), and a read that takes no step has come to the end of what has
arrived (`FrameCall.outcome_of_step?_eq_none`).
-/

namespace LanguageHub

/-! ### Streams -/

namespace Inflow

/-- The stream after further bytes have arrived and its ending is decided. -/
def foreseen (f : Inflow) (later : Bytes) (ending : Ending) : Inflow :=
  { f.push later with ending }

/-- What may still come: anything before the stream has ended, and nothing behind its end. -/
structure Allows (f : Inflow) (later : Bytes) (ending : Ending) : Prop where
  decided : ending ≠ .undecided
  possible : f.ending = .undecided ∨ later = [] ∧ f.ending = ending

variable {f g : Inflow} {later : Bytes} {ending : Ending} {limit : Nat}

/-- What may still come depends on how the stream ends alone. -/
theorem Allows.congr (allowed : f.Allows later ending) (same : g.ending = f.ending) :
    g.Allows later ending :=
  ⟨allowed.decided, same ▸ allowed.possible⟩

/-- A stream that goes on may end in some way, and so may one that has ended. -/
theorem exists_allows (f : Inflow) (possible : f.ending = .undecided ∨ later = []) :
    ∃ ending, f.Allows later ending := by
  cases hending : f.ending with
  | undecided => exact ⟨.ended, by simp, .inl hending⟩
  | ended =>
    refine ⟨.ended, by simp, .inr ⟨?_, hending⟩⟩
    exact possible.resolve_left (by simp [hending])
  | failing reason =>
    refine ⟨.failing reason, by simp, .inr ⟨?_, hending⟩⟩
    exact possible.resolve_left (by simp [hending])

/-- A piece comes behind the bytes that were there. -/
@[simp]
theorem toBytes_push (f : Inflow) (piece : Bytes) :
    (f.push piece).toBytes = f.toBytes ++ piece := by
  cases piece with
  | nil => simp [push]
  | cons b bs => simp [push, toBytes]

/-- A piece makes a stream no less solid. -/
theorem solid_push (f : Inflow) (piece : Bytes) : (f.push piece).Solid ↔ f.Solid := by
  cases piece with
  | nil => simp [push]
  | cons b bs => simp [push, Solid, or_imp, forall_and]

/-- Taking some of the bytes that have arrived leaves the ending open. -/
theorem ending_of_take? {answer : Except String Bytes} (step : f.take? limit = some (answer, g)) :
    g.ending = f.ending := by
  unfold take? at step
  split at step
  · cases step
    rfl
  · split at step <;> cases step <;> rfl

/-- What is taken of a stream is taken whatever comes later. -/
theorem take?_foreseen (allowed : f.Allows later ending) {answer : Except String Bytes}
    (step : f.take? limit = some (answer, g)) :
    (f.foreseen later ending).take? limit = some (answer, g.foreseen later ending) := by
  obtain ⟨pieces, before⟩ := f
  cases pieces with
  | cons piece rest =>
    cases step
    cases later with
    | nil => rfl
    | cons b bs =>
      simp only [foreseen, push, take?, List.isEmpty_cons, Bool.false_eq_true, if_false,
        List.cons_append]
      split <;> rfl
  | nil =>
    obtain h | ⟨rfl, rfl⟩ := allowed.possible
    · simp only at h
      subst h
      cases step
    · cases before <;> cases step <;> rfl

end Inflow

namespace Source

/-- The stream after further bytes have arrived and its ending is decided. -/
def foreseen (s : Source) (later : Bytes) (ending : Ending) : Source :=
  { s with inflow := s.inflow.foreseen later ending }

variable {s t : Source} {later : Bytes} {ending : Ending}

@[simp]
theorem toBytes_foreseen (s : Source) (later : Bytes) (ending : Ending) :
    (s.foreseen later ending).toBytes = s.toBytes ++ later := by
  have hpush := s.inflow.toBytes_push later
  simp only [Inflow.toBytes] at hpush
  simp [toBytes, foreseen, Inflow.foreseen, Inflow.toBytes, hpush]

theorem solid_foreseen (s : Source) (later : Bytes) (ending : Ending) :
    (s.foreseen later ending).Solid ↔ s.Solid :=
  s.inflow.solid_push later

/-- The buffer is filled with the same bytes whatever comes later. -/
theorem fill?_foreseen (allowed : s.inflow.Allows later ending) {answer : Except String Unit}
    (step : s.fill? = some (answer, t)) :
    (s.foreseen later ending).fill? = some (answer, t.foreseen later ending) ∧
      t.inflow.ending = s.inflow.ending := by
  unfold fill? at step ⊢
  have hbuffer : (s.foreseen later ending).buffer = s.buffer := rfl
  rw [hbuffer]
  split at step
  · next empty =>
    rw [if_pos empty]
    split at step
    · cases step
    · next bytes inflow taken =>
      cases step
      have hforeseen := Inflow.take?_foreseen allowed taken
      refine ⟨?_, Inflow.ending_of_take? taken⟩
      simp only [foreseen, hforeseen]
    · next reason inflow taken =>
      cases step
      have hforeseen := Inflow.take?_foreseen allowed taken
      refine ⟨?_, Inflow.ending_of_take? taken⟩
      simp only [foreseen, hforeseen]
  · next filled =>
    cases step
    rw [if_neg filled]
    exact ⟨rfl, rfl⟩

/-- The same bytes are handed out whatever comes later. -/
theorem take?_foreseen (allowed : s.inflow.Allows later ending) {limit : Nat}
    {answer : Except String Bytes} (step : s.take? limit = some (answer, t)) :
    (s.foreseen later ending).take? limit = some (answer, t.foreseen later ending) ∧
      t.inflow.ending = s.inflow.ending := by
  unfold take? at step ⊢
  have hbuffer : (s.foreseen later ending).buffer = s.buffer := rfl
  rw [hbuffer]
  split at step
  · next large =>
    rw [if_pos large]
    obtain ⟨⟨answer', inflow⟩, taken, he⟩ := Option.map_eq_some_iff.mp step
    cases he
    have hforeseen := Inflow.take?_foreseen allowed taken
    refine ⟨?_, Inflow.ending_of_take? taken⟩
    simp only [foreseen, hforeseen, Option.map_some]
  · next small =>
    rw [if_neg small]
    split at step
    · cases step
    · next reason t' filled =>
      cases step
      obtain ⟨hfill, hending⟩ := fill?_foreseen allowed filled
      rw [hfill]
      exact ⟨rfl, hending⟩
    · next t' filled =>
      cases step
      obtain ⟨hfill, hending⟩ := fill?_foreseen allowed filled
      rw [hfill]
      exact ⟨rfl, hending⟩

/-- The buffer is not filled only if nothing is there and more may come. -/
theorem Solid.waits_of_fill?_eq_none (h : s.Solid) (stuck : s.fill? = none) :
    s.toBytes = [] ∧ s.inflow.ending = .undecided := by
  by_cases hb : s.toBytes = []
  · refine ⟨hb, ?_⟩
    rw [h.fill?_of_nil hb] at stuck
    split at stuck
    · assumption
    · cases stuck
    · cases stuck
  · obtain ⟨t, ht, -⟩ := h.fill?_eq hb
    rw [ht] at stuck
    cases stuck

/-- Nothing is handed out only if nothing is there and more may come. -/
theorem Solid.waits_of_take?_eq_none (h : s.Solid) {limit : Nat} (hl : 0 < limit)
    (stuck : s.take? limit = none) : s.toBytes = [] ∧ s.inflow.ending = .undecided := by
  by_cases hb : s.toBytes = []
  · refine ⟨hb, ?_⟩
    rw [h.take?_of_nil hb] at stuck
    split at stuck
    · assumption
    · cases stuck
    · cases stuck
  · obtain ⟨bytes, t, ht, -⟩ := h.take?_eq hb hl
    rw [ht] at stuck
    cases stuck

end Source

/-! ### Reads -/

namespace ReadGoal

variable {g : ReadGoal} {s t : Source} {later : Bytes} {ending : Ending} {next : Next}

/-- A step of a read is the same whatever comes later. -/
theorem step?_foreseen (allowed : s.inflow.Allows later ending)
    (step : g.step? s = some (next, t)) :
    g.step? (s.foreseen later ending) = some (next, t.foreseen later ending) ∧
      t.inflow.ending = s.inflow.ending := by
  cases g with
  | upTo limit =>
    obtain ⟨⟨answer, t'⟩, taken, he⟩ := Option.map_eq_some_iff.mp step
    cases he
    obtain ⟨htake, hending⟩ := Source.take?_foreseen allowed taken
    exact ⟨by simp only [step?, htake, Option.map_some], hending⟩
  | line taken =>
    simp only [step?] at step ⊢
    split at step
    · cases step
    · next reason t' filled =>
      cases step
      obtain ⟨hfill, hending⟩ := Source.fill?_foreseen allowed filled
      rw [hfill]
      exact ⟨rfl, hending⟩
    · next t' filled =>
      obtain ⟨hfill, hending⟩ := Source.fill?_foreseen allowed filled
      have hbuffer : (t'.foreseen later ending).buffer = t'.buffer := rfl
      simp only [hfill, hbuffer]
      split at step
      · next empty =>
        cases step
        rw [if_pos empty]
        exact ⟨rfl, hending⟩
      · next filled' =>
        rw [if_neg filled']
        split at step
        · cases step
          exact ⟨rfl, hending⟩
        · cases step
          exact ⟨rfl, hending⟩
  | exactly missing taken =>
    cases missing with
    | zero =>
      cases step
      exact ⟨rfl, rfl⟩
    | succ m =>
      simp only [step?] at step ⊢
      split at step
      · cases step
      · next reason t' hand =>
        cases step
        obtain ⟨htake, hending⟩ := Source.take?_foreseen allowed hand
        rw [htake]
        exact ⟨rfl, hending⟩
      · next bytes t' hand =>
        obtain ⟨htake, hending⟩ := Source.take?_foreseen allowed hand
        simp only [htake]
        split at step
        · next empty =>
          cases step
          rw [if_pos empty]
          exact ⟨rfl, hending⟩
        · next filled =>
          cases step
          rw [if_neg filled]
          exact ⟨rfl, hending⟩

/-- A read that takes no step waits for bytes, and it fails if the stream fails. -/
theorem outcome_of_step?_eq_none (whole : g.IsWhole) (solid : s.Solid) (stuck : g.step? s = none) :
    s.toBytes = [] ∧ s.inflow.ending = .undecided ∧
      ∀ reason, g.outcome [] (.failing reason) = (.error reason, []) := by
  cases g with
  | upTo limit => exact whole.elim
  | line taken =>
    simp only [step?] at stuck
    split at stuck
    · next unfilled =>
      obtain ⟨hbytes, hending⟩ := solid.waits_of_fill?_eq_none unfilled
      exact ⟨hbytes, hending, fun _ ↦ rfl⟩
    · cases stuck
    · split at stuck
      · cases stuck
      · split at stuck <;> cases stuck
  | exactly missing taken =>
    cases missing with
    | zero => cases stuck
    | succ m =>
      simp only [step?] at stuck
      split at stuck
      · next untaken =>
        obtain ⟨hbytes, hending⟩ := solid.waits_of_take?_eq_none (Nat.succ_pos m) untaken
        exact ⟨hbytes, hending, fun _ ↦ rfl⟩
      · cases stuck
      · split at stuck <;> cases stuck

end ReadGoal

/-! ### Reads of a transport -/

namespace Transport

/-- The transport after further bytes have arrived and the ending of its stream is decided. The
stream is held. -/
def foreseen (t : Transport) (later : Bytes) (ending : Ending) : Transport :=
  { t with hasSource := true, source := t.source.foreseen later ending }

variable {t : Transport} {later : Bytes} {ending : Ending}

@[simp]
theorem incoming_foreseen (t : Transport) (later : Bytes) (ending : Ending) :
    (t.foreseen later ending).incoming = t.incoming ++ later :=
  t.source.toBytes_foreseen later ending

@[simp]
theorem ending_foreseen (t : Transport) (later : Bytes) (ending : Ending) :
    (t.foreseen later ending).ending = ending := rfl

/-- A read of the transport as it will have been is disturbed by nothing. -/
theorem readable_foreseen {a : Agent} (line : t.readers.line = [a]) (solid : t.source.Solid)
    (decided : ending ≠ .undecided) : (t.foreseen later ending).Readable [a] where
  line_eq := line
  held := rfl
  solid := (t.source.solid_foreseen later ending).mpr solid
  decided := decided

end Transport

namespace ReadCall

variable {a : Agent} {c : ReadCall} {t u : Transport} {later : Bytes} {ending : Ending}
  {p : Progress ReadCall (Except Failure Bytes)}

/-- A step of a read is the same whatever comes later, unless the stream is held no more. -/
theorem step?_foreseen (allowed : t.source.inflow.Allows later ending)
    (step : c.step? a t = some (p, u)) :
    u.ending = t.ending ∧ (t.hasSource = false ∧ p = .finished (.error .transportClosed) ∨
      c.step? a (t.foreseen later ending) = some (p, u.foreseen later ending)) := by
  cases c with
  | queued goal =>
    simp only [step?] at step ⊢
    split at step
    · next first =>
      have hfirst : (t.foreseen later ending).readers.isHeldBy a = true := first
      split at step
      · cases step
        rw [if_pos hfirst]
        exact ⟨rfl, .inr rfl⟩
      · next gone =>
        cases step
        exact ⟨rfl, .inl ⟨Bool.eq_false_iff.mpr gone, rfl⟩⟩
    · cases step
  | reading goal =>
    simp only [step?] at step ⊢
    split at step
    · cases step
    · next goal' source hstep =>
      cases step
      obtain ⟨hforeseen, hending⟩ := ReadGoal.step?_foreseen allowed hstep
      refine ⟨hending, .inr ?_⟩
      simp only [Transport.foreseen, hforeseen]
    · next answer source hstep =>
      cases step
      obtain ⟨hforeseen, hending⟩ := ReadGoal.step?_foreseen allowed hstep
      refine ⟨hending, .inr ?_⟩
      simp only [Transport.foreseen, hforeseen, finish]

/-- A read that has the first place in the line and takes no step waits for bytes. -/
theorem outcome_of_step?_eq_none (line : t.readers.line = [a]) (solid : t.source.Solid)
    (whole : c.goal.IsWhole) (stuck : c.step? a t = none) :
    t.incoming = [] ∧ t.ending = .undecided ∧
      ∀ reason, c.goal.outcome [] (.failing reason) = (.error reason, []) := by
  cases c with
  | queued goal =>
    have first : t.readers.isHeldBy a = true := by simp [Lock.isHeldBy, line]
    rw [step?, if_pos first] at stuck
    split at stuck <;> cases stuck
  | reading goal =>
    simp only [step?] at stuck
    split at stuck
    · next hstep => exact ReadGoal.outcome_of_step?_eq_none whole solid hstep
    · cases stuck
    · cases stuck

end ReadCall

namespace FrameCall

variable {a : Agent} {c : FrameCall} {t u : Transport} {later : Bytes} {ending : Ending}
  {p : Progress FrameCall FrameAnswer}

/-- A step of the read of a frame is the same whatever comes later, unless the stream is held no
more. -/
theorem step?_foreseen (allowed : t.source.inflow.Allows later ending)
    (step : c.step? a t = some (p, u)) :
    u.ending = t.ending ∧ (t.hasSource = false ∧ p = .finished (.error .transportClosed) ∨
      c.step? a (t.foreseen later ending) = some (p, u.foreseen later ending)) := by
  cases c with
  | inHeader header call =>
    simp only [step?] at step ⊢
    split at step
    · cases step
    · next call' t' hstep =>
      cases step
      obtain ⟨hending, ⟨_, h⟩ | hforeseen⟩ := ReadCall.step?_foreseen allowed hstep
      · cases h
      · exact ⟨hending, .inr (by rw [hforeseen])⟩
    · next f t' hstep =>
      cases step
      obtain ⟨hending, ⟨gone, h⟩ | hforeseen⟩ := ReadCall.step?_foreseen allowed hstep
      · cases h
        exact ⟨hending, .inl ⟨gone, rfl⟩⟩
      · exact ⟨hending, .inr (by rw [hforeseen])⟩
    · next bytes t' hstep =>
      obtain ⟨hending, ⟨_, h⟩ | hforeseen⟩ := ReadCall.step?_foreseen allowed hstep
      · cases h
      · rw [hforeseen]
        simp only
        split at step <;> cases step <;> exact ⟨hending, .inr rfl⟩
  | inBody call =>
    simp only [step?] at step ⊢
    split at step
    · cases step
    · next call' t' hstep =>
      cases step
      obtain ⟨hending, ⟨_, h⟩ | hforeseen⟩ := ReadCall.step?_foreseen allowed hstep
      · cases h
      · exact ⟨hending, .inr (by rw [hforeseen])⟩
    · next f t' hstep =>
      cases step
      obtain ⟨hending, ⟨gone, h⟩ | hforeseen⟩ := ReadCall.step?_foreseen allowed hstep
      · cases h
        exact ⟨hending, .inl ⟨gone, rfl⟩⟩
      · exact ⟨hending, .inr (by rw [hforeseen])⟩
    · next bytes t' hstep =>
      obtain ⟨hending, ⟨_, h⟩ | hforeseen⟩ := ReadCall.step?_foreseen allowed hstep
      · cases h
      · cases step
        exact ⟨hending, .inr (by rw [hforeseen])⟩

/-- A step of the read of a frame leaves open whether the stream ends, or keeps its end. -/
theorem ending_of_step? (step : c.step? a t = some (p, u)) : u.ending = t.ending := by
  obtain ⟨ending, allowed⟩ := t.source.inflow.exists_allows (.inr (rfl : [] = []))
  exact (step?_foreseen allowed step).1

/-- A step of the read of a frame keeps what the read will give on the stream as it will have
been. -/
theorem fits_of_step? (line : t.readers.line = [a]) (solid : t.source.Solid)
    (whole : c.call.goal.IsWhole) (allowed : t.source.inflow.Allows later ending)
    (step : c.step? a t = some (p, u)) :
    t.hasSource = false ∧ p = .finished (.error .transportClosed) ∨
      Fits a c (t.foreseen later ending) p (u.foreseen later ending) := by
  obtain ⟨_, h | hforeseen⟩ := step?_foreseen allowed step
  · exact .inl h
  · right
    have readable : (t.foreseen later ending).Readable [a] :=
      Transport.readable_foreseen line solid allowed.decided
    obtain ⟨p', u', hstep, -, fits⟩ := step?_fits readable whole
    rw [hforeseen] at hstep
    cases hstep
    exact fits

/-- The read of a frame that has the first place in the line and takes no step waits for bytes. -/
theorem outcome_of_step?_eq_none (line : t.readers.line = [a]) (solid : t.source.Solid)
    (whole : c.call.goal.IsWhole) (stuck : c.step? a t = none) :
    t.incoming = [] ∧ t.ending = .undecided ∧
      ∀ reason, c.outcome [] (.failing reason) = (.error (.transport reason), []) := by
  cases c with
  | inHeader header call =>
    simp only [step?] at stuck
    split at stuck
    · next hstep =>
      have whole : call.goal.IsWhole := whole
      obtain ⟨hbytes, hending, hout⟩ := ReadCall.outcome_of_step?_eq_none line solid whole hstep
      refine ⟨hbytes, hending, fun reason ↦ ?_⟩
      rw [outcome, hout]
      rfl
    · cases stuck
    · cases stuck
    · split at stuck <;> cases stuck
  | inBody call =>
    simp only [step?] at stuck
    split at stuck
    · next hstep =>
      have whole : call.goal.IsWhole := whole
      obtain ⟨hbytes, hending, hout⟩ := ReadCall.outcome_of_step?_eq_none line solid whole hstep
      refine ⟨hbytes, hending, fun reason ↦ ?_⟩
      simp only [outcome, hout]
    · cases stuck
    · cases stuck
    · cases stuck

end FrameCall

end LanguageHub
