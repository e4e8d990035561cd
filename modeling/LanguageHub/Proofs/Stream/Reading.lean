import LanguageHub.Stream.Inflow

/-!
# What a read hands out

A buffered stream hands out the bytes that have arrived, in their order, and nothing else. How the
bytes were cut into pieces decides only how many of them one step hands out.

The answer of a read of a line or of a fixed number of bytes is a function of the bytes that come
and of how the stream ends (`ReadGoal.outcome`). Each step of the read keeps it, so that neither
the pieces in which the bytes arrive nor the buffer can be told from the answer.
-/

namespace LanguageHub

namespace Inflow

/-- No piece is empty. -/
def Solid (f : Inflow) : Prop := ∀ p ∈ f.pieces, p ≠ []

/-- Empty pieces are left out. -/
theorem solid_ofPieces (pieces : List Bytes) (ending : Ending) :
    (ofPieces pieces ending).Solid := by
  intro p hp
  simpa [ofPieces] using (List.mem_filter.mp hp).2

/-- Empty pieces hold no bytes. -/
@[simp]
theorem toBytes_ofPieces (pieces : List Bytes) (ending : Ending) :
    (ofPieces pieces ending).toBytes = pieces.flatten := by
  simp only [toBytes, ofPieces]
  induction pieces with
  | nil => rfl
  | cons p rest ih =>
    cases p with
    | nil => simpa using ih
    | cons b bs => simpa using ih

/-- A stream without bytes has no pieces. -/
theorem Solid.pieces_eq_nil {f : Inflow} (h : f.Solid) (he : f.toBytes = []) : f.pieces = [] := by
  refine List.eq_nil_iff_forall_not_mem.mpr fun p hp ↦ h p hp ?_
  exact List.flatten_eq_nil_iff.mp he p hp

/-- Something of the first piece is taken as long as there is one. -/
theorem Solid.take?_eq {f : Inflow} (h : f.Solid) (hf : f.toBytes ≠ []) {limit : Nat}
    (hl : 0 < limit) :
    ∃ bytes g, f.take? limit = some (.ok bytes, g) ∧ bytes ≠ [] ∧ bytes.length ≤ limit ∧
      bytes ++ g.toBytes = f.toBytes ∧ g.Solid ∧ g.ending = f.ending := by
  obtain ⟨pieces, ending⟩ := f
  cases pieces with
  | nil => exact absurd rfl hf
  | cons p rest =>
    have hp : p ≠ [] := h p (by simp)
    have hrest : ∀ q ∈ rest, q ≠ [] := fun q hq ↦ h q (by simp [hq])
    refine ⟨_, _, rfl, ?_, List.length_take_le _ _, ?_, ?_, rfl⟩
    · simp [hp, Nat.pos_iff_ne_zero.mp hl]
    · simp only [toBytes]
      split
      · next he =>
        rw [List.take_of_length_le (by simpa using he)]
        rfl
      · simp [← List.append_assoc]
    · intro q hq
      simp only at hq
      split at hq
      · exact hrest q hq
      · next he =>
        rcases List.mem_cons.mp hq with rfl | hq
        · simpa using he
        · exact hrest q hq

/-- What is taken of a stream without bytes depends on how it ends. -/
theorem take?_of_pieces_eq_nil {f : Inflow} (h : f.pieces = []) (limit : Nat) :
    f.take? limit =
      match f.ending with
      | .undecided => none
      | .ended => some (.ok [], f)
      | .failing reason => some (.error reason, f) := by
  cases hend : f.ending <;> simp [take?, h, hend]

end Inflow

namespace Source

/-- No piece of the stream is empty. -/
def Solid (s : Source) : Prop := s.inflow.Solid

/-- A stream becomes another by handing out bytes. -/
structure HandsOut (s : Source) (bytes : Bytes) (t : Source) : Prop where
  append : bytes ++ t.toBytes = s.toBytes
  solid : t.Solid
  ending : t.inflow.ending = s.inflow.ending

/-- Nothing is handed out by doing nothing. -/
theorem Solid.handsOut_nil {s : Source} (h : s.Solid) : s.HandsOut [] s := ⟨rfl, h, rfl⟩

/-- A stream that hands out some of its bytes has fewer left. -/
theorem HandsOut.length_lt {s t : Source} {bytes : Bytes} (h : s.HandsOut bytes t)
    (hb : bytes ≠ []) : t.toBytes.length < s.toBytes.length := by
  have := List.length_pos_iff.mpr hb
  rw [← h.append, List.length_append]
  omega

/-- As long as there are bytes the buffer can be filled. -/
theorem Solid.fill?_eq {s : Source} (h : s.Solid) (hs : s.toBytes ≠ []) :
    ∃ t, s.fill? = some (.ok (), t) ∧ t.buffer ≠ [] ∧ s.HandsOut [] t := by
  unfold fill?
  split
  · next hb =>
    have hb : s.buffer = [] := List.isEmpty_iff.mp hb
    have hf : s.inflow.toBytes ≠ [] := by simpa [toBytes, hb] using hs
    obtain ⟨bytes, g, hg, hne, -, happ, hsolid, hend⟩ :=
      Inflow.Solid.take?_eq h hf (show 0 < bufferSize by decide)
    refine ⟨⟨g, bytes⟩, by rw [hg], hne, ⟨?_, hsolid, hend⟩⟩
    simp [toBytes, hb, happ]
  · next hb => exact ⟨s, rfl, by simpa using hb, h.handsOut_nil⟩

/-- Without bytes, filling the buffer shows how the stream ends. -/
theorem Solid.fill?_of_nil {s : Source} (h : s.Solid) (hs : s.toBytes = []) :
    s.fill? =
      match s.inflow.ending with
      | .undecided => none
      | .ended => some (.ok (), s)
      | .failing reason => some (.error reason, s) := by
  obtain ⟨hb, hf⟩ := List.append_eq_nil_iff.mp hs
  have hp := Inflow.Solid.pieces_eq_nil h hf
  obtain ⟨inflow, buffer⟩ := s
  simp only at hb hp
  subst hb
  simp only [fill?, List.isEmpty_nil, if_true, Inflow.take?_of_pieces_eq_nil hp]
  cases inflow.ending <;> rfl

/-- As long as there are bytes, some of them are handed out. -/
theorem Solid.take?_eq {s : Source} (h : s.Solid) (hs : s.toBytes ≠ []) {limit : Nat}
    (hl : 0 < limit) :
    ∃ bytes t, s.take? limit = some (.ok bytes, t) ∧ bytes ≠ [] ∧ bytes.length ≤ limit ∧
      s.HandsOut bytes t := by
  unfold take?
  split
  · next hb =>
    -- A large read goes past the empty buffer.
    have hb : s.buffer = [] := List.isEmpty_iff.mp (Bool.and_eq_true_iff.mp hb).1
    have hf : s.inflow.toBytes ≠ [] := by simpa [toBytes, hb] using hs
    obtain ⟨bytes, g, hg, hne, hlen, happ, hsolid, hend⟩ := Inflow.Solid.take?_eq h hf hl
    refine ⟨bytes, { s with inflow := g }, by rw [hg]; rfl, hne, hlen, ⟨?_, hsolid, hend⟩⟩
    simp [toBytes, hb, happ]
  · obtain ⟨t, ht, hne, hout⟩ := h.fill?_eq hs
    simp only [ht]
    refine ⟨_, _, rfl, ?_, List.length_take_le _ _, ⟨?_, hout.solid, hout.ending⟩⟩
    · simp [hne, Nat.pos_iff_ne_zero.mp hl]
    · rw [← hout.append]
      simp [toBytes, ← List.append_assoc]

/-- Without bytes, a read shows how the stream ends. -/
theorem Solid.take?_of_nil {s : Source} (h : s.Solid) (hs : s.toBytes = []) (limit : Nat) :
    s.take? limit =
      match s.inflow.ending with
      | .undecided => none
      | .ended => some (.ok [], s)
      | .failing reason => some (.error reason, s) := by
  obtain ⟨hb, hf⟩ := List.append_eq_nil_iff.mp hs
  have hp := Inflow.Solid.pieces_eq_nil h hf
  unfold take?
  split
  · rw [Inflow.take?_of_pieces_eq_nil hp]
    cases s.inflow.ending <;> rfl
  · rw [h.fill?_of_nil hs]
    obtain ⟨inflow, buffer⟩ := s
    simp only at hb
    subst hb
    cases inflow.ending <;> simp

end Source

namespace ReadGoal

/-- The first line of some bytes with its line feed, or all of them if there is none, and the
bytes behind. -/
def lineOutcome (bytes : Bytes) (ending : Ending) : Except String Bytes × Bytes :=
  match splitLine bytes with
  | some (start, rest) => (.ok start, rest)
  | none =>
    match ending with
    | .failing reason => (.error reason, [])
    | _ => (.ok bytes, [])

/-- The first `count` bytes, and the bytes behind. -/
def exactlyOutcome (count : Nat) (bytes : Bytes) (ending : Ending) : Except String Bytes × Bytes :=
  if count ≤ bytes.length then (.ok (bytes.take count), bytes.drop count)
  else
    match ending with
    | .failing reason => (.error reason, [])
    | _ => (.error "early eof", [])

/-- What a read hands out in the end if these bytes come before the ending, and the bytes that it
leaves. A read of what there is hands out as much as it may. -/
def outcome (g : ReadGoal) (bytes : Bytes) (ending : Ending) : Except String Bytes × Bytes :=
  match g with
  | upTo limit => (.ok (bytes.take limit), bytes.drop limit)
  | line taken => ((lineOutcome bytes ending).1.map (taken ++ ·), (lineOutcome bytes ending).2)
  | exactly missing taken =>
    ((exactlyOutcome missing bytes ending).1.map (taken ++ ·),
      (exactlyOutcome missing bytes ending).2)

/-- The reads that take as many steps as they need. -/
def IsWhole : ReadGoal → Prop
  | upTo _ => False
  | _ => True

/-- What a read has taken so far. -/
def taken : ReadGoal → Bytes
  | upTo _ => []
  | line taken => taken
  | exactly _ taken => taken

/-! ### Lines -/

/-- The parts of a split are the bytes, the first of them not empty. -/
theorem splitLine_eq_some {bytes start rest : Bytes} (h : splitLine bytes = some (start, rest)) :
    start ++ rest = bytes ∧ start ≠ [] := by
  induction bytes generalizing start with
  | nil => simp [splitLine] at h
  | cons b bs ih =>
    simp only [splitLine] at h
    split at h
    · cases h
      exact ⟨rfl, by simp⟩
    · obtain ⟨⟨begun, rest'⟩, hs, he⟩ := Option.map_eq_some_iff.mp h
      cases he
      obtain ⟨happ, -⟩ := ih hs
      exact ⟨by rw [List.cons_append, happ], by simp⟩

/-- A line that is found among some bytes is also found with more bytes behind them. -/
theorem splitLine_append {bytes start rest : Bytes} (h : splitLine bytes = some (start, rest))
    (more : Bytes) : splitLine (bytes ++ more) = some (start, rest ++ more) := by
  induction bytes generalizing start with
  | nil => simp [splitLine] at h
  | cons b bs ih =>
    simp only [List.cons_append, splitLine] at h ⊢
    split at h
    · next hb =>
      cases h
      rw [if_pos hb]
    · next hb =>
      rw [if_neg hb]
      obtain ⟨⟨begun, rest'⟩, hs, he⟩ := Option.map_eq_some_iff.mp h
      cases he
      rw [ih hs]
      rfl

/-- Bytes that hold no line feed only make the first line longer. -/
theorem splitLine_append_of_none {bytes : Bytes} (h : splitLine bytes = none) (more : Bytes) :
    splitLine (bytes ++ more) = (splitLine more).map fun p ↦ (bytes ++ p.1, p.2) := by
  induction bytes with
  | nil => simp
  | cons b bs ih =>
    simp only [List.cons_append, splitLine] at h ⊢
    split at h
    · cases h
    · next hb =>
      rw [if_neg hb, ih (Option.map_eq_none_iff.mp h), Option.map_map]
      rfl

/-- Bytes without a line feed are not split. -/
theorem splitLine_of_not_mem {bytes : Bytes} (h : lineFeed ∉ bytes) : splitLine bytes = none := by
  induction bytes with
  | nil => rfl
  | cons b bs ih =>
    have hb : ¬(b == lineFeed) = true := fun he ↦ h (by simp [eq_of_beq he])
    rw [splitLine, if_neg hb, ih fun hm ↦ h (List.mem_cons_of_mem _ hm)]
    rfl

/-- The first line of bytes with a line feed ends with it. -/
theorem splitLine_lineFeed {bytes : Bytes} (h : lineFeed ∉ bytes) (more : Bytes) :
    splitLine (bytes ++ lineFeed :: more) = some (bytes ++ [lineFeed], more) := by
  rw [splitLine_append_of_none (splitLine_of_not_mem h)]
  simp [splitLine]

private theorem lineOutcome_append {bytes : Bytes} (h : splitLine bytes = none) (more : Bytes)
    (ending : Ending) :
    lineOutcome (bytes ++ more) ending =
      ((lineOutcome more ending).1.map (bytes ++ ·), (lineOutcome more ending).2) := by
  simp only [lineOutcome, splitLine_append_of_none h]
  cases splitLine more with
  | some p => rfl
  | none => cases ending <;> rfl

private theorem exactlyOutcome_append {count : Nat} {bytes : Bytes} (h : bytes.length ≤ count)
    (more : Bytes) (ending : Ending) :
    exactlyOutcome count (bytes ++ more) ending =
      ((exactlyOutcome (count - bytes.length) more ending).1.map (bytes ++ ·),
        (exactlyOutcome (count - bytes.length) more ending).2) := by
  have hle : count ≤ (bytes ++ more).length ↔ count - bytes.length ≤ more.length := by
    rw [List.length_append]
    omega
  unfold exactlyOutcome
  split
  · next hc =>
    rw [if_pos (hle.mp hc), List.take_append, List.drop_append, List.take_of_length_le h,
      List.drop_of_length_le h]
    rfl
  · next hc =>
    rw [if_neg fun hn ↦ hc (hle.mpr hn)]
    cases ending <;> rfl

/-- The bytes of a line and those behind it are all there are. -/
theorem lineOutcome_eq_ok {bytes start rest : Bytes} {ending : Ending}
    (h : lineOutcome bytes ending = (.ok start, rest)) : start ++ rest = bytes := by
  unfold lineOutcome at h
  split at h
  · next hs =>
    cases h
    exact (splitLine_eq_some hs).1
  · split at h
    · cases h
    · cases h
      exact List.append_nil _

/-- A read hands out what it had taken and the first of the bytes that come, and leaves the
others. -/
theorem outcome_eq_ok {g : ReadGoal} {bytes answer rest : Bytes} {ending : Ending}
    (h : g.outcome bytes ending = (.ok answer, rest)) :
    ∃ start, answer = g.taken ++ start ∧ start ++ rest = bytes := by
  cases g with
  | upTo limit =>
    cases h
    exact ⟨_, rfl, List.take_append_drop limit bytes⟩
  | line taken =>
    cases hl : lineOutcome bytes ending with
    | mk result rest' =>
      cases result with
      | error reason => simp [outcome, hl, Except.map] at h
      | ok start =>
        simp only [outcome, hl, Except.map, Prod.mk.injEq, Except.ok.injEq] at h
        obtain ⟨rfl, rfl⟩ := h
        exact ⟨start, rfl, lineOutcome_eq_ok hl⟩
  | exactly missing taken =>
    simp only [outcome, exactlyOutcome] at h
    split at h
    · simp only [Except.map, Prod.mk.injEq, Except.ok.injEq] at h
      obtain ⟨rfl, rfl⟩ := h
      exact ⟨_, rfl, List.take_append_drop missing bytes⟩
    · split at h <;> simp [Except.map] at h

/-! ### Steps -/

/-- Taking some of the wanted bytes in advance makes no difference. -/
private theorem outcome_exactly_append {missing : Nat} {bytes : Bytes}
    (h : bytes.length ≤ missing) (taken more : Bytes) (ending : Ending) :
    (exactly (missing - bytes.length) (taken ++ bytes)).outcome more ending =
      (exactly missing taken).outcome (bytes ++ more) ending := by
  simp only [outcome, exactlyOutcome_append h]
  cases (exactlyOutcome (missing - bytes.length) more ending).1 <;>
    simp [Except.map]

/-- Taking bytes without a line feed in advance makes no difference. -/
private theorem outcome_line_append {bytes : Bytes} (h : splitLine bytes = none)
    (taken more : Bytes) (ending : Ending) :
    (line (taken ++ bytes)).outcome more ending = (line taken).outcome (bytes ++ more) ending := by
  simp only [outcome, lineOutcome_append h]
  cases (lineOutcome more ending).1 <;> simp [Except.map]

/-- What a step of a read leads to: it has taken some bytes and goes on with the same outcome, or it
ends with its outcome. -/
def Next.Fits (g : ReadGoal) (s : Source) (next : Next) (t : Source) : Prop :=
  match next with
  | .more g' =>
    g'.IsWhole ∧ t.toBytes.length < s.toBytes.length ∧
      g'.taken ++ t.toBytes = g.taken ++ s.toBytes ∧
      g'.outcome t.toBytes t.inflow.ending = g.outcome s.toBytes s.inflow.ending
  | .done answer => g.outcome s.toBytes s.inflow.ending = (answer, t.toBytes)

/-- One step of the read of a line. -/
private theorem step?_line {s : Source} (hs : s.Solid) (hd : s.inflow.ending ≠ .undecided)
    (taken : Bytes) :
    ∃ next t, (line taken).step? s = some (next, t) ∧ t.Solid ∧
      t.inflow.ending = s.inflow.ending ∧ Next.Fits (line taken) s next t := by
  by_cases hb : s.toBytes = []
  · simp only [step?, hs.fill?_of_nil hb]
    cases he : s.inflow.ending with
    | undecided => exact absurd he hd
    | ended =>
      have hbuf : s.buffer = [] := (List.append_eq_nil_iff.mp hb).1
      refine ⟨.done (.ok taken), s, by simp [hbuf], hs, he, ?_⟩
      simp [Next.Fits, outcome, lineOutcome, hb, he, splitLine, Except.map]
    | failing reason =>
      refine ⟨.done (.error reason), s, rfl, hs, he, ?_⟩
      simp [Next.Fits, outcome, lineOutcome, hb, he, splitLine, Except.map]
  · obtain ⟨t, ht, hne, hout⟩ := hs.fill?_eq hb
    have hbytes : s.toBytes = t.buffer ++ t.inflow.toBytes := hout.append.symm
    simp only [step?, ht]
    rw [if_neg (by simpa using hne)]
    cases hl : splitLine t.buffer with
    | some p =>
      obtain ⟨start, rest⟩ := p
      refine ⟨_, _, rfl, hout.solid, hout.ending, ?_⟩
      simp only [Next.Fits, outcome, lineOutcome, hbytes, splitLine_append hl]
      rfl
    | none =>
      refine ⟨_, _, rfl, hout.solid, hout.ending, trivial, ?_, ?_, ?_⟩
      · have := List.length_pos_iff.mpr hne
        rw [hbytes, List.length_append]
        simp only [Source.toBytes, List.nil_append]
        omega
      · rw [hbytes, ReadGoal.taken, List.append_assoc]
        rfl
      · rw [hbytes, ← outcome_line_append hl, ← hout.ending]
        rfl

/-- One step of the read of a fixed number of bytes. -/
private theorem step?_exactly {s : Source} (hs : s.Solid) (hd : s.inflow.ending ≠ .undecided)
    (missing : Nat) (taken : Bytes) :
    ∃ next t, (exactly missing taken).step? s = some (next, t) ∧ t.Solid ∧
      t.inflow.ending = s.inflow.ending ∧ Next.Fits (exactly missing taken) s next t := by
  cases missing with
  | zero =>
    refine ⟨.done (.ok taken), s, rfl, hs, rfl, ?_⟩
    simp [Next.Fits, outcome, exactlyOutcome, Except.map]
  | succ m =>
    by_cases hb : s.toBytes = []
    · simp only [step?, hs.take?_of_nil hb]
      cases he : s.inflow.ending with
      | undecided => exact absurd he hd
      | ended =>
        refine ⟨_, s, rfl, hs, he, ?_⟩
        simp [Next.Fits, outcome, exactlyOutcome, hb, he, Except.map]
      | failing reason =>
        refine ⟨_, s, rfl, hs, he, ?_⟩
        simp [Next.Fits, outcome, exactlyOutcome, hb, he, Except.map]
    · obtain ⟨bytes, t, ht, hne, hlen, hout⟩ := hs.take?_eq hb (Nat.succ_pos m)
      simp only [step?, ht]
      rw [if_neg (by simpa using hne)]
      refine ⟨_, _, rfl, hout.solid, hout.ending, trivial, hout.length_lt hne, ?_, ?_⟩
      · rw [← hout.append, ReadGoal.taken, List.append_assoc]
        rfl
      · rw [outcome_exactly_append hlen, hout.append, hout.ending]

/-- A read takes a step as long as the stream does not hold it up, and each step keeps the outcome
of the read. -/
theorem step?_fits {g : ReadGoal} (hg : g.IsWhole) {s : Source} (hs : s.Solid)
    (hd : s.inflow.ending ≠ .undecided) :
    ∃ next t, g.step? s = some (next, t) ∧ t.Solid ∧ t.inflow.ending = s.inflow.ending ∧
      Next.Fits g s next t := by
  cases g with
  | upTo limit => exact hg.elim
  | line taken => exact step?_line hs hd taken
  | exactly missing taken => exact step?_exactly hs hd missing taken

end ReadGoal

end LanguageHub
