import LanguageHub.Proofs.Frame.Arriving
import LanguageHub.Proofs.Frame.RoundTrip
import Mathlib.Data.List.TakeWhile

/-!
# Streams of written frames

The frames that are written for a list of texts are read as these texts, one after another, up to
the first text that is too great to be read. No read of such a stream fails because of a frame
that is not understood.
-/

namespace LanguageHub.Frame

/-- A body that is not too great to be read. -/
def Fits (body : String) : Prop := body.utf8ByteSize ≤ greatestBody

instance : DecidablePred Fits := fun body ↦
  inferInstanceAs (Decidable (body.utf8ByteSize ≤ greatestBody))

/-- A body whose length is a number of a machine word, as that of every text in memory is. -/
def Sized (body : String) : Prop := body.utf8ByteSize ≤ Text.word64

/-- A body that can be read has a length that can be announced. -/
theorem Fits.sized {body : String} (fits : Fits body) : Sized body :=
  Nat.le_trans fits (by decide)

/-- The bodies in front of the first that is too great. -/
def readable (bodies : List String) : List String := bodies.takeWhile fun body ↦ Fits body

/-- The readable ones among some bodies that begin with readable ones. -/
theorem readable_append {read rest : List String} (fit : ∀ b ∈ read, Fits b) :
    readable (read ++ rest) = read ++ readable rest := by
  apply List.takeWhile_append_of_pos
  intro b hb
  exact decide_eq_true (fit b hb)

/-- Nothing is readable behind a body that is too great. -/
theorem readable_cons_of_not_fits {first : String} (great : ¬ Fits first) (others : List String) :
    readable (first :: others) = [] := by
  rw [readable, List.takeWhile_cons_of_neg]
  simpa using great

/-- The failure to read a body that is too great. -/
def tooGreat (body : String) : Failure :=
  .transport s!"frame of {body.utf8ByteSize} bytes exceeds the {greatestBody} byte limit"

variable {body : String} {bodies : List String} {ending : Ending}

/-! ### One frame -/

private theorem isLine_header (length : Nat) : Text.IsLine (header length) := by
  refine ⟨"Content-Length: " ++ toString length ++ "\r", ?_, ?_⟩
  · simp [lineFeed_not_mem_digits]
  · rw [header_eq, show "\r\n" = "\r" ++ "\n" from rfl, ← String.append_assoc]

private theorem filled_header (length : Nat) : Text.allBlank (header length) = false := by
  rw [Text.allBlank, toList_header]
  rfl

private theorem header_ne_empty (length : Nat) : header length ≠ "" := by
  intro h
  have := congrArg String.toList h
  rw [toList_header] at this
  simp at this

private theorem isLine_blankLine : Text.IsLine blankLine := ⟨"\r", by decide, rfl⟩

private theorem blank_blankLine : Text.allBlank blankLine = true := by decide

/-- A frame that was written for a text is read as the text. -/
theorem readBehind_encode (fits : Fits body) (rest : Bytes) (ending : Ending) :
    readBehind "" (encode body ++ rest) ending = (.ok (some body), rest) := by
  have hread := readBody_append (Utf8.encode body) rest ending
  rw [Utf8.length_encode] at hread
  have hbody : FrameCall.bodyOf (Utf8.encode body) = .ok (some body) := by
    simp [FrameCall.bodyOf, Utf8.decode_encode]
  rw [encode_eq, List.append_assoc, List.append_assoc,
    readBehind_filled (isLine_header _) (filled_header _), String.empty_append,
    readBehind_separator isLine_blankLine blank_blankLine (header_ne_empty _)
      (contentLength_header fits.sized) fits, hread, hbody]

/-- A frame that was written for a text that is too great fails. -/
theorem readBehind_encode_of_not_fits (sized : Sized body) (great : ¬ Fits body) (rest : Bytes)
    (ending : Ending) :
    (readBehind "" (encode body ++ rest) ending).1 = .error (tooGreat body) := by
  have hafter : FrameCall.afterLine (header body.utf8ByteSize) (Utf8.encode blankLine) =
      .done (.error (tooGreat body)) := by
    have hfilled : blankLine.isEmpty = false := by decide
    have hlarge : greatestBody < body.utf8ByteSize := Nat.lt_of_not_le great
    simp [FrameCall.afterLine, FrameCall.afterHeader, Utf8.decode_encode, blank_blankLine, hfilled,
      header_ne_empty, contentLength_header sized, hlarge, tooGreat]
  rw [encode_eq, List.append_assoc, List.append_assoc,
    readBehind_filled (isLine_header _) (filled_header _), String.empty_append,
    readBehind_line isLine_blankLine, hafter]

/-- A stream that fails before a frame begins. -/
theorem readBehind_nil_failing (reason : String) :
    readBehind "" [] (.failing reason) = (.error (.transport reason), []) := by
  rw [readBehind_eq]
  rfl

private theorem readBehind_nil_ended (ending : Ending) (h : ∀ reason, ending ≠ .failing reason) :
    readBehind "" [] ending = (.ok none, []) := by
  have hdecode : Utf8.decode [] = .ok "" := Utf8.decode_encode ""
  cases ending with
  | failing reason => exact absurd rfl (h reason)
  | undecided | ended =>
    rw [readBehind_eq]
    simp [ReadGoal.lineOutcome, ReadGoal.splitLine, readAfter, FrameCall.afterLine, hdecode]

/-! ### Many frames -/

/-- A text that is read from a stream of frames is the first of the texts, and the other frames
are left. -/
theorem eq_cons_of_readBehind (sized : ∀ b ∈ bodies, Sized b) {rest : Bytes}
    (read : readBehind "" (bodies.flatMap encode) ending = (.ok (some body), rest)) :
    ∃ bodies', bodies = body :: bodies' ∧ Fits body ∧ rest = bodies'.flatMap encode := by
  cases bodies with
  | nil =>
    rw [List.flatMap_nil] at read
    cases ending with
    | failing reason =>
      rw [readBehind_nil_failing] at read
      cases read
    | undecided | ended =>
      rw [readBehind_nil_ended _ (by simp)] at read
      cases read
  | cons first bodies' =>
    rw [List.flatMap_cons] at read
    by_cases fits : Fits first
    · rw [readBehind_encode fits] at read
      cases read
      exact ⟨bodies', rfl, fits, rfl⟩
    · have := readBehind_encode_of_not_fits (sized first List.mem_cons_self) fits
        (bodies'.flatMap encode) ending
      rw [read] at this
      cases this

/-- No frame of such a stream is misunderstood. -/
theorem not_isProtocol_of_readBehind (sized : ∀ b ∈ bodies, Sized b) {f : Failure}
    (read : (readBehind "" (bodies.flatMap encode) ending).1 = .error f) :
    f.isProtocol = false := by
  cases bodies with
  | nil =>
    rw [List.flatMap_nil] at read
    cases ending with
    | failing reason =>
      rw [readBehind_nil_failing] at read
      cases read
      rfl
    | undecided | ended =>
      rw [readBehind_nil_ended _ (by simp)] at read
      cases read
  | cons first bodies' =>
    rw [List.flatMap_cons] at read
    by_cases fits : Fits first
    · rw [readBehind_encode fits] at read
      cases read
    · rw [readBehind_encode_of_not_fits (sized first List.mem_cons_self) fits] at read
      cases read
      rfl

/-- If a read of such a stream gives no text, however the stream breaks off behind it, then the
first of the texts is too great. -/
theorem exists_not_fits_of_readBehind {answer : FrameAnswer}
    (noText : ∀ body, answer ≠ .ok (some body))
    (read : ∀ reason, (readBehind "" (bodies.flatMap encode) (.failing reason)).1 = answer) :
    ∃ first bodies', bodies = first :: bodies' ∧ ¬ Fits first := by
  cases bodies with
  | nil =>
    have hfirst := read "a"
    have hsecond := read "b"
    rw [List.flatMap_nil, readBehind_nil_failing] at hfirst hsecond
    rw [← hsecond] at hfirst
    simp at hfirst
  | cons first bodies' =>
    refine ⟨first, bodies', rfl, fun fits ↦ ?_⟩
    have := read ""
    rw [List.flatMap_cons, readBehind_encode fits] at this
    exact noText first this.symm

/-- If a read of such a stream breaks off as the stream does, then there are no texts. -/
theorem eq_nil_of_readBehind (sized : ∀ b ∈ bodies, Sized b)
    (read : ∀ reason, (readBehind "" (bodies.flatMap encode) (.failing reason)).1 =
      .error (.transport reason)) : bodies = [] := by
  cases bodies with
  | nil => rfl
  | cons first bodies' =>
    simp only [List.flatMap_cons] at read
    by_cases fits : Fits first
    · have := read ""
      rw [readBehind_encode fits] at this
      cases this
    · have hfirst := read "a"
      have hsecond := read "b"
      rw [readBehind_encode_of_not_fits (sized first List.mem_cons_self) fits] at hfirst hsecond
      rw [hfirst] at hsecond
      simp at hsecond

end LanguageHub.Frame
