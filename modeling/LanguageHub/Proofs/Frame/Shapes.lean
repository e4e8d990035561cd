import LanguageHub.Proofs.Frame.Reading
import LanguageHub.Proofs.Text

/-!
# What bytes hold where a frame is read

The bytes where a frame is read hold a frame, or the first of its faults, or the beginning of a
frame that is still to come (`Frame.exists_shape`). Each of these has an answer of its own, whatever
comes behind it.
-/

namespace LanguageHub.Frame

open ReadGoal (lineFeed)

/-- The first line of some bytes, up to its line feed or, without one, up to the end of a stream
that is over. -/
inductive FirstLine (isOver : Prop) : (bytes line rest : Bytes) → Prop where
  | fed {start : Bytes} (rest : Bytes) (h : lineFeed ∉ start) :
      FirstLine isOver (start ++ lineFeed :: rest) (start ++ [lineFeed]) rest
  | last {start : Bytes} (ended : isOver) (begun : start ≠ []) (h : lineFeed ∉ start) :
      FirstLine isOver start start []

/-- Bytes begin with the lines of this header, if there are any, and with blank lines in front of
it. -/
inductive Opens (isOver : Prop) (bytes : Bytes) : (header : String) → (rest : Bytes) → Prop where
  | start : Opens isOver bytes "" bytes
  | blank {more rest : Bytes} {line : String} (opens : Opens isOver bytes "" more)
      (first : FirstLine isOver more (Utf8.encode line) rest) (blank : Text.allBlank line = true) :
      Opens isOver bytes "" rest
  | filled {header : String} {more rest : Bytes} {line : String}
      (opens : Opens isOver bytes header more)
      (first : FirstLine isOver more (Utf8.encode line) rest)
      (filled : Text.allBlank line = false) :
      Opens isOver bytes (header ++ line) rest

/-- Bytes begin with this header and the blank line that completes it. -/
structure Heads (isOver : Prop) (bytes : Bytes) (header : String) (rest : Bytes) : Prop where
  begun : header ≠ ""
  completed : ∃ more line, Opens isOver bytes header more ∧
    FirstLine isOver more (Utf8.encode line) rest ∧ Text.allBlank line = true

/-- Bytes begin with a complete header that announces a body of this length. -/
def Announces (isOver : Prop) (bytes : Bytes) (length : Nat) (rest : Bytes) : Prop :=
  ∃ header, Heads isOver bytes header rest ∧ contentLength header = .ok length

/-- The stream ends inside a header or inside a body. -/
inductive BreaksOff (isOver : Prop) (bytes : Bytes) : Prop where
  | inHeader {header : String} (ended : isOver) (opens : Opens isOver bytes header [])
      (begun : header ≠ "")
  | inBody {length : Nat} {rest : Bytes} (ended : isOver)
      (announces : Announces isOver bytes length rest) (small : length ≤ greatestBody)
      (short : rest.length < length)

/-- The announced length is too great. -/
def TooGreat (isOver : Prop) (bytes : Bytes) : Prop :=
  ∃ length rest, Announces isOver bytes length rest ∧ greatestBody < length

/-- A line of the header, or the line in its place, is no text. -/
def Garbled (isOver : Prop) (bytes : Bytes) : Prop :=
  ∃ header more line rest, Opens isOver bytes header more ∧ FirstLine isOver more line rest ∧
    ∀ text, Utf8.encode text ≠ line

/-- The header announces no length, or the body is no text; these bytes come behind. -/
inductive Malformed (isOver : Prop) (bytes : Bytes) : (left : Bytes) → Prop where
  | header {header : String} {left : Bytes} {f : Failure} (heads : Heads isOver bytes header left)
      (unknown : contentLength header = .error f) : Malformed isOver bytes left
  | body {body left : Bytes} (announces : Announces isOver bytes body.length (body ++ left))
      (small : body.length ≤ greatestBody) (noText : ∀ text, Utf8.encode text ≠ body) :
      Malformed isOver bytes left

/-- A frame with this text; these bytes come behind. -/
def Holds (isOver : Prop) (bytes : Bytes) (text : String) (left : Bytes) : Prop :=
  Announces isOver bytes text.utf8ByteSize (Utf8.encode text ++ left) ∧
    text.utf8ByteSize ≤ greatestBody

/-- A line or a body is still to be completed. -/
inductive Unfinished (isOver : Prop) (bytes : Bytes) : Prop where
  | inHeader {header : String} {more : Bytes} (goesOn : ¬ isOver)
      (opens : Opens isOver bytes header more) (begun : lineFeed ∉ more)
  | inBody {length : Nat} {rest : Bytes} (goesOn : ¬ isOver)
      (announces : Announces isOver bytes length rest) (small : length ≤ greatestBody)
      (short : rest.length < length)

/-- What bytes hold where a frame is read. -/
inductive Shape (isOver : Prop) (bytes : Bytes) : Prop where
  /-- Blank lines and the end of the stream. -/
  | blank (ended : isOver) (opens : Opens isOver bytes "" [])
  | holds {text : String} {left : Bytes} (h : Holds isOver bytes text left)
  | unfinished (h : Unfinished isOver bytes)
  | breaksOff (h : BreaksOff isOver bytes)
  | tooGreat (h : TooGreat isOver bytes)
  | garbled (h : Garbled isOver bytes)
  | malformed {left : Bytes} (h : Malformed isOver bytes left)

variable {isOver : Prop} {bytes rest left more line : Bytes} {header : String} {length : Nat}
  {ending : Ending}

/-! ### Every shape that there is -/

/-- A line has bytes. -/
theorem FirstLine.ne_nil (h : FirstLine isOver bytes line rest) : line ≠ [] := by
  cases h with
  | fed rest h => simp
  | last ended begun h => exact begun

/-- Behind a line there are fewer bytes. -/
theorem FirstLine.length_lt (h : FirstLine isOver bytes line rest) :
    rest.length < bytes.length := by
  cases h with
  | fed rest h =>
    rw [List.length_append, List.length_cons]
    omega
  | last ended begun h => exact List.length_pos_iff.mpr begun

/-- Bytes have a first line unless more is to come. -/
theorem exists_firstLine (ne : bytes ≠ []) (complete : isOver ∨ lineFeed ∈ bytes) :
    ∃ line rest, FirstLine isOver bytes line rest := by
  by_cases h : lineFeed ∈ bytes
  · obtain ⟨start, rest, rfl, hstart⟩ := List.eq_append_cons_of_mem h
    exact ⟨_, _, .fed rest hstart⟩
  · exact ⟨bytes, [], .last (complete.resolve_right h) ne h⟩

/-- A body that is there is a text or none. -/
private theorem Announces.shape {body : Bytes}
    (announces : Announces isOver bytes body.length (body ++ left))
    (small : body.length ≤ greatestBody) : Shape isOver bytes := by
  by_cases text : ∃ text, Utf8.encode text = body
  · obtain ⟨text, rfl⟩ := text
    rw [Utf8.length_encode] at announces small
    exact .holds ⟨announces, small⟩
  · exact .malformed (.body announces small fun t h ↦ text ⟨t, h⟩)

/-- What stands behind a complete header. -/
private theorem Heads.shape (heads : Heads isOver bytes header rest) : Shape isOver bytes := by
  cases hlength : contentLength header with
  | error f => exact .malformed (.header heads hlength)
  | ok length =>
    have announces : Announces isOver bytes length rest := ⟨header, heads, hlength⟩
    by_cases small : length ≤ greatestBody
    · by_cases short : rest.length < length
      · by_cases ended : isOver
        · exact .breaksOff (.inBody ended announces small short)
        · exact .unfinished (.inBody ended announces small short)
      · have enough : (rest.take length).length = length :=
          List.length_take_of_le (Nat.le_of_not_lt short)
        have whole : Announces isOver bytes (rest.take length).length
            (rest.take length ++ rest.drop length) := by
          rw [enough, List.take_append_drop]
          exact announces
        apply whole.shape
        rw [enough]
        exact small
    · exact .tooGreat ⟨length, rest, announces, Nat.lt_of_not_le small⟩

/-- What stands behind the lines of a header: the lines are gone through one by one. -/
private theorem Opens.shape (opens : Opens isOver bytes header more) : Shape isOver bytes := by
  induction hsize : more.length using Nat.strongRecOn generalizing header more with
  | ind size ih =>
    subst hsize
    by_cases complete : more ≠ [] ∧ (isOver ∨ lineFeed ∈ more)
    · obtain ⟨line, rest, first⟩ := exists_firstLine complete.1 complete.2
      by_cases text : ∃ text, Utf8.encode text = line
      · obtain ⟨text, rfl⟩ := text
        cases hblank : Text.allBlank text with
        | true =>
          by_cases begun : header = ""
          · subst begun
            exact ih _ first.length_lt (opens.blank first hblank) rfl
          · exact Heads.shape ⟨begun, more, text, opens, first, hblank⟩
        | false => exact ih _ first.length_lt (opens.filled first hblank) rfl
      · exact .garbled ⟨header, more, line, rest, opens, first, fun t h ↦ text ⟨t, h⟩⟩
    · by_cases ended : isOver
      · -- The stream is over, so that nothing is left of it.
        cases more with
        | cons b bs => exact absurd ⟨List.cons_ne_nil b bs, .inl ended⟩ complete
        | nil =>
          by_cases begun : header = ""
          · subst begun
            exact .blank ended opens
          · exact .breaksOff (.inHeader ended opens begun)
      · apply Shape.unfinished
        apply Unfinished.inHeader ended opens
        intro mem
        exact complete ⟨List.ne_nil_of_mem mem, .inr mem⟩

/-- Whatever bytes there are, they have one of the shapes. -/
theorem exists_shape (isOver : Prop) (bytes : Bytes) : Shape isOver bytes :=
  Opens.shape .start

/-! ### What each shape gives -/

/-- The first line of some bytes is read as such. -/
theorem FirstLine.lineOutcome_eq (h : FirstLine isOver bytes line rest)
    (ends : isOver → ending = .ended) : ReadGoal.lineOutcome bytes ending = (.ok line, rest) := by
  cases h with
  | fed rest h => simp only [ReadGoal.lineOutcome, ReadGoal.splitLine_lineFeed h]
  | last ended begun h =>
    rw [ends ended]
    simp only [ReadGoal.lineOutcome, ReadGoal.splitLine_of_not_mem h]

/-- A line that is a text is read, and the read goes on as it says. -/
theorem readBehind_firstLine {text : String}
    (first : FirstLine isOver bytes (Utf8.encode text) rest) (ends : isOver → ending = .ended)
    (header : String) :
    readBehind header bytes ending =
      match if Text.allBlank text then
          if header.isEmpty then .header "" else FrameCall.afterHeader header
        else .header (header ++ text) with
      | .done answer => (answer, rest)
      | .body length => readBody length rest ending
      | .header header => readBehind header rest ending := by
  have filled : text.isEmpty = false := by
    rw [← Bool.not_eq_true, String.isEmpty_iff]
    rintro rfl
    exact first.ne_nil rfl
  have after : FrameCall.afterLine header (Utf8.encode text) =
      if Text.allBlank text then
        if header.isEmpty then .header "" else FrameCall.afterHeader header
      else .header (header ++ text) := by
    simp only [FrameCall.afterLine, Utf8.decode_encode, filled, Bool.false_eq_true, if_false]
  rw [readBehind_eq, first.lineOutcome_eq ends, ← after]
  rfl

/-- The lines of a header are read. -/
theorem Opens.readBehind_eq (h : Opens isOver bytes header rest) (ends : isOver → ending = .ended) :
    readBehind "" bytes ending = readBehind header rest ending := by
  induction h with
  | start => rfl
  | blank opens first blank ih =>
    rw [ih, readBehind_firstLine first ends]
    simp [blank]
  | filled opens first filled ih =>
    rw [ih, readBehind_firstLine first ends]
    simp [filled]

/-- A complete header is read. -/
theorem Heads.readBehind_eq (h : Heads isOver bytes header rest) (ends : isOver → ending = .ended) :
    readBehind "" bytes ending =
      match FrameCall.afterHeader header with
      | .done answer => (answer, rest)
      | .body length => readBody length rest ending
      | .header header => readBehind header rest ending := by
  obtain ⟨more, line, opens, first, blank⟩ := h.completed
  rw [opens.readBehind_eq ends, readBehind_firstLine first ends]
  simp [blank, h.begun]

/-- The announced body is read. -/
theorem Announces.readBehind_eq (h : Announces isOver bytes length rest)
    (small : length ≤ greatestBody) (ends : isOver → ending = .ended) :
    readBehind "" bytes ending = readBody length rest ending := by
  obtain ⟨header, heads, announced⟩ := h
  rw [heads.readBehind_eq ends, FrameCall.afterHeader, announced]
  simp [Nat.not_lt.mpr small]

/-- A body that is not all there fails as the stream does. -/
private theorem readBody_of_short (short : rest.length < length) (ending : Ending) :
    readBody length rest ending =
      match ending with
      | .failing reason => (.error (.transport reason), [])
      | _ => (.error (.transport "early eof"), []) := by
  simp only [readBody, ReadGoal.exactlyOutcome, if_neg (Nat.not_le.mpr short)]
  cases ending <;> rfl

/-- A body that is there is read. -/
theorem readBody_append (body rest : Bytes) (ending : Ending) :
    readBody body.length (body ++ rest) ending = (FrameCall.bodyOf body, rest) := by
  simp [readBody, ReadGoal.exactlyOutcome]

/-- Nothing more is read at the end of a stream. -/
theorem readBehind_at_end (header : String) :
    readBehind header [] .ended =
      (if header = "" then .ok none
        else .error (.transport "stream ended inside a frame header"), []) := by
  have nothing : Utf8.decode [] = .ok "" := Utf8.decode_encode ""
  rw [readBehind_eq]
  simp [ReadGoal.lineOutcome, ReadGoal.splitLine, readAfter, FrameCall.afterLine, nothing]

/-- A frame that is read from bytes has this answer and leaves these bytes, however a stream that
is not over goes on. -/
def Gives (isOver : Prop) (bytes : Bytes) (answer : FrameAnswer) (left : Bytes) : Prop :=
  ∀ ending, (isOver → ending = .ended) → readBehind "" bytes ending = (answer, left)

/-- At the end of a stream there is no frame. -/
theorem Opens.gives (opens : Opens isOver bytes "" []) (ended : isOver) :
    Gives isOver bytes (.ok none) [] := by
  intro ending ends
  rw [opens.readBehind_eq ends, ends ended, readBehind_at_end, if_pos rfl]

/-- A stream that ends inside a frame fails. -/
theorem BreaksOff.gives (h : BreaksOff isOver bytes) :
    ∃ reason left, Gives isOver bytes (.error (.transport reason)) left := by
  cases h with
  | inHeader ended opens begun =>
    refine ⟨"stream ended inside a frame header", [], fun ending ends ↦ ?_⟩
    rw [opens.readBehind_eq ends, ends ended, readBehind_at_end, if_neg begun]
  | inBody ended announces small short =>
    refine ⟨"early eof", [], fun ending ends ↦ ?_⟩
    rw [announces.readBehind_eq small ends, ends ended, readBody_of_short short]

/-- A body that is too great is not read. -/
theorem TooGreat.gives (h : TooGreat isOver bytes) :
    ∃ reason left, Gives isOver bytes (.error (.transport reason)) left := by
  obtain ⟨length, rest, ⟨header, heads, announced⟩, great⟩ := h
  refine ⟨s!"frame of {length} bytes exceeds the {greatestBody} byte limit", rest, ?_⟩
  intro ending ends
  rw [heads.readBehind_eq ends, FrameCall.afterHeader, announced]
  simp only [great, if_true]

/-- Bytes that no text encodes are not decoded. -/
private theorem exists_fault (noText : ∀ text, Utf8.encode text ≠ bytes) :
    ∃ fault, Utf8.decode bytes = .error fault := by
  unfold Utf8.decode
  cases hdecode : Utf8.decode? bytes with
  | some text => exact absurd (Utf8.encode_of_decode? hdecode) (noText text)
  | none => exact ⟨_, rfl⟩

/-- A line that is no text fails like a stream that fails. -/
theorem Garbled.gives (h : Garbled isOver bytes) :
    ∃ reason left, Gives isOver bytes (.error (.transport reason)) left := by
  obtain ⟨header, more, line, rest, opens, first, noText⟩ := h
  obtain ⟨fault, hfault⟩ := exists_fault noText
  refine ⟨fault.message, rest, fun ending ends ↦ ?_⟩
  rw [opens.readBehind_eq ends, Frame.readBehind_eq, first.lineOutcome_eq ends]
  simp only [readAfter, FrameCall.afterLine, hfault]

/-- A header announces a length or is a protocol failure. -/
private theorem exists_of_contentLength_eq_error {f : Failure}
    (h : contentLength header = .error f) : ∃ reason, f = .protocol reason := by
  unfold contentLength at h
  split at h
  · cases h
    exact ⟨_, rfl⟩
  · split at h
    · cases h
    · cases h
      exact ⟨_, rfl⟩

/-- A malformed frame is a protocol failure, and the read stops behind it. -/
theorem Malformed.gives (h : Malformed isOver bytes left) :
    ∃ reason, Gives isOver bytes (.error (.protocol reason)) left := by
  cases h with
  | header heads unknown =>
    obtain ⟨reason, rfl⟩ := exists_of_contentLength_eq_error unknown
    refine ⟨reason, fun ending ends ↦ ?_⟩
    rw [heads.readBehind_eq ends, FrameCall.afterHeader, unknown]
  | body announces small noText =>
    obtain ⟨fault, hfault⟩ := exists_fault noText
    refine ⟨s!"frame body is not UTF-8: {fault.message}", fun ending ends ↦ ?_⟩
    rw [announces.readBehind_eq small ends, readBody_append, FrameCall.bodyOf, hfault]

/-- A frame with a text gives the text, and the read stops behind it. -/
theorem Holds.gives {text : String} (h : Holds isOver bytes text left) :
    Gives isOver bytes (.ok (some text)) left := by
  obtain ⟨announces, small⟩ := h
  intro ending ends
  rw [announces.readBehind_eq small ends, ← Utf8.length_encode, readBody_append, FrameCall.bodyOf,
    Utf8.decode_encode]

/-- A stream with an unfinished frame is not over. -/
theorem Unfinished.not_over (h : Unfinished isOver bytes) : ¬ isOver := by
  cases h with
  | inHeader goesOn => exact goesOn
  | inBody goesOn => exact goesOn

/-- An unfinished frame fails as the stream does. -/
theorem Unfinished.fails (h : Unfinished isOver bytes) (reason : String) :
    (readBehind "" bytes (.failing reason)).1 = .error (.transport reason) := by
  cases h with
  | inHeader goesOn opens begun =>
    rw [opens.readBehind_eq fun ended ↦ absurd ended goesOn, Frame.readBehind_eq]
    simp [ReadGoal.lineOutcome, ReadGoal.splitLine_of_not_mem begun, readAfter]
  | inBody goesOn announces small short =>
    rw [announces.readBehind_eq small fun ended ↦ absurd ended goesOn, readBody_of_short short]

/-! ### A first line that is no text -/

/-- There is one first line. -/
theorem FirstLine.unique {line' rest' : Bytes} (h : FirstLine isOver bytes line rest)
    (h' : FirstLine isOver bytes line' rest') : line = line' := by
  have outcome : ReadGoal.lineOutcome bytes .ended = (.ok line, rest) :=
    h.lineOutcome_eq fun _ ↦ rfl
  rw [h'.lineOutcome_eq fun _ ↦ rfl] at outcome
  cases outcome
  rfl

/-- No header begins with a line that is no text. -/
theorem FirstLine.eq_of_opens (first : FirstLine isOver bytes line rest)
    (noText : ∀ text, Utf8.encode text ≠ line) (opens : Opens isOver bytes header more) :
    header = "" ∧ more = bytes := by
  induction opens with
  | start => exact ⟨rfl, rfl⟩
  | blank opens behind blank ih =>
    rw [ih.2] at behind
    exact absurd (behind.unique first) (noText _)
  | filled opens behind filled ih =>
    rw [ih.2] at behind
    exact absurd (behind.unique first) (noText _)

/-- Behind a line that is no text no length is announced. -/
theorem FirstLine.not_announces (first : FirstLine isOver bytes line rest)
    (noText : ∀ text, Utf8.encode text ≠ line) : ¬ Announces isOver bytes length left := by
  rintro ⟨header, ⟨begun, more, separator, opens, -⟩, -⟩
  exact begun (first.eq_of_opens noText opens).1

/-- A stream whose first line is no text does not break off in a frame. -/
theorem FirstLine.not_breaksOff (first : FirstLine isOver bytes line rest)
    (noText : ∀ text, Utf8.encode text ≠ line) : ¬ BreaksOff isOver bytes := by
  intro h
  cases h with
  | inHeader ended opens begun => exact begun (first.eq_of_opens noText opens).1
  | inBody ended announces => exact first.not_announces noText announces

/-- Nor does it announce a frame that is too great. -/
theorem FirstLine.not_tooGreat (first : FirstLine isOver bytes line rest)
    (noText : ∀ text, Utf8.encode text ≠ line) : ¬ TooGreat isOver bytes := by
  rintro ⟨length, rest', announces, -⟩
  exact first.not_announces noText announces

end LanguageHub.Frame
