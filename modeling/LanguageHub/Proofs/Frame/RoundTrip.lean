import LanguageHub.Frame.Basic
import LanguageHub.Proofs.Frame.Shapes
import LanguageHub.Proofs.Text
import LanguageHub.Proofs.Transport.Performing
import Mathlib.Data.List.Forall2

/-!
# Frames come through

A stream of frames is read as the bodies of the frames, in order, however it is cut into pieces. A
frame may have blank lines in front of it, further lines in its header, any blank line behind the
header, and any bytes as its body; a body that is no text costs one protocol failure and nothing
else (`TransportSession.readAllFrames_ofPieces`). The header that stands before a body when it is
written announces the length of the body.
-/

namespace LanguageHub

/-! ### The header that is written -/

namespace Text

/-- Characters without blanks at their ends are not trimmed. -/
theorem trimList_eq_self {cs : List Char} (h : ∀ c ∈ cs, isBlank c = false) : trimList cs = cs := by
  have hkeep : ∀ l : List Char, (∀ c ∈ l, isBlank c = false) → l.dropWhile isBlank = l := by
    intro l hl
    cases l with
    | nil => rfl
    | cons c l => rw [List.dropWhile_cons_of_neg (by simp [hl c (by simp)])]
  rw [trimList, hkeep cs h, hkeep cs.reverse fun c hc ↦ h c (List.mem_reverse.mp hc),
    List.reverse_reverse]

/-- A blank in front is trimmed. -/
theorem trimList_cons_of_isBlank {c : Char} (h : isBlank c = true) (cs : List Char) :
    trimList (c :: cs) = trimList cs := by
  rw [trimList, List.dropWhile_cons_of_pos h, trimList]

/-- A digit is not blank. -/
theorem isBlank_of_isDigit {c : Char} (h : c.isDigit = true) : isBlank c = false := by
  have hc : 48 ≤ c.toNat ∧ c.toNat ≤ 57 := by
    simp only [Char.isDigit, Bool.and_eq_true, decide_eq_true_eq] at h
    exact ⟨UInt32.le_iff_toNat_le.mp h.1, UInt32.le_iff_toNat_le.mp h.2⟩
  simp only [isBlank, Bool.or_eq_false_iff, Bool.and_eq_false_iff, decide_eq_false_iff_not,
    beq_eq_false_iff_ne]
  omega

/-- One line with its end. -/
theorem lines_append_lineFeed {cs : List Char} (h : '\n' ∉ cs) :
    lines (cs ++ ['\n']) = [dropReturn cs] := by
  have hcs : ∀ c ∈ cs, (c == '\n') = false := fun c hc ↦
    beq_eq_false_iff_ne.mpr fun he ↦ h (he ▸ hc)
  have hsplit : (cs ++ ['\n']).splitOn '\n' = [cs, []] := by
    rw [List.splitOn, List.splitOnP_append_cons cs [] (by simp), List.splitOnP_eq_singleton hcs,
      List.splitOnP_nil]
    rfl
  simp [lines, hsplit]

end Text

namespace Frame

/-- The header of a body of `length` bytes. -/
def header (length : Nat) : String := "Content-Length: " ++ toString length ++ "\r\n"

/-- What a header is. -/
theorem header_eq (length : Nat) :
    header length = "Content-Length: " ++ toString length ++ "\r\n" := rfl

/-- The line behind a header. -/
def blankLine : String := "\r\n"

/-- A frame is a header, a blank line and a body. -/
theorem encode_eq (body : String) :
    encode body =
      Utf8.encode (header body.utf8ByteSize) ++ (Utf8.encode blankLine ++ Utf8.encode body) := by
  have hend : "\r\n\r\n" = "\r\n" ++ blankLine := rfl
  have hlines : "Content-Length: " ++ toString body.utf8ByteSize ++ "\r\n\r\n" =
      header body.utf8ByteSize ++ blankLine :=
    (congrArg _ hend).trans String.append_assoc.symm
  rw [← List.append_assoc, ← Utf8.encode_append, ← hlines]
  rfl

/-- The characters of a header. -/
theorem toList_header (length : Nat) :
    (header length).toList =
      "Content-Length".toList ++ ':' :: ' ' :: (Nat.toDigits 10 length ++ ['\r', '\n']) := by
  simp [header_eq, String.toList_append]

/-- The digits of a number are on one line. -/
theorem lineFeed_not_mem_digits (length : Nat) : '\n' ∉ Nat.toDigits 10 length := by
  intro h
  exact absurd (Nat.isDigit_of_mem_toDigits (by decide) (by decide) h) (by decide)

private theorem lines_header (length : Nat) :
    Text.lines (header length).toList =
      ["Content-Length".toList ++ ':' :: ' ' :: Nat.toDigits 10 length] := by
  let line := "Content-Length".toList ++ ':' :: ' ' :: Nat.toDigits 10 length
  have hsplit : (header length).toList = (line ++ ['\r']) ++ ['\n'] := by
    rw [toList_header]
    simp [line]
  have hmem : '\n' ∉ line ++ ['\r'] := by
    simp [line, lineFeed_not_mem_digits]
  rw [hsplit, Text.lines_append_lineFeed hmem, Text.dropReturn]
  simp [line]

/-- The header of a body announces its length. -/
theorem contentLength_header {length : Nat} (h : length ≤ Text.word64) :
    contentLength (header length) = .ok length := by
  have hblank : ∀ c ∈ Nat.toDigits 10 length, Text.isBlank c = false := fun c hc ↦
    Text.isBlank_of_isDigit (Nat.isDigit_of_mem_toDigits (by decide) (by decide) hc)
  have htext : lengthText? (Text.lines (header length).toList) = some (Nat.toDigits 10 length) := by
    rw [lines_header]
    have hname : Text.splitAtFirst ':'
        ("Content-Length".toList ++ ':' :: ' ' :: Nat.toDigits 10 length) =
          some ("Content-Length".toList, ' ' :: Nat.toDigits 10 length) := by
      simp [Text.splitAtFirst]
    have hannounces : announcesLength "Content-Length".toList = true := by decide
    simp only [lengthText?, hname, hannounces, if_true]
    rw [Text.trimList_cons_of_isBlank (by decide), Text.trimList_eq_self hblank]
  simp only [contentLength, htext, Text.readNumeral_toDigits h]

end Frame

/-! ### Frames that are read -/

/-- One line with its line feed. -/
def Text.IsLine (s : String) : Prop := ∃ start : String, '\n' ∉ start.toList ∧ s = start ++ "\n"

/-- A frame as it may come from a server. -/
structure WireFrame where
  /-- The blank lines in front. -/
  blanks : List String
  /-- The lines of the header. -/
  header : List String
  /-- The blank line behind the header. -/
  separator : String
  body : Bytes
  blank_of_mem_blanks : ∀ l ∈ blanks, Text.IsLine l ∧ Text.allBlank l = true
  header_ne_nil : header ≠ []
  filled_of_mem_header : ∀ l ∈ header, Text.IsLine l ∧ Text.allBlank l = false
  blank_separator : Text.IsLine separator ∧ Text.allBlank separator = true
  announced : Frame.contentLength (String.join header) = .ok body.length
  length_le : body.length ≤ Frame.greatestBody

namespace WireFrame

/-- The bytes of a frame. -/
def bytes (f : WireFrame) : Bytes :=
  f.blanks.flatMap Utf8.encode ++
    (f.header.flatMap Utf8.encode ++ (Utf8.encode f.separator ++ f.body))

/-- The frame that is written for a text. -/
def ofText (text : String) (h : text.utf8ByteSize ≤ Frame.greatestBody) : WireFrame where
  blanks := []
  header := [Frame.header text.utf8ByteSize]
  separator := Frame.blankLine
  body := Utf8.encode text
  blank_of_mem_blanks := by simp
  header_ne_nil := by simp
  filled_of_mem_header := by
    intro l hl
    rw [List.mem_singleton.mp hl]
    constructor
    · refine ⟨"Content-Length: " ++ toString text.utf8ByteSize ++ "\r", ?_, ?_⟩
      · simp [Frame.lineFeed_not_mem_digits]
      · rw [Frame.header_eq, show "\r\n" = "\r" ++ "\n" from rfl, ← String.append_assoc]
    · rw [Text.allBlank, Frame.toList_header]
      rfl
  blank_separator := ⟨⟨"\r", by decide, rfl⟩, by decide⟩
  announced := by
    rw [Utf8.length_encode, String.join_cons, String.join_nil, String.append_empty]
    exact Frame.contentLength_header (Nat.le_trans h (by decide))
  length_le := by rwa [Utf8.length_encode]

/-- A written frame is a header, a blank line and the text. -/
theorem bytes_ofText (text : String) (h : text.utf8ByteSize ≤ Frame.greatestBody) :
    (ofText text h).bytes = Frame.encode text := by
  rw [Frame.encode_eq]
  simp [bytes, ofText]

end WireFrame

namespace Frame

/-! ### Line by line -/

/-- A line stands first among the bytes that begin with it. -/
theorem firstLine_encode {isOver : Prop} {l : String} (hl : Text.IsLine l) (rest : Bytes) :
    FirstLine isOver (Utf8.encode l ++ rest) (Utf8.encode l) rest := by
  obtain ⟨start, hstart, rfl⟩ := hl
  have hbytes : Utf8.encode (start ++ "\n") = Utf8.encode start ++ [ReadGoal.lineFeed] :=
    Utf8.encode_append start "\n"
  rw [hbytes, List.append_assoc, List.singleton_append]
  exact .fed rest (Utf8.lineFeed_not_mem_encode hstart)

/-- A line is read, and the read goes on as it says. -/
theorem readBehind_line {l : String} (hl : Text.IsLine l) (header : String) (rest : Bytes)
    (ending : Ending) :
    readBehind header (Utf8.encode l ++ rest) ending =
      match FrameCall.afterLine header (Utf8.encode l) with
      | .done answer => (answer, rest)
      | .body length => readBody length rest ending
      | .header header => readBehind header rest ending := by
  rw [readBehind_eq, (firstLine_encode hl rest).lineOutcome_eq False.elim]
  rfl

private theorem isEmpty_of_isLine {l : String} (hl : Text.IsLine l) : l.isEmpty = false := by
  obtain ⟨start, -, rfl⟩ := hl
  rw [← Bool.not_eq_true, String.isEmpty_iff]
  intro h
  simpa using congrArg String.toList h

/-- A blank line in front of a header is passed over. -/
theorem readBehind_blank {l : String} (hl : Text.IsLine l) (hb : Text.allBlank l = true)
    (rest : Bytes) (ending : Ending) :
    readBehind "" (Utf8.encode l ++ rest) ending = readBehind "" rest ending :=
  (Opens.start.blank (firstLine_encode hl rest) hb).readBehind_eq False.elim

/-- A line that is not blank belongs to the header. -/
theorem readBehind_filled {l : String} (hl : Text.IsLine l) (hb : Text.allBlank l = false)
    (header : String) (rest : Bytes) (ending : Ending) :
    readBehind header (Utf8.encode l ++ rest) ending = readBehind (header ++ l) rest ending := by
  rw [readBehind_firstLine (firstLine_encode hl rest) False.elim]
  simp [hb]

/-- A blank line behind a header is followed by the body. -/
theorem readBehind_separator {l : String} (hl : Text.IsLine l) (hb : Text.allBlank l = true)
    {header : String} (hh : header ≠ "") {length : Nat} (hc : contentLength header = .ok length)
    (hle : length ≤ greatestBody) (rest : Bytes) (ending : Ending) :
    readBehind header (Utf8.encode l ++ rest) ending = readBody length rest ending := by
  rw [readBehind_firstLine (firstLine_encode hl rest) False.elim]
  simp [FrameCall.afterHeader, hb, hh, hc, Nat.not_lt.mpr hle]

private theorem readBehind_blanks {ls : List String}
    (h : ∀ l ∈ ls, Text.IsLine l ∧ Text.allBlank l = true) (rest : Bytes) (ending : Ending) :
    readBehind "" (ls.flatMap Utf8.encode ++ rest) ending = readBehind "" rest ending := by
  induction ls with
  | nil => rfl
  | cons l ls ih =>
    obtain ⟨hl, hb⟩ := h l (by simp)
    rw [List.flatMap_cons, List.append_assoc, readBehind_blank hl hb]
    exact ih fun m hm ↦ h m (List.mem_cons_of_mem _ hm)

private theorem readBehind_header {ls : List String}
    (h : ∀ l ∈ ls, Text.IsLine l ∧ Text.allBlank l = false) (header : String) (rest : Bytes)
    (ending : Ending) :
    readBehind header (ls.flatMap Utf8.encode ++ rest) ending =
      readBehind (header ++ String.join ls) rest ending := by
  induction ls generalizing header with
  | nil => simp
  | cons l ls ih =>
    obtain ⟨hl, hb⟩ := h l (by simp)
    rw [List.flatMap_cons, List.append_assoc, readBehind_filled hl hb,
      ih fun m hm ↦ h m (List.mem_cons_of_mem _ hm), String.join_cons, String.append_assoc]

/-- Some bytes are read as a frame with this body, whatever comes behind them. -/
def Reads (bytes body : Bytes) : Prop :=
  ∀ rest, readBehind "" (bytes ++ rest) .ended = (FrameCall.bodyOf body, rest)

/-- The bytes of a frame are read as the frame. -/
theorem reads_bytes (f : WireFrame) : Reads f.bytes f.body := by
  intro rest
  obtain ⟨hs, hb⟩ := f.blank_separator
  have hh : String.join f.header ≠ "" := by
    obtain ⟨l, hl⟩ := List.exists_mem_of_ne_nil _ f.header_ne_nil
    have hne := isEmpty_of_isLine (f.filled_of_mem_header l hl).1
    intro h
    have hnil : ∀ m ∈ f.header, m.toList = [] := by
      simpa [String.toList_join, List.flatMap_eq_nil_iff] using congrArg String.toList h
    rw [String.toList_eq_nil_iff.mp (hnil l hl)] at hne
    cases hne
  rw [WireFrame.bytes, List.append_assoc, List.append_assoc, List.append_assoc,
    readBehind_blanks f.blank_of_mem_blanks, readBehind_header f.filled_of_mem_header,
    String.empty_append, readBehind_separator hs hb hh f.announced f.length_le, readBody_append]

/-- A frame has bytes. -/
theorem Reads.ne_nil {bytes body : Bytes} (h : Reads bytes body) : bytes ≠ [] := by
  rintro rfl
  have := h []
  rw [List.append_nil, readBehind_at_end, if_pos rfl, FrameCall.bodyOf] at this
  split at this <;> simp at this

/-- The answer that the body of a frame calls for: the text that it encodes, or one protocol
failure if it encodes none. -/
inductive Delivers : Bytes → FrameAnswer → Prop where
  | text (s : String) : Delivers (Utf8.encode s) (.ok (some s))
  | noText {body : Bytes} (h : ∀ s, Utf8.encode s ≠ body) (reason : String) :
      Delivers body (.error (.protocol reason))

/-- An answer to a body is the text that it encodes, or a protocol failure if it encodes none. -/
theorem Delivers.cases {body : Bytes} {answer : FrameAnswer} (h : Delivers body answer) :
    (∃ text, Utf8.encode text = body ∧ answer = .ok (some text)) ∨
      ∃ reason, (∀ s, Utf8.encode s ≠ body) ∧ answer = .error (.protocol reason) := by
  cases h with
  | text s => exact .inl ⟨s, rfl, rfl⟩
  | noText h reason => exact .inr ⟨reason, h, rfl⟩

/-- A body is answered as it calls for. -/
theorem delivers_bodyOf (body : Bytes) : Delivers body (FrameCall.bodyOf body) := by
  cases hd : Utf8.decode? body with
  | some s =>
    have h : Utf8.encode s = body := Utf8.encode_of_decode? hd
    rw [← h, FrameCall.bodyOf, Utf8.decode_encode]
    exact .text s
  | none =>
    have h (s : String) : Utf8.encode s ≠ body := by
      rintro rfl
      rw [Utf8.decode?_encode] at hd
      cases hd
    rw [FrameCall.bodyOf, Utf8.decode, hd]
    exact .noText h _

end Frame

namespace TransportSession

/-- A session over a stream that comes in these pieces and then ends. -/
def ofPieces (pieces : List Bytes) : TransportSession :=
  { transport := { source.inflow := .ofPieces pieces .ended } }

theorem idle_ofPieces (pieces : List Bytes) (n : Nat) : (ofPieces pieces).Idle n where
  running := rfl
  readable := ⟨rfl, rfl, Inflow.solid_ofPieces pieces .ended, by simp [ofPieces, Inflow.ofPieces]⟩
  numbered := by simp [ofPieces]

/-- The frames of a stream are answered one after the other, and then its end. -/
private theorem readFrames_reads {frames : List (Bytes × Bytes)}
    (hf : ∀ f ∈ frames, Frame.Reads f.1 f.2) {s : TransportSession} {n fuel : Nat}
    (hs : s.Idle n) (hin : s.transport.incoming = frames.flatMap (·.1))
    (hend : s.transport.ending = .ended) (hfuel : frames.length < fuel) :
    (readFrames fuel n s).2 = frames.map (FrameCall.bodyOf ·.2) ++ [.ok none] := by
  induction frames generalizing s n fuel with
  | nil =>
    obtain ⟨fuel, rfl⟩ : ∃ k, fuel = k + 1 := Nat.exists_eq_succ_of_ne_zero (by omega)
    obtain ⟨t, hperform, -⟩ := perform_readFrame hs
    rw [hin, hend, List.flatMap_nil, Frame.readBehind_at_end] at hperform
    simp [readFrames, hperform]
  | cons f frames ih =>
    obtain ⟨fuel, rfl⟩ : ∃ k, fuel = k + 1 := Nat.exists_eq_succ_of_ne_zero (by omega)
    obtain ⟨t, hperform, hidle, hrest, hending⟩ := perform_readFrame hs
    rw [hin, hend, List.flatMap_cons, hf f (by simp)] at hperform hrest
    have hlt : frames.length < fuel := Nat.lt_of_succ_lt_succ hfuel
    have hmore := ih (fun g hg ↦ hf g (List.mem_cons_of_mem _ hg)) hidle hrest
      (hending.trans hend) hlt
    rw [List.map_cons, List.cons_append, ← hmore]
    rcases (Frame.delivers_bodyOf f.2).cases with ⟨text, -, h⟩ | ⟨reason, -, h⟩
    · simp [readFrames, hperform, h]
    · simp [readFrames, hperform, h, Failure.isProtocol]

private theorem length_le_length_flatMap {frames : List (Bytes × Bytes)}
    (hf : ∀ f ∈ frames, Frame.Reads f.1 f.2) :
    frames.length ≤ (frames.flatMap (·.1)).length := by
  induction frames with
  | nil => exact Nat.le_refl _
  | cons f frames ih =>
    have hpos := List.length_pos_iff.mpr (hf f (by simp)).ne_nil
    have := ih fun g hg ↦ hf g (List.mem_cons_of_mem _ hg)
    rw [List.flatMap_cons, List.length_append, List.length_cons]
    omega

private theorem readAllFrames_reads {frames : List (Bytes × Bytes)}
    (hf : ∀ f ∈ frames, Frame.Reads f.1 f.2) {pieces : List Bytes}
    (cut : pieces.flatten = frames.flatMap (·.1)) (n : Nat) :
    ((ofPieces pieces).readAllFrames n).2 = frames.map (FrameCall.bodyOf ·.2) ++ [.ok none] := by
  have hin : (ofPieces pieces).transport.incoming = frames.flatMap (·.1) := by
    rw [← cut]
    exact Inflow.toBytes_ofPieces pieces .ended
  apply readFrames_reads hf (idle_ofPieces pieces n) hin rfl
  change frames.length < (ofPieces pieces).transport.incoming.length + 1
  rw [hin]
  exact Nat.lt_succ_of_le (length_le_length_flatMap hf)

/-- However a stream of frames is cut into pieces, each frame gives its body, or one protocol
failure if the body is no text, and then the stream ends. In particular written texts come back. -/
theorem readAllFrames_ofPieces (pieces : List Bytes) (n : Nat) :
    (∀ frames : List WireFrame, pieces.flatten = frames.flatMap WireFrame.bytes →
      ∃ answers, ((ofPieces pieces).readAllFrames n).2 = answers ++ [.ok none] ∧
        List.Forall₂ (fun f answer ↦ Frame.Delivers f.body answer) frames answers) ∧
    (∀ texts : List String, (∀ text ∈ texts, text.utf8ByteSize ≤ Frame.greatestBody) →
      pieces.flatten = texts.flatMap Frame.encode →
      ((ofPieces pieces).readAllFrames n).2 =
        texts.map (fun text ↦ .ok (some text)) ++ [.ok none]) := by
  constructor
  · intro frames cut
    refine ⟨frames.map fun f ↦ FrameCall.bodyOf f.body, ?_, ?_⟩
    · have hreads : ∀ f ∈ frames.map fun f ↦ (f.bytes, f.body), Frame.Reads f.1 f.2 := by
        intro f hf
        obtain ⟨g, -, rfl⟩ := List.mem_map.mp hf
        exact Frame.reads_bytes g
      rw [readAllFrames_reads hreads (by rw [cut, List.flatMap_map]), List.map_map]
      rfl
    · rw [List.forall₂_map_right_iff]
      exact List.forall₂_same.mpr fun f _ ↦ Frame.delivers_bodyOf f.body
  · intro texts hsize cut
    have hreads : ∀ f ∈ texts.map fun text ↦ (Frame.encode text, Utf8.encode text),
        Frame.Reads f.1 f.2 := by
      intro f hf
      obtain ⟨text, htext, rfl⟩ := List.mem_map.mp hf
      have := Frame.reads_bytes (.ofText text (hsize text htext))
      rwa [WireFrame.bytes_ofText] at this
    rw [readAllFrames_reads hreads (by rw [cut, List.flatMap_map]), List.map_map]
    congr 1
    refine List.map_congr_left fun text _ ↦ ?_
    simp [FrameCall.bodyOf, Utf8.decode_encode]

/-- A frame behind a blank line, with two lines in its header and a body that is no text. -/
def broken : WireFrame where
  blanks := ["\r\n"]
  header := ["X: 1\r\n", "Content-Length: 2\r\n"]
  separator := "\r\n"
  body := [0xFF, 0xFE]
  blank_of_mem_blanks := by
    intro l hl
    rw [List.mem_singleton.mp hl]
    exact ⟨⟨"\r", by decide, rfl⟩, by decide⟩
  header_ne_nil := by simp
  filled_of_mem_header := by
    intro l hl
    simp only [List.mem_cons, List.not_mem_nil, or_false] at hl
    rcases hl with rfl | rfl
    · exact ⟨⟨"X: 1\r", by decide, rfl⟩, by decide⟩
    · exact ⟨⟨"Content-Length: 2\r", by decide, rfl⟩, by decide⟩
  blank_separator := ⟨⟨"\r", by decide, rfl⟩, by decide⟩
  announced := by rfl
  length_le := by decide

/-- The frame and a written text behind it, cut in the middle of either. -/
def brokenPieces : List Bytes :=
  [broken.bytes.take 7, broken.bytes.drop 7 ++ (Frame.encode "é").take 3,
    (Frame.encode "é").drop 3]

private theorem flatten_brokenPieces (size : "é".utf8ByteSize ≤ Frame.greatestBody) :
    brokenPieces.flatten = [broken, .ofText "é" size].flatMap WireFrame.bytes := by
  simp only [List.flatMap_cons, List.flatMap_nil, List.append_nil, WireFrame.bytes_ofText]
  simp only [brokenPieces, List.flatten_cons, List.flatten_nil, List.append_nil,
    List.append_assoc, List.take_append_drop]
  rw [← List.append_assoc, List.take_append_drop]

/-- A body that is no text costs one failure, and the text behind it comes through. -/
theorem readAllFrames_broken : ∃ reason, ((ofPieces brokenPieces).readAllFrames 0).2 =
    [.error (.protocol reason), .ok (some "é"), .ok none] := by
  have size : "é".utf8ByteSize ≤ Frame.greatestBody := by decide
  have noText (s : String) : Utf8.encode s ≠ [0xFF, 0xFE] := by
    intro h
    have hnone : Utf8.decode? [0xFF, 0xFE] = none := by rfl
    rw [← h, Utf8.decode?_encode] at hnone
    cases hnone
  have injective (s : String) (h : Utf8.encode s = Utf8.encode "é") : s = "é" := by
    have := congrArg Utf8.decode? h
    rwa [Utf8.decode?_encode, Utf8.decode?_encode, Option.some.injEq] at this
  obtain ⟨answers, hanswers, hall⟩ :=
    (readAllFrames_ofPieces brokenPieces 0).1 _ (flatten_brokenPieces size)
  obtain - | ⟨hfirst, - | ⟨hsecond, - | -⟩⟩ := hall
  obtain ⟨s, hs, -⟩ | ⟨reason, -, rfl⟩ := hfirst.cases
  · exact absurd hs (noText s)
  · obtain ⟨s, hs, rfl⟩ | ⟨-, hno, -⟩ := hsecond.cases
    · exact ⟨reason, injective s hs ▸ hanswers⟩
    · exact absurd rfl (hno "é")

end TransportSession

end LanguageHub
