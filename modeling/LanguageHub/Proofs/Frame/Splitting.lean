import LanguageHub.Frame.Split
import LanguageHub.Proofs.Text
import Mathlib.Data.List.TakeWhile

/-!
# The frames that were written are found

Splitting bytes finds the body of a frame that was written, and the bytes behind the frame. In the
beginning of a sequence of frames it finds the first bodies of the sequence.
-/

namespace LanguageHub.Frame

variable {bytes rest more : Bytes}

/-! ### One frame -/

/-- What stands behind a beginning is the rest of the bytes. -/
theorem behind?_eq_some_iff {start : Bytes} :
    behind? start bytes = some rest ↔ bytes = start ++ rest := by
  simp only [behind?, beq_iff_eq, Option.ite_none_right_eq_some, Option.some.injEq]
  constructor
  · rintro ⟨htake, hdrop⟩
    rw [← List.take_append_drop start.length bytes, htake, hdrop]
  · rintro rfl
    simp

private theorem takeWhile_digits {ds : Bytes} (hds : ∀ b ∈ ds, isDigitByte b = true)
    (rest : Bytes) : (ds ++ (headerEnd ++ rest)).takeWhile isDigitByte = ds := by
  have hend : headerEnd = 0x0D :: [0x0A, 0x0D, 0x0A] := by decide +kernel
  rw [List.takeWhile_append_of_pos hds, hend, List.cons_append,
    List.takeWhile_cons_of_neg (by decide), List.append_nil]

/-- Bytes begin with a frame when they begin with the announcement of its length and have as many
bytes behind it. -/
theorem first?_eq_some_iff {body : Bytes} :
    first? bytes = some (body, rest) ↔ ∃ ds, ds ≠ [] ∧ (∀ b ∈ ds, isDigitByte b = true) ∧
      body.length = digitsValue ds ∧
      bytes = announcement ++ (ds ++ (headerEnd ++ (body ++ rest))) := by
  constructor
  · intro h
    simp only [first?, Option.bind_eq_bind, Option.bind_eq_some_iff, behind?_eq_some_iff] at h
    obtain ⟨afterName, rfl, h⟩ := h
    split at h
    · cases h
    · next hne =>
      simp only [Option.bind_eq_some_iff, behind?_eq_some_iff] at h
      obtain ⟨left, hleft, h⟩ := h
      split at h
      · cases h
      · next hlength =>
        cases h
        refine ⟨afterName.takeWhile isDigitByte, by simpa using hne,
          fun b hb ↦ List.mem_takeWhile_imp hb, ?_, ?_⟩
        · rw [List.length_take] at hlength ⊢
          omega
        · have hds :=
            List.prefix_iff_eq_append.mp (List.takeWhile_prefix (l := afterName) isDigitByte)
          rw [List.take_append_drop, ← hleft, hds]
  · rintro ⟨ds, hne, hds, hlength, rfl⟩
    have hempty : ds.isEmpty = false := by simpa using hne
    have hbehind (start rest : Bytes) : behind? start (start ++ rest) = some rest :=
      behind?_eq_some_iff.mpr rfl
    simp only [first?, Option.bind_eq_bind, hbehind, Option.bind_some, takeWhile_digits hds, hempty,
      List.drop_left, ← hlength, List.take_left]
    simp

/-- The byte of a digit. -/
theorem encode_digit {c : Char} (h : c.isDigit = true) :
    ∃ b, String.utf8EncodeChar c = [b] ∧ isDigitByte b = true ∧ b.toNat = c.toNat := by
  simp only [Char.isDigit, ge_iff_le, Bool.and_eq_true, decide_eq_true_eq,
    UInt32.le_iff_toNat_le] at h
  have hlow : 48 ≤ c.val.toNat := h.1
  have hhigh : c.val.toNat ≤ 57 := h.2
  have hbyte : c.val.toUInt8.toNat = c.val.toNat :=
    Nat.mod_eq_of_lt (Nat.lt_of_le_of_lt hhigh (by decide))
  have hsize : c.utf8Size = 1 := by
    rw [Char.utf8Size_eq_one_iff, UInt32.le_iff_toNat_le]
    exact Nat.le_trans hhigh (by decide)
  refine ⟨c.val.toUInt8, String.utf8EncodeChar_eq_singleton hsize, ?_, hbyte⟩
  simp only [isDigitByte, Bool.and_eq_true, decide_eq_true_eq, UInt8.le_iff_toNat_le, hbyte]
  exact ⟨hlow, hhigh⟩

/-- The bytes of digits are digits of the same value. -/
private theorem digits_spec {cs : List Char} (h : ∀ c ∈ cs, c.isDigit = true) :
    (∀ b ∈ cs.flatMap String.utf8EncodeChar, isDigitByte b = true) ∧
      ∀ value, (cs.flatMap String.utf8EncodeChar).foldl
        (fun n b ↦ n * 10 + (b.toNat - 0x30)) value = Nat.ofDigitChars 10 cs value := by
  induction cs with
  | nil => simp
  | cons c cs ih =>
    obtain ⟨b, hb, hdigit, hvalue⟩ := encode_digit (h c (by simp))
    obtain ⟨hdigits, hvalues⟩ := ih fun d hd ↦ h d (List.mem_cons_of_mem _ hd)
    rw [List.flatMap_cons, hb]
    refine ⟨?_, fun value ↦ ?_⟩
    · simpa [hdigit] using hdigits
    · rw [List.singleton_append, List.foldl_cons, hvalues, Nat.ofDigitChars_cons, hvalue,
        Nat.mul_comm]
      rfl

/-- The digits of a number. -/
def digits (n : Nat) : Bytes := (Nat.toDigits 10 n).flatMap String.utf8EncodeChar

theorem digits_ne_nil (n : Nat) : digits n ≠ [] := by
  obtain ⟨c, cs, hdigits⟩ := List.exists_cons_of_ne_nil
    (Nat.toDigits_ne_nil (n := n) (b := 10))
  have hc : c.isDigit = true :=
    Nat.isDigit_of_mem_toDigits (by decide) (by decide) (hdigits ▸ List.mem_cons_self)
  obtain ⟨b, hb, -⟩ := encode_digit hc
  simp [digits, hdigits, hb]

private theorem isDigit_of_mem (n : Nat) : ∀ c ∈ Nat.toDigits 10 n, c.isDigit = true := fun _ hc ↦
  Nat.isDigit_of_mem_toDigits (by decide) (by decide) hc

theorem isDigitByte_of_mem_digits {n : Nat} : ∀ b ∈ digits n, isDigitByte b = true :=
  (digits_spec (isDigit_of_mem n)).1

theorem digitsValue_digits (n : Nat) : digitsValue (digits n) = n :=
  ((digits_spec (isDigit_of_mem n)).2 0).trans Nat.ofDigitChars_ten_toDigits

/-- A frame is an announcement, the length of the body, and the body. -/
theorem encode_eq_digits (body : String) :
    encode body =
      announcement ++ (digits body.utf8ByteSize ++ (headerEnd ++ Utf8.encode body)) := by
  have hnumber : Utf8.encode (toString body.utf8ByteSize) = digits body.utf8ByteSize := by
    rw [Utf8.encode_eq_flatMap, digits, Nat.toString_eq_ofList_toDigits, String.toList_ofList]
  rw [← hnumber, announcement, headerEnd, ← List.append_assoc, ← List.append_assoc,
    ← Utf8.encode_append, ← Utf8.encode_append]
  rfl

theorem encode_ne_nil (body : String) : encode body ≠ [] := by
  simp [encode_eq_digits, digits_ne_nil]

/-- The first frame of bytes that begin with a frame. -/
theorem first?_encode (body : String) (rest : Bytes) :
    first? (encode body ++ rest) = some (Utf8.encode body, rest) := by
  refine first?_eq_some_iff.mpr ⟨digits body.utf8ByteSize, digits_ne_nil _,
    isDigitByte_of_mem_digits, ?_, ?_⟩
  · rw [digitsValue_digits, Utf8.length_encode]
  · simp only [encode_eq_digits, List.append_assoc]

/-- Frames with the same bytes have the same body. -/
theorem encode_injective {s t : String} (h : encode s = encode t) : s = t := by
  have hs := first?_encode s []
  rw [h, first?_encode t []] at hs
  have hbytes : Utf8.encode t = Utf8.encode s := congrArg Prod.fst (Option.some.inj hs)
  have htext := Utf8.decode?_encode t
  rw [hbytes, Utf8.decode?_encode] at htext
  exact Option.some.inj htext

/-! ### Several frames -/

/-- The first frame stays the first when more bytes come. -/
theorem first?_append {body : Bytes} (h : first? bytes = some (body, rest)) (more : Bytes) :
    first? (bytes ++ more) = some (body, rest ++ more) := by
  obtain ⟨ds, hne, hds, hlength, rfl⟩ := first?_eq_some_iff.mp h
  exact first?_eq_some_iff.mpr ⟨ds, hne, hds, hlength, by simp only [List.append_assoc]⟩

/-- In the beginning of a sequence of frames the first bodies are found. -/
theorem splitUpTo_isPrefix {count : Nat} {bodies : List String}
    (h : bytes <+: bodies.flatMap encode) :
    (splitUpTo count bytes).1 <+: bodies.map Utf8.encode := by
  induction count generalizing bytes bodies with
  | zero => exact List.nil_prefix
  | succ count ih =>
    unfold splitUpTo
    cases hfirst : first? bytes with
    | none => exact List.nil_prefix
    | some found =>
      obtain ⟨body, rest⟩ := found
      obtain ⟨more, hmore⟩ := h
      have hlonger := first?_append hfirst more
      rw [hmore] at hlonger
      cases bodies with
      | nil => cases hlonger
      | cons b bodies =>
        rw [List.flatMap_cons, first?_encode] at hlonger
        obtain ⟨rfl, hrest⟩ := Prod.mk.inj (Option.some.inj hlonger)
        rw [List.map_cons]
        exact (List.prefix_cons_inj _).mpr (ih ⟨more, hrest.symm⟩)

/-- In the beginning of a sequence of frames the first bodies are found. -/
theorem split_isPrefix {bodies : List String} (h : bytes <+: bodies.flatMap encode) :
    (split bytes).1 <+: bodies.map Utf8.encode :=
  splitUpTo_isPrefix h

end LanguageHub.Frame
