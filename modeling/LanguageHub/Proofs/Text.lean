import LanguageHub.Text.Numeral
import LanguageHub.Text.Utf8

/-!
# Numerals and bytes of texts

A text is read as a number if and only if it is a numeral (`readNumeral_eq_ok_iff`), and the digits
of a number are read as the number. Encoding goes character by character, and only the line feed is
written with the byte of a line feed: the lines of a text can be found in its bytes.
-/

namespace LanguageHub.Text

theorem le_ofDigitChars (cs : List Char) (value : Nat) :
    value ≤ Nat.ofDigitChars 10 cs value := by
  induction cs generalizing value with
  | nil => simp
  | cons c cs ih =>
    rw [Nat.ofDigitChars_cons]
    have := ih (10 * value + (c.toNat - '0'.toNat))
    omega

/-- A text is read as a number if and only if it consists of digits, the number is the value of the
digits behind those that were read before, and it is not too great. -/
theorem readDigits_eq_ok_iff {greatest value n : Nat} {cs : List Char} (small : value ≤ greatest) :
    readDigits greatest value cs = .ok n ↔
      (∀ c ∈ cs, c.isDigit = true) ∧ n = Nat.ofDigitChars 10 cs value ∧ n ≤ greatest := by
  induction cs generalizing value with
  | nil =>
    rw [readDigits, Except.ok.injEq, Nat.ofDigitChars_nil]
    exact ⟨fun h ↦ ⟨nofun, h.symm, h ▸ small⟩, fun h ↦ h.2.1.symm⟩
  | cons c cs ih =>
    rw [readDigits, digitValue?, List.forall_mem_cons, Nat.ofDigitChars_cons]
    by_cases digit : c.isDigit = true
    · rw [if_pos digit, Nat.mul_comm 10]
      dsimp only
      split
      · next fits => rw [ih fits, and_iff_right digit]
      · next great =>
        have := le_ofDigitChars cs (value * 10 + (c.toNat - '0'.toNat))
        refine ⟨nofun, ?_⟩
        rintro ⟨-, rfl, fits⟩
        omega
    · rw [if_neg digit]
      exact ⟨nofun, fun h ↦ absurd h.1.1 digit⟩

/-- A numeral and its value: an optional plus sign and one or more digits, zeros in front
included. -/
inductive IsNumeral : List Char → Nat → Prop
  | unsigned {digits : List Char} (nonempty : digits ≠ [])
      (all : ∀ c ∈ digits, c.isDigit = true) : IsNumeral digits (Nat.ofDigitChars 10 digits 0)
  | signed {digits : List Char} (nonempty : digits ≠ [])
      (all : ∀ c ∈ digits, c.isDigit = true) :
      IsNumeral ('+' :: digits) (Nat.ofDigitChars 10 digits 0)

/-- A text is read as a number if and only if it is a numeral and its value is not too great. -/
theorem readNumeral_eq_ok_iff {greatest n : Nat} {cs : List Char} :
    readNumeral greatest cs = .ok n ↔ IsNumeral cs n ∧ n ≤ greatest := by
  have signless {ds : List Char} : ¬ ∀ c ∈ '+' :: ds, c.isDigit = true :=
    fun all ↦ absurd (all '+' List.mem_cons_self) (by decide)
  unfold readNumeral
  split
  · refine ⟨nofun, ?_⟩
    rintro ⟨⟨nonempty, -⟩, -⟩
    exact absurd rfl nonempty
  · next ds =>
    split
    · next bare =>
      rw [List.isEmpty_iff] at bare
      refine ⟨nofun, ?_⟩
      rintro ⟨⟨-, all⟩ | ⟨nonempty, -⟩, -⟩
      · exact absurd all signless
      · exact absurd bare nonempty
    · next digits =>
      rw [readDigits_eq_ok_iff (Nat.zero_le greatest)]
      constructor
      · rintro ⟨all, rfl, fits⟩
        exact ⟨.signed (mt List.isEmpty_iff.mpr digits) all, fits⟩
      · rintro ⟨⟨-, all⟩ | ⟨-, all⟩, fits⟩
        · exact absurd all signless
        · exact ⟨all, rfl, fits⟩
  · next nonempty unsigned =>
    rw [readDigits_eq_ok_iff (Nat.zero_le greatest)]
    constructor
    · rintro ⟨all, rfl, fits⟩
      exact ⟨.unsigned nonempty all, fits⟩
    · rintro ⟨⟨-, all⟩ | ⟨-, -⟩, fits⟩
      · exact ⟨all, rfl, fits⟩
      · exact absurd rfl (unsigned _)

/-- A number is read back from its digits. -/
theorem readNumeral_toDigits {greatest n : Nat} (hn : n ≤ greatest) :
    readNumeral greatest (Nat.toDigits 10 n) = .ok n := by
  have numeral : IsNumeral (Nat.toDigits 10 n) (Nat.ofDigitChars 10 (Nat.toDigits 10 n) 0) :=
    .unsigned Nat.toDigits_ne_nil fun _ hc ↦
      Nat.isDigit_of_mem_toDigits (by decide) (by decide) hc
  rw [Nat.ofDigitChars_ten_toDigits] at numeral
  exact readNumeral_eq_ok_iff.mpr ⟨numeral, hn⟩

end LanguageHub.Text

namespace LanguageHub.Utf8

/-- The bytes of two texts behind each other. -/
theorem encode_append (s t : String) : encode (s ++ t) = encode s ++ encode t := by
  simp [encode]

/-- A text has as many bytes as its size says. -/
theorem length_encode (s : String) : (encode s).length = s.utf8ByteSize := by
  rw [encode, Array.length_toList]
  rfl

/-- The bytes of a text are those of its characters. -/
theorem encode_eq_flatMap (s : String) : encode s = s.toList.flatMap String.utf8EncodeChar := by
  rw [encode, ← String.utf8Encode_toList, List.utf8Encode, List.toList_data_toByteArray]

private theorem ofNat_eq_lineFeed {n : Nat} (hn : n < 256) (h : (0x0A : UInt8) = .ofNat n) :
    n = 10 := by
  have := congrArg UInt8.toNat h
  rw [UInt8.toNat_ofNat_of_lt' hn] at this
  exact this.symm

/-- Only the line feed has the byte of a line feed among its bytes. -/
theorem eq_of_lineFeed_mem {c : Char} (h : (0x0A : UInt8) ∈ String.utf8EncodeChar c) :
    c = '\n' := by
  -- A character of several bytes has none below 0x80.
  have key : c.val.toNat = 10 := by
    unfold String.utf8EncodeChar at h
    simp only at h
    split at h
    · next hc => exact ofNat_eq_lineFeed (by omega) (by simpa using h)
    · exfalso
      split at h
      · simp only [List.mem_cons, List.not_mem_nil, or_false] at h
        rcases h with h | h <;> have := ofNat_eq_lineFeed (by omega) h <;> omega
      · split at h
        · simp only [List.mem_cons, List.not_mem_nil, or_false] at h
          rcases h with h | h | h <;> have := ofNat_eq_lineFeed (by omega) h <;> omega
        · simp only [List.mem_cons, List.not_mem_nil, or_false] at h
          rcases h with h | h | h | h <;> have := ofNat_eq_lineFeed (by omega) h <;> omega
  exact Char.ext (UInt32.toNat_inj.mp key)

/-- A text without line feeds has no byte of a line feed. -/
theorem lineFeed_not_mem_encode {s : String} (h : '\n' ∉ s.toList) :
    (0x0A : UInt8) ∉ encode s := by
  rw [encode_eq_flatMap, List.mem_flatMap]
  rintro ⟨c, hc, hb⟩
  exact h (eq_of_lineFeed_mem hb ▸ hc)

end LanguageHub.Utf8
