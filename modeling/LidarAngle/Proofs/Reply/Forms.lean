import LidarAngle.Proofs.Reply.Binary

/-!
# The forms of a calibration

A field can be written as any integer that agrees with its value modulo the width of the field:
with a sign in base ten, if the integer fits a signed word, or without a sign in base sixteen, if
it fits an unsigned word. Zeros in front never count, nor does the case of letters. Whatever form
is chosen for each field, the calibration is read back.

## Main definitions

* `Reply.Spells` - the forms of a field

## Main statements

* `Reply.Spells.exists_word?` - a form is read as an integer that agrees with the value
* `Reply.decodeText_spelled` - all forms of a calibration are read back
-/

namespace LidarAngle.Reply

/-- The marks of hexadecimal numbers, the empty one included. -/
def marks : List (List Char) :=
  [[], ['0', 'x'], ['0', 'X']]

/-- In front of digits the mark alone is taken off, as its letter is no digit. -/
theorem unmarked_mark_append {mark digits : List Char} (hmark : mark ∈ marks)
    (hlower : 'x' ∉ digits) (hupper : 'X' ∉ digits) : unmarked (mark ++ digits) = digits := by
  have hunmarked : ∀ m ∈ marks, unmarked m = [] := by decide
  rw [unmarked_append mark hlower hupper, hunmarked mark hmark, List.nil_append]

/-- The token is a form of a field that has the given width and value. -/
inductive Spells (bits : ℕ) (value : ℤ) : List Char → Prop
  -- A sign, zeros, and the decimal digits of a magnitude.
  | signed (negative : Bool) (zeros n : ℕ)
      (hlow : -2 ^ 63 ≤ withSign negative n) (hhigh : withSign negative n < 2 ^ 63)
      (hvalue : withSign negative n ≡ value [ZMOD 2 ^ bits]) :
      Spells bits value (sign negative :: (List.replicate zeros '0' ++ Nat.toDigits 10 n))
  -- A mark, zeros, and the hexadecimal digits of a number, each in either case.
  | unsigned (mark : List Char) (hmark : mark ∈ marks) (zeros n : ℕ) (digits : List Char)
      (hdigits : digits.map Char.toLower = Nat.toDigits 16 n) (hlt : n < 2 ^ 64)
      (hvalue : n ≡ value [ZMOD 2 ^ bits]) :
      Spells bits value (mark ++ (List.replicate zeros '0' ++ digits))

namespace Spells

variable {bits : ℕ} {value : ℤ} {token : List Char}

theorem exists_word? (h : Spells bits value token) :
    ∃ v : ℤ, word? token = some (.ofInt v) ∧ v ≡ value [ZMOD 2 ^ bits] := by
  cases h with
  | signed negative zeros n hlow hhigh hvalue =>
    refine ⟨withSign negative n, ?_, hvalue⟩
    rw [word?_sign_cons]
    exact signed?_eq_some_iff.2 ⟨n, Numeral.decimal?_toDigits zeros n, hlow, hhigh, rfl⟩
  | unsigned mark hmark zeros n digits hdigits hlt hvalue =>
    have hnumeral := Numeral.hexadecimal?_toDigits hdigits zeros
    have hsign : ∀ negative, ∀ m ∈ marks, sign negative ∉ m := by decide
    refine ⟨n, ?_, hvalue⟩
    rw [word?_of_not_isSigned, unmarked_mark_append hmark]
    · exact unsigned?_eq_some_iff.2 ⟨n, hnumeral, hlt, (Calibration.ofNat_eq_ofInt n).symm⟩
    · exact Numeral.notMem_of_value? (by decide) hnumeral
    · exact Numeral.notMem_of_value? (by decide) hnumeral
    · apply not_isSigned_of_notMem
      intro negative hm
      rcases List.mem_append.1 hm with hm | hm
      · exact hsign negative mark hmark hm
      · exact Numeral.notMem_of_value? (value?_sign negative) hnumeral hm

theorem space_notMem (h : Spells bits value token) : ' ' ∉ token := by
  cases h with
  | signed negative zeros n hlow hhigh hvalue =>
    have hsign : ∀ negative, ' ' ≠ sign negative := by decide
    rw [List.mem_cons, not_or]
    exact ⟨hsign negative, Numeral.notMem_of_value? (by decide) (Numeral.decimal?_toDigits zeros n)⟩
  | unsigned mark hmark zeros n digits hdigits hlt hvalue =>
    have hmarks : ∀ m ∈ marks, ' ' ∉ m := by decide
    rw [List.mem_append, not_or]
    exact ⟨hmarks mark hmark,
      Numeral.notMem_of_value? (by decide) (Numeral.hexadecimal?_toDigits hdigits zeros)⟩

theorem ne_nil (h : Spells bits value token) : token ≠ [] := by
  rintro rfl
  obtain ⟨v, hword, -⟩ := h.exists_word?
  have hnil : word? [] = none := rfl
  rw [hnil] at hword
  exact absurd hword (by simp)

end Spells

/-- Three forms are read as the calibration that has their values. -/
theorem decodeTokens_spelled {c : Calibration} {amplitude phase offset : List Char}
    (hamplitude : Spells 16 c.amplitude.toInt amplitude) (hphase : Spells 32 c.phase.toInt phase)
    (hoffset : Spells 16 c.offset.toInt offset) (marker command : List Char) :
    decodeTokens [marker, command, amplitude, phase, offset] = .ok c := by
  obtain ⟨u, hu, hucongr⟩ := hamplitude.exists_word?
  obtain ⟨v, hv, hvcongr⟩ := hphase.exists_word?
  obtain ⟨w, hw, hwcongr⟩ := hoffset.exists_word?
  rw [decodeTokens, readField_of_word? hu, readField_of_word? hv, readField_of_word? hw]
  show Except.ok (Calibration.ofWords (.ofInt u) (.ofInt v) (.ofInt w)) = .ok c
  rw [Calibration.ofWords, (Calibration.low16_ofInt_eq_iff u _).2 hucongr,
    (Calibration.low32_ofInt_eq_iff v _).2 hvcongr, (Calibration.low16_ofInt_eq_iff w _).2 hwcongr]

/-- Whatever form is chosen for each field, and whatever the marker and the command are, the text
is read as the calibration, with or without a space at its end. So is the binary reply. -/
theorem decodeText_spelled {c : Calibration} {marker command amplitude phase offset : List Char}
    (hmarker : ' ' ∉ marker) (hcommand : ' ' ∉ command)
    (hamplitude : Spells 16 c.amplitude.toInt amplitude) (hphase : Spells 32 c.phase.toInt phase)
    (hoffset : Spells 16 c.offset.toInt offset) :
    decodeText ([' '].intercalate [marker, command, amplitude, phase, offset]) = .ok c ∧
      decodeText ([' '].intercalate [marker, command, amplitude, phase, offset] ++ [' ']) = .ok c ∧
      (decode .binary (compose "sRA MCAngleCompSin ".toList c)).result = .ok c := by
  have hpieces : ∀ piece ∈ [marker, command, amplitude, phase, offset], ' ' ∉ piece := by
    simp [hmarker, hcommand, hamplitude.space_notMem, hphase.space_notMem, hoffset.space_notMem]
  have hlast : [marker, command, amplitude, phase, offset].getLast? ≠ some [] := by
    simpa using hoffset.ne_nil
  have hread := decodeTokens_spelled hamplitude hphase hoffset marker command
  refine ⟨?_, ?_, ?_⟩
  · rw [decodeText, tokens_intercalate hpieces (by simp) hlast, hread]
  · rw [decodeText, tokens_intercalate_append_space hpieces (by simp), hread]
  · rw [compose, result_decode_binary_of_terminated (by decide) (by decide) (length_payload c),
      Calibration.ofPayload_payload]

/-- An empty marker, zeros in front of the least amplitude, the widened word of the least phase in
mixed case behind a mark, and a negative zero. -/
theorem decodeText_spelled_extremes :
    decodeText " Ω -0032768 0xFffFFfff80000000 -0".toList = .ok ⟨-32768, -2147483648, 0⟩ ∧
      decodeText " Ω -0032768 0xFffFFfff80000000 -0 ".toList = .ok ⟨-32768, -2147483648, 0⟩ ∧
      (decode .binary (compose "sRA MCAngleCompSin ".toList ⟨-32768, -2147483648, 0⟩)).result =
        .ok ⟨-32768, -2147483648, 0⟩ := by
  have hamplitude : Spells 16 (-32768 : Int16).toInt "-0032768".toList :=
    .signed true 2 32768 (by decide) (by decide) (by decide)
  have hphase : Spells 32 (-2147483648 : Int32).toInt "0xFffFFfff80000000".toList :=
    .unsigned ['0', 'x'] (by decide) 0 0xFFFFFFFF80000000 "FffFFfff80000000".toList (by decide)
      (by decide) (by decide)
  have hoffset : Spells 16 (0 : Int16).toInt "-0".toList :=
    .signed true 0 0 (by decide) (by decide) (by decide)
  have htext : " Ω -0032768 0xFffFFfff80000000 -0".toList = [' '].intercalate
      [[], ['Ω'], "-0032768".toList, "0xFffFFfff80000000".toList, "-0".toList] := by
    decide
  have hterminated : " Ω -0032768 0xFffFFfff80000000 -0 ".toList = [' '].intercalate
      [[], ['Ω'], "-0032768".toList, "0xFffFFfff80000000".toList, "-0".toList] ++ [' '] := by
    decide
  rw [htext, hterminated]
  exact decodeText_spelled (c := ⟨-32768, -2147483648, 0⟩) (by simp) (by decide)
    hamplitude hphase hoffset

end LidarAngle.Reply
