import LidarAngle.Proofs.Reply.Acceptance
import LidarAngle.Proofs.Reply.Forms
import LidarAngle.Proofs.Text.Positional

/-!
# The tokens that are words

A field reads a token that begins with a sign as a decimal number and any other token as a
hexadecimal one, which may begin with a mark. Whether the number fits is decided by its value, so
that zeros in front never matter. A token that is not read is at fault as it stands.

## Main statements

* `Reply.readField_cases` - the tokens that a field reads, and the words they are read as
-/

namespace LidarAngle.Reply

theorem toNat_ofInt (v : ℤ) : ((UInt64.ofInt v).toNat : ℤ) = v % 2 ^ 64 := by
  show (((v % 2 ^ 64).toNat % 2 ^ 64 : ℕ) : ℤ) = v % 2 ^ 64
  omega

/-- A word is that of an integer if it is the remainder of the integer. -/
theorem eq_ofInt_iff {word : UInt64} {v : ℤ} :
    word = .ofInt v ↔ (word.toNat : ℤ) = v % 2 ^ 64 := by
  rw [← toNat_ofInt, Nat.cast_inj, UInt64.toNat_inj]

theorem exists_mark_append (token : List Char) :
    ∃ mark ∈ marks, token = mark ++ unmarked token := by
  unfold unmarked
  split
  · exact ⟨['0', 'x'], by decide, rfl⟩
  · exact ⟨['0', 'X'], by decide, rfl⟩
  · exact ⟨[], by decide, rfl⟩

/-- A sign and a decimal number that fits a signed word. -/
theorem word?_sign_cons_eq_some_iff {negative : Bool} {digits : List Char} {word : UInt64} :
    word? (sign negative :: digits) = some word ↔
      ∃ n, Numeral.Writes 10 n digits ∧ -2 ^ 63 ≤ withSign negative n ∧
        withSign negative n < 2 ^ 63 ∧ (word.toNat : ℤ) = withSign negative n % 2 ^ 64 := by
  rw [word?_sign_cons, signed?_eq_some_iff]
  simp only [Numeral.decimal?_eq_some_iff, eq_ofInt_iff]

/-- At most one mark and a hexadecimal number that fits an unsigned word. -/
theorem word?_eq_some_iff_of_not_isSigned {token : List Char} (h : ¬IsSigned token)
    {word : UInt64} :
    word? token = some word ↔
      ∃ mark ∈ marks, ∃ digits n, token = mark ++ digits ∧ Numeral.Writes 16 n digits ∧
        n < 2 ^ 64 ∧ word.toNat = n := by
  have hword : ∀ n < 2 ^ 64, (word = .ofNat n ↔ word.toNat = n) := by
    intro n hn
    rw [← UInt64.toNat_inj, UInt64.toNat_ofNat_of_lt' hn]
  rw [word?_of_not_isSigned h, unsigned?_eq_some_iff]
  constructor
  · rintro ⟨n, hn, hlt, hvalue⟩
    obtain ⟨mark, hmark, htoken⟩ := exists_mark_append token
    exact ⟨mark, hmark, unmarked token, n, htoken, Numeral.hexadecimal?_eq_some_iff.1 hn, hlt,
      (hword n hlt).1 hvalue⟩
  · rintro ⟨mark, hmark, digits, n, rfl, hwrites, hlt, hvalue⟩
    have hn := Numeral.hexadecimal?_eq_some_iff.2 hwrites
    rw [unmarked_mark_append hmark (Numeral.notMem_of_value? (by decide) hn)
      (Numeral.notMem_of_value? (by decide) hn)]
    exact ⟨n, hn, hlt, (hword n hlt).2 hvalue⟩

/-- Behind a sign a field reads the decimal numbers that fit a signed word, and any other token as a
hexadecimal number that fits an unsigned word, behind one mark at most. Any other token is at fault
as it stands. -/
theorem readField_cases (field : Field) (token : List Char) :
    (∀ negative digits, token = sign negative :: digits → ∀ word,
      readField field token = .ok word ↔
        ∃ n, Numeral.Writes 10 n digits ∧ -2 ^ 63 ≤ withSign negative n ∧
          withSign negative n < 2 ^ 63 ∧ (word.toNat : ℤ) = withSign negative n % 2 ^ 64) ∧
    (¬IsSigned token → ∀ word,
      readField field token = .ok word ↔
        ∃ mark ∈ marks, ∃ digits n, token = mark ++ digits ∧ Numeral.Writes 16 n digits ∧
          n < 2 ^ 64 ∧ word.toNat = n) ∧
    ((∃ word, readField field token = .ok word) ∨
      readField field token = .error (.badField field token)) := by
  refine ⟨?_, ?_, ?_⟩
  · rintro negative digits rfl word
    rw [readField_eq_ok_iff, word?_sign_cons_eq_some_iff]
  · intro hsign word
    rw [readField_eq_ok_iff, word?_eq_some_iff_of_not_isSigned hsign]
  · cases hword : word? token with
    | none => exact .inr (readField_of_word?_eq_none hword field)
    | some word => exact .inl ⟨word, readField_of_word? hword⟩

/-- The least integer behind zeros, the least that is too large, and a second mark. -/
theorem readField_cases_limits :
    readField .phase "-009223372036854775808".toList = .ok 0x8000000000000000 ∧
      readField .phase "+9223372036854775808".toList =
        .error (.badField .phase "+9223372036854775808".toList) ∧
      readField .phase "0X0x5".toList = .error (.badField .phase "0X0x5".toList) := by
  refine ⟨?_, ?_, ?_⟩
  · obtain ⟨hsigned, -, -⟩ := readField_cases .phase "-009223372036854775808".toList
    exact (hsigned true "009223372036854775808".toList rfl _).2
      ⟨_, Numeral.decimal?_eq_some_iff.1 (by decide : _ = some 9223372036854775808), by decide,
        by decide, by decide⟩
  · obtain ⟨hsigned, -, hcases⟩ := readField_cases .phase "+9223372036854775808".toList
    refine hcases.resolve_left ?_
    rintro ⟨word, hword⟩
    obtain ⟨n, hn, -, hlt, -⟩ := (hsigned false "9223372036854775808".toList rfl word).1 hword
    have hvalue : Numeral.decimal? "9223372036854775808".toList = some 9223372036854775808 := by
      decide
    obtain rfl := Option.some.inj (hvalue.symm.trans (Numeral.decimal?_eq_some_iff.2 hn))
    exact absurd hlt (by decide)
  · obtain ⟨-, hunsigned, hcases⟩ := readField_cases .phase "0X0x5".toList
    refine hcases.resolve_left ?_
    rintro ⟨word, hword⟩
    have hsign : ¬IsSigned "0X0x5".toList := not_isSigned_of_notMem (by decide)
    obtain ⟨mark, hmark, digits, n, htoken, hn, -⟩ := (hunsigned hsign word).1 hword
    -- Whichever mark is taken off, the small letter stays.
    have hletter : ∀ m ∈ marks, 'x' ∈ "0X0x5".toList.drop m.length := by decide
    have hmem := hletter mark hmark
    rw [htoken, List.drop_left] at hmem
    exact Numeral.notMem_of_value? (by decide) (Numeral.hexadecimal?_eq_some_iff.2 hn) hmem

end LidarAngle.Reply
