import LidarAngle.Proofs.Text.Numeral
import Mathlib.Data.Nat.Digits.Defs

/-!
# Positional notation

A numeral is read exactly if it consists of digits below the base, one at least. What it stands for
is then the number that has these digits, however many of them are zeros in front.

## Main definitions

* `Numeral.Writes` - a text writes a number in a base

## Main statements

* `Numeral.decimal?_eq_some_iff`, `Numeral.hexadecimal?_eq_some_iff` - the numerals that are read,
  and their numbers
-/

namespace LidarAngle

namespace Hex

/-- The hexadecimal digits are those that numbers below sixteen are written with, in either case. -/
theorem value?_eq_some_iff {c : Char} {d : ℕ} :
    value? c = some d ↔ d < 16 ∧ c.toLower = d.digitChar := by
  constructor
  · intro h
    have hascii : ∀ n < 128, ∀ d ∈ value? (Char.ofNat n),
        d < 16 ∧ (Char.ofNat n).toLower = d.digitChar := by
      decide
    have hchar := hascii c.toNat (lt_of_value? h) d
    rw [Char.ofNat_toNat] at hchar
    exact hchar h
  · rintro ⟨hd, hc⟩
    have hdigit : ∀ d < 16, value? d.digitChar = some d := by decide
    rw [← value?_toLower, hc, hdigit d hd]

end Hex

namespace Numeral

/-- The text writes the number in the base: it is one digit or more, each in either case, the most
significant one first. -/
def Writes (base n : ℕ) (text : List Char) : Prop :=
  ∃ digits : List ℕ, digits ≠ [] ∧ (∀ digit ∈ digits, digit < base) ∧
    text.map Char.toLower = digits.map Nat.digitChar ∧ Nat.ofDigits base digits.reverse = n

theorem digit?_eq_some_iff {c : Char} {d : ℕ} :
    digit? c = some d ↔ d < 10 ∧ c.toLower = d.digitChar := by
  constructor
  · intro h
    have hascii : ∀ n < 128, ∀ d ∈ digit? (Char.ofNat n),
        d < 10 ∧ (Char.ofNat n).toLower = d.digitChar := by
      decide
    have hchar := hascii c.toNat (lt_of_digit? h) d
    rw [Char.ofNat_toNat] at hchar
    exact hchar h
  · rintro ⟨hd, hc⟩
    -- No capital letter becomes a digit in lower case.
    have hdigit : ∀ d < 10, 48 ≤ d.digitChar.toNat ∧ d.digitChar.toNat ≤ 57 ∧
        digit? d.digitChar = some d := by
      decide
    obtain ⟨hlow, hhigh, hread⟩ := hdigit d hd
    have hnat := Hex.toNat_toLower c
    rw [hc] at hnat
    split at hnat
    · omega
    · rw [← Char.toNat_inj.1 hnat, hread]

variable {base : ℕ} {read? : Char → Option ℕ}

theorem foldl_eq_ofDigits (digits : List ℕ) :
    digits.foldl (fun m digit => base * m + digit) 0 = Nat.ofDigits base digits.reverse := by
  rw [Nat.ofDigits_eq_foldr, List.foldr_reverse]
  simp only [Nat.cast_id, Nat.add_comm]

section Read

variable (hread : ∀ c d, read? c = some d ↔ d < base ∧ c.toLower = d.digitChar)
include hread

/-- Reading succeeds on digits and nothing else, and adds them up from the left. -/
theorem foldlM_eq_some_iff {text : List Char} {a n : ℕ} :
    text.foldlM (extend base read?) a = some n ↔
      ∃ digits : List ℕ, (∀ digit ∈ digits, digit < base) ∧
        text.map Char.toLower = digits.map Nat.digitChar ∧
        digits.foldl (fun m digit => base * m + digit) a = n := by
  induction text generalizing a with
  | nil =>
    constructor
    · intro h
      exact ⟨[], by simp, rfl, Option.some.inj h⟩
    · rintro ⟨digits, -, hmap, rfl⟩
      rw [List.map_eq_nil_iff.1 hmap.symm]
      rfl
  | cons c rest ih =>
    rw [List.foldlM_cons, Option.bind_eq_bind, Option.bind_eq_some_iff]
    constructor
    · rintro ⟨m, hm, hrest⟩
      obtain ⟨d, hd, rfl⟩ := Option.map_eq_some_iff.1 hm
      obtain ⟨hlt, hchar⟩ := (hread c d).1 hd
      obtain ⟨digits, hdigits, hmap, hvalue⟩ := ih.1 hrest
      refine ⟨d :: digits, ?_, ?_, hvalue⟩
      · rw [List.forall_mem_cons]
        exact ⟨hlt, hdigits⟩
      · rw [List.map_cons, List.map_cons, hchar, hmap]
    · rintro ⟨digits, hdigits, hmap, hvalue⟩
      obtain ⟨d, digits, rfl, hchar, hrest⟩ := List.map_eq_cons_iff.1 hmap.symm
      rw [List.forall_mem_cons] at hdigits
      have hd := (hread c d).2 ⟨hdigits.1, hchar.symm⟩
      refine ⟨base * a + d, ?_, ih.2 ⟨digits, hdigits.2, hrest.symm, hvalue⟩⟩
      rw [extend, hd, Option.map_some]

theorem value?_eq_some_iff {text : List Char} {n : ℕ} :
    value? base read? text = some n ↔ Writes base n text := by
  cases text with
  | nil =>
    refine iff_of_false (by simp) ?_
    rintro ⟨digits, hne, -, hmap, -⟩
    exact hne (List.map_eq_nil_iff.1 hmap.symm)
  | cons c rest =>
    rw [value?, foldlM_eq_some_iff hread, Writes]
    constructor
    · rintro ⟨digits, hdigits, hmap, hvalue⟩
      have hne : digits ≠ [] := by
        rintro rfl
        exact absurd hmap (by simp)
      exact ⟨digits, hne, hdigits, hmap, foldl_eq_ofDigits digits ▸ hvalue⟩
    · rintro ⟨digits, -, hdigits, hmap, hvalue⟩
      exact ⟨digits, hdigits, hmap, (foldl_eq_ofDigits digits).trans hvalue⟩

end Read

/-- The decimal numerals that are read, and their numbers. -/
theorem decimal?_eq_some_iff {text : List Char} {n : ℕ} :
    decimal? text = some n ↔ Writes 10 n text :=
  value?_eq_some_iff fun _ _ => digit?_eq_some_iff

/-- The hexadecimal numerals that are read, and their numbers. -/
theorem hexadecimal?_eq_some_iff {text : List Char} {n : ℕ} :
    hexadecimal? text = some n ↔ Writes 16 n text :=
  value?_eq_some_iff fun _ _ => Hex.value?_eq_some_iff

end Numeral

end LidarAngle
