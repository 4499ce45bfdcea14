import LidarAngle.Decimal.Layout
import LidarAngle.Proofs.Text.Numeral
import Mathlib

/-!
# Positional text

A number in the settings is written as the digits of a natural number, a point, and at least one
more digit. Without the point the digits are those of a count of the last place.

## Main statements

* `Decimal.exists_natural_eq_cons` - no zero in front
* `Decimal.positional_setting` - the parts of positional text
-/

namespace LidarAngle

namespace Decimal

theorem isDigit_of_mem_natural {n : ℕ} : ∀ c ∈ natural n, c.isDigit := fun _ hc =>
  Nat.isDigit_of_mem_toDigits (by decide) (by decide) hc

theorem natural_ne_nil (n : ℕ) : natural n ≠ [] :=
  Nat.toDigits_ne_nil

theorem decimal?_natural (n : ℕ) : Numeral.decimal? (natural n) = some n :=
  Numeral.decimal?_toDigits 0 n

/-- A positive number has no zero in front. -/
theorem exists_natural_eq_cons {n : ℕ} (h : 0 < n) :
    ∃ d rest, natural n = d :: rest ∧ d ≠ '0' := by
  unfold natural
  induction n using Nat.base_induction 10 (by decide) with
  | single d hd =>
    refine ⟨d.digitChar, [], Nat.toDigits_of_lt_base hd, ?_⟩
    rw [Ne, Nat.digitChar_eq_zero]
    exact h.ne'
  | digit n d hd hn ih =>
    obtain ⟨first, rest, hfirst, hne⟩ := ih hn
    rw [← Nat.toDigits_append_toDigits (by decide) hn hd, hfirst]
    exact ⟨first, _, List.cons_append, hne⟩

/-- Zeros behind a number multiply it. -/
theorem natural_append_zeros {k : ℕ} (h : 0 < k) (zeros : ℕ) :
    natural k ++ List.replicate zeros '0' = natural (k * 10 ^ zeros) := by
  induction zeros with
  | zero => simp
  | succ zeros ih =>
    have hpos : 0 < k * 10 ^ zeros := by positivity
    have hstep := @Nat.toDigits_append_toDigits 10 (k * 10 ^ zeros) 0 (by decide) hpos (by decide)
    rw [List.replicate_succ', ← List.append_assoc, ih, pow_succ, ← mul_assoc, mul_comm _ 10]
    exact hstep

/-- The digits behind the point, of which there are as many as places. -/
theorem leftpad_natural {r places : ℕ} (hplaces : 0 < places) (h : r < 10 ^ places) :
    ((natural r).leftpad places '0').length = places ∧
      (∀ c ∈ (natural r).leftpad places '0', c.isDigit) ∧
      Numeral.decimal? ((natural r).leftpad places '0') = some r := by
  have hlength : (natural r).length ≤ places :=
    (Nat.length_toDigits_le_iff (by decide) hplaces).2 h
  refine ⟨?_, ?_, Numeral.decimal?_toDigits _ r⟩
  · rw [List.length_leftpad, max_eq_left hlength]
  · intro c hc
    rcases List.mem_append.1 hc with hc | hc
    · rw [List.eq_of_mem_replicate hc]
      rfl
    · exact isDigit_of_mem_natural c hc

/-- Positional text is a whole part, a point, and some digits, which all together count the last
place. -/
theorem positional_setting {k : ℕ} (e : ℤ) (h : 0 < k ∨ e = 0) :
    ∃ n fraction count, Layout.setting.positional k e = natural n ++ '.' :: fraction ∧
      (∀ c ∈ fraction, c.isDigit) ∧ 0 < fraction.length ∧
      Numeral.decimal? (natural n ++ fraction) = some count ∧
      (count : ℚ) / 10 ^ fraction.length = k * 10 ^ e := by
  cases e with
  | ofNat zeros =>
    have hwhole : natural k ++ List.replicate zeros '0' = natural (k * 10 ^ zeros) := by
      rcases h with hpos | hzero
      · exact natural_append_zeros hpos zeros
      · obtain rfl : zeros = 0 := Int.ofNat.inj hzero
        simp
    refine ⟨k * 10 ^ zeros, ['0'], k * 10 ^ zeros * 10 ^ 1 + 0, ?_, by simp, by simp,
      Numeral.decimal?_append (decimal?_natural _) rfl, ?_⟩
    · rw [Layout.positional, hwhole]
      rfl
    · simp
  | negSucc p =>
    have hpos : 0 < 10 ^ (p + 1) := by positivity
    obtain ⟨hlength, hdigits, hvalue⟩ := leftpad_natural p.succ_pos (Nat.mod_lt k hpos)
    refine ⟨k / 10 ^ (p + 1), (natural (k % 10 ^ (p + 1))).leftpad (p + 1) '0', k, rfl, hdigits,
      hlength ▸ p.succ_pos, ?_, ?_⟩
    · rw [Numeral.decimal?_append (decimal?_natural _) hvalue, hlength, Nat.div_add_mod']
    · rw [hlength, zpow_negSucc, div_eq_mul_inv]

end Decimal

end LidarAngle
