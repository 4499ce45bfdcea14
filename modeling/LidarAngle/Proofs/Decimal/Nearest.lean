import LidarAngle.Decimal.Nearest
import LidarAngle.Decimal.Shortest
import LidarAngle.Proofs.Decimal.Rounding

/-!
# Reading decimals

The numbers that a decimal is read as a given binary number from are an interval around that number,
which for the least mantissa reaches half as far down as up.

## Main definitions

* `Decimal.RoundsTo` - the interval

## Main statements

* `Decimal.ofScientific_eq` - a decimal in the interval is read as the binary number
* `Decimal.toFloat_eq`, `Decimal.toFloat_zero` - the same with a sign, and zero
-/

namespace LidarAngle.Decimal

open Float.Model Float.Model.UnpackedFloat

variable {v : ℚ} {m : ℕ} {q : ℤ}

/-- The number is rounded to `m * 2 ^ q`. -/
def RoundsTo (v : ℚ) (m : ℕ) (q : ℤ) : Prop :=
  if m % 2 = 0 then lowQuarters m q * 2 ^ (q - 2) ≤ v ∧ v ≤ highQuarters m * 2 ^ (q - 2)
  else lowQuarters m q * 2 ^ (q - 2) < v ∧ v < highQuarters m * 2 ^ (q - 2)

theorem RoundsTo.bounds (h : RoundsTo v m q) :
    lowQuarters m q * 2 ^ (q - 2) ≤ v ∧ v ≤ highQuarters m * 2 ^ (q - 2) := by
  unfold RoundsTo at h
  split at h
  · exact h
  · exact ⟨h.1.le, h.2.le⟩

theorem le_lowQuarters (m : ℕ) (q : ℤ) : 4 * m ≤ lowQuarters m q + 2 := by
  unfold lowQuarters
  split
  · omega
  · omega

theorem zpow_add_quarter (q : ℤ) (n : ℕ) : (2 : ℚ) ^ (q - 2 + n) = 2 ^ n * 2 ^ (q - 2) := by
  rw [zpow_add₀ (by norm_num), zpow_natCast, mul_comm]

/-- In units of its own last place a number is near the mantissa that it is rounded to. -/
theorem RoundsTo.isNear (h : RoundsTo v m q) : IsNear (v / 2 ^ q) m := by
  have hunit : (0 : ℚ) < 2 ^ (q - 2) := zpow_pos (by norm_num) _
  have hplace : (2 : ℚ) ^ q = 4 * 2 ^ (q - 2) := by
    have := zpow_add_quarter q 2
    rw [Nat.cast_ofNat, sub_add_cancel] at this
    rw [this]
    norm_num
  have hlow : (4 * m : ℚ) ≤ lowQuarters m q + 2 := by exact_mod_cast le_lowQuarters m q
  have hhigh : (highQuarters m : ℚ) = 4 * m + 2 := by
    rw [highQuarters]
    push_cast
    rfl
  have hlow' := mul_le_mul_of_nonneg_right hlow hunit.le
  rw [hplace]
  unfold IsNear RoundsTo at *
  rw [hhigh] at h
  split
  · next heven =>
    rw [if_pos heven] at h
    rw [le_div_iff₀ (by positivity), div_le_iff₀ (by positivity)]
    constructor
    · linarith
    · linarith
  · next hodd =>
    rw [if_neg hodd] at h
    rw [lt_div_iff₀ (by positivity), div_lt_iff₀ (by positivity)]
    constructor
    · linarith
    · linarith

/-- A number is rounded in units of the last place of its binary number, or in half such units with
a carry. -/
theorem RoundsTo.exists_place (h : RoundsTo v m q) (hcanonical : IsCanonical m q) :
    ∃ (t : ℤ) (k : ℕ), -1074 ≤ t ∧ ((2 : ℚ) ^ (t + 52) ≤ v ∨ t = -1074) ∧ v < 2 ^ (t + 53) ∧
      IsNear (v / 2 ^ t) k ∧ ((k = m ∧ t = q) ∨ (k = 2 * m ∧ t + 1 = q)) := by
  obtain ⟨hlow, hhigh⟩ := h.bounds
  have hunit : (0 : ℚ) < 2 ^ (q - 2) := zpow_pos (by norm_num) _
  have hm := hcanonical.lt
  by_cases hplace : (2 : ℚ) ^ (q + 52) ≤ v ∨ q = -1074
  · refine ⟨q, m, hcanonical.least, hplace, ?_, h.isNear, .inl ⟨rfl, rfl⟩⟩
    have hmax : (highQuarters m : ℚ) < 2 ^ 55 := by
      have : highQuarters m < 2 ^ 55 := by rw [highQuarters]; omega
      exact_mod_cast this
    have hsum : q + 53 = q - 2 + (55 : ℕ) := by omega
    rw [hsum, zpow_add_quarter]
    exact hhigh.trans_lt (mul_lt_mul_of_pos_right hmax hunit)
  -- Below the least full mantissa the places are half as wide.
  · obtain ⟨hbelow, hq⟩ := not_or.1 hplace
    have hleast := hcanonical.least
    have hsum : q + 52 = q - 2 + (54 : ℕ) := by omega
    rw [hsum, zpow_add_quarter, not_le] at hbelow
    have hquarters : lowQuarters m q < 2 ^ 54 := by
      have := lt_of_mul_lt_mul_right (hlow.trans_lt hbelow) hunit.le
      exact_mod_cast this
    have hfull : m = 2 ^ 52 := by
      have := le_lowQuarters m q
      have := hcanonical.full.resolve_right hq
      have : 4 * m < 4 * 2 ^ 52 + 2 := by omega
      omega
    have heq : (lowQuarters m q : ℚ) = 2 ^ 54 - 1 := by
      rw [lowQuarters, if_pos ⟨hfull, by omega⟩, hfull]
      norm_num
    have hhalf : (2 : ℚ) ^ (q - 1) = 2 * 2 ^ (q - 2) := by
      have := zpow_add_quarter q 1
      rw [pow_one, Nat.cast_one] at this
      rw [← this]
      congr 1
      omega
    have hsum' : q - 1 + 52 = q - 2 + (53 : ℕ) := by omega
    have hsum'' : q - 1 + 53 = q - 2 + (54 : ℕ) := by omega
    rw [heq] at hlow
    refine ⟨q - 1, 2 * m, by omega, .inl ?_, ?_, ?_, .inr ⟨rfl, by omega⟩⟩
    · rw [hsum', zpow_add_quarter]
      linarith
    · rw [hsum'', zpow_add_quarter]
      exact hbelow
    · rw [IsNear, if_pos (Nat.mul_mod_right 2 m), hhalf, le_div_iff₀ (by positivity),
        div_le_iff₀ (by positivity), hfull]
      push_cast
      constructor
      · linarith
      · linarith

/-- The quotient of two numbers is taken in units that are fine enough. -/
theorem divCore_eq {num den : ℕ} (e₁ e₂ : ℤ) (hnum : 0 < num) (hden : 0 < den) :
    ∃ s : ℕ, divCore Format.binary64 num e₁ den e₂ =
        (num * 2 ^ s / den, e₁ - e₂ - s, accuracyOfFraction (num * 2 ^ s % den) den) ∧
      (2 ^ 52 ≤ num * 2 ^ s / den ∨ e₁ - e₂ - s ≤ -1074) := by
  obtain ⟨t, ht⟩ : ∃ t : ℤ, t = min (e₁ - e₂)
      (max ((num.log2 : ℤ) + 1 + e₁ - (den.log2 + 1 + e₂) - 53) (-1074)) := ⟨_, rfl⟩
  have hcore : divCore Format.binary64 num e₁ den e₂ =
      (num <<< (e₁ - e₂ - t).toNat / den, t,
        accuracyOfFraction (num <<< (e₁ - e₂ - t).toNat % den) den) := by
    rw [ht]
    rfl
  have hexponent : e₁ - e₂ - ((e₁ - e₂ - t).toNat : ℤ) = t := by omega
  refine ⟨(e₁ - e₂ - t).toNat, ?_, ?_⟩
  · rw [hcore, hexponent, Nat.shiftLeft_eq]
  · by_cases hleast : t ≤ -1074
    · right
      omega
    · left
      have hlow := Nat.log2_self_le hnum.ne'
      have hhigh : den < 2 ^ (den.log2 + 1) := Nat.lt_log2_self
      rw [Nat.le_div_iff_mul_le hden]
      calc 2 ^ 52 * den ≤ 2 ^ 52 * 2 ^ (den.log2 + 1) := Nat.mul_le_mul_left _ hhigh.le
        _ = 2 ^ (52 + (den.log2 + 1)) := (pow_add ..).symm
        _ ≤ 2 ^ (num.log2 + (e₁ - e₂ - t).toNat) := Nat.pow_le_pow_right (by decide) (by omega)
        _ = 2 ^ num.log2 * 2 ^ (e₁ - e₂ - t).toNat := pow_add ..
        _ ≤ num * 2 ^ (e₁ - e₂ - t).toNat := Nat.mul_le_mul_right _ hlow

theorem RoundsTo.le (hcanonical : IsCanonical m q) (h : RoundsTo v m q) :
    (2 : ℚ) ^ (-1076 : ℤ) ≤ v := by
  have hpos := hcanonical.pos
  have hleast := hcanonical.least
  have hone : (1 : ℚ) ≤ lowQuarters m q := by
    have := le_lowQuarters m q
    have : 1 ≤ lowQuarters m q := by omega
    exact_mod_cast this
  calc (2 : ℚ) ^ (-1076 : ℤ) ≤ 2 ^ (q - 2) := zpow_le_zpow_right₀ (by norm_num) (by omega)
    _ ≤ lowQuarters m q * 2 ^ (q - 2) := le_mul_of_one_le_left (by positivity) hone
    _ ≤ v := h.bounds.1

theorem RoundsTo.pos (hcanonical : IsCanonical m q) (h : RoundsTo v m q) : 0 < v :=
  (zpow_pos (by norm_num) _).trans_le (h.le hcanonical)

/-- A number that is rounded to a binary number is not too small for a decimal of as many places. -/
theorem RoundsTo.places_le {digits places : ℕ} (hcanonical : IsCanonical m q)
    (h : RoundsTo (digits / 10 ^ places) m q) : places ≤ 2048 + digits.log2 := by
  by_contra hgt
  have hdigits : (digits : ℚ) ≤ 2 ^ (digits.log2 + 1) := by
    exact_mod_cast Nat.lt_log2_self.le
  have hten : (8 : ℚ) ^ places ≤ 10 ^ places := pow_le_pow_left₀ (by norm_num) (by norm_num) _
  have hhigh : (digits : ℚ) / 10 ^ places ≤ 2 ^ (digits.log2 + 1) / 8 ^ places :=
    div_le_div₀ (by positivity) hdigits (by positivity) hten
  have hpower : (2 : ℚ) ^ (digits.log2 + 1) / 8 ^ places =
      2 ^ ((digits.log2 : ℤ) + 1 - 3 * places) := by
    rw [zpow_sub₀ (by norm_num), zpow_mul]
    norm_cast
  have hlt : (2 : ℚ) ^ ((digits.log2 : ℤ) + 1 - 3 * places) < 2 ^ (-1076 : ℤ) :=
    zpow_lt_zpow_right₀ (by norm_num) (by omega)
  rw [hpower] at hhigh
  exact absurd ((h.le hcanonical).trans hhigh) (not_le.2 hlt)

/-- A decimal that is rounded to a binary number is read as that. -/
theorem ofScientific_eq {digits places : ℕ} (hplaces : 0 < places) (hcanonical : IsCanonical m q)
    (h : RoundsTo (digits / 10 ^ places) m q) :
    UnpackedFloat.ofScientific Format.binary64 digits (-places) =
      .finite .positive m q hcanonical.pos := by
  have hle := h.places_le hcanonical
  have hdigits : 0 < digits := by
    have hpos := h.pos hcanonical
    rw [Nat.pos_iff_ne_zero]
    rintro rfl
    simp at hpos
  obtain ⟨s, hcore, hfine⟩ := divCore_eq 0 0 hdigits (Nat.pow_pos (by decide) : 0 < 10 ^ places)
  obtain ⟨t, k, hleast, hlow, hhigh, hnear, hcarry⟩ := h.exists_place hcanonical
  have hplaces' : (-(-(places : ℤ))).toNat = places := by omega
  have hbelow : ¬-(places : ℤ) > 2 ^ 11 := by omega
  have habove : ¬-(places : ℤ) < -(2 ^ 11 + digits.log2) := by omega
  have hvalue : ((digits * 2 ^ s : ℕ) : ℚ) / (10 ^ places : ℕ) * 2 ^ (0 - 0 - s : ℤ) =
      digits / 10 ^ places := by
    rw [sub_self, zero_sub, zpow_neg, zpow_natCast]
    push_cast
    field_simp
  rw [← hvalue] at hlow hhigh hnear
  rw [UnpackedFloat.ofScientific, dif_neg hdigits.ne', if_neg hbelow, if_neg habove,
    if_neg (by omega), UnpackedFloat.div, hplaces', hcore]
  exact roundWithAccuracy_finite _ hcanonical.pos (by positivity) hfine hleast hlow hhigh hnear
    hcanonical.lt hcanonical.full hcarry

/-- The flag by which a sign is read. -/
def isNegative : Sign → Bool
  | .positive => false
  | .negative => true

theorem ofModel_pack {x : Float} {u : UnpackedFloat} (h : x.toModel.unpack = u) :
    Float.ofModel (Float.Model.pack u) = x := by
  rw [← h, pack_unpack]

/-- A decimal that is rounded to a binary number is read as that, with its sign. -/
theorem toFloat_eq {x : Float} {s : Sign} {hpos : 0 < m}
    (hx : x.toModel.unpack = .finite s m q hpos) {digits places : ℕ} (hplaces : 0 < places)
    (h : RoundsTo (digits / 10 ^ places) m q) :
    toFloat (isNegative s) digits (-places) = x := by
  have hcanonical := isCanonical_of_unpack hx
  have hread := ofScientific_eq hplaces hcanonical h
  have hmagnitude : Float.Model.ofScientific digits (-places) =
      Float.Model.pack (.finite .positive m q hpos) := by
    rw [Float.Model.ofScientific, hread]
  rw [toFloat, hmagnitude]
  cases s with
  | positive => exact ofModel_pack hx
  | negative =>
    have hneg : -Float.ofModel (Float.Model.pack (.finite .positive m q hpos)) =
        Float.ofModel (Float.Model.pack (.finite .negative m q hpos)) := by
      show Float.ofModel (Float.Model.pack (Float.Model.unpack _).neg) = _
      rw [unpack_pack .positive hcanonical]
      rfl
    exact hneg.trans (ofModel_pack hx)

/-- Zero is read with its sign. -/
theorem toFloat_zero {x : Float} {s : Sign} (hx : x.toModel.unpack = .zero s) (exponent : ℤ) :
    toFloat (isNegative s) 0 exponent = x := by
  have hmagnitude : Float.Model.ofScientific 0 exponent = Float.Model.pack (.zero .positive) := rfl
  have hpacked : toFloat (isNegative s) 0 exponent =
      Float.ofModel (Float.Model.pack (.zero s)) := by
    rw [toFloat, hmagnitude]
    cases s with
    | positive => rfl
    | negative => rfl
  rw [hpacked, ofModel_pack hx]

end LidarAngle.Decimal
