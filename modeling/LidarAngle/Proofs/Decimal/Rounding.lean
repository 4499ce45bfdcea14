import LidarAngle.Decimal.Fixed
import LidarAngle.Proofs.Decimal.Binary

/-!
# Rounding quotients to binary numbers

A quotient is rounded from its whole part and two bits that tell how its rest compares with a half.
Shifting the three to the right is dividing the quotient by powers of two, so what is rounded in the
end is the quotient in units of the last binary place.

## Main definitions

* `Decimal.extended` - a quotient as its whole part and the two bits
* `Decimal.IsNear` - the integer is the nearest one to a number

## Main statements

* `Decimal.shiftToTargetExponent_eq` - a quotient in units of the last place
* `Decimal.nearestEven_eq` - the nearest integer to a quotient is what it is rounded to
* `Decimal.roundWithAccuracy_finite`, `Decimal.roundWithAccuracy_zero` - rounding to an integer of
  at most 53 bits
-/

namespace LidarAngle.Decimal

open Float.Model Float.Model.UnpackedFloat

variable {num den : ℕ}

/-- The whole part of a quotient, whether its rest is at least a half, and whether it is neither
zero nor a half. -/
def extended (num den : ℕ) : ExtendedMantissa where
  mantissa := num / den
  roundBit := den ≤ 2 * (num % den)
  stickyBit := num % den ≠ 0 ∧ 2 * (num % den) ≠ den

theorem ofMantissaAndAccuracy_eq (hden : 0 < den) :
    ExtendedMantissa.ofMantissaAndAccuracy (num / den) (accuracyOfFraction (num % den) den) =
      extended num den := by
  unfold accuracyOfFraction extended
  by_cases hexact : num % den = 0
  · rw [if_pos hexact, hexact]
    simp [ExtendedMantissa.ofMantissaAndAccuracy, hden.ne']
  · rw [if_neg hexact]
    rcases lt_trichotomy (2 * (num % den)) den with hlt | heq | hgt
    · rw [compare_lt_iff_lt.2 hlt]
      simp [ExtendedMantissa.ofMantissaAndAccuracy, hexact, hlt.ne, hlt]
    · rw [compare_eq_iff_eq.2 heq]
      simp [ExtendedMantissa.ofMantissaAndAccuracy, heq]
    · rw [compare_gt_iff_gt.2 hgt]
      simp [ExtendedMantissa.ofMantissaAndAccuracy, hexact, hgt.ne', hgt.le]

theorem shiftRightOne_extended (hden : 0 < den) :
    (extended num den).shiftRightOne = extended num (2 * den) := by
  have hlt := Nat.mod_lt num hden
  have hmod : num % (2 * den) = den * (num / den % 2) + num % den := by
    rw [mul_comm 2 den, Nat.mod_mul, add_comm]
  have hdiv : num / (2 * den) = num / den / 2 := by
    rw [mul_comm 2 den, Nat.div_div_eq_div_mul]
  refine (ExtendedMantissa.mk.injEq ..).mpr ⟨hdiv.symm, ?_, ?_⟩
  · apply Bool.eq_iff_iff.2
    rcases Nat.mod_two_eq_zero_or_one (num / den) with hpar | hpar
    · simp [extended, hmod, hpar, hlt]
    · simp [extended, hmod, hpar]
  · apply Bool.eq_iff_iff.2
    rcases Nat.mod_two_eq_zero_or_one (num / den) with hpar | hpar
    · simp [extended, hmod, hpar]
      omega
    · simp [extended, hmod, hpar]
      omega

theorem shiftRight_extended (hden : 0 < den) (n : ℕ) :
    extended num den >>> n = extended num (den * 2 ^ n) := by
  induction n with
  | zero => rw [pow_zero, mul_one]; rfl
  | succ n ih =>
    have hstep : extended num den >>> (n + 1) = (extended num den >>> n).shiftRightOne := rfl
    rw [hstep, ih, shiftRightOne_extended (by positivity), pow_succ, mul_left_comm, mul_comm 2]

theorem roundedMantissa_ofMantissaAndAccuracy (mantissa : ℕ) (accuracy : Accuracy) :
    (ExtendedMantissa.ofMantissaAndAccuracy mantissa accuracy).roundedMantissa =
      accuracy.roundToNearestEven mantissa := by
  rcases accuracy with _ | (_ | _ | _)
  all_goals rfl

theorem roundedMantissa_extended (hden : 0 < den) :
    (extended num den).roundedMantissa = nearestEven num den := by
  rw [← ofMantissaAndAccuracy_eq hden, roundedMantissa_ofMantissaAndAccuracy]
  unfold accuracyOfFraction nearestEven
  by_cases hexact : num % den = 0
  · rw [if_pos hexact, if_neg (by omega)]
    rfl
  · rw [if_neg hexact]
    rcases lt_trichotomy (2 * (num % den)) den with hlt | heq | hgt
    · rw [compare_lt_iff_lt.2 hlt, if_neg (by omega)]
      rfl
    · rw [compare_eq_iff_eq.2 heq]
      show num / den + num / den % 2 = _
      split
      · omega
      · omega
    · rw [compare_gt_iff_gt.2 hgt, if_pos (.inl hgt)]
      rfl

/-- The integer is the nearest one to a number, the even one of two. -/
def IsNear (x : ℚ) (k : ℕ) : Prop :=
  if k % 2 = 0 then (k : ℚ) - 1 / 2 ≤ x ∧ x ≤ k + 1 / 2 else (k : ℚ) - 1 / 2 < x ∧ x < k + 1 / 2

theorem IsNear.bounds {x : ℚ} {k : ℕ} (h : IsNear x k) : (k : ℚ) - 1 / 2 ≤ x ∧ x ≤ k + 1 / 2 := by
  unfold IsNear at h
  split at h
  · exact h
  · exact ⟨h.1.le, h.2.le⟩

/-- A half is only rounded to an even integer. -/
theorem IsNear.even {x : ℚ} {k : ℕ} (h : IsNear x k) (hhalf : x = k - 1 / 2 ∨ x = k + 1 / 2) :
    k % 2 = 0 := by
  by_contra hodd
  rw [IsNear, if_neg hodd] at h
  rcases hhalf with rfl | rfl
  · exact lt_irrefl _ h.1
  · exact lt_irrefl _ h.2

theorem nearestEven_eq (hden : 0 < den) {k : ℕ} (h : IsNear (num / den) k) :
    nearestEven num den = k := by
  have hq : (0 : ℚ) < den := by exact_mod_cast hden
  have hsplit := Nat.div_add_mod num den
  have hmod := Nat.mod_lt num hden
  have hlow : 2 * (den * k) ≤ 2 * num + den := by
    have hbound := (le_div_iff₀ hq).1 h.bounds.1
    have : (2 * (den * k) : ℚ) ≤ 2 * num + den := by linarith
    exact_mod_cast this
  have hhigh : 2 * num ≤ 2 * (den * k) + den := by
    have hbound := (div_le_iff₀ hq).1 h.bounds.2
    have : (2 * num : ℚ) ≤ 2 * (den * k) + den := by linarith
    exact_mod_cast this
  have heven : 2 * num + den = 2 * (den * k) ∨ 2 * num = 2 * (den * k) + den → k % 2 = 0 := by
    intro hhalf
    apply h.even
    rw [div_eq_iff hq.ne', div_eq_iff hq.ne']
    rcases hhalf with hhalf | hhalf
    · have : (2 * num + den : ℚ) = 2 * (den * k) := by exact_mod_cast hhalf
      exact .inl (by linarith)
    · have : (2 * num : ℚ) = 2 * (den * k) + den := by exact_mod_cast hhalf
      exact .inr (by linarith)
  -- The nearest integer is the whole part or the next one.
  have hge : num / den ≤ k := by
    by_contra hlt
    have := Nat.mul_le_mul_left den (not_le.1 hlt)
    rw [Nat.mul_succ] at this
    omega
  have hle : k ≤ num / den + 1 := by
    by_contra hgt
    have := Nat.mul_le_mul_left den (not_le.1 hgt)
    rw [Nat.mul_succ, Nat.mul_succ] at this
    omega
  unfold nearestEven
  rcases hge.eq_or_lt with rfl | hlt
  · rw [if_neg (by omega)]
  · obtain rfl : k = num / den + 1 := by omega
    rw [Nat.mul_succ] at hlow heven
    rw [if_pos (by omega)]

/-- The exponent of the last binary place of a number, of which the mantissa is the whole part in
units that are fine enough. -/
theorem targetExponent_eq {v : ℚ} {mantissa : ℕ} {e t : ℤ} (hfloor : mantissa * 2 ^ e ≤ v)
    (hceil : v < (mantissa + 1) * 2 ^ e) (hfine : 2 ^ 52 ≤ mantissa ∨ e ≤ -1074)
    (hleast : -1074 ≤ t) (hlow : 2 ^ (t + 52) ≤ v ∨ t = -1074) (hhigh : v < 2 ^ (t + 53)) :
    Format.binary64.targetExponent (totalExponent mantissa e) = t ∧ e ≤ t := by
  have htwo : (0 : ℚ) < 2 := by norm_num
  have hpow : (0 : ℚ) < 2 ^ e := zpow_pos htwo e
  have hlt : ∀ i j : ℤ, (2 : ℚ) ^ i < 2 ^ j → i < j := fun i j h =>
    (zpow_lt_zpow_iff_right₀ (by norm_num)).1 h
  have hbelow : ∀ n : ℕ, 2 ^ n ≤ mantissa → (n : ℤ) + e < t + 53 := by
    intro n hn
    apply hlt
    rw [zpow_add₀ htwo.ne', zpow_natCast]
    have hn' : (2 : ℚ) ^ n ≤ mantissa := by exact_mod_cast hn
    calc (2 : ℚ) ^ n * 2 ^ e ≤ mantissa * 2 ^ e := mul_le_mul_of_nonneg_right hn' hpow.le
      _ ≤ v := hfloor
      _ < 2 ^ (t + 53) := hhigh
  have habove : 2 ^ (t + 52) ≤ v → t + 52 < mantissa.log2 + 1 + e := by
    intro h
    apply hlt
    have hlog : mantissa + 1 ≤ 2 ^ (mantissa.log2 + 1) := Nat.lt_log2_self
    have hlog' : (mantissa : ℚ) + 1 ≤ 2 ^ (mantissa.log2 + 1) := by exact_mod_cast hlog
    have hsum : (2 : ℚ) ^ ((mantissa.log2 : ℤ) + 1 + e) = 2 ^ (mantissa.log2 + 1) * 2 ^ e := by
      rw [zpow_add₀ htwo.ne']
      norm_cast
    rw [hsum]
    exact (h.trans_lt hceil).trans_le (mul_le_mul_of_nonneg_right hlog' hpow.le)
  have hlog : (mantissa.log2 : ℤ) + 1 + e - 53 ≤ t := by
    by_cases hzero : mantissa = 0
    · subst hzero
      rw [Nat.log2_zero]
      omega
    · have := hbelow _ (Nat.log2_self_le hzero)
      omega
  have hle : e ≤ t := by
    rcases hfine with hfine | hfine
    · have := hbelow 52 hfine
      omega
    · omega
  refine ⟨?_, hle⟩
  show max ((mantissa.log2 : ℤ) + 1 + e - 53) (-1074) = t
  rcases hlow with hlow | rfl
  · have := habove hlow
    omega
  · omega

/-- A quotient in units of its last binary place. -/
theorem shiftToTargetExponent_eq {e t : ℤ} (hden : 0 < den)
    (hfine : 2 ^ 52 ≤ num / den ∨ e ≤ -1074) (hleast : -1074 ≤ t)
    (hlow : (2 : ℚ) ^ (t + 52) ≤ num / den * 2 ^ e ∨ t = -1074)
    (hhigh : (num : ℚ) / den * 2 ^ e < 2 ^ (t + 53)) :
    shiftToTargetExponent Format.binary64 (num / den) e (accuracyOfFraction (num % den) den) =
      (extended num (den * 2 ^ (t - e).toNat), t) := by
  have hq : (0 : ℚ) < den := by exact_mod_cast hden
  have hpow : (0 : ℚ) < 2 ^ e := zpow_pos (by norm_num) e
  have hfloor : ((num / den : ℕ) : ℚ) ≤ num / den := Nat.cast_div_le
  have hceil : (num : ℚ) / den < (num / den : ℕ) + 1 := by
    rw [div_lt_iff₀ hq]
    exact_mod_cast Nat.lt_div_mul_add hden |>.trans_eq (by ring)
  obtain ⟨htarget, hle⟩ := targetExponent_eq (mul_le_mul_of_nonneg_right hfloor hpow.le)
    (mul_lt_mul_of_pos_right hceil hpow) hfine hleast hlow hhigh
  have hexponent : e + ((t - e).toNat : ℤ) = t := by omega
  rw [shiftToTargetExponent, htarget, shiftToExponent, ofMantissaAndAccuracy_eq hden,
    shiftRight_extended hden, hexponent]

theorem shiftToTargetExponent_exact {k : ℕ} {e t : ℤ} (hfine : 2 ^ 52 ≤ k ∨ e ≤ -1074)
    (hleast : -1074 ≤ t) (hlow : (2 : ℚ) ^ (t + 52) ≤ k * 2 ^ e ∨ t = -1074)
    (hhigh : (k : ℚ) * 2 ^ e < 2 ^ (t + 53)) :
    shiftToTargetExponent Format.binary64 k e .exact = (extended k (2 ^ (t - e).toNat), t) := by
  have h := @shiftToTargetExponent_eq k 1 e t one_pos
  rw [Nat.div_one, Nat.mod_one, Nat.cast_one, div_one, one_mul] at h
  exact h hfine hleast hlow hhigh

/-- The nearest integer to a quotient in units of a higher place. -/
theorem nearestEven_of_isNear {e t : ℤ} {k : ℕ} (hden : 0 < den) (he : e ≤ t)
    (hnear : IsNear (num / den * 2 ^ e / 2 ^ t) k) :
    nearestEven num (den * 2 ^ (t - e).toNat) = k := by
  have hunits : (2 : ℚ) ^ (t - e).toNat = 2 ^ t / 2 ^ e := by
    rw [← zpow_natCast, ← zpow_sub₀ (by norm_num)]
    congr 1
    omega
  apply nearestEven_eq (by positivity)
  push_cast
  rw [hunits]
  convert hnear using 1
  field_simp

section RoundWithAccuracy

variable (s : Sign) {e t q : ℤ} {k m : ℕ}

/-- A quotient is rounded to the nearest integer in units of the last place, and what comes of that
is then only brought into its form. -/
theorem roundWithAccuracy_of_isNear (hden : 0 < den)
    (hfine : 2 ^ 52 ≤ num / den ∨ e ≤ -1074) (hleast : -1074 ≤ t)
    (hlow : (2 : ℚ) ^ (t + 52) ≤ num / den * 2 ^ e ∨ t = -1074)
    (hhigh : (num : ℚ) / den * 2 ^ e < 2 ^ (t + 53))
    (hnear : IsNear (num / den * 2 ^ e / 2 ^ t) k)
    (hfinal : shiftToTargetExponent Format.binary64 k t .exact =
      (extended k (2 ^ (q - t).toNat), q)) :
    roundWithAccuracy Format.binary64 s (num / den) e (accuracyOfFraction (num % den) den) =
      if h : k / 2 ^ (q - t).toNat = 0 then .zero s
      else .finite s (k / 2 ^ (q - t).toNat) q (Nat.pos_of_ne_zero h) := by
  have hshift := shiftToTargetExponent_eq hden hfine hleast hlow hhigh
  have he : e ≤ t := by
    have hexponent : e + _ = t := congrArg Prod.snd hshift
    omega
  rw [roundWithAccuracy, hshift]
  dsimp only
  rw [roundedMantissa_extended (by positivity), nearestEven_of_isNear hden he hnear, hfinal]
  rfl

/-- A quotient is rounded to a mantissa if that is the nearest integer in units of the last place,
or if twice the mantissa is and there is a carry. -/
theorem roundWithAccuracy_finite (hpos : 0 < m) (hden : 0 < den)
    (hfine : 2 ^ 52 ≤ num / den ∨ e ≤ -1074) (hleast : -1074 ≤ t)
    (hlow : (2 : ℚ) ^ (t + 52) ≤ num / den * 2 ^ e ∨ t = -1074)
    (hhigh : (num : ℚ) / den * 2 ^ e < 2 ^ (t + 53))
    (hnear : IsNear (num / den * 2 ^ e / 2 ^ t) k)
    (hlt : m < 2 ^ 53) (hfull : 2 ^ 52 ≤ m ∨ q = -1074)
    (hcarry : (k = m ∧ t = q) ∨ (k = 2 * m ∧ t + 1 = q)) :
    roundWithAccuracy Format.binary64 s (num / den) e (accuracyOfFraction (num % den) den) =
      .finite s m q hpos := by
  have hvalue : (k : ℚ) * 2 ^ t = m * 2 ^ q := by
    rcases hcarry with ⟨rfl, rfl⟩ | ⟨rfl, rfl⟩
    · rfl
    · rw [zpow_add₀ (by norm_num)]
      push_cast
      ring
  have hfinal : shiftToTargetExponent Format.binary64 k t .exact =
      (extended k (2 ^ (q - t).toNat), q) := by
    have hm : (m : ℚ) < 2 ^ 53 := by exact_mod_cast hlt
    apply shiftToTargetExponent_exact
    · omega
    · omega
    · rw [hvalue, zpow_add₀ (by norm_num), mul_comm]
      refine hfull.imp_left fun hle => mul_le_mul_of_nonneg_right ?_ (by positivity)
      exact_mod_cast hle
    · rw [hvalue, zpow_add₀ (by norm_num), mul_comm]
      exact mul_lt_mul_of_pos_left (by exact_mod_cast hm) (by positivity)
  have hmantissa : k / 2 ^ (q - t).toNat = m := by
    rcases hcarry with ⟨rfl, rfl⟩ | ⟨rfl, rfl⟩
    · simp
    · simp
  rw [roundWithAccuracy_of_isNear s hden hfine hleast hlow hhigh hnear hfinal,
    dif_neg (by rw [hmantissa]; exact hpos.ne'), UnpackedFloat.finite.injEq]
  exact ⟨rfl, hmantissa, rfl⟩

/-- A quotient that is less than half of the least place is rounded to zero. -/
theorem roundWithAccuracy_zero (hden : 0 < den) (hfine : 2 ^ 52 ≤ num / den ∨ e ≤ -1074)
    (hhigh : (num : ℚ) / den * 2 ^ e < 2 ^ (-1074 + 53 : ℤ))
    (hnear : IsNear (num / den * 2 ^ e / 2 ^ (-1074 : ℤ)) 0) :
    roundWithAccuracy Format.binary64 s (num / den) e (accuracyOfFraction (num % den) den) =
      .zero s := by
  have hfinal : shiftToTargetExponent Format.binary64 0 (-1074) .exact =
      (extended 0 (2 ^ (-1074 - -1074 : ℤ).toNat), -1074) := by
    apply shiftToTargetExponent_exact
    · exact .inr le_rfl
    · exact le_rfl
    · exact .inr rfl
    · rw [Nat.cast_zero, zero_mul]
      positivity
  rw [roundWithAccuracy_of_isNear s hden hfine le_rfl (.inr rfl) hhigh hnear hfinal,
    dif_pos (Nat.zero_div _)]

end RoundWithAccuracy

end LidarAngle.Decimal
