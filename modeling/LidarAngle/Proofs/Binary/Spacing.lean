import LidarAngle.Proofs.Binary.Arithmetic

/-!
# The spacing of binary numbers

Binary numbers with the same last place are that place apart. What is added to one of them is lost
if it is less than half of the space to the next one, and numbers further apart than the space are
rounded to different numbers. Beyond the greatest number there is nothing but infinity, and from
halfway to the next power of two on numbers are rounded to it.

## Main definitions

* `Binary.overflow` - the least number that is rounded to infinity

## Main statements

* `Binary.rounded_lt_limit_iff` - what is not rounded to infinity
* `Binary.rounded_add_eq_rounded` - a small addend is lost
* `Binary.nearest_lt_nearest_half` - two numbers on a grid of halves that are rounded apart
* `Binary.le_of_zpow_lt` - the number after a power of two
-/

namespace LidarAngle.Binary

section Place

variable {v w x : ℚ} {q : ℤ}

theorem le_place_of_le (h : 2 ^ (q + 52) ≤ |v|) : q ≤ place v := by
  have hlt := h.trans_lt (lt_place v)
  rw [zpow_lt_zpow_iff_right₀ (by norm_num)] at hlt
  omega

/-- Between two numbers the last place is not above both of theirs. -/
theorem place_le_max (hv : v ≤ x) (hw : x ≤ w) : place x ≤ max (place v) (place w) := by
  rcases le_max_iff.1 (abs_le_max_abs_abs hv hw) with habs | habs
  · exact le_max_of_le_left (place_mono habs)
  · exact le_max_of_le_right (place_mono habs)

/-- Near a number the last place is at most one lower. -/
theorem place_sub_one_le (h : |v - w| ≤ 2 ^ (place v + 51)) : place v - 1 ≤ place w := by
  rcases place_le v with hfull | hleast
  · have htriangle := abs_sub_abs_le_abs_sub v w
    have htwice : (2 : ℚ) ^ (place v + 52) = 2 ^ (place v + 51) * 2 := by
      rw [← zpow_add_one₀ (by norm_num), add_assoc]
      rfl
    apply le_place_of_le
    rw [sub_add_eq_add_sub, add_sub_assoc]
    norm_num at htwice ⊢
    linarith
  · have hle := le_place w
    omega

end Place

section Whole

variable {v w d : ℚ} {q : ℤ}

theorem exists_eq_mul (h : unbounded v = v) : ∃ k : ℤ, v = k * 2 ^ place v :=
  ⟨_, h.symm⟩

/-- A number whose last place is not below another one is whole there. -/
theorem exists_eq_mul_of_le (h : unbounded v = v) (hq : q ≤ place v) : ∃ k : ℤ, v = k * 2 ^ q := by
  obtain ⟨k, hk⟩ := exists_eq_mul h
  refine ⟨k * 2 ^ (place v - q).toNat, hk.trans ?_⟩
  push_cast
  rw [mul_assoc, ← zpow_natCast, ← zpow_add₀ (by norm_num)]
  congr 2
  omega

theorem unbounded_natCast_mul {n : ℕ} (hn : n < 2 ^ 53) (hq : -1074 ≤ q) :
    unbounded (n * 2 ^ q) = n * 2 ^ q := by
  have hplace : place ((n : ℤ) * 2 ^ q) ≤ q := by
    apply place_le_of_lt hq
    rw [Int.cast_natCast, abs_of_nonneg (by positivity)]
    exact magnitude_lt hn
  have hself := unbounded_eq_self hplace
  rwa [Int.cast_natCast] at hself

/-- Of two different multiples of a number the greater one is greater by that number. -/
theorem add_le_of_lt {v w u : ℚ} (hu : 0 < u) (hv : ∃ k : ℤ, v = k * u) (hw : ∃ k : ℤ, w = k * u)
    (h : v < w) : v + u ≤ w := by
  obtain ⟨k, rfl⟩ := hv
  obtain ⟨l, rfl⟩ := hw
  have hlt : k < l := by exact_mod_cast lt_of_mul_lt_mul_right h hu.le
  have hle : (k : ℚ) + 1 ≤ l := by exact_mod_cast hlt
  calc k * u + u = (k + 1) * u := by rw [add_mul, one_mul]
    _ ≤ l * u := mul_le_mul_of_nonneg_right hle hu.le

theorem exists_zpow_eq_mul {q r : ℤ} (h : q ≤ r) : ∃ k : ℤ, (2 : ℚ) ^ r = k * 2 ^ q := by
  refine ⟨2 ^ (r - q).toNat, ?_⟩
  push_cast
  rw [← zpow_natCast, ← zpow_add₀ (by norm_num)]
  congr 1
  omega

/-- The number after a power of two is one in the last of 53 bits greater. -/
theorem le_of_zpow_lt (hv : unbounded v = v) (h : 2 ^ q < v) : 2 ^ q * (1 + 1 / 2 ^ 52) ≤ v := by
  have hpower : (0 : ℚ) < 2 ^ q := by positivity
  have hunit : (0 : ℚ) < 2 ^ place v := by positivity
  have hshift : (2 : ℚ) ^ q * (1 / 2 ^ 52) = 2 ^ (q - 52) := by
    rw [zpow_sub₀ (by norm_num), mul_one_div]
    rfl
  have hplace : q - 52 ≤ place v := by
    apply le_place_of_le
    rw [sub_add_cancel, abs_of_pos (hpower.trans h)]
    exact h.le
  have hspace : (2 : ℚ) ^ (q - 52) ≤ 2 ^ place v := zpow_le_zpow_right₀ (by norm_num) hplace
  rw [mul_add, mul_one, hshift]
  rcases le_or_gt (place v) q with hle | hgt
  · have hnext := add_le_of_lt hunit (exists_zpow_eq_mul hle) (exists_eq_mul hv) h
    linarith
  · have hfirst := add_le_of_lt hunit ⟨0, by simp⟩ (exists_eq_mul hv) (hpower.trans h)
    have htwice : (2 : ℚ) ^ q * 2 ≤ 2 ^ place v := by
      rw [← zpow_add_one₀ (by norm_num)]
      exact zpow_le_zpow_right₀ (by norm_num) hgt
    have hsmall : (2 : ℚ) ^ (q - 52) ≤ 2 ^ q := zpow_le_zpow_right₀ (by norm_num) (by omega)
    linarith

/-- What is added to a number is lost if it is less than a quarter of the last place. Half of it is
not enough below zero, where the sum may have a lower last place. -/
theorem unbounded_add_eq_self (hv : unbounded v = v) (hd : 0 ≤ d) (hsmall : 4 * d < 2 ^ place v) :
    unbounded (v + d) = v := by
  have hunit : (0 : ℚ) < 2 ^ place v := by positivity
  obtain ⟨hlow, hhigh⟩ := abs_lt.1 (lt_place v)
  have hle : place (v + d) ≤ place v := by
    have hnext := add_le_of_lt hunit (exists_eq_mul hv)
      (exists_zpow_eq_mul (r := place v + 53) (by omega)) hhigh
    apply place_le_of_lt (le_place v)
    rw [abs_lt]
    constructor
    · linarith
    · linarith
  have hge : place v - 1 ≤ place (v + d) := by
    have hpower : (2 : ℚ) ^ place v ≤ 2 ^ (place v + 51) :=
      zpow_le_zpow_right₀ (by norm_num) (by omega)
    apply place_sub_one_le
    rw [sub_add_cancel_left, abs_neg, abs_of_nonneg hd]
    linarith
  have hhalf : (2 : ℚ) ^ place v ≤ 2 * 2 ^ place (v + d) := by
    rw [← zpow_one_add₀ (by norm_num)]
    exact zpow_le_zpow_right₀ (by norm_num) (by omega)
  obtain ⟨k, hk⟩ := exists_eq_mul_of_le hv hle
  have hunit' : (0 : ℚ) < 2 ^ place (v + d) := by positivity
  have hnonneg : 0 ≤ d / 2 ^ place (v + d) := div_nonneg hd hunit'.le
  have hlost : d / 2 ^ place (v + d) < 1 / 2 := by
    rw [div_lt_iff₀ hunit']
    linarith
  have hsum : (v + d) / 2 ^ place (v + d) = k + d / 2 ^ place (v + d) := by
    rw [add_div, div_eq_of_eq_mul hunit'.ne' hk]
  have hnearest : nearest ((v + d) / 2 ^ place (v + d)) = k := by
    have hdist : |(k : ℚ) - (v + d) / 2 ^ place (v + d)| = d / 2 ^ place (v + d) := by
      rw [hsum, sub_add_cancel_left, abs_neg, abs_of_nonneg hnonneg]
    apply nearest_eq
    · rw [hdist]
      exact hlost.le
    · intro heq
      exact absurd (hdist.symm.trans heq) hlost.ne
  rw [unbounded, hnearest]
  exact hk.symm

theorem rounded_add_eq_rounded (hv : unbounded v = v) (hd : 0 ≤ d) (hsmall : 4 * d < 2 ^ place v) :
    rounded (v + d) = rounded v := by
  rw [rounded, rounded, unbounded_add_eq_self hv hd hsmall, hv]

end Whole

section Apart

variable {x y : ℚ}

theorem nearest_lt_nearest (h : x + 1 < y) : nearest x < nearest y := by
  have hx := (abs_le.1 (abs_nearest_sub_le x)).2
  have hy := (abs_le.1 (abs_nearest_sub_le y)).1
  have hlt : (nearest x : ℚ) < nearest y := by linarith
  exact_mod_cast hlt

/-- Two numbers that are hardly beyond multiples of a half, where the multiples are one apart, are
rounded apart. If the multiples are not whole, the second number has to be beyond its one. -/
theorem nearest_lt_nearest_half {k : ℤ} {a b : ℚ} (ha : a < 1 / 2) (hb : 0 ≤ b)
    (hodd : Odd k → 0 < b) : nearest (k / 2 + a) < nearest (k / 2 + 1 + b) := by
  have hfirst := (abs_le.1 (abs_nearest_sub_le (k / 2 + a))).2
  have hsecond := (abs_le.1 (abs_nearest_sub_le (k / 2 + 1 + b))).1
  obtain ⟨l, hk | hk⟩ := Int.even_or_odd' k
  · have hcast : (k : ℚ) = 2 * l := by exact_mod_cast hk
    have hlt : (nearest (k / 2 + a) : ℚ) < l + 1 := by linarith
    have hle : nearest (l + 1 : ℤ) ≤ nearest (k / 2 + 1 + b) := by
      apply nearest_mono
      push_cast
      linarith
    rw [nearest_intCast] at hle
    exact lt_of_lt_of_le (by exact_mod_cast hlt) hle
  · have hpos := hodd ⟨l, hk⟩
    have hcast : (k : ℚ) = 2 * l + 1 := by exact_mod_cast hk
    have hlt : (l : ℚ) + 1 < nearest (k / 2 + 1 + b) := by linarith
    have hle : nearest (k / 2 + a) ≤ nearest (l + 1 : ℤ) := by
      apply nearest_mono
      push_cast
      linarith
    rw [nearest_intCast] at hle
    exact lt_of_le_of_lt hle (by exact_mod_cast hlt)

theorem rounded_eq_unbounded_of_abs_lt {v : ℚ} (h : |rounded v| < limit) :
    rounded v = unbounded v := by
  obtain ⟨hlow, hhigh⟩ := abs_lt.1 h
  rw [rounded] at hlow hhigh ⊢
  have hlt := (min_lt_iff.1 (max_lt_iff.1 hhigh).2).resolve_left (lt_irrefl _)
  rw [min_eq_right hlt.le] at hlow ⊢
  exact max_eq_right ((lt_max_iff.1 hlow).resolve_left (lt_irrefl _)).le

/-- What is rounded apart in units of the last place is rounded apart, unless it is infinite. -/
theorem rounded_lt_rounded {v w : ℚ} (h : unbounded v < unbounded w) (hv : |rounded v| < limit) :
    rounded v < rounded w := by
  have heq := rounded_eq_unbounded_of_abs_lt hv
  rw [heq] at hv ⊢
  exact lt_max_of_lt_right (lt_min (abs_lt.1 hv).2 h)

theorem unbounded_value {x : Float} (h : x.isFinite = true) : unbounded (value x) = value x := by
  have hvalue := rounded_value (isNaN_of_isFinite h)
  have hrange : |rounded (value x)| < limit := by
    rw [hvalue]
    exact (isFinite_iff.1 h).2
  rw [← rounded_eq_unbounded_of_abs_lt hrange, hvalue]

end Apart

/-- What is halfway between the greatest binary number and the first power of two out of range. From
there on numbers are rounded to infinity. -/
def overflow : ℚ :=
  2 ^ 1024 - 2 ^ 970

theorem overflow_eq : overflow = (2 ^ 53 - 1 / 2) * 2 ^ (971 : ℤ) := by
  have hlimit : (2 : ℚ) ^ 1024 = 2 ^ 53 * 2 ^ (971 : ℤ) := by
    rw [← zpow_natCast, ← zpow_natCast, ← zpow_add₀ (by norm_num)]
    rfl
  have hhalf : (2 : ℚ) ^ 970 = 1 / 2 * 2 ^ (971 : ℤ) := by
    rw [one_div, ← zpow_neg_one, ← zpow_natCast, ← zpow_add₀ (by norm_num)]
    rfl
  rw [overflow, hlimit, hhalf, sub_mul]

theorem limit_eq : limit = 2 ^ 53 * 2 ^ (971 : ℤ) := by
  rw [limit, ← zpow_natCast, ← zpow_natCast, ← zpow_add₀ (by norm_num)]
  rfl

theorem overflow_pos : 0 < overflow := by
  rw [overflow_eq]
  exact mul_pos (by norm_num) (by positivity)

theorem two_pow_le_overflow {n : ℕ} (h : n ≤ 1023) : (2 : ℚ) ^ n ≤ overflow := by
  have hle : (2 : ℚ) ^ n ≤ 2 ^ 1023 := pow_le_pow_right₀ (by norm_num) h
  have hhalf : (2 : ℚ) ^ 970 ≤ 2 ^ 1023 := pow_le_pow_right₀ (by norm_num) (by norm_num)
  have htwice : (2 : ℚ) ^ 1024 = 2 ^ 1023 * 2 := pow_succ 2 1023
  rw [overflow, le_sub_iff_add_le, htwice, mul_two]
  exact add_le_add hle hhalf

theorem three_mul_le_overflow : 3 * 2 ^ 1022 ≤ overflow := by
  have hhalf : (2 : ℚ) ^ 970 ≤ 2 ^ 1022 := pow_le_pow_right₀ (by norm_num) (by norm_num)
  have hfour : (2 : ℚ) ^ 1024 = 2 ^ 1022 * 2 ^ 2 := pow_add 2 1022 2
  rw [overflow, hfour]
  generalize (2 : ℚ) ^ 1022 = power at *
  generalize (2 : ℚ) ^ 970 = half at *
  linarith

theorem overflow_lt_limit : overflow < limit := by
  rw [overflow_eq, limit_eq]
  exact mul_lt_mul_of_pos_right (by norm_num) (by positivity)

/-- The half is rounded to the even one of its neighbours, which is out of range. -/
theorem unbounded_overflow : unbounded overflow = limit := by
  have hpower : (0 : ℚ) < 2 ^ (971 : ℤ) := by positivity
  have hplace : place overflow = 971 := by
    apply le_antisymm
    · apply place_le_of_lt (by norm_num)
      rw [abs_of_pos overflow_pos]
      exact overflow_lt_limit.trans_eq (zpow_natCast 2 1024).symm
    · apply le_place_of_le
      rw [abs_of_pos overflow_pos, overflow_eq, add_comm, zpow_add₀ (by norm_num)]
      exact mul_le_mul_of_nonneg_right (by norm_num) hpower.le
  have hnearest : nearest (2 ^ 53 - 1 / 2) = 2 ^ 53 := by
    apply nearest_eq
    · norm_num
    · intro _
      norm_num
  rw [unbounded, hplace, overflow_eq, mul_div_cancel_right₀ _ hpower.ne', hnearest, limit_eq]
  norm_num

/-- What is rounded to infinity. -/
theorem rounded_lt_limit_iff {v : ℚ} : rounded v < limit ↔ v < overflow := by
  constructor
  · intro h
    by_contra hle
    have hmono := rounded_mono (not_lt.1 hle)
    rw [rounded_of_nonneg overflow_pos.le, unbounded_overflow, min_self] at hmono
    exact absurd h (not_lt.2 hmono)
  · intro h
    rcases le_or_gt v 0 with hv | hv
    · have hmono := rounded_mono hv
      rw [rounded_zero] at hmono
      exact hmono.trans_lt limit_pos
    · have hpower : (0 : ℚ) < 2 ^ (971 : ℤ) := by positivity
      have hplace : place v ≤ 971 := by
        apply place_le_of_lt (by norm_num)
        rw [abs_of_pos hv]
        exact (h.trans overflow_lt_limit).trans_eq (zpow_natCast 2 1024).symm
      -- The error is at most half a unit of the last place of the greatest number.
      have herror := (abs_le.1 (abs_unbounded_sub_le_place v)).2
      have hunit : (2 : ℚ) ^ place v ≤ 2 ^ (971 : ℤ) := zpow_le_zpow_right₀ (by norm_num) hplace
      rw [rounded_of_nonneg hv.le]
      apply min_lt_of_right_lt
      rw [overflow_eq] at h
      rw [limit_eq]
      linarith

end LidarAngle.Binary
