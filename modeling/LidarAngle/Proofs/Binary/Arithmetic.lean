import LidarAngle.Proofs.Binary.Packed

/-!
# Operations on binary numbers

An operation on finite binary numbers gives the exact result, rounded. What has become infinite
stays so, as far as sums and quotients with finite numbers go.

## Main statements

* `Binary.hasValue_add`, `Binary.hasValue_sub`, `Binary.hasValue_mul`, `Binary.hasValue_div` - the
  result of an operation
* `Binary.hasValue_ofNat` - a natural number of at most 53 bits
* `Binary.hasValue_limit_add`, `Binary.hasValue_limit_div` - what is infinite stays so
* `Binary.toNat_toUInt64` - a binary number, cut off after the point
-/

namespace LidarAngle.Binary

open Float.Model Float.Model.UnpackedFloat
open Decimal (IsCanonical unpack_pack isCanonical_of_unpack)

section Parts

variable {u w : UnpackedFloat}

/-- The parts of a finite number are those of a zero, or a mantissa and an exponent. -/
theorem eq_zero_or_finite (h : u.isFinite = true) :
    (∃ s, u = .zero s) ∨ ∃ s m q hpos, u = .finite s m q hpos := by
  cases u with
  | notANumber => exact absurd h Bool.false_ne_true
  | infinity s => exact absurd h Bool.false_ne_true
  | zero s => exact .inl ⟨s, rfl⟩
  | finite s m q hpos => exact .inr ⟨s, m, q, hpos, rfl⟩

theorem hasValue_pack (hu : IsProper u) : HasValue (.ofModel (.pack u)) (partsValue u) := by
  cases u with
  | notANumber => exact hu.elim
  | infinity s => exact hasValue_infinity s
  | zero s => exact hasValue_zero s
  | finite s m q hpos => exact hasValue_ofModel (unpack_pack s hu) hu

theorem cast_apply (s : Sign) (m : ℕ) : ((s.apply m : ℤ) : ℚ) = factor s * m := by
  cases s with
  | positive => rw [Sign.apply, factor, one_mul, Int.cast_natCast]
  | negative => rw [Sign.apply, factor, neg_one_mul, Int.cast_neg, Int.cast_natCast]

/-- A signed mantissa in smaller units. -/
theorem cast_apply_mul_zpow (s : Sign) (m : ℕ) {q t : ℤ} (h : t ≤ q) :
    ((s.apply (m * 2 ^ (q - t).toNat : ℕ) : ℤ) : ℚ) * 2 ^ t = factor s * (m * 2 ^ q) := by
  rw [cast_apply, mul_assoc, ← mul_pow_mul_zpow m h]
  norm_cast

/-- A finite number that is not negative has a positive sign. -/
theorem sign_eq_positive {s : Sign} {m : ℕ} {q : ℤ} {hpos : 0 < m}
    (h : 0 ≤ partsValue (.finite s m q hpos)) : s = .positive := by
  cases s with
  | positive => rfl
  | negative =>
    have hmagnitude := magnitude_pos (q := q) hpos
    rw [partsValue, factor, neg_one_mul] at h
    linarith

/-- Both mantissas of a sum are taken in the smaller one of their two units. -/
theorem add_finite (s s' : Sign) {m n : ℕ} (q r : ℤ) (hm : 0 < m) (hn : 0 < n) :
    UnpackedFloat.add Format.binary64 (.finite s m q hm) (.finite s' n r hn) =
      UnpackedFloat.normalize Format.binary64
        (s.apply (m * 2 ^ (q - min q r).toNat : ℕ) + s'.apply (n * 2 ^ (r - min q r).toNat : ℕ))
        (min q r) .positive := by
  rw [UnpackedFloat.add, decreaseExponent_eq m (min_le_left q r),
    decreaseExponent_eq n (min_le_right q r)]

theorem partsValue_add_finite (s s' : Sign) {m n : ℕ} (q r : ℤ) (hm : 0 < m) (hn : 0 < n) :
    ((s.apply (m * 2 ^ (q - min q r).toNat : ℕ) + s'.apply (n * 2 ^ (r - min q r).toNat : ℕ) : ℤ) :
        ℚ) * 2 ^ min q r = partsValue (.finite s m q hm) + partsValue (.finite s' n r hn) := by
  rw [Int.cast_add, add_mul, cast_apply_mul_zpow s m (min_le_left q r),
    cast_apply_mul_zpow s' n (min_le_right q r)]
  rfl

theorem hasValue_add_parts (hu : IsProper u) (hw : IsProper w) (hu' : u.isFinite = true)
    (hw' : w.isFinite = true) :
    HasValue (.ofModel (.pack (UnpackedFloat.add Format.binary64 u w)))
      (rounded (partsValue u + partsValue w)) := by
  obtain ⟨s, rfl⟩ | ⟨s, m, q, hm, rfl⟩ := eq_zero_or_finite hu'
  · rw [partsValue, zero_add, rounded_partsValue hw]
    obtain ⟨s', rfl⟩ | ⟨s', n, r, hn, rfl⟩ := eq_zero_or_finite hw'
    · show HasValue (.ofModel (.pack (if s == s' then .zero s else .zero .positive))) 0
      split
      · exact hasValue_zero s
      · exact hasValue_zero .positive
    · exact hasValue_pack hw
  · obtain ⟨s', rfl⟩ | ⟨s', n, r, hn, rfl⟩ := eq_zero_or_finite hw'
    · rw [partsValue, add_zero, rounded_partsValue hu]
      exact hasValue_pack hu
    · rw [add_finite, ← partsValue_add_finite]
      exact hasValue_normalize _ _ _

theorem isProper_neg (hu : IsProper u) : IsProper u.neg := by
  cases u with
  | notANumber => exact hu.elim
  | infinity s => trivial
  | zero s => trivial
  | finite s m q hpos => exact hu

theorem isFinite_neg (hu : u.isFinite = true) : u.neg.isFinite = true := by
  cases u with
  | notANumber => exact hu
  | infinity s => exact hu
  | zero s => rfl
  | finite s m q hpos => rfl

/-- A difference is a sum with the negated number. -/
theorem sub_eq_add_neg_parts (u w : UnpackedFloat) :
    UnpackedFloat.sub Format.binary64 u w = UnpackedFloat.add Format.binary64 u w.neg := by
  have happly : ∀ (s : Sign) (n : ℤ), (-s).apply n = -s.apply n := by
    intro s n
    cases s with
    | positive => rfl
    | negative => exact (neg_neg n).symm
  cases u with
  | finite s m q hm =>
    cases w with
    | finite s' n r hn =>
      simp only [UnpackedFloat.sub, UnpackedFloat.add, UnpackedFloat.neg, happly, sub_eq_add_neg]
    | _ => rfl
  | _ =>
    cases w with
    | _ => rfl

theorem factor_mul (s s' : Sign) : factor (s * s') = factor s * factor s' := by
  cases s with
  | _ =>
    cases s' with
    | _ => norm_num [factor]

theorem factor_div (s s' : Sign) : factor (s / s') = factor s / factor s' := by
  have hsign : s / s' = s * s' := by
    cases s with
    | _ =>
      cases s' with
      | _ => rfl
  have hinv : (factor s')⁻¹ = factor s' := by
    cases s' with
    | positive => exact inv_one
    | negative => exact inv_neg_one
  rw [hsign, factor_mul, div_eq_mul_inv, hinv]

/-- A product of mantissas in their form is fine enough as it is. -/
theorem mul_fine {m n : ℕ} {q r : ℤ} (hm : IsCanonical m q) (hn : IsCanonical n r) :
    2 ^ 52 ≤ m * n ∨ q + r ≤ -1074 := by
  rcases hm.full with hfull | hleast
  · exact .inl (hfull.trans (Nat.le_mul_of_pos_right m hn.pos))
  · rcases hn.full with hfull | hleast'
    · exact .inl (hfull.trans (Nat.le_mul_of_pos_left n hm.pos))
    · right
      omega

theorem hasValue_mul_parts (hu : IsProper u) (hw : IsProper w) (hu' : u.isFinite = true)
    (hw' : w.isFinite = true) :
    HasValue (.ofModel (.pack (UnpackedFloat.mul Format.binary64 u w)))
      (rounded (partsValue u * partsValue w)) := by
  obtain ⟨s, rfl⟩ | ⟨s, m, q, hm, rfl⟩ := eq_zero_or_finite hu'
  · rw [partsValue, zero_mul, rounded_zero]
    obtain ⟨s', rfl⟩ | ⟨s', n, r, hn, rfl⟩ := eq_zero_or_finite hw'
    · exact hasValue_zero (s * s')
    · exact hasValue_zero (s * s')
  · obtain ⟨s', rfl⟩ | ⟨s', n, r, hn, rfl⟩ := eq_zero_or_finite hw'
    · rw [partsValue, partsValue, mul_zero, rounded_zero]
      exact hasValue_zero (s * s')
    · have hvalue : factor (s * s') * ((m * n : ℕ) * 2 ^ (q + r)) =
          factor s * (m * 2 ^ q) * (factor s' * (n * 2 ^ r)) := by
        rw [factor_mul, zpow_add₀ (by norm_num), Nat.cast_mul]
        ring
      rw [partsValue, partsValue, ← hvalue]
      exact hasValue_roundWithAccuracy_exact (s * s') (Nat.mul_pos hm hn) (mul_fine hu hw)

theorem hasValue_div_parts (hw : IsProper w) (hu' : u.isFinite = true)
    (hw' : w.isFinite = true) (hne : partsValue w ≠ 0) :
    HasValue (.ofModel (.pack (UnpackedFloat.div Format.binary64 u w)))
      (rounded (partsValue u / partsValue w)) := by
  obtain ⟨s', rfl⟩ | ⟨s', n, r, hn, rfl⟩ := eq_zero_or_finite hw'
  · exact absurd rfl hne
  · obtain ⟨s, rfl⟩ | ⟨s, m, q, hm, rfl⟩ := eq_zero_or_finite hu'
    · rw [partsValue, zero_div, rounded_zero]
      exact hasValue_zero (s / s')
    · obtain ⟨k, hcore, hfine⟩ := Decimal.divCore_eq q r hm hn
      have hvalue : factor (s / s') * ((m * 2 ^ k : ℕ) / n * 2 ^ (q - r - k)) =
          factor s * (m * 2 ^ q) / (factor s' * (n * 2 ^ r)) := by
        rw [factor_div, zpow_sub₀ (by norm_num), zpow_sub₀ (by norm_num), zpow_natCast]
        push_cast
        field_simp
      have hdiv : UnpackedFloat.div Format.binary64 (.finite s m q hm) (.finite s' n r hn) =
          roundWithAccuracy Format.binary64 (s / s') (m * 2 ^ k / n) (q - r - k)
            (accuracyOfFraction (m * 2 ^ k % n) n) := by
        rw [UnpackedFloat.div, hcore]
      rw [partsValue, partsValue, ← hvalue, hdiv]
      exact hasValue_roundWithAccuracy (s / s') (by positivity) hn hfine

end Parts

section Operations

variable {x y : Float}

theorem isNaN_of_isFinite (h : x.isFinite = true) : x.isNaN = false :=
  (isFinite_iff.1 h).1

theorem beq_self (h : x.isFinite = true) : (x == x) = true :=
  beq_iff.2 ⟨isNaN_of_isFinite h, isNaN_of_isFinite h, rfl⟩

theorem hasValue_add (hx : x.isFinite = true) (hy : y.isFinite = true) :
    HasValue (x + y) (rounded (value x + value y)) :=
  hasValue_add_parts (isProper_unpack (isNaN_of_isFinite hx))
    (isProper_unpack (isNaN_of_isFinite hy)) hx hy

theorem hasValue_sub (hx : x.isFinite = true) (hy : y.isFinite = true) :
    HasValue (x - y) (rounded (value x - value y)) := by
  have h := hasValue_add_parts (isProper_unpack (isNaN_of_isFinite hx))
    (isProper_neg (isProper_unpack (isNaN_of_isFinite hy))) hx (isFinite_neg hy)
  rw [← sub_eq_add_neg_parts, partsValue_neg, ← sub_eq_add_neg] at h
  exact h

theorem hasValue_mul (hx : x.isFinite = true) (hy : y.isFinite = true) :
    HasValue (x * y) (rounded (value x * value y)) :=
  hasValue_mul_parts (isProper_unpack (isNaN_of_isFinite hx))
    (isProper_unpack (isNaN_of_isFinite hy)) hx hy

theorem hasValue_div (hx : x.isFinite = true) (hy : y.isFinite = true) (hne : value y ≠ 0) :
    HasValue (x / y) (rounded (value x / value y)) :=
  hasValue_div_parts (isProper_unpack (isNaN_of_isFinite hy)) hx hy hne

/-- A natural number of at most 53 bits is a binary number. -/
theorem hasValue_ofNat {n : ℕ} (h : n < 2 ^ 53) : HasValue (Float.ofNat n) n := by
  have hself := @rounded_eq_self n 0
  rw [zpow_zero, mul_one, Int.cast_natCast, Nat.abs_cast] at hself
  have hrange : (n : ℚ) < limit := by
    have hn : (n : ℚ) < 2 ^ 53 := by exact_mod_cast h
    exact hn.trans_le (two_pow_le_limit (by norm_num))
  have hplace : place n ≤ 0 := by
    apply place_le_of_lt (by norm_num)
    rw [Nat.abs_cast]
    exact_mod_cast h
  have hrounded := hself hplace hrange.le
  -- The conversion multiplies by a power of ten, which is one here.
  have hproduct : Float.ofNat n = n.toUInt64.toFloat * Float.ofBits 0x3FF0000000000000 := by
    rw [Float.ofNat]
    show Float.ofScientific n false 0 = _
    rw [Float.ofScientific, dif_pos ⟨h, by decide⟩]
    rfl
  have hnat : n.toUInt64.toNat = n := Nat.mod_eq_of_lt (h.trans (by decide))
  have hleft : HasValue n.toUInt64.toFloat n := by
    have hnormal := hasValue_normalize n.toUInt64.toNat 0 .positive
    rw [hnat, zpow_zero, mul_one, Int.cast_natCast, hrounded] at hnormal
    show HasValue (.ofModel (.pack (UnpackedFloat.normalize Format.binary64 n.toUInt64.toNat 0
      .positive))) n
    rwa [hnat]
  have hone : HasValue (Float.ofBits 0x3FF0000000000000) 1 := by
    refine ⟨rfl, ?_⟩
    show (1 : ℚ) * ((2 ^ 52 : ℕ) * 2 ^ (-52 : ℤ)) = 1
    norm_num
  have hmul := hasValue_mul (hleft.isFinite (by rwa [Nat.abs_cast])) (hone.isFinite ?_)
  · rw [hleft.value_eq, hone.value_eq, mul_one, hrounded] at hmul
    rwa [hproduct]
  · rw [abs_one]
    exact (by norm_num : (1 : ℚ) < 2 ^ 1).trans_le (two_pow_le_limit (by norm_num))

/-- What has the first power of two out of range as its value is infinite. -/
theorem unpack_of_hasValue_limit (h : HasValue x limit) :
    x.toModel.unpack = .infinity .positive := by
  have hlimit := limit_pos
  have hproper := isProper_unpack h.isNaN_eq
  have hvalue : partsValue x.toModel.unpack = limit := h.value_eq
  cases hx : x.toModel.unpack with
  | notANumber => rw [hx] at hproper; exact hproper.elim
  | infinity s =>
    cases s with
    | positive => rfl
    | negative =>
      rw [hx, partsValue, factor] at hvalue
      linarith
  | zero s =>
    rw [hx, partsValue] at hvalue
    linarith
  | finite s m q hpos =>
    rw [hx] at hproper hvalue
    have hlt := abs_partsValue_finite s hpos hproper
    rw [hvalue, abs_of_pos hlimit] at hlt
    exact absurd hlt (lt_irrefl _)

theorem hasValue_limit : HasValue (.ofModel (.pack (.infinity .positive))) limit := by
  have h := hasValue_infinity .positive
  rwa [factor, one_mul] at h

/-- A sum with an infinite number is infinite. -/
theorem hasValue_limit_add (hx : HasValue x limit) (hy : y.isFinite = true) :
    HasValue (x + y) limit ∧ HasValue (y + x) limit := by
  have hsum :
      UnpackedFloat.add Format.binary64 x.toModel.unpack y.toModel.unpack = .infinity .positive ∧
      UnpackedFloat.add Format.binary64 y.toModel.unpack x.toModel.unpack =
        .infinity .positive := by
    rw [unpack_of_hasValue_limit hx]
    obtain ⟨s, hu⟩ | ⟨s, m, q, hpos, hu⟩ := @eq_zero_or_finite y.toModel.unpack hy
    · rw [hu]
      exact ⟨rfl, rfl⟩
    · rw [hu]
      exact ⟨rfl, rfl⟩
  constructor
  · show HasValue (.ofModel (.pack _)) limit
    rw [hsum.1]
    exact hasValue_limit
  · show HasValue (.ofModel (.pack _)) limit
    rw [hsum.2]
    exact hasValue_limit

/-- A quotient of an infinite number by a positive one is infinite. -/
theorem hasValue_limit_div (hx : HasValue x limit) (hy : y.isFinite = true)
    (hpos : 0 < value y) : HasValue (x / y) limit := by
  have hquotient : UnpackedFloat.div Format.binary64 x.toModel.unpack y.toModel.unpack =
      .infinity .positive := by
    have hvalue : 0 < partsValue y.toModel.unpack := hpos
    rw [unpack_of_hasValue_limit hx]
    obtain ⟨s, hu⟩ | ⟨s, m, q, hm, hu⟩ := @eq_zero_or_finite y.toModel.unpack hy
    · rw [hu] at hvalue
      exact absurd hvalue (lt_irrefl _)
    · rw [hu] at hvalue ⊢
      rw [sign_eq_positive hvalue.le]
      rfl
  show HasValue (.ofModel (.pack _)) limit
  rw [hquotient]
  exact hasValue_limit

/-- A mantissa and an exponent, cut off after the point. -/
theorem toNat_roundToInt (m : ℕ) (q : ℤ) :
    (roundToInt .positive m q).toNat = ⌊(m * 2 ^ q : ℚ)⌋₊ := by
  have hexact : ∀ n : ℕ,
      ExtendedMantissa.ofMantissaAndAccuracy n .exact = Decimal.extended n 1 := by
    intro n
    have h := @Decimal.ofMantissaAndAccuracy_eq n 1 one_pos
    rwa [Nat.div_one, Nat.mod_one] at h
  rcases le_total 0 q with hle | hge
  · have hshift : roundToInt .positive m q = (m * 2 ^ (q - 0).toNat : ℕ) := by
      rw [roundToInt, decreaseExponent_eq m hle]
      rfl
    have hvalue : (m : ℚ) * 2 ^ q = (m * 2 ^ (q - 0).toNat : ℕ) := by
      rw [← mul_pow_mul_zpow m hle, zpow_zero, mul_one]
      norm_cast
    rw [hshift, hvalue, Int.toNat_natCast, Nat.floor_natCast]
  · obtain ⟨k, rfl⟩ : ∃ k : ℕ, q = -k := ⟨(-q).toNat, by omega⟩
    have hshift : (0 - -(k : ℤ)).toNat = k := by omega
    have hround : roundToInt .positive m (-k) = (m / (1 * 2 ^ k) : ℕ) := by
      rw [roundToInt, decreaseExponent_of_le m hge]
      dsimp only
      rw [shiftToExponent, hexact, Decimal.shiftRight_extended one_pos, hshift]
      rfl
    have hvalue : (m : ℚ) * 2 ^ (-k : ℤ) = m / (1 * 2 ^ k : ℕ) := by
      rw [zpow_neg, zpow_natCast, ← div_eq_mul_inv, one_mul]
      norm_cast
    rw [hround, hvalue, Int.toNat_natCast, Nat.floor_div_eq_div]

/-- What is not negative and not infinite, cut off after the point. -/
theorem toNat_toUInt64 (hx : x.isFinite = true) (hnonneg : 0 ≤ value x)
    (hlt : value x < 2 ^ 64) : x.toUInt64.toNat = ⌊value x⌋₊ := by
  have hclamp : ∀ {n : ℕ}, (n : ℚ) ≤ value x → (UInt64.ofNatClamp n).toNat = n := by
    intro n hn
    have hsize : n < UInt64.size := by exact_mod_cast hn.trans_lt hlt
    rw [UInt64.ofNatClamp_eq_ofNat n hsize]
    exact Nat.mod_eq_of_lt hsize
  have hint : (x.toModel.unpack.toInt 0 (UInt64.size - 1)).toNat = ⌊value x⌋₊ := by
    unfold value at hnonneg ⊢
    obtain ⟨s, hu⟩ | ⟨s, m, q, hm, hu⟩ := @eq_zero_or_finite x.toModel.unpack hx
    · rw [hu]
      exact Nat.floor_zero.symm
    · rw [hu] at hnonneg ⊢
      obtain rfl := sign_eq_positive hnonneg
      rw [partsValue, factor, one_mul]
      exact toNat_roundToInt m q
  have h := hclamp (Nat.floor_le hnonneg)
  rw [← hint] at h ⊢
  exact h

end Operations

end LidarAngle.Binary
