import LidarAngle.Proofs.Binary.Value

/-!
# What rounding is packed to

Operations on binary numbers make parts that may need more bits than there are, or a higher exponent
than there is. Brought into their form and packed, such parts give the number that their value is
rounded to.

## Main statements

* `Binary.hasValue_roundWithAccuracy` - a quotient
* `Binary.hasValue_normalize` - an integer in units of a power of two
-/

namespace LidarAngle.Binary

open Float.Model Float.Model.UnpackedFloat
open Decimal (IsCanonical unpack_pack isCanonical_of_unpack pack_unpack)

variable (s : Sign)

theorem unpack_pack_infinity : (Float.Model.pack (.infinity s)).unpack = .infinity s := by
  cases s with
  | positive => rfl
  | negative => rfl

theorem unpack_pack_zero : (Float.Model.pack (.zero s)).unpack = .zero s := by
  cases s with
  | positive => rfl
  | negative => rfl

/-- Parts with an exponent that is too high are packed to infinity. -/
theorem pack_of_most_lt {m : ℕ} {q : ℤ} {hpos : 0 < m} (h : 972 ≤ q) :
    Float.Model.pack (.finite s m q hpos) = Float.Model.pack (.infinity s) := by
  have hbiased : (q + Format.binary64.exponentBias + Format.binary64.mantissaBitsWithoutImplicit) =
      q + 1075 := add_assoc q 1023 52
  have hover : 2 ^ Format.binary64.exponentBits ≤ (q + 1075).toNat + 1 := by
    show 2 ^ 11 ≤ (q + 1075).toNat + 1
    omega
  have hpack : UnpackedFloat.pack Format.binary64 (.finite s m q hpos) =
      UnpackedFloat.pack Format.binary64 (.infinity s) := by
    unfold UnpackedFloat.pack
    dsimp only
    rw [hbiased, if_pos hover]
  rw [Float.Model.pack, Float.Model.mk.injEq, hpack]
  rfl

/-- The binary number with the given parts is a number and has their value. -/
theorem hasValue_ofModel {x : Float.Model} {u : UnpackedFloat} (hx : x.unpack = u)
    (hu : IsProper u) : HasValue (.ofModel x) (partsValue u) := by
  constructor
  · show x.unpack.isNaN = false
    rw [hx]
    cases u with
    | notANumber => exact hu.elim
    | _ => rfl
  · show partsValue x.unpack = partsValue u
    rw [hx]

theorem hasValue_zero : HasValue (.ofModel (.pack (.zero s))) 0 :=
  hasValue_ofModel (unpack_pack_zero s) trivial

theorem hasValue_infinity : HasValue (.ofModel (.pack (.infinity s))) (factor s * limit) :=
  hasValue_ofModel (unpack_pack_infinity s) trivial

/-- Parts in their form are packed to their value, or to infinity if that is out of range. -/
theorem hasValue_finite {m : ℕ} {q : ℤ} (hpos : 0 < m) (hlt : m < 2 ^ 53) (hleast : -1074 ≤ q)
    (hfull : 2 ^ 52 ≤ m ∨ q = -1074) :
    HasValue (.ofModel (.pack (.finite s m q hpos))) (factor s * min limit (m * 2 ^ q)) := by
  by_cases hmost : q ≤ 971
  · have hcanonical : IsCanonical m q := ⟨hpos, hlt, hleast, hmost, hfull⟩
    rw [min_eq_right (magnitude_lt_limit hcanonical).le]
    exact hasValue_ofModel (unpack_pack s hcanonical) hcanonical
  · have hle : limit ≤ m * 2 ^ q := by
      calc limit = 2 ^ (1024 : ℤ) := (zpow_natCast 2 1024).symm
        _ ≤ 2 ^ (q + 52) := zpow_le_zpow_right₀ (by norm_num) (by omega)
        _ ≤ m * 2 ^ q := le_magnitude (hfull.resolve_right (by omega))
    rw [min_eq_left hle, pack_of_most_lt s (by omega)]
    exact hasValue_infinity s

/-- A quotient is rounded to 53 bits. -/
theorem hasValue_roundWithAccuracy {num den : ℕ} {e : ℤ} (hnum : 0 < num) (hden : 0 < den)
    (hfine : 2 ^ 52 ≤ num / den ∨ e ≤ -1074) :
    HasValue (.ofModel (.pack (roundWithAccuracy Format.binary64 s (num / den) e
        (accuracyOfFraction (num % den) den))))
      (rounded (factor s * (num / den * 2 ^ e))) := by
  have hpos : (0 : ℚ) < num / den * 2 ^ e := by positivity
  obtain ⟨k, hunbounded, hnear, hmost, hfull⟩ := exists_isNear hpos.le
  have hleast := le_place (num / den * 2 ^ e)
  have hhigh := lt_place (num / den * 2 ^ e)
  have hlow := place_le (num / den * 2 ^ e)
  rw [abs_of_pos hpos] at hhigh hlow
  rw [rounded_factor_mul, rounded_of_nonneg hpos.le, hunbounded]
  generalize place (num / den * 2 ^ e) = t at hnear hfull hleast hhigh hlow ⊢
  rcases Nat.eq_zero_or_pos k with rfl | hkpos
  · obtain rfl : t = -1074 := hfull.resolve_left (by decide)
    rw [Decimal.roundWithAccuracy_zero s hden hfine hhigh hnear, Nat.cast_zero, zero_mul,
      min_eq_right limit_pos.le, mul_zero]
    exact hasValue_zero s
  · rcases hmost.lt_or_eq with hlt | rfl
    · rw [Decimal.roundWithAccuracy_finite s hkpos hden hfine hleast hlow hhigh hnear hlt hfull
        (.inl ⟨rfl, rfl⟩)]
      exact hasValue_finite s hkpos hlt hleast hfull
    -- A carry: the mantissa is halved, and the place goes up by one.
    · have hvalue : ((2 ^ 53 : ℕ) : ℚ) * 2 ^ t = (2 ^ 52 : ℕ) * 2 ^ (t + 1) := by
        rw [zpow_add₀ (by norm_num)]
        push_cast
        ring
      rw [Decimal.roundWithAccuracy_finite s (m := 2 ^ 52) (by decide) hden hfine hleast hlow hhigh
        hnear (by decide) (.inl le_rfl) (.inr ⟨by decide, rfl⟩), hvalue]
      exact hasValue_finite s (by decide) (by decide) (by omega) (.inl le_rfl)

/-- An integer in units that are fine enough is rounded to 53 bits. -/
theorem hasValue_roundWithAccuracy_exact {m : ℕ} {e : ℤ} (hm : 0 < m)
    (hfine : 2 ^ 52 ≤ m ∨ e ≤ -1074) :
    HasValue (.ofModel (.pack (roundWithAccuracy Format.binary64 s m e .exact)))
      (rounded (factor s * (m * 2 ^ e))) := by
  have h := @hasValue_roundWithAccuracy s m 1 e hm one_pos
  rw [Nat.div_one, Nat.mod_one, Nat.cast_one, div_one] at h
  exact h hfine

/-- A mantissa in smaller units. -/
theorem decreaseExponent_eq (m : ℕ) {e t : ℤ} (h : t ≤ e) :
    decreaseExponent m e t = (m * 2 ^ (e - t).toNat, t) := by
  rw [decreaseExponent, Nat.shiftLeft_eq, Prod.mk.injEq]
  exact ⟨rfl, by omega⟩

/-- A mantissa in units that are small enough already. -/
theorem decreaseExponent_of_le (m : ℕ) {e t : ℤ} (h : e ≤ t) :
    decreaseExponent m e t = (m, e) := by
  have hshift : (e - t).toNat = 0 := by omega
  rw [decreaseExponent, hshift, Nat.shiftLeft_zero, Nat.cast_zero, sub_zero]

theorem mul_pow_mul_zpow (m : ℚ) {e t : ℤ} (h : t ≤ e) :
    m * 2 ^ (e - t).toNat * 2 ^ t = m * 2 ^ e := by
  rw [mul_assoc, ← zpow_natCast, ← zpow_add₀ (by norm_num)]
  congr 2
  omega

/-- A mantissa is brought into units that are fine enough, if it has to be, and rounded. -/
theorem hasValue_round {m : ℕ} (e : ℤ) (hm : 0 < m) :
    HasValue (.ofModel (.pack (UnpackedFloat.round Format.binary64 s m e)))
      (rounded (factor s * (m * 2 ^ e))) := by
  obtain ⟨t, ht⟩ : ∃ t : ℤ, t = max ((m.log2 : ℤ) + 1 + e - 53) (-1074) := ⟨_, rfl⟩
  have hround : UnpackedFloat.round Format.binary64 s m e =
      roundWithAccuracy Format.binary64 s (decreaseExponent m e t).1 (decreaseExponent m e t).2
        .exact := by
    rw [ht]
    rfl
  have hlog := Nat.log2_self_le hm.ne'
  rw [hround]
  rcases le_total t e with hle | hge
  · rw [decreaseExponent_eq m hle]
    dsimp only
    rw [← mul_pow_mul_zpow m hle]
    have hfine : 2 ^ 52 ≤ m * 2 ^ (e - t).toNat ∨ t ≤ -1074 := by
      by_cases hleast : t ≤ -1074
      · exact .inr hleast
      · left
        calc 2 ^ 52 = 2 ^ (m.log2 + (e - t).toNat) := by congr 1; omega
          _ = 2 ^ m.log2 * 2 ^ (e - t).toNat := pow_add ..
          _ ≤ m * 2 ^ (e - t).toNat := Nat.mul_le_mul_right _ hlog
    have h := hasValue_roundWithAccuracy_exact s (by positivity) hfine
    push_cast at h
    exact h
  · rw [decreaseExponent_of_le m hge]
    apply hasValue_roundWithAccuracy_exact s hm
    by_cases hleast : e ≤ -1074
    · exact .inr hleast
    · left
      calc 2 ^ 52 ≤ 2 ^ m.log2 := Nat.pow_le_pow_right (by decide) (by omega)
        _ ≤ m := hlog

/-- An integer in units of a power of two is rounded to 53 bits. -/
theorem hasValue_normalize (k e : ℤ) (zero : Sign) :
    HasValue (.ofModel (.pack (UnpackedFloat.normalize Format.binary64 k e zero)))
      (rounded (k * 2 ^ e)) := by
  unfold UnpackedFloat.normalize
  rcases lt_trichotomy k 0 with hneg | rfl | hpos
  · have hcast : (((-k).toNat : ℕ) : ℚ) = -k := by
      exact_mod_cast Int.toNat_of_nonneg (by omega : 0 ≤ -k)
    have h := hasValue_round .negative e (m := (-k).toNat) (by omega)
    rw [hcast, factor, neg_one_mul, neg_mul, neg_neg] at h
    rw [compare_lt_iff_lt.2 hneg]
    exact h
  · rw [compare_eq_iff_eq.2 rfl, Int.cast_zero, zero_mul, rounded_zero]
    exact hasValue_zero zero
  · have hcast : ((k.toNat : ℕ) : ℚ) = k := by
      exact_mod_cast Int.toNat_of_nonneg hpos.le
    have h := hasValue_round .positive e (m := k.toNat) (by omega)
    rw [hcast, factor, one_mul] at h
    rw [compare_gt_iff_gt.2 hpos]
    exact h

end LidarAngle.Binary
