import LidarAngle.Proofs.Decimal.Nearest

/-!
# Shortest decimals read back

The search for the shortest decimal only ever takes points of a grid that round to the binary
number, and ends at the latest at a grid that has the number itself.

## Main statements

* `Decimal.readsBack_iff` - comparing counts of a common unit is comparing numbers
* `Decimal.roundsTo_shortest` - the shortest decimal rounds to the number
-/

namespace LidarAngle.Decimal

variable {m : ℕ} {q : ℤ}

theorem gridStep_eq (q e : ℤ) : gridStep q e = 10 ^ e.toNat * 2 ^ (2 - q).toNat := rfl

theorem quarters_eq (q e : ℤ) (n : ℕ) :
    quarters q e n = n * 2 ^ (q - 2).toNat * 10 ^ (-e).toNat := rfl

/-- The unit in which a binary and a decimal number are both whole. -/
def commonUnit (q e : ℤ) : ℕ :=
  2 ^ (2 - q).toNat * 10 ^ (-e).toNat

theorem commonUnit_pos (q e : ℤ) : (0 : ℚ) < commonUnit q e := by
  have : 0 < commonUnit q e := by unfold commonUnit; positivity
  exact_mod_cast this

theorem zpow_mul_pow_toNat {b : ℚ} (hb : b ≠ 0) (i : ℤ) :
    b ^ i * b ^ (-i).toNat = b ^ i.toNat := by
  rw [← zpow_natCast, ← zpow_natCast, ← zpow_add₀ hb]
  congr 1
  omega

theorem cast_quarters (q e : ℤ) (n : ℕ) :
    (quarters q e n : ℚ) = n * 2 ^ (q - 2) * commonUnit q e := by
  have htwo := zpow_mul_pow_toNat (b := 2) (by norm_num) (q - 2)
  rw [neg_sub] at htwo
  rw [quarters_eq, commonUnit]
  push_cast
  rw [← htwo]
  ring

theorem cast_gridStep (q e : ℤ) : (gridStep q e : ℚ) = 10 ^ e * commonUnit q e := by
  have hten := zpow_mul_pow_toNat (b := 10) (by norm_num) e
  rw [gridStep_eq, commonUnit]
  push_cast
  rw [← hten]
  ring

/-- Comparing counts of the common unit is comparing numbers. -/
theorem readsBack_iff {e : ℤ} {k : ℕ} : ReadsBack m q e k ↔ RoundsTo (k * 10 ^ e) m q := by
  have hunit := commonUnit_pos q e
  have hle : ∀ a b : ℕ, a ≤ b ↔ (a : ℚ) ≤ b := fun a b => Nat.cast_le.symm
  have hlt : ∀ a b : ℕ, a < b ↔ (a : ℚ) < b := fun a b => Nat.cast_lt.symm
  unfold ReadsBack RoundsTo
  simp only [hle, hlt, Nat.cast_mul, cast_quarters, cast_gridStep, ← mul_assoc,
    mul_le_mul_iff_left₀ hunit, mul_lt_mul_iff_left₀ hunit]

theorem readsBack_of_pick? {e : ℤ} {k : ℕ} (h : pick? m q e = some k) : ReadsBack m q e k := by
  unfold pick? at h
  dsimp only at h
  split at h
  · next hfloor =>
    split at h
    · next hnext => exact Option.some.inj h ▸ hnext.1
    · exact Option.some.inj h ▸ hfloor
  · split at h
    · next hnext => exact Option.some.inj h ▸ hnext
    · exact absurd h (by simp)

/-- On the finest grid every binary number is a point. -/
theorem gridStep_dvd (m : ℕ) (q : ℤ) :
    gridStep q (finest q) ∣ quarters q (finest q) (4 * m) := by
  have hzero : (finest q).toNat = 0 := by
    unfold finest
    omega
  have hle : (2 - q).toNat ≤ 2 + (-finest q).toNat := by
    unfold finest
    omega
  have hpow : 2 ^ (2 - q).toNat ∣ 4 * 10 ^ (-finest q).toNat := by
    refine (Nat.pow_dvd_pow 2 hle).trans ?_
    rw [pow_add]
    exact mul_dvd_mul (by decide) (pow_dvd_pow_of_dvd (by decide) _)
  have hswap : quarters q (finest q) (4 * m) =
      4 * 10 ^ (-finest q).toNat * (m * 2 ^ (q - 2).toNat) := by
    rw [quarters_eq]
    ring
  rw [gridStep_eq, hzero, pow_zero, one_mul, hswap]
  exact hpow.mul_right _

theorem gridFloor_finest (m : ℕ) (q : ℤ) :
    (gridFloor m q (finest q) : ℚ) * 10 ^ finest q = 4 * m * 2 ^ (q - 2) := by
  have hunit := commonUnit_pos q (finest q)
  have hten : (0 : ℚ) < 10 ^ finest q := zpow_pos (by norm_num) _
  have hstep : (gridStep q (finest q) : ℚ) ≠ 0 := by
    rw [cast_gridStep]
    positivity
  rw [gridFloor, Nat.cast_div (gridStep_dvd m q) hstep, cast_quarters, cast_gridStep]
  push_cast
  field_simp

theorem roundsTo_self (hpos : 0 < m) (q : ℤ) : RoundsTo (4 * m * 2 ^ (q - 2)) m q := by
  have hunit : (0 : ℚ) < 2 ^ (q - 2) := zpow_pos (by norm_num) _
  have hlow : (lowQuarters m q : ℚ) < 4 * m := by
    have : lowQuarters m q < 4 * m := by
      unfold lowQuarters
      split
      · omega
      · omega
    exact_mod_cast this
  have hhigh : (4 * m : ℚ) < highQuarters m := by
    have : 4 * m < highQuarters m := by rw [highQuarters]; omega
    exact_mod_cast this
  have hlow' := mul_lt_mul_of_pos_right hlow hunit
  have hhigh' := mul_lt_mul_of_pos_right hhigh hunit
  unfold RoundsTo
  split
  · exact ⟨hlow'.le, hhigh'.le⟩
  · exact ⟨hlow', hhigh'⟩

theorem roundsTo_descend (hpos : 0 < m) (q : ℤ) (n : ℕ) :
    RoundsTo ((descend m q n).1 * 10 ^ (descend m q n).2) m q := by
  induction n with
  | zero =>
    rw [descend, gridFloor_finest]
    exact roundsTo_self hpos q
  | succ n ih =>
    rw [descend]
    split
    · next k hpick => exact readsBack_iff.1 (readsBack_of_pick? hpick)
    · exact ih

/-- The shortest decimal rounds to the number. -/
theorem roundsTo_shortest (hpos : 0 < m) (q : ℤ) :
    RoundsTo ((shortest m q).1 * 10 ^ (shortest m q).2) m q :=
  roundsTo_descend hpos q _

theorem shortest_pos (h : IsCanonical m q) : 0 < (shortest m q).1 := by
  have hpos := (roundsTo_shortest h.pos q).pos h
  rw [Nat.pos_iff_ne_zero]
  intro hzero
  rw [hzero] at hpos
  simp at hpos

end LidarAngle.Decimal
