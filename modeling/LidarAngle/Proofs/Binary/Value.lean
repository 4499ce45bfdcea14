import LidarAngle.Proofs.Binary.Rounded
import LidarAngle.Proofs.Decimal.Nearest

/-!
# The values of binary numbers

A binary number that is not infinite is a rational number. An infinite one is given the first power
of two that is out of range, so that the order of binary numbers is the order of their values.

## Main definitions

* `Binary.value` - the value of a binary number
* `Binary.HasValue` - the binary number is a number at all, and has a value

## Main statements

* `Binary.isFinite_iff` - the numbers that are not infinite
* `Binary.lt_iff`, `Binary.le_iff`, `Binary.beq_iff` - the order of binary numbers
* `Binary.rounded_value` - a value is left as it is when it is rounded
-/

namespace LidarAngle.Binary

open Float.Model Float.Model.UnpackedFloat
open Decimal (IsCanonical isCanonical_of_unpack)

/-- A sign as a factor. -/
def factor : Sign → ℚ
  | .positive => 1
  | .negative => -1

/-- The number that the parts of a binary number stand for. -/
def partsValue : UnpackedFloat → ℚ
  | .notANumber => 0
  | .infinity s => factor s * limit
  | .zero _ => 0
  | .finite s m q _ => factor s * (m * 2 ^ q)

/-- The value of a binary number. -/
def value (x : Float) : ℚ :=
  partsValue x.toModel.unpack

/-- The binary number is a number, and it has the value. -/
structure HasValue (x : Float) (v : ℚ) : Prop where
  isNaN_eq : x.isNaN = false
  value_eq : value x = v

/-- The parts are those of a number. -/
def IsProper : UnpackedFloat → Prop
  | .notANumber => False
  | .finite _ m q _ => IsCanonical m q
  | _ => True

theorem isProper_unpack {x : Float} (h : x.isNaN = false) : IsProper x.toModel.unpack := by
  have hnan : x.toModel.unpack.isNaN = false := h
  cases hx : x.toModel.unpack with
  | notANumber => rw [hx] at hnan; exact absurd hnan (by decide)
  | infinity s => trivial
  | zero s => trivial
  | finite s m q hpos => exact isCanonical_of_unpack hx

theorem abs_factor_mul (s : Sign) (v : ℚ) : |factor s * v| = |v| := by
  cases s with
  | positive => rw [factor, one_mul]
  | negative => rw [factor, neg_one_mul, abs_neg]

section Magnitude

variable {m n : ℕ} {q r : ℤ}

theorem magnitude_pos (h : 0 < m) : (0 : ℚ) < m * 2 ^ q :=
  mul_pos (by exact_mod_cast h) (by positivity)

theorem magnitude_lt (hm : m < 2 ^ 53) : (m : ℚ) * 2 ^ q < 2 ^ (q + 53) := by
  rw [add_comm, zpow_add₀ (by norm_num)]
  exact mul_lt_mul_of_pos_right (by exact_mod_cast hm) (by positivity)

theorem le_magnitude (hm : 2 ^ 52 ≤ m) : (2 : ℚ) ^ (q + 52) ≤ m * 2 ^ q := by
  rw [add_comm, zpow_add₀ (by norm_num)]
  exact mul_le_mul_of_nonneg_right (by exact_mod_cast hm) (by positivity)

theorem magnitude_lt_limit (h : IsCanonical m q) : (m : ℚ) * 2 ^ q < limit := by
  have hmost := h.most
  calc (m : ℚ) * 2 ^ q < 2 ^ (q + 53) := magnitude_lt h.lt
    _ ≤ 2 ^ (1024 : ℤ) := zpow_le_zpow_right₀ (by norm_num) (by omega)
    _ = limit := zpow_natCast 2 1024

/-- Of two numbers with different exponents that with the lower one is less. -/
theorem magnitude_lt_magnitude (hm : IsCanonical m q) (hn : IsCanonical n r) (h : q < r) :
    (m : ℚ) * 2 ^ q < n * 2 ^ r := by
  have hleast := hm.least
  have hfull := hn.full.resolve_right (by omega)
  calc (m : ℚ) * 2 ^ q < 2 ^ (q + 53) := magnitude_lt hm.lt
    _ ≤ 2 ^ (r + 52) := zpow_le_zpow_right₀ (by norm_num) (by omega)
    _ ≤ n * 2 ^ r := le_magnitude hfull

theorem compare_magnitude (hm : IsCanonical m q) (hn : IsCanonical n r) :
    (compare q r).then (compare m n) = compare ((m : ℚ) * 2 ^ q) (n * 2 ^ r) := by
  have hpower : (0 : ℚ) < 2 ^ r := by positivity
  rcases lt_trichotomy q r with hlt | rfl | hgt
  · rw [compare_lt_iff_lt.2 hlt, compare_lt_iff_lt.2 (magnitude_lt_magnitude hm hn hlt)]
    rfl
  · rw [compare_eq_iff_eq.2 rfl, Ordering.then]
    rcases lt_trichotomy m n with hlt | rfl | hgt
    · rw [compare_lt_iff_lt.2 hlt, eq_comm, compare_lt_iff_lt]
      exact mul_lt_mul_of_pos_right (by exact_mod_cast hlt) hpower
    · rw [compare_eq_iff_eq.2 rfl, compare_eq_iff_eq.2 rfl]
    · rw [compare_gt_iff_gt.2 hgt, eq_comm, compare_gt_iff_gt]
      exact mul_lt_mul_of_pos_right (by exact_mod_cast hgt) hpower
  · rw [compare_gt_iff_gt.2 hgt, compare_gt_iff_gt.2 (magnitude_lt_magnitude hn hm hgt)]
    rfl

end Magnitude

theorem partsValue_neg (u : UnpackedFloat) : partsValue u.neg = -partsValue u := by
  have hfactor : ∀ s : Sign, factor (-s) = -factor s := by
    intro s
    cases s with
    | positive => rfl
    | negative => exact (neg_neg 1).symm
  cases u with
  | notANumber => exact neg_zero.symm
  | infinity s =>
    show factor (-s) * _ = -(factor s * _)
    rw [hfactor, neg_mul]
  | zero s => exact neg_zero.symm
  | finite s m q hpos =>
    show factor (-s) * _ = -(factor s * _)
    rw [hfactor, neg_mul]

theorem abs_partsValue_finite (s : Sign) {m : ℕ} {q : ℤ} (hpos : 0 < m) (h : IsCanonical m q) :
    |partsValue (.finite s m q hpos)| < limit := by
  rw [partsValue, abs_factor_mul, abs_of_pos (magnitude_pos hpos)]
  exact magnitude_lt_limit h

theorem compare_neg_neg (a b : ℚ) : compare (-a) (-b) = (compare a b).swap := by
  rcases lt_trichotomy a b with hlt | rfl | hgt
  · rw [compare_lt_iff_lt.2 hlt, compare_gt_iff_gt.2 (neg_lt_neg hlt)]
    rfl
  · rw [compare_eq_iff_eq.2 rfl, compare_eq_iff_eq.2 rfl]
    rfl
  · rw [compare_gt_iff_gt.2 hgt, compare_lt_iff_lt.2 (neg_lt_neg hgt)]
    rfl

/-- The parts of numbers are compared as what they stand for. -/
theorem compare_eq {u w : UnpackedFloat} (hu : IsProper u) (hw : IsProper w) :
    u.compare w = some (compare (partsValue u) (partsValue w)) := by
  have hlt : ∀ {a b : ℚ}, a < b → some Ordering.lt = some (compare a b) :=
    fun h => congrArg some (compare_lt_iff_lt.2 h).symm
  have hgt : ∀ {a b : ℚ}, b < a → some Ordering.gt = some (compare a b) :=
    fun h => congrArg some (compare_gt_iff_gt.2 h).symm
  have heq : ∀ {a : ℚ}, some Ordering.eq = some (compare a a) :=
    fun {a} => congrArg some (compare_eq_iff_eq.2 rfl).symm
  have hlimit := limit_pos
  have hpositive : ∀ {m : ℕ} {q : ℤ} {hpos : 0 < m},
      0 < partsValue (.finite .positive m q hpos) := by
    intro m q hpos
    rw [partsValue, factor, one_mul]
    exact magnitude_pos hpos
  have hnegative : ∀ {m : ℕ} {q : ℤ} {hpos : 0 < m},
      partsValue (.finite .negative m q hpos) < 0 := by
    intro m q hpos
    rw [partsValue, factor, neg_one_mul]
    exact neg_neg_of_pos (magnitude_pos hpos)
  cases u with
  | notANumber => exact hu.elim
  | infinity s =>
    cases w with
    | notANumber => exact hw.elim
    | infinity s' =>
      cases s with
      | positive =>
        cases s' with
        | positive => exact heq
        | negative => exact hgt (by simp only [partsValue, factor]; linarith)
      | negative =>
        cases s' with
        | positive => exact hlt (by simp only [partsValue, factor]; linarith)
        | negative => exact heq
    | zero s' =>
      cases s with
      | positive => exact hgt (by simp only [partsValue, factor]; linarith)
      | negative => exact hlt (by simp only [partsValue, factor]; linarith)
    | finite s' n r hn =>
      obtain ⟨hlow, hhigh⟩ := abs_lt.1 (abs_partsValue_finite s' hn hw)
      cases s with
      | positive => exact hgt (by rw [partsValue, factor, one_mul]; exact hhigh)
      | negative => exact hlt (by rw [partsValue, factor, neg_one_mul]; exact hlow)
  | zero s =>
    cases w with
    | notANumber => exact hw.elim
    | infinity s' =>
      cases s' with
      | positive => exact hlt (by simp only [partsValue, factor]; linarith)
      | negative => exact hgt (by simp only [partsValue, factor]; linarith)
    | zero s' => exact heq
    | finite s' n r hn =>
      cases s' with
      | positive => exact hlt hpositive
      | negative => exact hgt hnegative
  | finite s m q hm =>
    cases w with
    | notANumber => exact hw.elim
    | infinity s' =>
      obtain ⟨hlow, hhigh⟩ := abs_lt.1 (abs_partsValue_finite s hm hu)
      cases s' with
      | positive => exact hlt (by rw [partsValue, factor, one_mul]; exact hhigh)
      | negative => exact hgt (by rw [partsValue, factor, neg_one_mul]; exact hlow)
    | zero s' =>
      cases s with
      | positive => exact hgt hpositive
      | negative => exact hlt hnegative
    | finite s' n r hn =>
      cases s with
      | positive =>
        cases s' with
        | positive =>
          rw [partsValue, partsValue, factor, one_mul, one_mul, ← compare_magnitude hu hw]
          rfl
        | negative => exact hgt (hnegative.trans hpositive)
      | negative =>
        cases s' with
        | positive => exact hlt (hnegative.trans hpositive)
        | negative =>
          rw [partsValue, partsValue, factor, neg_one_mul, neg_one_mul, compare_neg_neg,
            ← compare_magnitude hu hw]
          rfl

theorem unpack_of_isNaN {x : Float} (h : x.isNaN = true) : x.toModel.unpack = .notANumber := by
  have hnan : x.toModel.unpack.isNaN = true := h
  cases hx : x.toModel.unpack with
  | notANumber => rfl
  | _ => rw [hx] at hnan; exact absurd hnan Bool.false_ne_true

section Order

variable {x y : Float}

/-- A comparison with what is not a number has no outcome. -/
theorem compare_unpack (x y : Float) :
    x.toModel.unpack.compare y.toModel.unpack =
      if x.isNaN ∨ y.isNaN then none else some (compare (value x) (value y)) := by
  split
  · next h =>
    rcases h with h | h
    · rw [unpack_of_isNaN h]
      rfl
    · rw [unpack_of_isNaN h]
      cases x.toModel.unpack with
      | _ => rfl
  · next h =>
    rw [not_or, Bool.not_eq_true, Bool.not_eq_true] at h
    exact compare_eq (isProper_unpack h.1) (isProper_unpack h.2)

theorem lt_iff : x < y ↔ x.isNaN = false ∧ y.isNaN = false ∧ value x < value y := by
  show decide (x.toModel.unpack.lt y.toModel.unpack = true) = true ↔ _
  rw [decide_eq_true_iff, UnpackedFloat.lt, compare_unpack]
  cases x.isNaN with
  | true => simp
  | false =>
    cases y.isNaN with
    | true => simp
    | false => simp [compare_lt_iff_lt]

theorem le_iff : x ≤ y ↔ x.isNaN = false ∧ y.isNaN = false ∧ value x ≤ value y := by
  show decide (x.toModel.unpack.le y.toModel.unpack = true) = true ↔ _
  rw [decide_eq_true_iff, UnpackedFloat.le, compare_unpack]
  cases x.isNaN with
  | true => simp
  | false =>
    cases y.isNaN with
    | true => simp
    | false => simp [Ordering.isLE_iff_ne_gt, compare_le_iff_le]

theorem beq_iff : (x == y) = true ↔ x.isNaN = false ∧ y.isNaN = false ∧ value x = value y := by
  show x.toModel.unpack.beq y.toModel.unpack = true ↔ _
  rw [UnpackedFloat.beq, compare_unpack]
  cases x.isNaN with
  | true => simp
  | false =>
    cases y.isNaN with
    | true => simp
    | false => simp

end Order

theorem isFinite_iff {x : Float} : x.isFinite = true ↔ x.isNaN = false ∧ |value x| < limit := by
  show x.toModel.unpack.isFinite = true ↔ x.toModel.unpack.isNaN = false ∧ |partsValue _| < limit
  cases hx : x.toModel.unpack with
  | notANumber => exact iff_of_false Bool.false_ne_true (fun h => Bool.false_ne_true h.1.symm)
  | infinity s =>
    refine iff_of_false Bool.false_ne_true fun h => ?_
    rw [partsValue, abs_factor_mul, abs_of_pos limit_pos] at h
    exact lt_irrefl _ h.2
  | zero s => exact iff_of_true rfl ⟨rfl, abs_zero.trans_lt limit_pos⟩
  | finite s m q hpos =>
    exact iff_of_true rfl ⟨rfl, abs_partsValue_finite s hpos (isCanonical_of_unpack hx)⟩

theorem HasValue.isFinite {x : Float} {v : ℚ} (h : HasValue x v) (hv : |v| < limit) :
    x.isFinite = true :=
  isFinite_iff.2 ⟨h.isNaN_eq, by rwa [h.value_eq]⟩

theorem rounded_factor_mul (s : Sign) (v : ℚ) : rounded (factor s * v) = factor s * rounded v := by
  cases s with
  | positive => rw [factor, one_mul, one_mul]
  | negative => rw [factor, neg_one_mul, neg_one_mul, rounded_neg]

theorem rounded_limit : rounded limit = limit := by
  have hpower : limit = (1 : ℤ) * 2 ^ (1024 : ℤ) := by
    rw [Int.cast_one, one_mul]
    rfl
  rw [hpower]
  apply rounded_eq_self
  · apply place_le_of_lt (by norm_num)
    rw [← hpower, abs_of_pos limit_pos, limit, ← zpow_natCast]
    exact zpow_lt_zpow_right₀ (by norm_num) (by norm_num)
  · rw [← hpower, abs_of_pos limit_pos]

theorem rounded_magnitude {m : ℕ} {q : ℤ} (h : IsCanonical m q) :
    rounded (m * 2 ^ q) = m * 2 ^ q := by
  have hpos := magnitude_pos (q := q) h.pos
  have hself := @rounded_eq_self m q
  rw [Int.cast_natCast, abs_of_pos hpos] at hself
  refine hself (place_le_of_lt h.least ?_) (magnitude_lt_limit h).le
  rw [abs_of_pos hpos]
  exact magnitude_lt h.lt

/-- A value is left as it is when it is rounded. -/
theorem rounded_partsValue {u : UnpackedFloat} (h : IsProper u) :
    rounded (partsValue u) = partsValue u := by
  cases u with
  | notANumber => exact h.elim
  | infinity s => rw [partsValue, rounded_factor_mul, rounded_limit]
  | zero s => exact rounded_zero
  | finite s m q hpos => rw [partsValue, rounded_factor_mul, rounded_magnitude h]

theorem rounded_value {x : Float} (h : x.isNaN = false) : rounded (value x) = value x :=
  rounded_partsValue (isProper_unpack h)

theorem isFine_magnitude {m : ℕ} {q : ℤ} (h : -1074 ≤ q) : IsFine (m * 2 ^ q) := by
  have hexponent : ((q + 1074).toNat : ℤ) + -1074 = q := by omega
  refine ⟨m * 2 ^ (q + 1074).toNat, ?_⟩
  rw [Int.cast_mul, Int.cast_pow, Int.cast_natCast, Int.cast_ofNat, mul_assoc, ← zpow_natCast,
    ← zpow_add₀ (by norm_num), hexponent]

theorem isFine_value {x : Float} (h : x.isFinite = true) : IsFine (value x) := by
  have hfinite : x.toModel.unpack.isFinite = true := h
  unfold value
  cases hx : x.toModel.unpack with
  | notANumber => rw [hx] at hfinite; exact absurd hfinite Bool.false_ne_true
  | infinity s => rw [hx] at hfinite; exact absurd hfinite Bool.false_ne_true
  | zero s => exact ⟨0, by rw [partsValue, Int.cast_zero, zero_mul]⟩
  | finite s m q hpos =>
    have hfine := isFine_magnitude (m := m) (isCanonical_of_unpack hx).least
    cases s with
    | positive => rwa [partsValue, factor, one_mul]
    | negative => rw [partsValue, factor, neg_one_mul]; exact hfine.neg

end LidarAngle.Binary
