import LidarAngle.Proofs.Decimal.Rounding

/-!
# Rounding rational numbers to 53 bits

The result of an operation on binary numbers is the exact result, rounded. How a rational number is
rounded is said here without binary numbers: to an integer in units of its last place, a half to the
even one. The first power of two that is out of range stands for infinity, which is where everything
from there on is rounded to.

## Main definitions

* `Binary.nearest` - the nearest integer
* `Binary.place` - the last place of a number, as an exponent of two
* `Binary.rounded`, `Binary.limit` - the rounded number, and what stands for infinity

## Main statements

* `Binary.rounded_mono` - rounding keeps the order
* `Binary.rounded_eq_self` - a number of at most 53 bits is left as it is
* `Binary.rounded_le`, `Binary.le_rounded` - the error of rounding
* `Binary.rounded_le_of_isFine`, `Binary.le_rounded_of_isFine` - the same for numbers in units of
  the least place
-/

namespace LidarAngle.Binary

/-- The integer nearest to a number, the even one of two that are equally near. -/
def nearest (x : ℚ) : ℤ :=
  if Int.fract x < 1 / 2 then ⌊x⌋
  else if 1 / 2 < Int.fract x then ⌊x⌋ + 1
  else ⌊x⌋ + ⌊x⌋ % 2

theorem abs_nearest_sub_le (x : ℚ) : |nearest x - x| ≤ 1 / 2 := by
  have hsplit := Int.floor_add_fract x
  have hlow := Int.fract_nonneg x
  have hhigh := Int.fract_lt_one x
  rw [abs_le]
  unfold nearest
  split
  · constructor
    · linarith
    · linarith
  · split
    · push_cast
      constructor
      · linarith
      · linarith
    · next h h' =>
      have hhalf : Int.fract x = 1 / 2 := le_antisymm (not_lt.1 h') (not_lt.1 h)
      rcases Int.emod_two_eq_zero_or_one ⌊x⌋ with heven | hodd
      · rw [heven, add_zero]
        constructor
        · linarith
        · linarith
      · rw [hodd]
        push_cast
        constructor
        · linarith
        · linarith

/-- A half is only rounded to an even integer. -/
theorem nearest_even {x : ℚ} (h : |nearest x - x| = 1 / 2) : nearest x % 2 = 0 := by
  have hsplit := Int.floor_add_fract x
  have hlow := Int.fract_nonneg x
  have hhigh := Int.fract_lt_one x
  unfold nearest at h ⊢
  split at h
  · next hlt => rcases (abs_eq (by norm_num)).1 h with h | h <;> linarith
  · next hle =>
    rw [if_neg hle]
    split at h
    · next hgt =>
      push_cast at h
      rcases (abs_eq (by norm_num)).1 h with h | h <;> linarith
    · next hge =>
      rw [if_neg hge]
      omega

/-- The nearest integer is the only one within a half that is even if it is a half away. -/
theorem nearest_eq {x : ℚ} {k : ℤ} (h : |k - x| ≤ 1 / 2) (heven : |k - x| = 1 / 2 → k % 2 = 0) :
    nearest x = k := by
  have hnearest := abs_nearest_sub_le x
  have hdist : |((nearest x - k : ℤ) : ℚ)| ≤ 1 := by
    have htriangle := abs_sub_le (nearest x : ℚ) x k
    rw [abs_sub_comm x] at htriangle
    push_cast
    linarith
  have hle : |nearest x - k| ≤ 1 := by exact_mod_cast hdist
  by_contra hne
  -- Two integers that are both within a half are a half away, and one of them is odd.
  have hone : |((nearest x - k : ℤ) : ℚ)| = 1 := by
    have : |nearest x - k| = 1 := by
      have : 0 < |nearest x - k| := abs_pos.2 (sub_ne_zero.2 hne)
      omega
    exact_mod_cast this
  have htriangle := abs_sub_le (nearest x : ℚ) x k
  rw [abs_sub_comm x] at htriangle
  push_cast at hone
  have hk := heven (by linarith)
  have hn := nearest_even (x := x) (by linarith)
  rw [abs_le] at hle
  omega

theorem nearest_intCast (k : ℤ) : nearest k = k := by
  rw [nearest, Int.fract_intCast, if_pos (by norm_num), Int.floor_intCast]

theorem nearest_mono {x y : ℚ} (h : x ≤ y) : nearest x ≤ nearest y := by
  by_contra hlt
  have hx := abs_le.1 (abs_nearest_sub_le x)
  have hy := abs_le.1 (abs_nearest_sub_le y)
  have hstep : (nearest y : ℚ) + 1 ≤ nearest x := by exact_mod_cast not_le.1 hlt
  -- There is no room for an exchange unless the numbers are the same.
  obtain rfl : x = y := by linarith
  exact hlt le_rfl

theorem nearest_neg (x : ℚ) : nearest (-x) = -nearest x := by
  have habs : |((-nearest x : ℤ) : ℚ) - -x| = |nearest x - x| := by
    rw [← abs_neg]
    push_cast
    congr 1
    ring
  apply nearest_eq
  · rw [habs]
    exact abs_nearest_sub_le x
  · rw [habs]
    intro h
    have := nearest_even h
    omega

theorem nearest_nonneg {x : ℚ} (h : 0 ≤ x) : 0 ≤ nearest x := by
  rw [← nearest_intCast 0]
  exact nearest_mono (by exact_mod_cast h)

theorem isNear_nearest {x : ℚ} (h : 0 ≤ x) : Decimal.IsNear x (nearest x).toNat := by
  have hnonneg := nearest_nonneg h
  have hcast : (((nearest x).toNat : ℕ) : ℚ) = nearest x := by
    exact_mod_cast Int.toNat_of_nonneg hnonneg
  have hdist := abs_le.1 (abs_nearest_sub_le x)
  rw [Decimal.IsNear, hcast]
  split
  · constructor
    · linarith
    · linarith
  · next hodd =>
    have hne : |nearest x - x| ≠ 1 / 2 := by
      intro hhalf
      have := nearest_even hhalf
      omega
    have hlt := abs_lt.1 ((abs_nearest_sub_le x).lt_of_ne hne)
    constructor
    · linarith
    · linarith

/-- The exponent of the last binary place of a number, which is never below that of the least
number that has all 53 bits. -/
def place (v : ℚ) : ℤ :=
  Int.log 2 (max |v| (2 ^ (-1022 : ℤ))) - 52

section Place

variable {v w : ℚ}

theorem place_neg (v : ℚ) : place (-v) = place v := by
  rw [place, place, abs_neg]

theorem place_mono (h : |v| ≤ |w|) : place v ≤ place w := by
  have hpos : (0 : ℚ) < max |v| (2 ^ (-1022 : ℤ)) := lt_max_of_lt_right (by positivity)
  exact sub_le_sub_right (Int.log_mono_right hpos (max_le_max_right _ h)) _

theorem le_place (v : ℚ) : -1074 ≤ place v := by
  have hlog : Int.log 2 ((2 : ℚ) ^ (-1022 : ℤ)) = -1022 := Int.log_zpow (by decide) _
  have hle := Int.log_mono_right (b := 2) (by positivity) (le_max_right |v| ((2 : ℚ) ^ (-1022 : ℤ)))
  rw [hlog] at hle
  rw [place]
  omega

theorem lt_place (v : ℚ) : |v| < 2 ^ (place v + 53) := by
  have hlt := Int.lt_zpow_succ_log_self (b := 2) (by decide) (max |v| ((2 : ℚ) ^ (-1022 : ℤ)))
  rw [place, sub_add, show (52 - 53 : ℤ) = -1 from rfl, sub_neg_eq_add]
  exact (le_max_left _ _).trans_lt (by exact_mod_cast hlt)

/-- A number has all its bits, or its last place is the least one. -/
theorem place_le (v : ℚ) : 2 ^ (place v + 52) ≤ |v| ∨ place v = -1074 := by
  have hpos : (0 : ℚ) < max |v| (2 ^ (-1022 : ℤ)) := lt_max_of_lt_right (by positivity)
  have hle := Int.zpow_log_le_self (b := 2) (by decide) hpos
  rcases le_total |v| (2 ^ (-1022 : ℤ)) with hsmall | hlarge
  · right
    have hlog : Int.log 2 ((2 : ℚ) ^ (-1022 : ℤ)) = -1022 := Int.log_zpow (by decide) _
    rw [place, max_eq_right hsmall, hlog]
    rfl
  · left
    rw [max_eq_left hlarge] at hle
    rw [place, max_eq_left hlarge, sub_add_cancel]
    exact_mod_cast hle

/-- A number below a power of two has its last place below. -/
theorem place_le_of_lt {q : ℤ} (hq : -1074 ≤ q) (h : |v| < 2 ^ (q + 53)) : place v ≤ q := by
  rcases place_le v with hle | hleast
  · have hlt := hle.trans_lt h
    rw [zpow_lt_zpow_iff_right₀ (by norm_num)] at hlt
    omega
  · omega

end Place

/-- A number in units of its last place, rounded to an integer. -/
def unbounded (v : ℚ) : ℚ :=
  nearest (v / 2 ^ place v) * 2 ^ place v

section Unbounded

variable {v w : ℚ} {k q : ℤ}

theorem unbounded_neg (v : ℚ) : unbounded (-v) = -unbounded v := by
  rw [unbounded, unbounded, place_neg, neg_div, nearest_neg]
  push_cast
  ring

/-- In units of the last place of another number, a number in units of a higher place is whole. -/
theorem mul_zpow_eq (hq : place v ≤ q) :
    (k : ℚ) * 2 ^ q = (k * 2 ^ (q - place v).toNat : ℤ) * 2 ^ place v := by
  push_cast
  rw [mul_assoc, ← zpow_natCast, ← zpow_add₀ (by norm_num)]
  congr 2
  omega

/-- Rounding does not lead past a number in units of a place that is not below the last one. -/
theorem le_unbounded (hq : place v ≤ q) (h : k * 2 ^ q ≤ v) : k * 2 ^ q ≤ unbounded v := by
  have hpos : (0 : ℚ) < 2 ^ place v := by positivity
  rw [mul_zpow_eq hq] at h ⊢
  rw [← le_div_iff₀ hpos] at h
  have hle := nearest_mono h
  rw [nearest_intCast] at hle
  exact mul_le_mul_of_nonneg_right (by exact_mod_cast hle) hpos.le

theorem unbounded_le (hq : place v ≤ q) (h : v ≤ k * 2 ^ q) : unbounded v ≤ k * 2 ^ q := by
  have hpos : (0 : ℚ) < 2 ^ place v := by positivity
  rw [mul_zpow_eq hq] at h ⊢
  rw [← div_le_iff₀ hpos] at h
  have hle := nearest_mono h
  rw [nearest_intCast] at hle
  exact mul_le_mul_of_nonneg_right (by exact_mod_cast hle) hpos.le

theorem unbounded_eq_self (h : place (k * 2 ^ q) ≤ q) : unbounded (k * 2 ^ q) = k * 2 ^ q :=
  le_antisymm (unbounded_le h le_rfl) (le_unbounded h le_rfl)

theorem unbounded_nonneg (h : 0 ≤ v) : 0 ≤ unbounded v := by
  have hle := @le_unbounded v 0 (place v) le_rfl
  rw [Int.cast_zero, zero_mul] at hle
  exact hle h

theorem unbounded_mono_of_nonneg (hv : 0 ≤ v) (h : v ≤ w) : unbounded v ≤ unbounded w := by
  have habs : |v| ≤ |w| := by rwa [abs_of_nonneg hv, abs_of_nonneg (hv.trans h)]
  rcases (place_mono habs).eq_or_lt with heq | hlt
  · rw [unbounded, unbounded, heq]
    have hdiv : v / 2 ^ place w ≤ w / 2 ^ place w := div_le_div_of_nonneg_right h (by positivity)
    exact mul_le_mul_of_nonneg_right (by exact_mod_cast nearest_mono hdiv) (by positivity)
  -- A power of two is between numbers with different last places.
  · have hv' := (lt_place v).le
    have hw' := (place_le w).resolve_right (by have := le_place v; omega)
    rw [abs_of_nonneg hv] at hv'
    rw [abs_of_nonneg (hv.trans h)] at hw'
    have hlow := @unbounded_le v 1 (place v + 53) (by omega) (by rwa [Int.cast_one, one_mul])
    have hhigh := @le_unbounded w 1 (place w + 52) (by omega) (by rwa [Int.cast_one, one_mul])
    have hpower : (2 : ℚ) ^ (place v + 53) ≤ 2 ^ (place w + 52) :=
      zpow_le_zpow_right₀ (by norm_num) (by omega)
    rw [Int.cast_one, one_mul] at hlow hhigh
    exact hlow.trans (hpower.trans hhigh)

theorem unbounded_mono (h : v ≤ w) : unbounded v ≤ unbounded w := by
  rcases le_total 0 v with hv | hv
  · exact unbounded_mono_of_nonneg hv h
  · rcases le_total 0 w with hw | hw
    · have hneg := unbounded_nonneg (neg_nonneg.2 hv)
      rw [unbounded_neg] at hneg
      exact (neg_nonneg.1 hneg).trans (unbounded_nonneg hw)
    · have hneg := unbounded_mono_of_nonneg (neg_nonneg.2 hw) (neg_le_neg h)
      rw [unbounded_neg, unbounded_neg] at hneg
      exact neg_le_neg_iff.1 hneg

/-- The nearest integer in units of the last place has at most 53 bits, or is the next power of two.
It has all of them unless the last place is the least one. -/
theorem exists_isNear (h : 0 ≤ v) : ∃ k : ℕ, unbounded v = k * 2 ^ place v ∧
    Decimal.IsNear (v / 2 ^ place v) k ∧ k ≤ 2 ^ 53 ∧ (2 ^ 52 ≤ k ∨ place v = -1074) := by
  have hpos : (0 : ℚ) < 2 ^ place v := by positivity
  have hnonneg : 0 ≤ v / 2 ^ place v := by positivity
  have hcast : ((nearest (v / 2 ^ place v)).toNat : ℤ) = nearest (v / 2 ^ place v) :=
    Int.toNat_of_nonneg (nearest_nonneg hnonneg)
  have hlt := lt_place v
  have hle := place_le v
  rw [abs_of_nonneg h, add_comm, zpow_add₀ (by norm_num)] at hlt hle
  refine ⟨_, ?_, isNear_nearest hnonneg, ?_, ?_⟩
  · rw [unbounded]
    congr 1
    exact_mod_cast hcast.symm
  · have hmono := nearest_mono ((div_lt_iff₀ hpos).2 hlt).le
    have hpower : nearest (2 ^ (53 : ℤ)) = 2 ^ 53 := nearest_intCast (2 ^ 53)
    omega
  · refine hle.imp_left fun hle => ?_
    have hmono := nearest_mono ((le_div_iff₀ hpos).2 hle)
    have hpower : nearest (2 ^ (52 : ℤ)) = 2 ^ 52 := nearest_intCast (2 ^ 52)
    omega

theorem abs_unbounded_sub_le_place (v : ℚ) : |unbounded v - v| ≤ 2 ^ place v / 2 := by
  have hpos : (0 : ℚ) < 2 ^ place v := by positivity
  have hsplit : unbounded v - v = (nearest (v / 2 ^ place v) - v / 2 ^ place v) * 2 ^ place v := by
    rw [sub_mul, div_mul_cancel₀ _ hpos.ne', unbounded]
  have hle := mul_le_mul_of_nonneg_right (abs_nearest_sub_le (v / 2 ^ place v)) hpos.le
  rw [hsplit, abs_mul, abs_of_pos hpos]
  linarith

/-- Rounding to an integer in units of the last place is off by at most the last of 54 bits if the
number has all its bits. -/
theorem abs_unbounded_sub_le_of_full (h : 2 ^ (place v + 52) ≤ |v|) :
    |unbounded v - v| ≤ |v| / 2 ^ 53 := by
  rw [zpow_add₀ (by norm_num)] at h
  have := abs_unbounded_sub_le_place v
  have : (2 : ℚ) ^ place v * 2 ^ (52 : ℤ) / 2 ^ 53 = 2 ^ place v / 2 := by
    norm_num
    ring
  rw [le_div_iff₀ (by norm_num)]
  norm_num at h ⊢
  linarith

theorem abs_unbounded_sub_le (v : ℚ) : |unbounded v - v| ≤ |v| / 2 ^ 53 + 1 / 2 ^ 1075 := by
  rcases place_le v with hfull | hleast
  · exact (abs_unbounded_sub_le_of_full hfull).trans (le_add_of_nonneg_right (by positivity))
  · have hle := abs_unbounded_sub_le_place v
    have hhalf : (2 : ℚ) ^ (-1074 : ℤ) / 2 = 1 / 2 ^ 1075 := by
      rw [zpow_neg, zpow_ofNat, div_eq_mul_inv, ← mul_inv, ← pow_succ, one_div]
    rw [hleast, hhalf] at hle
    exact hle.trans (le_add_of_nonneg_left (by positivity))

/-- The number is a multiple of the least place. -/
def IsFine (v : ℚ) : Prop :=
  ∃ k : ℤ, v = k * 2 ^ (-1074 : ℤ)

theorem IsFine.neg (h : IsFine v) : IsFine (-v) := by
  obtain ⟨k, rfl⟩ := h
  exact ⟨-k, by rw [Int.cast_neg, neg_mul]⟩

theorem IsFine.add (hv : IsFine v) (hw : IsFine w) : IsFine (v + w) := by
  obtain ⟨k, rfl⟩ := hv
  obtain ⟨l, rfl⟩ := hw
  exact ⟨k + l, by rw [Int.cast_add, add_mul]⟩

theorem IsFine.sub (hv : IsFine v) (hw : IsFine w) : IsFine (v - w) := by
  rw [sub_eq_add_neg]
  exact hv.add hw.neg

theorem IsFine.natCast_mul (n : ℕ) (h : IsFine v) : IsFine (n * v) := by
  obtain ⟨k, rfl⟩ := h
  exact ⟨n * k, by rw [Int.cast_mul, Int.cast_natCast, mul_assoc]⟩

theorem IsFine.abs_unbounded_sub_le (h : IsFine v) : |unbounded v - v| ≤ |v| / 2 ^ 53 := by
  rcases place_le v with hfull | hleast
  · exact abs_unbounded_sub_le_of_full hfull
  · obtain ⟨k, rfl⟩ := h
    rw [unbounded_eq_self hleast.le, sub_self, abs_zero]
    positivity

end Unbounded

/-- The first power of two that is out of range. It stands for infinity. -/
def limit : ℚ :=
  2 ^ 1024

theorem limit_pos : 0 < limit := by
  unfold limit
  positivity

theorem two_pow_le_limit {n : ℕ} (h : n ≤ 1024) : (2 : ℚ) ^ n ≤ limit := by
  unfold limit
  exact pow_le_pow_right₀ (by norm_num) h

/-- The number rounded to 53 bits, or infinite if that is out of range. -/
def rounded (v : ℚ) : ℚ :=
  max (-limit) (min limit (unbounded v))

section Rounded

variable {v w : ℚ}

theorem rounded_mono (h : v ≤ w) : rounded v ≤ rounded w :=
  max_le_max_left _ (min_le_min_left _ (unbounded_mono h))

theorem max_min_neg (b x : ℚ) (h : 0 ≤ b) :
    max (-b) (min b (-x)) = -max (-b) (min b x) := by
  rcases le_total x (-b) with hlow | hlow
  · rw [min_eq_left (by linarith), min_eq_right (by linarith), max_eq_right (by linarith),
      max_eq_left hlow, neg_neg]
  · rcases le_total x b with hhigh | hhigh
    · rw [min_eq_right (by linarith), min_eq_right hhigh, max_eq_right (by linarith),
        max_eq_right hlow]
    · rw [min_eq_right (by linarith), min_eq_left hhigh, max_eq_left (by linarith),
        max_eq_right (by linarith)]

theorem rounded_neg (v : ℚ) : rounded (-v) = -rounded v := by
  rw [rounded, rounded, unbounded_neg, max_min_neg _ _ limit_pos.le]

theorem abs_rounded_le (v : ℚ) : |rounded v| ≤ limit :=
  abs_le.2 ⟨le_max_left _ _, max_le (neg_le_self limit_pos.le) (min_le_left _ _)⟩

theorem rounded_lt_limit (h : rounded v ≠ limit) : rounded v < limit :=
  lt_of_le_of_ne (abs_le.1 (abs_rounded_le v)).2 h

theorem rounded_of_nonneg (h : 0 ≤ v) : rounded v = min limit (unbounded v) := by
  have hnonneg := le_min limit_pos.le (unbounded_nonneg h)
  exact max_eq_right ((neg_nonpos.2 limit_pos.le).trans hnonneg)

theorem rounded_nonneg (h : 0 ≤ v) : 0 ≤ rounded v := by
  rw [rounded_of_nonneg h]
  exact le_min limit_pos.le (unbounded_nonneg h)

theorem rounded_zero : rounded 0 = 0 := by
  have hzero : nearest 0 = 0 := nearest_intCast 0
  rw [rounded_of_nonneg le_rfl, unbounded, zero_div, hzero, Int.cast_zero, zero_mul,
    min_eq_right limit_pos.le]

/-- A number of at most 53 bits is left as it is. -/
theorem rounded_eq_self {k q : ℤ} (h : place (k * 2 ^ q) ≤ q)
    (hrange : |(k * 2 ^ q : ℚ)| ≤ limit) : rounded (k * 2 ^ q) = k * 2 ^ q := by
  obtain ⟨hlow, hhigh⟩ := abs_le.1 hrange
  rw [rounded, unbounded_eq_self h, min_eq_right hhigh, max_eq_right hlow]

theorem rounded_le_unbounded (h : 0 ≤ v) : rounded v ≤ unbounded v := by
  rw [rounded_of_nonneg h]
  exact min_le_right _ _

theorem rounded_eq_unbounded (h : 0 ≤ v) (hrange : rounded v < limit) :
    rounded v = unbounded v := by
  rw [rounded_of_nonneg h] at hrange ⊢
  exact min_eq_right ((min_lt_iff.1 hrange).resolve_left (lt_irrefl _)).le

theorem rounded_le (h : 0 ≤ v) : rounded v ≤ v * (1 + 1 / 2 ^ 53) + 1 / 2 ^ 1075 := by
  have herror := (abs_le.1 (abs_unbounded_sub_le v)).2
  have := rounded_le_unbounded h
  rw [abs_of_nonneg h] at herror
  generalize (1 : ℚ) / 2 ^ 1075 = least at herror ⊢
  linarith

theorem le_rounded (h : 0 ≤ v) (hrange : rounded v < limit) :
    v * (1 - 1 / 2 ^ 53) - 1 / 2 ^ 1075 ≤ rounded v := by
  have herror := (abs_le.1 (abs_unbounded_sub_le v)).1
  rw [abs_of_nonneg h] at herror
  rw [rounded_eq_unbounded h hrange]
  generalize (1 : ℚ) / 2 ^ 1075 = least at herror ⊢
  linarith

theorem rounded_le_of_isFine (hfine : IsFine v) (h : 0 ≤ v) :
    rounded v ≤ v * (1 + 1 / 2 ^ 53) := by
  have herror := (abs_le.1 hfine.abs_unbounded_sub_le).2
  have := rounded_le_unbounded h
  rw [abs_of_nonneg h] at herror
  linarith

theorem le_rounded_of_isFine (hfine : IsFine v) (h : 0 ≤ v) (hrange : rounded v < limit) :
    v * (1 - 1 / 2 ^ 53) ≤ rounded v := by
  have herror := (abs_le.1 hfine.abs_unbounded_sub_le).1
  rw [abs_of_nonneg h] at herror
  rw [rounded_eq_unbounded h hrange]
  linarith

end Rounded

end LidarAngle.Binary
