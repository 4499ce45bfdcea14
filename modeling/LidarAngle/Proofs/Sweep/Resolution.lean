import LidarAngle.Proofs.Binary.Spacing
import LidarAngle.Proofs.Sweep.Grid

/-!
# The resolution of a sweep

The check of a sweep counts its rows, and does not look at the binary numbers between its bounds. So
the angles of a sweep that has rows can be infinite or the same. Only the last one can be infinite,
if it is beyond the greatest number. Two angles are the same if the step is too small for the binary
numbers at the bounds, and different if it is not below their spacing.

## Main definitions

* `Sweep.spacing` - the distance of the binary numbers at the bounds
* `Sweep.IsResolved` - the step is not below that

## Main statements

* `Sweep.angles_spec` - which angles are finite, and when they increase
* `Sweep.not_forall_angles` - a sweep that has rows with an infinite angle, and one with an angle
  twice
-/

namespace LidarAngle.Sweep

open Binary

variable {sweep : Sweep} {count row : ℕ}

/-- The last place of the bounds, where it is higher. -/
def boundsPlace (sweep : Sweep) : ℤ :=
  max (place (value sweep.start)) (place (value sweep.stop))

/-- The distance of neighbouring binary numbers at the bounds, where it is greater. -/
def spacing (sweep : Sweep) : ℚ :=
  2 ^ sweep.boundsPlace

/-- The step is greater than the spacing, or it is the spacing and the start is a multiple of it. -/
def IsResolved (sweep : Sweep) : Prop :=
  sweep.spacing < value sweep.step ∨
    value sweep.step = sweep.spacing ∧ ∃ k : ℤ, value sweep.start = k * sweep.spacing

theorem IsResolved.spacing_le (h : sweep.IsResolved) : sweep.spacing ≤ value sweep.step := by
  rcases h with hlt | ⟨heq, -⟩
  · exact hlt.le
  · exact heq.ge

theorem spacing_pos (sweep : Sweep) : 0 < sweep.spacing := by
  unfold spacing
  positivity

theorem le_boundsPlace (sweep : Sweep) : -1074 ≤ sweep.boundsPlace :=
  (le_place _).trans (le_max_left _ _)

/-- The computed distance of a row from the start. -/
def offset (sweep : Sweep) (row : ℕ) : ℚ :=
  rounded (row * value sweep.step)

theorem angleValue_of_offset_lt (h : sweep.offset row < limit) :
    sweep.angleValue row = rounded (value sweep.start + sweep.offset row) :=
  if_pos h

theorem angleValue_of_limit_le (h : limit ≤ sweep.offset row) : sweep.angleValue row = limit :=
  if_neg (not_lt.2 h)

/-- An angle is infinite if the distance from the start is, or the sum with the start. -/
theorem angleValue_lt_limit_iff : sweep.angleValue row < limit ↔
    row * value sweep.step < overflow ∧ value sweep.start + sweep.offset row < overflow := by
  rw [← rounded_lt_limit_iff, ← rounded_lt_limit_iff]
  by_cases hlt : sweep.offset row < limit
  · rw [angleValue_of_offset_lt hlt]
    exact (and_iff_right hlt).symm
  · rw [angleValue_of_limit_le (not_lt.1 hlt)]
    exact iff_of_false (lt_irrefl _) fun h => hlt h.1

theorem angles_of_rows (h : sweep.rows = .ok count) :
    sweep.angles = .ok ((List.range count).map sweep.angle) := by
  rw [angles_eq_map, h]
  rfl

namespace IsAccepted

theorem isFine_offset (h : sweep.IsAccepted count) (row : ℕ) : IsFine (row * value sweep.step) :=
  (isFine_value h.step_finite).natCast_mul row

theorem offset_le_mul (h : sweep.IsAccepted count) (row : ℕ) :
    sweep.offset row ≤ row * value sweep.step * (1 + 1 / 2 ^ 53) :=
  rounded_le_of_isFine (h.isFine_offset row) (h.offset_nonneg row)

theorem mul_le_offset (h : sweep.IsAccepted count) (hlt : sweep.offset row < limit) :
    row * value sweep.step * (1 - 1 / 2 ^ 53) ≤ sweep.offset row :=
  le_rounded_of_isFine (h.isFine_offset row) (h.offset_nonneg row) hlt

theorem zero_le_offset (h : sweep.IsAccepted count) (row : ℕ) : 0 ≤ sweep.offset row :=
  rounded_nonneg (h.offset_nonneg row)

theorem start_le_angle (h : sweep.IsAccepted count) (row : ℕ) :
    value sweep.start ≤ value sweep.start + sweep.offset row :=
  le_add_of_nonneg_right (h.zero_le_offset row)

/-- All angles but the last are up to the stop before they are rounded, too. -/
theorem angle_le_stop (h : sweep.IsAccepted count) (hrow : row + 1 < count) :
    value sweep.start + sweep.offset row ≤ value sweep.stop := by
  have hoffset := h.offset_le_mul row
  have hfit := h.offset_le hrow
  linarith

theorem row_lt_million (h : sweep.IsAccepted count) (hrow : row < count) :
    (row : ℚ) + 1 ≤ 10 ^ 6 := by
  have hmost := h.bounds.2.1
  exact_mod_cast (by omega : row + 1 ≤ maxRows)

/-- Neighbouring rows are nearly a step apart. -/
theorem offset_gap (h : sweep.IsAccepted count) (hrow : row + 1 < count)
    (hlt : sweep.offset (row + 1) < limit) :
    value sweep.step * (1 - 3 / 10 ^ 10) ≤ sweep.offset (row + 1) - sweep.offset row := by
  have hlow := h.mul_le_offset hlt
  have hhigh := h.offset_le_mul row
  have hmost := mul_le_mul_of_nonneg_right (h.row_lt_million hrow) h.step_pos.le
  have hpos := h.step_pos
  push_cast at hlow hmost
  norm_num at *
  linarith

theorem place_angle_le (h : sweep.IsAccepted count) (hrow : row + 1 < count) :
    place (value sweep.start + sweep.offset row) ≤ sweep.boundsPlace :=
  place_le_max (h.start_le_angle row) (h.angle_le_stop hrow)

/-- Before it is rounded in range, an angle beyond the bounds is rounded beyond the stop. -/
theorem unbounded_lt_of_beyond (h : sweep.IsAccepted count) (hrow : row + 1 < count) {next : ℕ}
    (hbeyond : sweep.boundsPlace < place (value sweep.start + sweep.offset next)) :
    unbounded (value sweep.start + sweep.offset row) <
      unbounded (value sweep.start + sweep.offset next) := by
  have hstart := h.start_le_angle next
  generalize value sweep.start + sweep.offset next = v at *
  have hpos : 0 < v := by
    by_contra hneg
    have habs : |v| ≤ |value sweep.start| := by
      rw [abs_of_nonpos (not_lt.1 hneg), abs_of_nonpos (hstart.trans (not_lt.1 hneg))]
      exact neg_le_neg hstart
    exact absurd ((place_mono habs).trans (le_max_left _ _)) (not_le.2 hbeyond)
  have hfull := (place_le v).resolve_right (by have := sweep.le_boundsPlace; omega)
  rw [abs_of_pos hpos] at hfull
  have hplace : place (value sweep.stop) ≤ sweep.boundsPlace := le_max_right _ _
  have hpower := @le_unbounded v 1 (place v + 52) (by omega) (by rwa [Int.cast_one, one_mul])
  rw [Int.cast_one, one_mul] at hpower
  calc unbounded (value sweep.start + sweep.offset row)
      ≤ unbounded (value sweep.stop) := unbounded_mono (h.angle_le_stop hrow)
    _ = value sweep.stop := unbounded_value h.stop_finite
    _ < 2 ^ (place (value sweep.stop) + 53) := (le_abs_self _).trans_lt (lt_place _)
    _ ≤ 2 ^ (place v + 52) := zpow_le_zpow_right₀ (by norm_num) (by omega)
    _ ≤ unbounded v := hpower

/-- Two angles are rounded apart if one of them has a finer last place than the bounds, as the two
errors are less than the step. -/
theorem unbounded_lt_of_finer (h : sweep.IsAccepted count) (hrow : row + 1 < count)
    (hlt : sweep.offset (row + 1) < limit) (hstep : sweep.spacing ≤ value sweep.step)
    (hfine : 2 ^ place (value sweep.start + sweep.offset row) +
      2 ^ place (value sweep.start + sweep.offset (row + 1)) ≤ sweep.spacing * (3 / 2)) :
    unbounded (value sweep.start + sweep.offset row) <
      unbounded (value sweep.start + sweep.offset (row + 1)) := by
  have hgap := h.offset_gap hrow hlt
  have hpos := sweep.spacing_pos
  have hfirst := (abs_le.1 (abs_unbounded_sub_le_place (value sweep.start + sweep.offset row))).2
  have hsecond :=
    (abs_le.1 (abs_unbounded_sub_le_place (value sweep.start + sweep.offset (row + 1)))).1
  norm_num at hgap
  linarith

/-- If the step is hardly greater than the spacing, the start is a multiple of half of that. -/
theorem exists_start_eq_mul (h : sweep.IsAccepted count) (hrow : row < count)
    (hstep : value sweep.step < sweep.spacing * 2)
    (hplace : place (value sweep.start + sweep.offset row) = sweep.boundsPlace) :
    ∃ k : ℤ, value sweep.start = k / 2 * sweep.spacing := by
  have hnear : sweep.boundsPlace - 1 ≤ place (value sweep.start) := by
    have hoffset := h.offset_le_mul row
    have hmost := mul_le_mul_of_nonneg_right (h.row_lt_million hrow) h.step_pos.le
    have hpower : (2 : ℚ) ^ (sweep.boundsPlace + 51) = sweep.spacing * 2 ^ 51 := by
      rw [zpow_add₀ (by norm_num)]
      rfl
    rw [← hplace]
    apply place_sub_one_le
    rw [add_sub_cancel_left, abs_of_nonneg (h.zero_le_offset row), hplace, hpower]
    have hpos := h.step_pos
    norm_num at *
    linarith
  obtain ⟨k, hk⟩ := exists_eq_mul_of_le (unbounded_value h.start_finite) hnear
  refine ⟨k, hk.trans ?_⟩
  rw [zpow_sub_one₀ (by norm_num), spacing]
  ring

/-- It is a multiple of all of it if the step is just the spacing. -/
theorem exists_start_eq_of_resolved (h : sweep.IsAccepted count) (hrow : row < count)
    (hresolved : sweep.IsResolved) (hstep : value sweep.step < sweep.spacing * 2)
    (hplace : place (value sweep.start + sweep.offset row) = sweep.boundsPlace) :
    ∃ k : ℤ, value sweep.start = k / 2 * sweep.spacing ∧
      (Odd k → sweep.spacing < value sweep.step) := by
  rcases hresolved with hgt | ⟨-, l, hl⟩
  · obtain ⟨k, hk⟩ := h.exists_start_eq_mul hrow hstep hplace
    exact ⟨k, hk, fun _ => hgt⟩
  · refine ⟨2 * l, ?_, ?_⟩
    · rw [hl, Int.cast_mul, Int.cast_ofNat, mul_div_cancel_left₀ _ two_ne_zero]
    · intro hodd
      exact absurd (even_two_mul l) (Int.not_even_iff_odd.2 hodd)

/-- The computed distance of a row is not below that in steps of the spacing, and above it if the
step is greater than the spacing. -/
theorem mul_spacing_le_offset (h : sweep.IsAccepted count) (hrow : row < count)
    (hlt : sweep.offset row < limit) (hstep : sweep.spacing ≤ value sweep.step) :
    row * sweep.spacing ≤ sweep.offset row := by
  have hmost : row < 2 ^ 53 := hrow.trans_le (h.bounds.2.1.trans (by decide))
  have hexact := rounded_eq_unbounded (h.offset_nonneg row) hlt
  calc row * sweep.spacing = unbounded (row * sweep.spacing) :=
        (unbounded_natCast_mul hmost sweep.le_boundsPlace).symm
    _ ≤ unbounded (row * value sweep.step) :=
        unbounded_mono (mul_le_mul_of_nonneg_left hstep (Nat.cast_nonneg row))
    _ = sweep.offset row := hexact.symm

theorem mul_spacing_lt_offset (h : sweep.IsAccepted count) (hpos : 0 < row)
    (hlt : sweep.offset row < limit) (hstep : sweep.spacing < value sweep.step) :
    row * sweep.spacing < sweep.offset row := by
  have hnext := le_of_zpow_lt (unbounded_value h.step_finite) hstep
  have hcast : (0 : ℚ) < row := by exact_mod_cast hpos
  have hunit := mul_pos hcast sweep.spacing_pos
  have hrows := mul_le_mul_of_nonneg_left hnext hcast.le
  have hoffset := h.mul_le_offset hlt
  change (row : ℚ) * (sweep.spacing * (1 + 1 / 2 ^ 52)) ≤ _ at hrows
  norm_num at *
  linarith

/-- An angle is beyond a multiple of half the spacing by what its distance from the start is beyond
the row number. -/
theorem angle_div_spacing {k : ℤ} (hk : value sweep.start = k / 2 * sweep.spacing) (row : ℕ) :
    (value sweep.start + sweep.offset row) / sweep.spacing =
      k / 2 + row + (sweep.offset row / sweep.spacing - row) := by
  rw [hk, add_div, mul_div_cancel_right₀ _ sweep.spacing_pos.ne']
  ring

/-- A step that is hardly greater than the spacing leads hardly beyond the multiples of half of it
that are a spacing apart. -/
theorem nearest_lt_of_hardly (h : sweep.IsAccepted count) (hrow : row + 1 < count)
    (hlt : sweep.offset (row + 1) < limit) (hresolved : sweep.IsResolved)
    (hhardly : value sweep.step < sweep.spacing * (1 + 1 / 10 ^ 9))
    (hplace : place (value sweep.start + sweep.offset row) = sweep.boundsPlace) :
    nearest ((value sweep.start + sweep.offset row) / sweep.spacing) <
      nearest ((value sweep.start + sweep.offset (row + 1)) / sweep.spacing) := by
  have hpos := sweep.spacing_pos
  obtain ⟨k, hk, hodd⟩ := h.exists_start_eq_of_resolved (by omega) hresolved (by linarith) hplace
  have hfirst : (value sweep.start + sweep.offset row) / sweep.spacing =
      (k + 2 * row : ℤ) / 2 + (sweep.offset row / sweep.spacing - row) := by
    rw [angle_div_spacing hk]
    push_cast
    ring
  have hsecond : (value sweep.start + sweep.offset (row + 1)) / sweep.spacing =
      (k + 2 * row : ℤ) / 2 + 1 + (sweep.offset (row + 1) / sweep.spacing - (row + 1 : ℕ)) := by
    rw [angle_div_spacing hk]
    push_cast
    ring
  rw [hfirst, hsecond]
  apply nearest_lt_nearest_half
  · have hoffset := h.offset_le_mul row
    have hrows := mul_le_mul_of_nonneg_left hhardly.le (Nat.cast_nonneg (α := ℚ) row)
    have hmost := mul_le_mul_of_nonneg_right (h.row_lt_million hrow) hpos.le
    rw [sub_lt_iff_lt_add, div_lt_iff₀ hpos]
    push_cast at hmost
    norm_num at *
    linarith
  · rw [sub_nonneg, le_div_iff₀ hpos]
    exact h.mul_spacing_le_offset hrow hlt hresolved.spacing_le
  · intro hodd'
    rw [Int.odd_add, iff_true_right (even_two_mul _)] at hodd'
    rw [sub_pos, lt_div_iff₀ hpos]
    exact h.mul_spacing_lt_offset row.succ_pos hlt (hodd hodd')

/-- Two angles with the last place of the bounds are rounded apart. -/
theorem unbounded_lt_of_same (h : sweep.IsAccepted count) (hrow : row + 1 < count)
    (hlt : sweep.offset (row + 1) < limit) (hresolved : sweep.IsResolved)
    (hfirst : place (value sweep.start + sweep.offset row) = sweep.boundsPlace)
    (hsecond : place (value sweep.start + sweep.offset (row + 1)) = sweep.boundsPlace) :
    unbounded (value sweep.start + sweep.offset row) <
      unbounded (value sweep.start + sweep.offset (row + 1)) := by
  have hpos := sweep.spacing_pos
  have hnearest : nearest ((value sweep.start + sweep.offset row) / sweep.spacing) <
      nearest ((value sweep.start + sweep.offset (row + 1)) / sweep.spacing) := by
    rcases lt_or_ge (value sweep.step) (sweep.spacing * (1 + 1 / 10 ^ 9)) with hhardly | hmore
    · exact h.nearest_lt_of_hardly hrow hlt hresolved hhardly hfirst
    · have hgap := h.offset_gap hrow hlt
      apply nearest_lt_nearest
      rw [div_add_one hpos.ne']
      apply div_lt_div_of_pos_right _ hpos
      norm_num at *
      linarith
  rw [unbounded, unbounded, hfirst, hsecond]
  exact mul_lt_mul_of_pos_right (by exact_mod_cast hnearest) hpos

/-- Neighbouring angles of a resolved sweep are rounded apart, by where their last places are. -/
theorem unbounded_lt (h : sweep.IsAccepted count) (hrow : row + 1 < count)
    (hlt : sweep.offset (row + 1) < limit) (hresolved : sweep.IsResolved) :
    unbounded (value sweep.start + sweep.offset row) <
      unbounded (value sweep.start + sweep.offset (row + 1)) := by
  have hfirst := h.place_angle_le hrow
  have hhalf : (2 : ℚ) ^ (sweep.boundsPlace - 1) = sweep.spacing / 2 :=
    zpow_sub_one₀ (by norm_num) _
  rcases lt_or_ge sweep.boundsPlace (place (value sweep.start + sweep.offset (row + 1))) with
    hbeyond | hsecond
  · exact h.unbounded_lt_of_beyond hrow hbeyond
  · by_cases hsame : place (value sweep.start + sweep.offset row) = sweep.boundsPlace ∧
        place (value sweep.start + sweep.offset (row + 1)) = sweep.boundsPlace
    · exact h.unbounded_lt_of_same hrow hlt hresolved hsame.1 hsame.2
    · apply h.unbounded_lt_of_finer hrow hlt hresolved.spacing_le
      have hle : ∀ {q : ℤ}, q ≤ sweep.boundsPlace → (2 : ℚ) ^ q ≤ sweep.spacing :=
        fun hq => zpow_le_zpow_right₀ (by norm_num) hq
      have hle' : ∀ {q : ℤ}, q < sweep.boundsPlace → (2 : ℚ) ^ q ≤ sweep.spacing / 2 := by
        intro q hq
        rw [← hhalf]
        exact zpow_le_zpow_right₀ (by norm_num) (by omega)
      rcases hfirst.lt_or_eq with hfine | heq
      · have := hle' hfine
        have := hle hsecond
        linarith
      · have := hle hfirst
        have := hle' (hsecond.lt_of_ne fun heq' => hsame ⟨heq, heq'⟩)
        linarith

theorem abs_angleValue_lt (h : sweep.IsAccepted count) (hrow : row + 1 < count) :
    |sweep.angleValue row| < limit := by
  have hstart := (abs_lt.1 (isFinite_iff.1 h.start_finite).2).1
  have hstop := (abs_lt.1 (isFinite_iff.1 h.stop_finite).2).2
  have hlow := h.angleValue_mono (Nat.zero_le row)
  rw [h.angleValue_zero] at hlow
  exact abs_lt.2 ⟨hstart.trans_le hlow, (h.angleValue_le_stop hrow).trans_lt hstop⟩

/-- The angles of a resolved sweep increase from each row to the next. -/
theorem angleValue_lt (h : sweep.IsAccepted count) (hrow : row + 1 < count)
    (hresolved : sweep.IsResolved) : sweep.angleValue row < sweep.angleValue (row + 1) := by
  have hrange := h.abs_angleValue_lt hrow
  rcases lt_or_ge (sweep.offset (row + 1)) limit with hlt | hge
  · have hoffset : sweep.offset row < limit := by
      refine lt_of_le_of_lt (rounded_mono ?_) hlt
      push_cast
      linarith [h.step_pos]
    rw [angleValue_of_offset_lt hoffset] at hrange ⊢
    rw [angleValue_of_offset_lt hlt]
    exact rounded_lt_rounded (h.unbounded_lt hrow hlt hresolved) hrange
  · rw [angleValue_of_limit_le hge]
    exact (abs_lt.1 hrange).2

/-- A step that is small against the spacing is small against the last place of the start, too, as
the bounds are at most a million steps apart. -/
theorem step_lt_of_spacing (h : sweep.IsAccepted count)
    (hsmall : 8 * value sweep.step < sweep.spacing) :
    4 * value sweep.step < 2 ^ place (value sweep.start) := by
  have hnear : sweep.boundsPlace - 1 ≤ place (value sweep.start) := by
    rcases le_total (place (value sweep.stop)) (place (value sweep.start)) with hle | hle
    · have heq : sweep.boundsPlace = place (value sweep.start) := max_eq_left hle
      omega
    · have heq : sweep.boundsPlace = place (value sweep.stop) := max_eq_right hle
      have hpower : (2 : ℚ) ^ (place (value sweep.stop) + 51) = sweep.spacing * 2 ^ 51 := by
        rw [spacing, heq, zpow_add₀ (by norm_num)]
        rfl
      have hmost := mul_le_mul_of_nonneg_right h.quotient_lt.le h.step_pos.le
      have hpos := sweep.spacing_pos
      rw [heq]
      apply place_sub_one_le
      rw [hpower, abs_of_nonneg h.isForward.difference_nonneg, ← h.quotient_mul_step]
      norm_num at *
      linarith
  have hhalf : (2 : ℚ) ^ (sweep.boundsPlace - 1) = sweep.spacing / 2 :=
    zpow_sub_one₀ (by norm_num) _
  have hle : (2 : ℚ) ^ (sweep.boundsPlace - 1) ≤ 2 ^ place (value sweep.start) :=
    zpow_le_zpow_right₀ (by norm_num) hnear
  linarith

theorem offset_one (h : sweep.IsAccepted count) : sweep.offset 1 = value sweep.step := by
  rw [offset, Nat.cast_one, one_mul, rounded_value (isNaN_of_isFinite h.step_finite)]

/-- A step that is small against the spacing is lost in the second row. -/
theorem angleValue_one_eq (h : sweep.IsAccepted count)
    (hsmall : 8 * value sweep.step < sweep.spacing) :
    sweep.angleValue 1 = sweep.angleValue 0 := by
  have hlt : sweep.offset 1 < limit := by
    rw [h.offset_one]
    exact (abs_lt.1 (isFinite_iff.1 h.step_finite).2).2
  rw [angleValue_of_offset_lt hlt, h.offset_one, h.angleValue_zero,
    rounded_add_eq_rounded (unbounded_value h.start_finite) h.step_pos.le
      (h.step_lt_of_spacing hsmall), rounded_value (isNaN_of_isFinite h.start_finite)]

/-- The last row is beyond the stop by hardly anything of the distance from the start. -/
theorem last_offset_le (h : sweep.IsAccepted count) (hlast : row + 1 = count) (hpos : 0 < row) :
    row * value sweep.step * (1 - 2 / 10 ^ 9) ≤ value sweep.stop - value sweep.start := by
  have hcount := h.bounds.2.2.2
  have hstep := h.step_pos
  have hrows : (1 : ℚ) ≤ row := by exact_mod_cast hpos
  have hsteps := mul_le_mul_of_nonneg_right hrows hstep.le
  have hmost : (row : ℚ) - 2 / 10 ^ 9 ≤ sweep.quotient := by
    rw [← hlast] at hcount
    push_cast at hcount
    linarith
  have hdifference := mul_le_mul_of_nonneg_right hmost hstep.le
  rw [h.quotient_mul_step] at hdifference
  norm_num at *
  linarith

/-- Between bounds that are not the greatest numbers, no angle is infinite. -/
theorem angleValue_lt_limit (h : sweep.IsAccepted count) (hrow : row < count)
    (hstart : |value sweep.start| ≤ 2 ^ 1022) (hstop : |value sweep.stop| ≤ 2 ^ 1022) :
    sweep.angleValue row < limit := by
  rcases row.eq_zero_or_pos with rfl | hpos
  · rw [h.angleValue_zero]
    exact (abs_lt.1 (isFinite_iff.1 h.start_finite).2).2
  · rcases (Nat.succ_le_of_lt hrow).lt_or_eq with hinner | hlast
    · exact (abs_lt.1 (h.abs_angleValue_lt hinner)).2
    · have hdistance := h.last_offset_le hlast hpos
      have hoffset := h.offset_le_mul row
      have hrange := three_mul_le_overflow
      obtain ⟨hstart', -⟩ := abs_le.1 hstart
      obtain ⟨-, hstop'⟩ := abs_le.1 hstop
      have hpower : (0 : ℚ) < 2 ^ 1022 := by positivity
      rw [angleValue_lt_limit_iff]
      generalize (2 : ℚ) ^ 1022 = power at *
      generalize overflow = most at *
      norm_num at hdistance hoffset
      constructor
      · linarith
      · linarith

theorem isFinite_angle_iff (h : sweep.IsAccepted count) (hrow : row < count) :
    (sweep.angle row).isFinite = true ↔ sweep.angleValue row < limit := by
  have hvalue := h.hasValue_angle hrow
  have hstart := (abs_lt.1 (isFinite_iff.1 h.start_finite).2).1
  have hlow := h.angleValue_mono (Nat.zero_le row)
  rw [h.angleValue_zero] at hlow
  rw [isFinite_iff, hvalue.value_eq, abs_lt, and_iff_right hvalue.isNaN_eq,
    and_iff_right (hstart.trans_le hlow)]

theorem angle_lt_iff (h : sweep.IsAccepted count) {i j : ℕ} (hi : i < count) (hj : j < count) :
    sweep.angle i < sweep.angle j ↔ sweep.angleValue i < sweep.angleValue j := by
  have hi' := h.hasValue_angle hi
  have hj' := h.hasValue_angle hj
  rw [lt_iff, hi'.value_eq, hj'.value_eq, and_iff_right hi'.isNaN_eq, and_iff_right hj'.isNaN_eq]

theorem pairwise_angle (h : sweep.IsAccepted count) (hresolved : sweep.IsResolved) :
    ((List.range count).map sweep.angle).Pairwise (· < ·) := by
  rw [List.pairwise_map]
  refine List.pairwise_lt_range.imp_of_mem fun {i j} hi hj hlt => ?_
  rw [List.mem_range] at hi hj
  rw [h.angle_lt_iff hi hj]
  exact (h.angleValue_lt (by omega) hresolved).trans_le (h.angleValue_mono hlt)

theorem not_pairwise_angle (h : sweep.IsAccepted count) (hcount : 2 ≤ count)
    (hsmall : 8 * value sweep.step < sweep.spacing) :
    ¬((List.range count).map sweep.angle).Pairwise (· < ·) := by
  intro hincreasing
  rw [List.pairwise_iff_getElem] at hincreasing
  have hlt := hincreasing 0 1 (by simp; omega) (by simp; omega) Nat.one_pos
  rw [List.getElem_map, List.getElem_map, List.getElem_range, List.getElem_range,
    h.angle_lt_iff (by omega) (by omega), h.angleValue_one_eq hsmall] at hlt
  exact lt_irrefl _ hlt

end IsAccepted

/-- The angles of a sweep that has rows are numbers, and all but the last are finite. The last one
is unless its distance from the start or the sum with the start is rounded to infinity, which takes
bounds that are nearly the greatest numbers. The angles increase if the step is not below the
spacing of the binary numbers at the bounds. If it is less than an eighth of that, the first two are
the same. -/
theorem angles_spec (h : sweep.rows = .ok count) :
    ∃ angles, sweep.angles = .ok angles ∧ angles.length = count ∧
      (∀ angle ∈ angles, angle.isNaN = false) ∧
      (∀ angle ∈ angles.dropLast, angle.isFinite = true) ∧
      ((∀ angle ∈ angles, angle.isFinite = true) ↔
        (count - 1 : ℕ) * value sweep.step < overflow ∧
          value sweep.start + sweep.offset (count - 1) < overflow) ∧
      (|value sweep.start| ≤ 2 ^ 1022 → |value sweep.stop| ≤ 2 ^ 1022 →
        ∀ angle ∈ angles, angle.isFinite = true) ∧
      (sweep.IsResolved → angles.Pairwise (· < ·)) ∧
      (2 ≤ count → 8 * value sweep.step < sweep.spacing → ¬angles.Pairwise (· < ·)) := by
  have haccepted := isAccepted_of_rows h
  obtain ⟨last, rfl⟩ : ∃ last, count = last + 1 := ⟨count - 1, by have := haccepted.bounds.1; omega⟩
  have hall : ∀ P : Float → Prop, (∀ angle ∈ (List.range (last + 1)).map sweep.angle, P angle) ↔
      ∀ row < last + 1, P (sweep.angle row) := by
    intro P
    simp only [List.mem_map, List.mem_range, forall_exists_index, and_imp,
      forall_apply_eq_imp_iff₂]
  refine ⟨_, angles_of_rows h, by simp, ?_, ?_, ?_, ?_, haccepted.pairwise_angle,
    haccepted.not_pairwise_angle⟩
  · rw [hall]
    intro row hrow
    exact (haccepted.hasValue_angle hrow).isNaN_eq
  · intro angle hangle
    rw [List.range_succ, List.map_append, List.map_singleton, List.dropLast_concat] at hangle
    obtain ⟨row, hmem, rfl⟩ := List.mem_map.1 hangle
    have hrow := Nat.succ_lt_succ (List.mem_range.1 hmem)
    rw [haccepted.isFinite_angle_iff (Nat.lt_of_succ_lt hrow)]
    exact (abs_lt.1 (haccepted.abs_angleValue_lt hrow)).2
  · rw [hall, Nat.add_sub_cancel, ← angleValue_lt_limit_iff]
    constructor
    · intro hfinite
      exact (haccepted.isFinite_angle_iff last.lt_succ_self).1 (hfinite last last.lt_succ_self)
    · intro hlast row hrow
      rw [haccepted.isFinite_angle_iff hrow]
      exact (haccepted.angleValue_mono (Nat.le_of_lt_succ hrow)).trans_lt hlast
  · intro hstart hstop
    rw [hall]
    intro row hrow
    rw [haccepted.isFinite_angle_iff hrow]
    exact haccepted.angleValue_lt_limit hrow hstart hstop

/-- Steps of one from zero are resolved below the fifty-second power of two. -/
theorem isResolved_ofNat {stop : ℕ} (h : stop < 2 ^ 52) :
    ({ stop := Float.ofNat stop } : Sweep).IsResolved := by
  have hzero : value 0 = 0 := rfl
  have hone : HasValue 1 (1 : ℕ) := hasValue_ofNat (by norm_num)
  have hstop := hasValue_ofNat (h.trans (by norm_num))
  have hplace : ({ stop := Float.ofNat stop } : Sweep).boundsPlace ≤ -1 := by
    apply max_le
    · apply place_le_of_lt (by norm_num)
      rw [hzero]
      norm_num
    · have hlt : (stop : ℚ) < 2 ^ 52 := by exact_mod_cast h
      apply place_le_of_lt (by norm_num)
      rw [hstop.value_eq, Nat.abs_cast]
      exact hlt.trans_eq (by norm_num)
  left
  calc ({ stop := Float.ofNat stop } : Sweep).spacing
      ≤ 2 ^ (-1 : ℤ) := zpow_le_zpow_right₀ (by norm_num) hplace
    _ < (1 : ℕ) := by norm_num
    _ = value 1 := hone.value_eq.symm

/-- Steps of one are lost from the fifty-sixth power of two on. -/
theorem angles_spec_small_and_large :
    (∃ angles, ({ stop := 4 } : Sweep).angles = .ok angles ∧ angles.length = 5 ∧
      (∀ angle ∈ angles, angle.isFinite = true) ∧ angles.Pairwise (· < ·)) ∧
    ∃ angles, ({ start := .ofBits 0x4370000000000000, stop := .ofBits 0x4370000000000001 } :
        Sweep).angles = .ok angles ∧
      angles.length = 17 ∧ (∀ angle ∈ angles.dropLast, angle.isFinite = true) ∧
      ¬angles.Pairwise (· < ·) := by
  have hrows : ({ stop := 4 } : Sweep).rows = .ok 5 := by decide
  have hrows' : ({ start := .ofBits 0x4370000000000000, stop := .ofBits 0x4370000000000001 } :
      Sweep).rows = .ok 17 := by
    decide
  obtain ⟨angles, hangles, hlength, -, -, -, hfinite, hincreasing, -⟩ := angles_spec hrows
  obtain ⟨angles', hangles', hlength', -, hfinite', -, -, -, hlost⟩ := angles_spec hrows'
  refine ⟨⟨angles, hangles, hlength, hfinite ?_ ?_, hincreasing ?_⟩,
    ⟨angles', hangles', hlength', hfinite', hlost (by norm_num) ?_⟩⟩
  · have hzero : value 0 = 0 := rfl
    rw [hzero, abs_zero]
    positivity
  · have hfour : HasValue 4 (4 : ℕ) := hasValue_ofNat (by norm_num)
    rw [hfour.value_eq]
    calc |((4 : ℕ) : ℚ)| = 2 ^ 2 := by norm_num
      _ ≤ 2 ^ 1022 := pow_le_pow_right₀ (by norm_num) (by norm_num)
  · exact @isResolved_ofNat 4 (by norm_num)
  · have hone : HasValue 1 (1 : ℕ) := hasValue_ofNat (by norm_num)
    have hstart : value (.ofBits 0x4370000000000000) = (2 ^ 52 : ℕ) * 2 ^ (4 : ℤ) := one_mul _
    have hplace : 4 ≤ boundsPlace ⟨.ofBits 0x4370000000000000, .ofBits 0x4370000000000001, 1⟩ := by
      apply le_max_of_le_left
      apply le_place_of_le
      rw [hstart]
      norm_num
    rw [hone.value_eq]
    calc 8 * ((1 : ℕ) : ℚ) < 2 ^ (4 : ℤ) := by norm_num
      _ ≤ _ := zpow_le_zpow_right₀ (by norm_num) hplace

/-- There are sweeps that have rows and not the angles for them. To the greatest number there are
hardly less than three steps of the first sweep, so that the last angle is infinite. The steps of
the second one are half of the spacing at its bounds, so that angles are there twice. -/
theorem not_forall_angles :
    (¬∀ (sweep : Sweep) (angles : List Float), sweep.angles = .ok angles →
      ∀ angle ∈ angles, angle.isFinite = true) ∧
    ¬∀ (sweep : Sweep) (angles : List Float), sweep.angles = .ok angles →
      angles.Pairwise (· < ·) := by
  constructor
  · intro hall
    have hrows : ({ stop := .ofBits 0x7FEFFFFFFFFFFFFF, step := .ofBits 0x7FD55555555C59D5 } :
        Sweep).rows = .ok 4 := by
      decide
    have hfinite := hall _ _ (angles_of_rows hrows)
    revert hfinite
    decide
  · intro hall
    have hrows : ({ start := .ofBits 0x4341C37937E08000, stop := .ofBits 0x4341C37937E08002 } :
        Sweep).rows = .ok 5 := by
      decide
    have hincreasing := hall _ _ (angles_of_rows hrows)
    revert hincreasing
    decide

end LidarAngle.Sweep
