import LidarAngle.Proofs.Binary.Arithmetic
import LidarAngle.Sweep

/-!
# The number of rows of a sweep

The number of steps between the start and the stop of a sweep is computed with three roundings, in
the difference, the quotient and the sum with the slack. For at most a million rows the three
together are less than the slack. So the slack makes up for all of them, and a step that is really
missing is never made up by more than about the slack.

## Main definitions

* `Sweep.quotient` - the exact number of steps
* `Sweep.IsForward` - the sweep passes all checks but that of the number of rows
* `Sweep.IsAccepted` - the sweep has rows, and how many

## Main statements

* `Sweep.IsAccepted.bounds` - the number of rows against the exact number of steps
-/

namespace LidarAngle.Sweep

open Binary

/-- The exact number of steps from the start to the stop. -/
def quotient (sweep : Sweep) : ℚ :=
  (value sweep.stop - value sweep.start) / value sweep.step

/-- The sweep passes all checks, and its rows are counted. -/
structure IsAccepted (sweep : Sweep) (count : ℕ) : Prop where
  start_finite : sweep.start.isFinite = true
  stop_finite : sweep.stop.isFinite = true
  step_finite : sweep.step.isFinite = true
  step_pos : 0 < value sweep.step
  start_le_stop : value sweep.start ≤ value sweep.stop
  intervals_lt : sweep.intervals < Float.ofNat maxRows
  count_eq : count = sweep.intervals.toUInt64.toNat + 1

theorem isAccepted_of_rows {sweep : Sweep} {count : ℕ} (h : sweep.rows = .ok count) :
    sweep.IsAccepted count := by
  have hzero : value 0 = 0 := rfl
  unfold rows at h
  split at h
  · exact nomatch h
  · next hbounds =>
    split at h
    · exact nomatch h
    · next hstep =>
      split at h
      · exact nomatch h
      · next hordered =>
        split at h
        · next hintervals =>
          obtain ⟨hstart, hstop⟩ := not_not.1 hbounds
          obtain ⟨hfinite, hpos⟩ := not_not.1 hstep
          have hpos' := (lt_iff.1 hpos).2.2
          rw [lt_iff, not_and, not_and] at hordered
          exact ⟨hstart, hstop, hfinite, hzero ▸ hpos',
            not_lt.1 (hordered (isNaN_of_isFinite hstop) (isNaN_of_isFinite hstart)), hintervals,
            (Except.ok.inj h).symm⟩
        · exact nomatch h

/-- The slack is a billionth, up to a rounding that does not matter. -/
theorem exists_hasValue_slack : ∃ c : ℚ, HasValue slack c ∧
    1 / 10 ^ 9 - 1 / 10 ^ 20 ≤ c ∧ c ≤ 1 / 10 ^ 9 + 1 / 10 ^ 20 := by
  have hbits : slack = Float.ofBits 0x3E112E0BE826D695 := by decide
  refine ⟨4835703278458517 * 2 ^ (-82 : ℤ), ?_, by norm_num, by norm_num⟩
  rw [hbits]
  refine ⟨rfl, ?_⟩
  show (1 : ℚ) * ((4835703278458517 : ℕ) * 2 ^ (-82 : ℤ)) = _
  norm_num

theorem isFinite_slack : slack.isFinite = true := by
  decide

section Roundings

variable {difference step d r s c least : ℚ} (hstep : 0 < step) (hdifference : 0 ≤ difference)
include hstep hdifference

/-- Three roundings of a quotient and the slack do not lead below the quotient. A difference is
rounded to `d`, its quotient to `r` and the sum with the slack to `s`. -/
theorem le_of_roundings (hleast : least ≤ 1 / 10 ^ 20) (hc : 1 / 10 ^ 9 - 1 / 10 ^ 20 ≤ c)
    (hd : difference * (1 - 1 / 2 ^ 53) ≤ d) (hr : d / step * (1 - 1 / 2 ^ 53) - least ≤ r)
    (hs : (r + c) * (1 - 1 / 2 ^ 53) - least ≤ s) (hmost : s < 10 ^ 6) :
    difference / step ≤ s := by
  have hlow : difference / step * (1 - 1 / 2 ^ 53) ≤ d / step := by
    rw [div_mul_eq_mul_div]
    exact div_le_div_of_nonneg_right hd hstep.le
  have hnonneg : 0 ≤ difference / step := div_nonneg hdifference hstep.le
  -- The bound on the result bounds the quotient, and with that the error of each rounding.
  have hquotient : difference / step ≤ 1000001 := by
    norm_num at *
    linarith
  norm_num at *
  linarith

/-- Nor do they lead much beyond it. -/
theorem roundings_le (hleast : least ≤ 1 / 10 ^ 20) (hc : c ≤ 1 / 10 ^ 9 + 1 / 10 ^ 20)
    (hd : d ≤ difference * (1 + 1 / 2 ^ 53)) (hr : r ≤ d / step * (1 + 1 / 2 ^ 53) + least)
    (hs : s ≤ (r + c) * (1 + 1 / 2 ^ 53) + least) (hquotient : difference / step < 10 ^ 6) :
    s ≤ difference / step + 2 / 10 ^ 9 := by
  have hhigh : d / step ≤ difference / step * (1 + 1 / 2 ^ 53) := by
    rw [div_mul_eq_mul_div]
    exact div_le_div_of_nonneg_right hd hstep.le
  have hnonneg : 0 ≤ difference / step := div_nonneg hdifference hstep.le
  norm_num at *
  linarith

end Roundings

theorem least_le : (1 : ℚ) / 2 ^ 1075 ≤ 1 / 10 ^ 20 :=
  one_div_le_one_div_of_le (by norm_num) ((by norm_num : (10 ^ 20 : ℚ) ≤ 2 ^ 70).trans
    (pow_le_pow_right₀ (by norm_num) (by norm_num)))

/-- The bounds and the step are finite, the step is positive and the bounds are in order. -/
structure IsForward (sweep : Sweep) : Prop where
  start_finite : sweep.start.isFinite = true
  stop_finite : sweep.stop.isFinite = true
  step_finite : sweep.step.isFinite = true
  step_pos : 0 < value sweep.step
  start_le_stop : value sweep.start ≤ value sweep.stop

namespace IsForward

variable {sweep : Sweep}

theorem difference_nonneg (h : sweep.IsForward) : 0 ≤ value sweep.stop - value sweep.start :=
  sub_nonneg.2 h.start_le_stop

theorem quotient_nonneg (h : sweep.IsForward) : 0 ≤ sweep.quotient :=
  div_nonneg h.difference_nonneg h.step_pos.le

theorem isFine_difference (h : sweep.IsForward) : IsFine (value sweep.stop - value sweep.start) :=
  (isFine_value h.stop_finite).sub (isFine_value h.start_finite)

theorem rounded_quotient_nonneg (h : sweep.IsForward) :
    0 ≤ rounded (value sweep.stop - value sweep.start) / value sweep.step :=
  div_nonneg (rounded_nonneg h.difference_nonneg) h.step_pos.le

/-- The number of steps is computed with three roundings, as long as none of them leads out of
range. -/
theorem hasValue_quotient (h : sweep.IsForward)
    (hd : rounded (value sweep.stop - value sweep.start) < limit) :
    HasValue ((sweep.stop - sweep.start) / sweep.step)
      (rounded (rounded (value sweep.stop - value sweep.start) / value sweep.step)) := by
  have hdifference := hasValue_sub h.stop_finite h.start_finite
  have hnonneg := rounded_nonneg h.difference_nonneg
  have hquotient := hasValue_div (hdifference.isFinite ((abs_of_nonneg hnonneg).trans_lt hd))
    h.step_finite h.step_pos.ne'
  rwa [hdifference.value_eq] at hquotient

theorem hasValue_intervals (h : sweep.IsForward)
    (hd : rounded (value sweep.stop - value sweep.start) < limit)
    (hr : rounded (rounded (value sweep.stop - value sweep.start) / value sweep.step) < limit) :
    HasValue sweep.intervals (rounded
      (rounded (rounded (value sweep.stop - value sweep.start) / value sweep.step) +
        value slack)) := by
  have hquotient := h.hasValue_quotient hd
  have hnonneg := rounded_nonneg h.rounded_quotient_nonneg
  have hsum := hasValue_add (hquotient.isFinite ((abs_of_nonneg hnonneg).trans_lt hr))
    isFinite_slack
  rwa [hquotient.value_eq] at hsum

theorem value_intervals_le (h : sweep.IsForward)
    (hd : rounded (value sweep.stop - value sweep.start) < limit)
    (hr : rounded (rounded (value sweep.stop - value sweep.start) / value sweep.step) < limit)
    (hquotient : sweep.quotient < 10 ^ 6) :
    value sweep.intervals ≤ sweep.quotient + 2 / 10 ^ 9 := by
  obtain ⟨c, hslack, hc, hc'⟩ := exists_hasValue_slack
  have hnonneg := rounded_nonneg h.rounded_quotient_nonneg
  have hsum := add_nonneg hnonneg (le_trans (by norm_num) hc)
  rw [(h.hasValue_intervals hd hr).value_eq, hslack.value_eq]
  exact roundings_le h.step_pos h.difference_nonneg least_le hc'
    (rounded_le_of_isFine h.isFine_difference h.difference_nonneg)
    (rounded_le h.rounded_quotient_nonneg) (rounded_le hsum) hquotient

end IsForward

namespace IsAccepted

variable {sweep : Sweep} {count : ℕ}

theorem isForward (h : sweep.IsAccepted count) : sweep.IsForward :=
  ⟨h.start_finite, h.stop_finite, h.step_finite, h.step_pos, h.start_le_stop⟩

theorem value_intervals_lt (h : sweep.IsAccepted count) :
    sweep.intervals.isNaN = false ∧ value sweep.intervals < 10 ^ 6 := by
  have hmost : HasValue (Float.ofNat maxRows) (maxRows : ℕ) := hasValue_ofNat (by decide)
  obtain ⟨hnan, -, hlt⟩ := lt_iff.1 h.intervals_lt
  rw [hmost.value_eq] at hlt
  exact ⟨hnan, hlt.trans_eq (by norm_num [maxRows])⟩

theorem million_le_limit : (10 ^ 6 : ℚ) ≤ limit :=
  (by norm_num : (10 ^ 6 : ℚ) ≤ 2 ^ 20).trans (two_pow_le_limit (by norm_num))

theorem not_hasValue_intervals_limit (h : sweep.IsAccepted count) :
    ¬HasValue sweep.intervals limit := by
  intro hvalue
  have hlt := h.value_intervals_lt.2
  rw [hvalue.value_eq] at hlt
  exact absurd hlt (not_lt.2 million_le_limit)

/-- The difference between stop and start is finite, as it would make too many rows otherwise. -/
theorem rounded_difference_lt (h : sweep.IsAccepted count) :
    rounded (value sweep.stop - value sweep.start) < limit :=
  rounded_lt_limit fun hlimit => h.not_hasValue_intervals_limit (hasValue_limit_add
    (hasValue_limit_div (hlimit ▸ hasValue_sub h.stop_finite h.start_finite) h.step_finite
      h.step_pos) isFinite_slack).1

theorem rounded_quotient_lt (h : sweep.IsAccepted count) :
    rounded (rounded (value sweep.stop - value sweep.start) / value sweep.step) < limit :=
  rounded_lt_limit fun hlimit => h.not_hasValue_intervals_limit (hasValue_limit_add
    (hlimit ▸ h.isForward.hasValue_quotient h.rounded_difference_lt) isFinite_slack).1

/-- The computed number of steps is not less than the exact one, and not much more. -/
theorem value_intervals (h : sweep.IsAccepted count) :
    sweep.quotient ≤ value sweep.intervals ∧
      value sweep.intervals ≤ sweep.quotient + 2 / 10 ^ 9 := by
  obtain ⟨c, hslack, hc, -⟩ := exists_hasValue_slack
  have hforward := h.isForward
  have hd := h.rounded_difference_lt
  have hr := h.rounded_quotient_lt
  have hnonneg := rounded_nonneg hforward.rounded_quotient_nonneg
  have hsum := add_nonneg hnonneg (le_trans (by norm_num) hc)
  have hmost := h.value_intervals_lt.2
  have hle : sweep.quotient ≤ value sweep.intervals := by
    rw [(hforward.hasValue_intervals hd hr).value_eq, hslack.value_eq] at hmost ⊢
    exact le_of_roundings h.step_pos hforward.difference_nonneg least_le hc
      (le_rounded_of_isFine hforward.isFine_difference hforward.difference_nonneg hd)
      (le_rounded hforward.rounded_quotient_nonneg hr)
      (le_rounded hsum (hmost.trans_le million_le_limit)) hmost
  exact ⟨hle, hforward.value_intervals_le hd hr (hle.trans_lt hmost)⟩

theorem quotient_lt (h : sweep.IsAccepted count) : sweep.quotient < 10 ^ 6 :=
  h.value_intervals.1.trans_lt h.value_intervals_lt.2

/-- There is a row for each step that fits and one for the start, and hardly ever one more. -/
theorem bounds (h : sweep.IsAccepted count) : 1 ≤ count ∧ count ≤ maxRows ∧
    sweep.quotient < count ∧ count - 1 ≤ sweep.quotient + 2 / 10 ^ 9 := by
  obtain ⟨hlow, hhigh⟩ := h.value_intervals
  obtain ⟨hnan, hmost⟩ := h.value_intervals_lt
  have hnonneg := h.isForward.quotient_nonneg.trans hlow
  have hfinite : sweep.intervals.isFinite = true :=
    isFinite_iff.2 ⟨hnan, (abs_of_nonneg hnonneg).trans_lt (hmost.trans_le million_le_limit)⟩
  have hcount := h.count_eq
  rw [toNat_toUInt64 hfinite hnonneg (hmost.trans (by norm_num))] at hcount
  have hfloor := Nat.floor_le hnonneg
  have hceil := Nat.lt_floor_add_one (value sweep.intervals)
  have hfloor_lt : ⌊value sweep.intervals⌋₊ < maxRows :=
    (Nat.floor_lt hnonneg).2 (hmost.trans_eq (by norm_num [maxRows]))
  refine ⟨by omega, by omega, ?_, ?_⟩
  · rw [hcount]
    push_cast
    exact hlow.trans_lt hceil
  · rw [hcount]
    push_cast
    linarith

end IsAccepted

end LidarAngle.Sweep
