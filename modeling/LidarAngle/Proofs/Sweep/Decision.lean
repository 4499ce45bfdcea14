import LidarAngle.Proofs.Binary.Spacing
import LidarAngle.Proofs.Sweep.Rows

/-!
# Which sweeps have rows

A sweep is rejected for the first of its flaws. Up to the number of rows they are comparisons of
the values it is made of. The number of rows is not: it is decided on the computed number of steps,
which is infinite if the difference of stop and start is out of range. Then the sweep is too long
however few steps there are.

## Main statements

* `Sweep.rows_cases` - the sweeps of each flaw, and those that have rows
* `Sweep.not_forall_rows` - few steps are not enough for a sweep to have rows
-/

namespace LidarAngle.Sweep

open Binary

variable {sweep : Sweep} {count : ℕ}

theorem zero_lt_iff {x : Float} (h : x.isFinite = true) : 0 < x ↔ 0 < value x := by
  have hzero : value 0 = 0 := rfl
  rw [lt_iff, hzero]
  exact ⟨fun hlt => hlt.2.2, fun hlt => ⟨rfl, isNaN_of_isFinite h, hlt⟩⟩

theorem lt_iff_value {x y : Float} (hx : x.isFinite = true) (hy : y.isFinite = true) :
    x < y ↔ value x < value y := by
  rw [lt_iff, and_iff_right (isNaN_of_isFinite hx), and_iff_right (isNaN_of_isFinite hy)]

namespace IsForward

/-- Only the number of rows can still be a flaw. -/
theorem rows_eq (h : sweep.IsForward) :
    sweep.rows = if sweep.intervals < Float.ofNat maxRows then
      .ok (sweep.intervals.toUInt64.toNat + 1)
    else .error (.tooLong sweep.start sweep.stop sweep.step) := by
  have hstep := (zero_lt_iff h.step_finite).2 h.step_pos
  have hordered : ¬sweep.stop < sweep.start := by
    rw [lt_iff_value h.stop_finite h.start_finite]
    exact not_lt.2 h.start_le_stop
  rw [rows, if_neg (not_not.2 ⟨h.start_finite, h.stop_finite⟩),
    if_neg (not_not.2 ⟨h.step_finite, hstep⟩), if_neg hordered]

theorem rows_eq_error (h : sweep.IsForward) (hrows : ∀ count, sweep.rows ≠ .ok count) :
    sweep.rows = .error (.tooLong sweep.start sweep.stop sweep.step) := by
  rw [h.rows_eq] at hrows ⊢
  split at hrows
  · exact absurd rfl (hrows _)
  · next hlong => rw [if_neg hlong]

/-- A quotient in range stays in range when the difference is rounded. -/
theorem rounded_quotient_lt (h : sweep.IsForward) (hquotient : sweep.quotient < 10 ^ 6) :
    rounded (rounded (value sweep.stop - value sweep.start) / value sweep.step) < limit := by
  have hdifference := rounded_le_of_isFine h.isFine_difference h.difference_nonneg
  rw [rounded_lt_limit_iff]
  calc rounded (value sweep.stop - value sweep.start) / value sweep.step
      ≤ (value sweep.stop - value sweep.start) * (1 + 1 / 2 ^ 53) / value sweep.step :=
        div_le_div_of_nonneg_right hdifference h.step_pos.le
    _ = sweep.quotient * (1 + 1 / 2 ^ 53) := by rw [quotient, div_mul_eq_mul_div]
    _ < 2 ^ 21 := by
        norm_num at hquotient ⊢
        linarith
    _ ≤ overflow := two_pow_le_overflow (by norm_num)

/-- The sweep has rows if neither the difference nor the number of steps is out of range. -/
theorem exists_rows_eq_ok (h : sweep.IsForward)
    (hrange : value sweep.stop - value sweep.start < overflow)
    (hquotient : sweep.quotient + 2 / 10 ^ 9 < 10 ^ 6) : ∃ count, sweep.rows = .ok count := by
  have hmost : HasValue (Float.ofNat maxRows) (maxRows : ℕ) := hasValue_ofNat (by decide)
  have hfew : sweep.quotient < 10 ^ 6 := lt_of_le_of_lt (by norm_num) hquotient
  have hd := rounded_lt_limit_iff.2 hrange
  have hr := h.rounded_quotient_lt hfew
  have hlt : sweep.intervals < Float.ofNat maxRows := by
    rw [lt_iff, hmost.value_eq]
    refine ⟨(h.hasValue_intervals hd hr).isNaN_eq, hmost.isNaN_eq, ?_⟩
    calc value sweep.intervals ≤ sweep.quotient + 2 / 10 ^ 9 := h.value_intervals_le hd hr hfew
      _ < 10 ^ 6 := hquotient
      _ = (maxRows : ℕ) := by norm_num [maxRows]
  exact ⟨_, by rw [h.rows_eq, if_pos hlt]⟩

end IsForward

theorem IsAccepted.difference_lt (h : sweep.IsAccepted count) :
    value sweep.stop - value sweep.start < overflow :=
  rounded_lt_limit_iff.1 h.rounded_difference_lt

/-- A sweep is rejected for bounds that are not finite, else for a step that is not finite and
positive, else for a stop before the start, else for a million steps or more, counted exactly, or a
difference that is rounded to infinity. Any other sweep has rows, and at most a million of them, if
its steps fall short of a million by more than two billionths of a step. -/
theorem rows_cases (sweep : Sweep) :
    (¬(sweep.start.isFinite ∧ sweep.stop.isFinite) →
      sweep.rows = .error (.unbounded sweep.start sweep.stop)) ∧
    (sweep.start.isFinite → sweep.stop.isFinite →
      ¬(sweep.step.isFinite ∧ 0 < value sweep.step) → sweep.rows = .error (.noStep sweep.step)) ∧
    (sweep.start.isFinite → sweep.stop.isFinite → sweep.step.isFinite → 0 < value sweep.step →
      value sweep.stop < value sweep.start →
        sweep.rows = .error (.reversed sweep.start sweep.stop)) ∧
    (sweep.IsForward →
      (10 ^ 6 ≤ sweep.quotient ∨ overflow ≤ value sweep.stop - value sweep.start →
        sweep.rows = .error (.tooLong sweep.start sweep.stop sweep.step)) ∧
      (value sweep.stop - value sweep.start < overflow →
        sweep.quotient + 2 / 10 ^ 9 < 10 ^ 6 →
          ∃ count, 1 ≤ count ∧ count ≤ 1000000 ∧ sweep.rows = .ok count)) := by
  refine ⟨?_, ?_, ?_, fun h => ⟨?_, ?_⟩⟩
  · intro hbounds
    rw [rows, if_pos hbounds]
  · intro hstart hstop hstep
    rw [rows, if_neg (not_not.2 ⟨hstart, hstop⟩), if_pos]
    rintro ⟨hfinite, hpos⟩
    exact hstep ⟨hfinite, (zero_lt_iff hfinite).1 hpos⟩
  · intro hstart hstop hfinite hpos hreversed
    rw [rows, if_neg (not_not.2 ⟨hstart, hstop⟩),
      if_neg (not_not.2 ⟨hfinite, (zero_lt_iff hfinite).2 hpos⟩),
      if_pos ((lt_iff_value hstop hstart).2 hreversed)]
  · intro hlong
    apply h.rows_eq_error
    intro count hrows
    have haccepted := isAccepted_of_rows hrows
    rcases hlong with hmany | hfar
    · exact absurd haccepted.quotient_lt (not_lt.2 hmany)
    · exact absurd haccepted.difference_lt (not_lt.2 hfar)
  · intro hrange hfew
    obtain ⟨count, hrows⟩ := h.exists_rows_eq_ok hrange hfew
    obtain ⟨hleast, hmost, -, -⟩ := (isAccepted_of_rows hrows).bounds
    exact ⟨count, hleast, hmost, hrows⟩

/-- In steps of one from zero there are as many steps as the stop says. -/
theorem isForward_ofNat {stop : ℕ} (h : stop < 2 ^ 53) :
    ({ stop := Float.ofNat stop } : Sweep).IsForward ∧
      value (Float.ofNat stop) - value 0 = stop ∧
      ({ stop := Float.ofNat stop } : Sweep).quotient = stop := by
  have hzero : value 0 = 0 := rfl
  have hone : HasValue 1 (1 : ℕ) := hasValue_ofNat (by norm_num)
  have hstop := hasValue_ofNat h
  have hrange : |(stop : ℚ)| < limit := by
    have hlt : (stop : ℚ) < 2 ^ 53 := by exact_mod_cast h
    rw [Nat.abs_cast]
    exact hlt.trans_le (two_pow_le_limit (by norm_num))
  have hfinite : (0 : Float).isFinite = true ∧ (1 : Float).isFinite = true := by decide
  refine ⟨⟨hfinite.1, hstop.isFinite hrange, hfinite.2, ?_, ?_⟩, ?_, ?_⟩
  · rw [hone.value_eq]
    norm_num
  · rw [hzero, hstop.value_eq]
    exact Nat.cast_nonneg stop
  · rw [hzero, hstop.value_eq, sub_zero]
  · rw [quotient, hzero, hstop.value_eq, hone.value_eq, sub_zero, Nat.cast_one, div_one]

/-- A million steps of one are too many, and half of them are not. A step has to be positive. -/
theorem rows_cases_million :
    ({ stop := 1000000 } : Sweep).rows = .error (.tooLong 0 1000000 1) ∧
      (∃ count, 1 ≤ count ∧ count ≤ 1000000 ∧ ({ stop := 500000 } : Sweep).rows = .ok count) ∧
      ({ step := 0 } : Sweep).rows = .error (.noStep 0) := by
  obtain ⟨hmany, -, hquotient⟩ := @isForward_ofNat 1000000 (by norm_num)
  obtain ⟨hfew, hdifference, hquotient'⟩ := @isForward_ofNat 500000 (by norm_num)
  refine ⟨?_, ?_, ?_⟩
  · refine ((rows_cases { stop := 1000000 }).2.2.2 hmany).1 (.inl ?_)
    exact le_of_le_of_eq (by norm_num) hquotient.symm
  · refine ((rows_cases { stop := 500000 }).2.2.2 hfew).2 ?_ ?_
    · refine hdifference.trans_lt (lt_of_lt_of_le ?_ (two_pow_le_overflow (n := 19) (by norm_num)))
      norm_num
    · refine lt_of_eq_of_lt (congrArg (· + 2 / 10 ^ 9) hquotient') ?_
      norm_num
  · refine (rows_cases { step := 0 }).2.1 rfl (by decide) ?_
    rintro ⟨-, hpos⟩
    exact lt_irrefl (0 : ℚ) hpos

/-- From the least to the greatest number there are two steps of the greatest number. -/
theorem not_forall_rows : ¬∀ sweep : Sweep, sweep.IsForward →
    sweep.quotient + 2 / 10 ^ 9 < 10 ^ 6 → ∃ count, sweep.rows = .ok count := by
  intro hall
  have hgreatest : value (.ofBits 0x7FEFFFFFFFFFFFFF) = (2 ^ 53 - 1 : ℕ) * 2 ^ (971 : ℤ) :=
    one_mul _
  have hleast : value (.ofBits 0xFFEFFFFFFFFFFFFF) = -((2 ^ 53 - 1 : ℕ) * 2 ^ (971 : ℤ)) :=
    neg_one_mul _
  have hpos : (0 : ℚ) < (2 ^ 53 - 1 : ℕ) * 2 ^ (971 : ℤ) := by positivity
  have hforward : IsForward ⟨.ofBits 0xFFEFFFFFFFFFFFFF, .ofBits 0x7FEFFFFFFFFFFFFF,
      .ofBits 0x7FEFFFFFFFFFFFFF⟩ := by
    refine ⟨rfl, rfl, rfl, ?_, ?_⟩
    · rw [hgreatest]
      exact hpos
    · rw [hgreatest, hleast]
      linarith
  have hquotient : quotient ⟨.ofBits 0xFFEFFFFFFFFFFFFF, .ofBits 0x7FEFFFFFFFFFFFFF,
      .ofBits 0x7FEFFFFFFFFFFFFF⟩ = 2 := by
    rw [quotient, hgreatest, hleast, sub_neg_eq_add, ← two_mul, mul_div_cancel_right₀ _ hpos.ne']
  have hflaw : rows ⟨.ofBits 0xFFEFFFFFFFFFFFFF, .ofBits 0x7FEFFFFFFFFFFFFF,
      .ofBits 0x7FEFFFFFFFFFFFFF⟩ = .error (.tooLong (.ofBits 0xFFEFFFFFFFFFFFFF)
        (.ofBits 0x7FEFFFFFFFFFFFFF) (.ofBits 0x7FEFFFFFFFFFFFFF)) := by
    decide
  obtain ⟨count, hrows⟩ := hall _ hforward (by rw [hquotient]; norm_num)
  rw [hflaw] at hrows
  exact nomatch hrows

end LidarAngle.Sweep
