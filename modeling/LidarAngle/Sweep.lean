import LidarAngle.Decimal.Layout

/-!
# Sweeps

A sweep is a range of angles in degrees, from a start to a stop that is included, in equal steps.
It has one angle for every whole step that fits; a last step that misses the stop by no more than
a billionth of a step still counts. Angles are computed from their index, so a long sweep does
not pile up rounding errors.

## Main definitions

* `Sweep` - start, stop and step
* `Sweep.Flaw` - why a sweep has no angles
* `Sweep.rows` - the number of angles, or the first flaw
* `Sweep.angles` - the angles in order
-/

namespace LidarAngle

structure Sweep where
  start : Float := 0
  stop : Float := 359
  step : Float := 1
  deriving DecidableEq

namespace Sweep

/-- Why a sweep has no angles. -/
inductive Flaw where
  | unbounded (start stop : Float)
  | noStep (step : Float)
  | reversed (start stop : Float)
  | tooLong (start stop step : Float)
  deriving DecidableEq

def maxRows : Nat := 1000000

private def shown (x : Float) : String :=
  String.ofList (Decimal.Layout.message.write x)

def Flaw.message : Flaw → String
  | unbounded start stop => s!"table bounds must be finite, got {shown start}..{shown stop}"
  | noStep step => s!"table step must be positive, got {shown step}"
  | reversed start stop => s!"table end {shown stop} is before start {shown start}"
  | tooLong start stop step =>
    s!"table range {shown start}..{shown stop} step {shown step} exceeds {maxRows} rows"

/-- The share of a step by which the last step may miss the stop. -/
def slack : Float := 1e-9

/-- The number of steps that fit, not rounded yet. -/
def intervals (sweep : Sweep) : Float :=
  (sweep.stop - sweep.start) / sweep.step + slack

/-- The number of angles, or the first flaw. -/
def rows (sweep : Sweep) : Except Flaw Nat :=
  if ¬(sweep.start.isFinite ∧ sweep.stop.isFinite) then
    .error (.unbounded sweep.start sweep.stop)
  else if ¬(sweep.step.isFinite ∧ 0 < sweep.step) then
    .error (.noStep sweep.step)
  else if sweep.stop < sweep.start then
    .error (.reversed sweep.start sweep.stop)
  else if sweep.intervals < Float.ofNat maxRows then
    .ok (sweep.intervals.toUInt64.toNat + 1)
  else
    .error (.tooLong sweep.start sweep.stop sweep.step)

/-- The angle of a row, counted from zero. -/
def angle (sweep : Sweep) (row : Nat) : Float :=
  sweep.start + Float.ofNat row * sweep.step

/-- The angles in order, or the first flaw. -/
def angles (sweep : Sweep) : Except Flaw (List Float) := do
  let count ← sweep.rows
  return (List.range count).map sweep.angle

theorem angles_eq_map (sweep : Sweep) :
    sweep.angles = sweep.rows.map fun count => (List.range count).map sweep.angle := by
  unfold angles
  cases sweep.rows with
  | error flaw => rfl
  | ok count => rfl

/-- A sweep has as many angles as it has rows. -/
theorem length_of_angles {sweep : Sweep} {angles : List Float} (h : sweep.angles = .ok angles) :
    sweep.rows = .ok angles.length := by
  rw [angles_eq_map] at h
  cases hrows : sweep.rows with
  | error flaw => rw [hrows] at h; exact nomatch h
  | ok count =>
    rw [hrows] at h
    rw [← Except.ok.inj h, List.length_map, List.length_range]

/-- A sweep without angles has no rows either, for the same reason. -/
theorem rows_of_angles_error {sweep : Sweep} {flaw : Flaw} (h : sweep.angles = .error flaw) :
    sweep.rows = .error flaw := by
  rw [angles_eq_map] at h
  cases hrows : sweep.rows with
  | error other => rw [hrows] at h; rw [Except.error.inj h]
  | ok count => rw [hrows] at h; exact nomatch h

end Sweep

end LidarAngle
