import LidarAngle.Decimal.Fixed

/-!
# Shortest decimals

The shortest decimal of a positive binary number `m * 2 ^ q` is taken from the coarsest grid
`10 ^ e` that has a point among the reals that round to the number. Of two such neighbours of
the number on that grid the nearer is taken, and the upper one if both are equally near.

All comparisons are between natural numbers: a real is counted in units of a common fraction of
`10 ^ e` and `2 ^ (q - 2)`, and the reals that round to the number lie between `4 * m - 2`, or
`4 * m - 1` just above a power of two, and `4 * m + 2` quarters of the last binary place.

## Main definitions

* `Decimal.lowQuarters` - the lower end of the rounding interval
* `Decimal.pick?` - the grid point taken at one exponent
* `Decimal.shortest` - the digits and the exponent of the shortest decimal
-/

namespace LidarAngle.Decimal

/-- The lower end of the reals that round to `m * 2 ^ q`, in quarters of `2 ^ q`. Below a power
of two the binary grid is twice as fine, except at the least exponent. -/
def lowQuarters (m : Nat) (q : Int) : Nat :=
  if m = 0x10000000000000 ∧ -1074 < q then 4 * m - 1 else 4 * m - 2

/-- The upper end of the reals that round to `m * 2 ^ q`, in quarters of `2 ^ q`. -/
def highQuarters (m : Nat) : Nat :=
  4 * m + 2

/-- The distance `10 ^ e` of the grid, counted in the common unit. -/
def gridStep (q e : Int) : Nat :=
  Nat.pow 10 e.toNat * Nat.pow 2 (2 - q).toNat

/-- A number of quarters of `2 ^ q`, counted in the common unit. -/
def quarters (q e : Int) (n : Nat) : Nat :=
  n * Nat.pow 2 (q - 2).toNat * Nat.pow 10 (-e).toNat

/-- The `k`-th grid point rounds to `m * 2 ^ q`: it lies between the ends, which themselves
count for an even `m` only. -/
def ReadsBack (m : Nat) (q e : Int) (k : Nat) : Prop :=
  if m % 2 = 0 then
    quarters q e (lowQuarters m q) ≤ k * gridStep q e ∧
      k * gridStep q e ≤ quarters q e (highQuarters m)
  else
    quarters q e (lowQuarters m q) < k * gridStep q e ∧
      k * gridStep q e < quarters q e (highQuarters m)

instance (m : Nat) (q e : Int) (k : Nat) : Decidable (ReadsBack m q e k) := by
  unfold ReadsBack; infer_instance

/-- The last grid point that is not above `m * 2 ^ q`. -/
def gridFloor (m : Nat) (q e : Int) : Nat :=
  quarters q e (4 * m) / gridStep q e

/-- The grid point taken at exponent `e`, if one of the two neighbours of `m * 2 ^ q` rounds to
it: the nearer one, the upper one of two equally near. -/
def pick? (m : Nat) (q e : Int) : Option Nat :=
  let k := gridFloor m q e
  if ReadsBack m q e k then
    if ReadsBack m q e (k + 1) ∧ gridStep q e ≤ 2 * (quarters q e (4 * m) % gridStep q e) then
      some (k + 1)
    else some k
  else if ReadsBack m q e (k + 1) then some (k + 1)
  else none

/-- The finest exponent ever needed: every binary number is a whole multiple of this power of
ten. -/
def finest (q : Int) : Int :=
  min q 0

/-- A power of ten above `m * 2 ^ q` and everything that rounds to it. -/
def coarsest (m : Nat) (q : Int) : Int :=
  (m.log2 + q + 2) * 30103 / 100000 + 2

/-- The first hit when the exponent descends to `finest q` in the given number of steps. -/
def descend (m : Nat) (q : Int) : Nat → Nat × Int
  | 0 => (gridFloor m q (finest q), finest q)
  | n + 1 =>
    match pick? m q (finest q + (n + 1 : Nat)) with
    | some k => (k, finest q + (n + 1 : Nat))
    | none => descend m q n

/-- Digits `k` and exponent `e` of the shortest decimal `k * 10 ^ e` that rounds to
`m * 2 ^ q`. -/
def shortest (m : Nat) (q : Int) : Nat × Int :=
  descend m q (coarsest m q - finest q).toNat

end LidarAngle.Decimal
