import LidarAngle.Calibration
import Mathlib.Data.Int.ModEq
import Mathlib.Tactic.Ring

/-!
# The low bits of a word

What a field takes from a wide word depends on the word only modulo a power of two, and two's
complement makes no difference to that. So words can be compared with fields as integers.

## Main statements

* `Calibration.low16_ofInt_eq_iff`, `Calibration.low32_ofInt_eq_iff` - the integers that a field
  reads as the same value
* `Calibration.low16_ofInt_eq_half_iff` - the same for the lower half of a 32-bit word
-/

namespace LidarAngle.Calibration

theorem ofNat_eq_ofInt (n : ℕ) : UInt64.ofNat n = .ofInt n := by
  apply UInt64.toNat_inj.1
  show n % 2 ^ 64 = ((n : ℤ) % 2 ^ 64).toNat % 2 ^ 64
  omega

/-- The low 16 bits of an integer are the same when it is first reduced to 64 bits. -/
theorem low16_ofInt (v : Int) : low16 (.ofInt v) = .ofInt v := by
  apply Int16.toBitVec_inj.1
  apply BitVec.eq_of_toNat_eq
  show ((v % 2 ^ 64).toNat % 2 ^ 64) % 2 ^ 16 = (BitVec.ofInt 16 v).toNat
  rw [BitVec.toNat_ofInt]
  omega

theorem low32_ofInt (v : Int) : low32 (.ofInt v) = .ofInt v := by
  apply Int32.toBitVec_inj.1
  apply BitVec.eq_of_toNat_eq
  show ((v % 2 ^ 64).toNat % 2 ^ 64) % 2 ^ 32 = (BitVec.ofInt 32 v).toNat
  rw [BitVec.toNat_ofInt]
  omega

/-- A number that is balanced already is the balanced remainder of what agrees with it. -/
theorem bmod_eq_iff_modEq {v x : ℤ} {m : ℕ} (hx : x.bmod m = x) :
    v.bmod m = x ↔ v ≡ x [ZMOD m] := by
  constructor
  · intro h
    rw [← h]
    exact Int.bmod_emod.symm
  · intro h
    calc v.bmod m = (v % m).bmod m := (Int.emod_bmod v m).symm
      _ = (x % m).bmod m := congrArg (Int.bmod · m) h
      _ = x.bmod m := Int.emod_bmod x m
      _ = x := hx

/-- A field of 16 bits reads exactly the integers that agree with its value modulo `2 ^ 16`. -/
theorem low16_ofInt_eq_iff (v : Int) (x : Int16) :
    low16 (.ofInt v) = x ↔ v ≡ x.toInt [ZMOD 2 ^ 16] := by
  rw [low16_ofInt, ← Int16.toInt_inj, Int16.toInt_ofInt]
  exact bmod_eq_iff_modEq x.toInt_bmod

theorem low32_ofInt_eq_iff (v : Int) (x : Int32) :
    low32 (.ofInt v) = x ↔ v ≡ x.toInt [ZMOD 2 ^ 32] := by
  rw [low32_ofInt, ← Int32.toInt_inj, Int32.toInt_ofInt]
  exact bmod_eq_iff_modEq x.toInt_bmod

theorem toInt_half_modEq (word : UInt32) :
    word.toUInt16.toInt16.toInt ≡ word.toNat [ZMOD 2 ^ 16] := by
  have h : word.toUInt16.toInt16.toInt = Int.bmod (word.toNat % 2 ^ 16 : ℕ) (2 ^ 16) :=
    BitVec.toInt_eq_toNat_bmod _
  rw [h]
  show Int.bmod _ (2 ^ 16) % (2 ^ 16 : ℕ) = word.toNat % (2 ^ 16 : ℕ)
  rw [Int.bmod_emod]
  omega

/-- A field of 16 bits reads exactly the integers that agree with a word modulo `2 ^ 16` as the
lower half of that word. -/
theorem low16_ofInt_eq_half_iff (v : Int) (word : UInt32) :
    low16 (.ofInt v) = word.toUInt16.toInt16 ↔ v ≡ word.toNat [ZMOD 2 ^ 16] := by
  rw [low16_ofInt_eq_iff]
  exact ⟨fun h => h.trans (toInt_half_modEq word), fun h => h.trans (toInt_half_modEq word).symm⟩

/-- A field of 16 bits takes the lower half of a word, whatever stands before the word. -/
theorem low16_ofNat_append (n : ℕ) (word : UInt32) :
    low16 (.ofNat (2 ^ 32 * n + word.toNat)) = word.toUInt16.toInt16 := by
  rw [ofNat_eq_ofInt, low16_ofInt_eq_half_iff, Int.modEq_iff_dvd]
  exact ⟨-(2 ^ 16 * n), by push_cast; ring⟩

theorem low16_ofNat_toNat (word : UInt32) :
    low16 (.ofNat word.toNat) = word.toUInt16.toInt16 := by
  simpa using low16_ofNat_append 0 word

theorem low32_ofNat_toNat (word : UInt32) : low32 (.ofNat word.toNat) = word.toInt32 := by
  rw [low32, UInt64.toUInt32_ofNat', UInt32.ofNat_toNat]

/-- The lower half of a value widened by its sign is that value. -/
theorem half_toInt32 (x : Int16) : x.toInt32.toUInt32.toUInt16.toInt16 = x := by
  apply Int16.toBitVec_inj.1
  apply BitVec.eq_of_getLsbD_eq
  intro i hi
  have hwide : i < 32 := by omega
  show ((x.toBitVec.signExtend 32).setWidth 16).getLsbD i = x.toBitVec.getLsbD i
  rw [BitVec.getLsbD_setWidth, BitVec.getLsbD_signExtend]
  simp [hi, hwide]

end LidarAngle.Calibration
