import LidarAngle.Proofs.Calibration.LowBits
import LidarAngle.Proofs.Text.Numeral
import LidarAngle.Reply.Binary

/-!
# The words of a payload

A payload is three words of four bytes each. The phase takes a whole word; of the words of the
amplitude and the offset only the lower half counts, and the upper half is redundant: it repeats
the sign.

## Main definitions

* `ofBigEndian` - the number that bytes write
* `Reply.group` - one of the three words of a payload
* `Calibration.ofPayload` - what a payload says
* `Reply.IsSignExtended` - a word whose upper half repeats the sign of the lower one
-/

namespace LidarAngle

/-- The number that bytes write, most significant first. -/
def ofBigEndian (bytes : List UInt8) : Nat :=
  bytes.foldl (fun n b => 256 * n + b.toNat) 0

theorem foldl_bigEndian (n : ℕ) (word : UInt32) :
    (bigEndian word).foldl (fun m b => 256 * m + b.toNat) n = 2 ^ 32 * n + word.toNat := by
  have h : word.toNat < 2 ^ 32 := word.toNat_lt
  simp only [bigEndian, List.foldl_cons, List.foldl_nil, UInt32.toNat_toUInt8,
    UInt32.toNat_shiftRight]
  simp [Nat.shiftRight_eq_div_pow]
  omega

theorem ofBigEndian_bigEndian (word : UInt32) : ofBigEndian (bigEndian word) = word.toNat := by
  rw [ofBigEndian, foldl_bigEndian, Nat.mul_zero, Nat.zero_add]

theorem bigEndian_ofBigEndian {bytes : List UInt8} (h : bytes.length = 4) :
    bigEndian (UInt32.ofNat (ofBigEndian bytes)) = bytes := by
  match bytes, h with
  | [a, b, c, d], _ =>
    have ha : a.toNat < 256 := a.toNat_lt
    have hb : b.toNat < 256 := b.toNat_lt
    have hc : c.toNat < 256 := c.toNat_lt
    have hd : d.toNat < 256 := d.toNat_lt
    simp only [ofBigEndian, bigEndian, List.foldl_cons, List.foldl_nil, List.cons.injEq,
      ← UInt8.toNat_inj, UInt32.toNat_toUInt8, UInt32.toNat_shiftRight, UInt32.toNat_ofNat']
    simp [Nat.shiftRight_eq_div_pow]
    omega

theorem bigEndian_inj {v w : UInt32} : bigEndian v = bigEndian w ↔ v = w := by
  constructor
  · intro h
    rw [← UInt32.toNat_inj, ← ofBigEndian_bigEndian v, h, ofBigEndian_bigEndian]
  · rintro rfl
    rfl

namespace Reply

/-- One of the words of a payload, counted from zero. -/
def group (payload : List UInt8) (i : Nat) : UInt32 :=
  .ofNat (ofBigEndian ((payload.drop (groupSize * i)).take groupSize))

/-- The upper half of a word repeats the sign of its lower half. -/
def IsSignExtended (word : UInt32) : Prop :=
  word.toUInt16.toInt16.toInt32.toUInt32 = word

/-- A payload is the bytes of its three words. -/
theorem bigEndian_groups {payload : List UInt8} (h : payload.length = payloadSize) :
    bigEndian (group payload 0) ++ bigEndian (group payload 1) ++ bigEndian (group payload 2) =
      payload := by
  have hlength : ∀ i < 3, ((payload.drop (groupSize * i)).take groupSize).length = 4 := by
    intro i hi
    rw [List.length_take, List.length_drop, h]
    simp only [groupSize, payloadSize]
    omega
  rw [group, group, group, bigEndian_ofBigEndian (hlength 0 (by decide)),
    bigEndian_ofBigEndian (hlength 1 (by decide)), bigEndian_ofBigEndian (hlength 2 (by decide))]
  match payload, h with
  | [_, _, _, _, _, _, _, _, _, _, _, _], _ => rfl

/-- The words of a payload are those that it was put together from. -/
theorem group_words (u v w : UInt32) :
    group (bigEndian u ++ bigEndian v ++ bigEndian w) 0 = u ∧
      group (bigEndian u ++ bigEndian v ++ bigEndian w) 1 = v ∧
      group (bigEndian u ++ bigEndian v ++ bigEndian w) 2 = w := by
  have hword : ∀ x : UInt32, UInt32.ofNat (ofBigEndian (bigEndian x)) = x := by
    intro x
    rw [ofBigEndian_bigEndian, UInt32.ofNat_toNat]
  exact ⟨hword u, hword v, hword w⟩

end Reply

namespace Calibration

open Reply

/-- The calibration that a payload says. -/
def ofPayload (payload : List UInt8) : Calibration where
  amplitude := (group payload 0).toUInt16.toInt16
  phase := (group payload 1).toInt32
  offset := (group payload 2).toUInt16.toInt16

theorem ofPayload_payload (c : Calibration) : ofPayload c.payload = c := by
  obtain ⟨h0, h1, h2⟩ := group_words c.amplitude.toInt32.toUInt32 c.phase.toUInt32
    c.offset.toInt32.toUInt32
  rw [ofPayload, payload, h0, h1, h2, half_toInt32, half_toInt32, Int32.toInt32_toUInt32]

/-- A payload is made again from what it says exactly if the words of the amplitude and the offset
are widened by their sign. -/
theorem payload_ofPayload_iff {bytes : List UInt8} (h : bytes.length = payloadSize) :
    (ofPayload bytes).payload = bytes ↔
      IsSignExtended (group bytes 0) ∧ IsSignExtended (group bytes 2) := by
  have hbytes := bigEndian_groups h
  have hphase : (ofPayload bytes).phase.toUInt32 = group bytes 1 := UInt32.toUInt32_toInt32 _
  -- Words of four bytes each can be compared one by one.
  constructor
  · intro e
    obtain ⟨hleft, hoffset⟩ := List.append_inj' (e.trans hbytes.symm) rfl
    obtain ⟨hamplitude, -⟩ := List.append_inj' hleft rfl
    exact ⟨bigEndian_inj.1 hamplitude, bigEndian_inj.1 hoffset⟩
  · rintro ⟨h0, h2⟩
    have hamplitude : (ofPayload bytes).amplitude.toInt32.toUInt32 = group bytes 0 := h0
    have hoffset : (ofPayload bytes).offset.toInt32.toUInt32 = group bytes 2 := h2
    rw [payload, hamplitude, hphase, hoffset]
    exact hbytes

end Calibration

end LidarAngle
