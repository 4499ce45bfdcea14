import Mathlib

/-!
# Binary numbers and their parts

A finite binary number has a mantissa and an exponent in a form of its own: the mantissa has all its
bits, or the exponent is the least one. A mantissa and an exponent in that form are packed without
loss.

## Main definitions

* `Decimal.IsCanonical` - the form of the parts of a binary number

## Main statements

* `Decimal.isCanonical_of_unpack` - the parts of a binary number are in that form
* `Decimal.unpack_pack` - parts in that form come back from the number that they are packed to
-/

namespace LidarAngle.Decimal

open Float.Model Float.Model.UnpackedFloat

/-- The only form of a mantissa and an exponent that binary numbers have. -/
structure IsCanonical (m : ℕ) (q : ℤ) : Prop where
  pos : 0 < m
  lt : m < 2 ^ 53
  least : -1074 ≤ q
  most : q ≤ 971
  full : 2 ^ 52 ≤ m ∨ q = -1074

section Components

variable (s : Sign) {e : BitVec 11} {m : BitVec 52}

theorem toNat_one_append (m : BitVec 52) : (1#1 ++ m).toNat = 2 ^ 52 + m.toNat := by
  rw [BitVec.toNat_append, ← Nat.shiftLeft_add_eq_or_of_lt m.isLt, Nat.shiftLeft_eq,
    BitVec.toNat_ofNat, Nat.one_mod_two_pow_eq_one.2 (by decide), Nat.one_mul]

theorem unpack_packComponents_zero (h : 0 < m.toNat) :
    UnpackedFloat.unpack Format.binary64 (packComponents Format.binary64 s 0#11 m) =
      .finite s m.toNat (-1074) h := by
  have hm : m ≠ 0#52 := by
    rintro rfl
    exact absurd h (by decide)
  simp only [UnpackedFloat.unpack, unpackExponent_packComponents, unpackMantissa_packComponents,
    unpackSign_packComponents, Sign.ofBitVec_toBitVec]
  rw [if_neg (by decide), if_pos trivial, dif_neg hm]
  rfl

theorem unpack_packComponents (hzero : e ≠ 0#11) (hones : e ≠ -1#11) (h : 0 < 2 ^ 52 + m.toNat) :
    UnpackedFloat.unpack Format.binary64 (packComponents Format.binary64 s e m) =
      .finite s (2 ^ 52 + m.toNat) (e.toNat - 1075) h := by
  simp only [UnpackedFloat.unpack, unpackExponent_packComponents, unpackMantissa_packComponents,
    unpackSign_packComponents, Sign.ofBitVec_toBitVec]
  rw [if_neg hones, if_neg hzero, UnpackedFloat.finite.injEq]
  exact ⟨rfl, toNat_one_append m, rfl⟩

end Components

/-- A number without the leading bit is packed with the least exponent. -/
theorem pack_of_lt (s : Sign) {m : ℕ} (hpos : 0 < m) (h : m < 2 ^ 52) :
    UnpackedFloat.pack Format.binary64 (.finite s m (-1074) hpos) =
      packComponents Format.binary64 s 0#11 (.ofNat 52 m) := by
  have hlog : m.log2 < 52 := (Nat.log2_lt hpos.ne').2 h
  have hbits : ¬m.log2 + 1 = Format.binary64.mantissaBits := by
    show ¬m.log2 + 1 = 53
    omega
  rw [UnpackedFloat.pack]
  dsimp only
  rw [if_neg (by decide), if_neg hbits]

theorem pack_of_le (s : Sign) {m : ℕ} {q : ℤ} (h : IsCanonical m q) (hfull : 2 ^ 52 ≤ m) :
    UnpackedFloat.pack Format.binary64 (.finite s m q h.pos) =
      packComponents Format.binary64 s (.ofNat 11 (q + 1075).toNat) (.ofNat 52 m) := by
  have hleast := h.least
  have hmost := h.most
  have hlog : m.log2 = 52 := (Nat.log2_eq_iff h.pos.ne').2 ⟨hfull, h.lt⟩
  have hbiased : (q + Format.binary64.exponentBias + Format.binary64.mantissaBitsWithoutImplicit) =
      q + 1075 := add_assoc q 1023 52
  have hinf : ¬2 ^ Format.binary64.exponentBits ≤ (q + 1075).toNat + 1 := by
    show ¬2 ^ 11 ≤ (q + 1075).toNat + 1
    omega
  rw [UnpackedFloat.pack]
  dsimp only
  rw [hbiased, if_neg hinf, hlog]
  exact if_pos rfl

/-- Parts in canonical form come back from the number that they are packed to. -/
theorem unpack_pack (s : Sign) {m : ℕ} {q : ℤ} (h : IsCanonical m q) :
    (Float.Model.pack (.finite s m q h.pos)).unpack = .finite s m q h.pos := by
  have hlt := h.lt
  have hleast := h.least
  have hmost := h.most
  show UnpackedFloat.unpack Format.binary64 (UnpackedFloat.pack Format.binary64 _) = _
  by_cases hfull : 2 ^ 52 ≤ m
  · have hexponent : (BitVec.ofNat 11 (q + 1075).toNat).toNat = (q + 1075).toNat := by
      rw [BitVec.toNat_ofNat]
      omega
    have hmantissa : 2 ^ 52 + (BitVec.ofNat 52 m).toNat = m := by
      rw [BitVec.toNat_ofNat]
      omega
    have hne : ∀ e : BitVec 11, e.toNat = 0 ∨ e.toNat = 2047 →
        BitVec.ofNat 11 (q + 1075).toNat ≠ e := by
      rintro e he rfl
      omega
    rw [pack_of_le s h hfull,
      unpack_packComponents s (hne _ (.inl rfl)) (hne _ (.inr rfl)) (by omega),
      UnpackedFloat.finite.injEq, hexponent]
    exact ⟨rfl, hmantissa, by omega⟩
  · obtain rfl := h.full.resolve_left hfull
    have hmantissa : (BitVec.ofNat 52 m).toNat = m := by
      rw [BitVec.toNat_ofNat]
      omega
    have hpos : 0 < (BitVec.ofNat 52 m).toNat := h.pos.trans_eq hmantissa.symm
    rw [pack_of_lt s h.pos (not_le.1 hfull), unpack_packComponents_zero s hpos,
      UnpackedFloat.finite.injEq]
    exact ⟨rfl, hmantissa, rfl⟩

/-- The parts of a binary number are canonical. -/
theorem isCanonical_of_unpack {x : Float.Model} {s : Sign} {m : ℕ} {q : ℤ} {hpos : 0 < m}
    (h : x.unpack = .finite s m q hpos) : IsCanonical m q := by
  have hmantissa : (@unpackMantissa Format.binary64 x.toBits.toBitVec).toNat < 2 ^ 52 :=
    BitVec.isLt _
  have hexponent : (@unpackExponent Format.binary64 x.toBits.toBitVec).toNat < 2 ^ 11 :=
    BitVec.isLt _
  unfold Float.Model.unpack UnpackedFloat.unpack at h
  dsimp only at h
  split at h
  · split at h
    · cases h
    · cases h
  · next hones =>
    split at h
    · next hzero =>
      split at h
      · cases h
      · obtain ⟨-, rfl, rfl⟩ := (UnpackedFloat.finite.injEq ..).mp h
        rw [hzero]
        exact ⟨hpos, by omega, by decide, by decide, .inr (by decide)⟩
    · next hzero =>
      obtain ⟨-, hm, hq⟩ := (UnpackedFloat.finite.injEq ..).mp h
      have hzero' : (@unpackExponent Format.binary64 x.toBits.toBitVec).toNat ≠ 0 :=
        fun e => hzero (BitVec.eq_of_toNat_eq e)
      have hones' : (@unpackExponent Format.binary64 x.toBits.toBitVec).toNat ≠ 2047 :=
        fun e => hones (BitVec.eq_of_toNat_eq e)
      rw [toNat_one_append] at hm
      have hq' : ((@unpackExponent Format.binary64 x.toBits.toBitVec).toNat : ℤ) - 1075 = q := hq
      exact ⟨hpos, by omega, by omega, by omega, .inl (by omega)⟩

/-- A binary number is packed again from its parts. -/
theorem pack_unpack (x : Float.Model) : Float.Model.pack x.unpack = x := by
  have hbits : UnpackedFloat.pack Format.binary64 x.unpack = x.toBits.toBitVec :=
    pack_unpack_of_valid x.valid
  cases x
  exact (Float.Model.mk.injEq ..).mpr (congrArg UInt64.ofBitVec hbits)

end LidarAngle.Decimal
