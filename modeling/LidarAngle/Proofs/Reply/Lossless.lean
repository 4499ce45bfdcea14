import LidarAngle.Proofs.Reply.Spelling

/-!
# Spelling loses nothing

A reply that has a whole payload is spelled with 14 characters more than it has bytes: its header
character by character, then three words of eight digits with single spaces between them. A reply
without one is spelled with fewer characters than any that has one, and replies of different lengths
are never spelled with the same number of characters. So a text tells where the header ends, and
from there on it is read byte by byte.

## Main definitions

* `Hex.capitals` - a number in a count of capital digits

## Main statements

* `Reply.digits_eq_capitals` - the digits of a word
* `Reply.length_spell` - the length of a spelled reply
* `Reply.spell_lossless` - different replies are spelled differently, and how they are spelled
-/

namespace LidarAngle

namespace Hex

/-- A number in hexadecimal, in capital digits, with zeros in front up to a count of digits. -/
def capitals (count n : ℕ) : List Char :=
  ((Nat.toDigits 16 n).leftpad count '0').map Char.toUpper

theorem toUpper_digitChar : ∀ d < 16, d.digitChar.toUpper = upper d := by
  decide

theorem capitals_one {d : ℕ} (hd : d < 16) : capitals 1 d = [upper d] := by
  rw [capitals, Nat.toDigits_of_lt_base hd, ← toUpper_digitChar d hd]
  rfl

/-- The last digit is the remainder, and what stands before it are the digits of the quotient. -/
theorem capitals_succ {count : ℕ} (hcount : 0 < count) (n : ℕ) {d : ℕ} (hd : d < 16) :
    capitals (count + 1) (16 * n + d) = capitals count n ++ [upper d] := by
  have hpad : (Nat.toDigits 16 (16 * n + d)).leftpad (count + 1) '0' =
      (Nat.toDigits 16 n).leftpad count '0' ++ [d.digitChar] := by
    rcases Nat.eq_zero_or_pos n with rfl | hn
    -- The quotient is written as a zero of its own, which is one of those in front.
    · obtain ⟨zeros, rfl⟩ := Nat.exists_eq_succ_of_ne_zero hcount.ne'
      rw [Nat.mul_zero, Nat.zero_add, Nat.toDigits_of_lt_base hd,
        Nat.toDigits_of_lt_base (by decide : 0 < 16)]
      simp [List.leftpad, List.replicate_succ']
    · rw [← Nat.toDigits_append_toDigits (by decide) hn hd, Nat.toDigits_of_lt_base hd]
      simp [List.leftpad]
  rw [capitals, hpad, List.map_append, ← toUpper_digitChar d hd]
  rfl

theorem capitals_byte {count : ℕ} (hcount : 0 < count) (n : ℕ) (b : UInt8) :
    capitals (count + 2) (256 * n + b.toNat) = capitals count n ++ byte b := by
  have hb : b.toNat < 256 := b.toNat_lt
  have hsum : 256 * n + b.toNat = 16 * (16 * n + b.toNat / 16) + b.toNat % 16 := by omega
  rw [hsum, capitals_succ (by omega) _ (Nat.mod_lt _ (by decide)),
    capitals_succ hcount _ (by omega), List.append_assoc]
  rfl

theorem capitals_foldl {count : ℕ} (hcount : 0 < count) (n : ℕ) (bytes : List UInt8) :
    capitals (count + 2 * bytes.length) (bytes.foldl (fun m b => 256 * m + b.toNat) n) =
      capitals count n ++ bytes.flatMap byte := by
  induction bytes generalizing count n with
  | nil => simp
  | cons b rest ih =>
    have hsize : count + 2 * (b :: rest).length = count + 2 + 2 * rest.length := by
      rw [List.length_cons]
      omega
    rw [hsize, List.foldl_cons, ih (by omega), capitals_byte hcount, List.flatMap_cons,
      List.append_assoc]

/-- Bytes are spelled with the digits of the number that they write. -/
theorem flatMap_byte_eq_capitals {bytes : List UInt8} (h : bytes ≠ []) :
    bytes.flatMap byte = capitals (2 * bytes.length) (ofBigEndian bytes) := by
  obtain ⟨b, rest, rfl⟩ := List.exists_cons_of_ne_nil h
  have hb : b.toNat < 256 := b.toNat_lt
  have hfirst : capitals 2 b.toNat = byte b := by
    have h := capitals_succ Nat.one_pos (b.toNat / 16) (Nat.mod_lt b.toNat (by decide))
    rw [Nat.div_add_mod, capitals_one (by omega)] at h
    exact h
  have hnumber : ofBigEndian (b :: rest) =
      rest.foldl (fun m b => 256 * m + b.toNat) b.toNat := by
    rw [ofBigEndian, List.foldl_cons, Nat.mul_zero, Nat.zero_add]
  rw [hnumber, List.length_cons, Nat.mul_add, Nat.add_comm, capitals_foldl (by decide), hfirst,
    List.flatMap_cons]

theorem byte_injective : Function.Injective byte := by
  intro a b h
  have hvalue := Numeral.foldlM_byte 0 a
  rw [h, Numeral.foldlM_byte, Option.some.injEq, Nat.add_left_cancel_iff] at hvalue
  exact UInt8.toNat_inj.1 hvalue.symm

end Hex

namespace Text

theorem ofUInt8_injective : Function.Injective Char.ofUInt8 := by
  intro a b h
  rw [Char.ext_iff, ← UInt32.toNat_inj] at h
  exact UInt8.toNat_inj.1 h

theorem latin1_injective : Function.Injective latin1 := fun _ _ h =>
  (List.map_inj_right fun _ _ => @ofUInt8_injective _ _).1 h

end Text

namespace Reply

theorem digits_eq_capitals (word : UInt32) : digits word = Hex.capitals 8 word.toNat := by
  have hne : bigEndian word ≠ [] := List.cons_ne_nil _ _
  rw [digits, Hex.flatMap_byte_eq_capitals hne, ofBigEndian_bigEndian]
  rfl

/-- Every byte is spelled with two digits, and all else are spaces. -/
theorem length_spellPayload (count : ℕ) (bytes : List UInt8) :
    (spellPayload count bytes).length =
      2 * bytes.length + (spellPayload count bytes).count ' ' := by
  induction bytes generalizing count with
  | nil => rfl
  | cons b rest ih =>
    have hbyte := List.count_eq_zero.2 (space_notMem_byte b)
    have hgap : (gap (count + 1)).length = (gap (count + 1)).count ' ' := by
      unfold gap
      split
      · rfl
      · rfl
    rw [spellPayload, List.length_append, List.length_append, ih, List.count_append,
      List.count_append, hbyte, hgap, Hex.length_byte, List.length_cons]
    omega

theorem length_spell (reply : List UInt8) :
    (spell reply).length = headerSize reply + 2 * (payload reply).length +
      min (payload reply).length 11 / 4 := by
  have hheader : (reply.take (headerSize reply)).length = headerSize reply := by
    rw [List.length_take, headerSize]
    omega
  have hcount := count_spellPayload 0 (payload reply)
  rw [spell, List.length_append, Text.length_latin1, hheader, ← payload, length_spellPayload]
  omega

/-- The length of a text tells that of the reply. -/
theorem length_eq_of_length_spell_eq {a b : List UInt8}
    (h : (spell a).length = (spell b).length) : a.length = b.length := by
  rw [length_spell, length_spell, payload, payload, List.length_drop, List.length_drop] at h
  unfold headerSize payloadSize at h
  omega

/-- The bytes of a payload are spelled one after another, whatever was spelled before. -/
theorem spellPayload_injective (count : ℕ) : Function.Injective (spellPayload count) := by
  intro a b h
  induction a generalizing count b with
  | nil =>
    cases b with
    | nil => rfl
    | cons d rest => exact nomatch h
  | cons c others ih =>
    cases b with
    | nil => exact nomatch h
    | cons d rest =>
      rw [spellPayload, spellPayload, List.append_assoc, List.append_assoc] at h
      obtain ⟨hbyte, htail⟩ := List.append_inj h rfl
      rw [Hex.byte_injective hbyte, ih (count + 1) (List.append_cancel_left htail)]

theorem spell_injective : Function.Injective spell := by
  intro a b h
  have hlength := length_eq_of_length_spell_eq (congrArg List.length h)
  have hsize : headerSize a = headerSize b := by rw [headerSize, headerSize, hlength]
  unfold spell at h
  obtain ⟨hheader, hpayload⟩ := List.append_inj h (by simp [hsize, hlength])
  rw [← List.take_append_drop (headerSize a) a, Text.latin1_injective hheader,
    spellPayload_injective 0 hpayload, List.take_append_drop]

/-- Different replies are spelled differently, of whatever lengths they are. A reply with a whole
payload is spelled with 14 characters more than it has bytes: those of its header in Latin-1, and
the three words of the payload in eight capital digits each, with single spaces between them. -/
theorem spell_lossless :
    (∀ a b : List UInt8, spell a = spell b → a = b) ∧
    ∀ reply : List UInt8, payloadSize ≤ reply.length →
      (spell reply).length = reply.length + 14 ∧
      spell reply = Text.latin1 (header reply) ++ [' '].intercalate
        [Hex.capitals 8 (group (payload reply) 0).toNat,
          Hex.capitals 8 (group (payload reply) 1).toNat,
          Hex.capitals 8 (group (payload reply) 2).toNat] := by
  refine ⟨fun a b h => spell_injective h, fun reply hsize => ⟨?_, ?_⟩⟩
  · rw [length_spell, length_payload_of_le hsize, headerSize]
    unfold payloadSize at hsize ⊢
    omega
  · rw [← digits_eq_capitals, ← digits_eq_capitals, ← digits_eq_capitals, spell_eq hsize]
    rfl

/-- Four bytes and five, of which the fifth begins a word of its own; and a header of a digit and a
space in front of a payload of spaces. -/
theorem spell_lossless_lookalikes :
    spell (List.replicate 4 0x20) ≠ spell (List.replicate 5 0x20) ∧
      payloadSize ≤ ([0x41, 0x20] ++ List.replicate 12 0x20 : List UInt8).length ∧
      (spell ([0x41, 0x20] ++ List.replicate 12 0x20)).length = 28 ∧
      spell ([0x41, 0x20] ++ List.replicate 12 0x20) = "A 20202020 20202020 20202020".toList := by
  obtain ⟨hinjective, hspelled⟩ := spell_lossless
  have hsize : payloadSize ≤ ([0x41, 0x20] ++ List.replicate 12 0x20 : List UInt8).length := by
    decide
  obtain ⟨hlength, htext⟩ := hspelled _ hsize
  refine ⟨fun h => ?_, hsize, hlength, htext.trans (by decide)⟩
  exact absurd (hinjective _ _ h) (by decide)

end Reply

end LidarAngle
