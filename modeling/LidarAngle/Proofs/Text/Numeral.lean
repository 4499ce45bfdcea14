import LidarAngle.Text.Numeral
import Mathlib.Algebra.Group.Nat.Defs

/-!
# The numbers that numerals stand for

A numeral is read digit by digit from the left, so what it stands for after a first part depends
on that part only by its value. Two ways of writing a number are read back here: the digits of a
number in a base, behind any number of zeros, and the two hexadecimal digits of every byte of a
list.

## Main statements

* `Numeral.notMem_of_value?` - a numeral has digits only
* `Numeral.decimal?_toDigits`, `Numeral.hexadecimal?_toDigits` - the digits of a number
* `Numeral.decimal?_append` - one numeral behind another
* `Numeral.foldlM_flatMap_byte` - the digits of a list of bytes
-/

namespace LidarAngle

namespace Hex

theorem toNat_toLower (c : Char) :
    c.toLower.toNat = if 65 ≤ c.toNat ∧ c.toNat ≤ 90 then c.toNat + 32 else c.toNat := by
  have hupper : (c.val ≥ 'A'.val ∧ c.val ≤ 'Z'.val) ↔ (65 ≤ c.toNat ∧ c.toNat ≤ 90) := Iff.rfl
  unfold Char.toLower
  split
  · next h =>
    have hrange := hupper.1 h
    rw [if_pos hrange]
    show (c.toNat + 32) % 2 ^ 32 = c.toNat + 32
    omega
  · next h => rw [if_neg (fun h' => h (hupper.2 h'))]

theorem value?_eq (c : Char) :
    value? c =
      if 48 ≤ c.toNat ∧ c.toNat ≤ 57 then some (c.toNat - 48)
      else if 65 ≤ c.toNat ∧ c.toNat ≤ 70 then some (c.toNat - 55)
      else if 97 ≤ c.toNat ∧ c.toNat ≤ 102 then some (c.toNat - 87)
      else none := rfl

/-- A hexadecimal digit is a character of ASCII. -/
theorem lt_of_value? {c : Char} {n : Nat} (h : value? c = some n) : c.toNat < 128 := by
  apply Nat.lt_of_not_le
  intro hle
  rw [value?_eq, if_neg (by omega), if_neg (by omega), if_neg (by omega)] at h
  exact absurd h (by simp)

theorem value?_toLower (c : Char) : value? c.toLower = value? c := by
  rw [value?_eq, value?_eq, toNat_toLower]
  by_cases h : 65 ≤ c.toNat ∧ c.toNat ≤ 90
  -- A capital letter is a digit up to F, and then its lower case is one of the same value.
  · rw [if_pos h]
    by_cases hf : c.toNat ≤ 70
    · rw [if_neg (by omega), if_neg (by omega), if_pos (by omega), if_neg (by omega),
        if_pos (by omega)]
      congr 1
    · rw [if_neg (by omega), if_neg (by omega), if_neg (by omega), if_neg (by omega),
        if_neg (by omega), if_neg (by omega)]
  · rw [if_neg h]

end Hex

namespace Numeral

/-- A decimal digit is a character of ASCII. -/
theorem lt_of_digit? {c : Char} {n : Nat} (h : digit? c = some n) : c.toNat < 128 := by
  apply Nat.lt_of_not_le
  intro hle
  rw [digit?, if_neg] at h
  · exact absurd h (by simp)
  · rintro ⟨-, hnine⟩
    have hnine' : c.toNat ≤ 57 := hnine
    omega

variable {base : Nat} {read? : Char → Option Nat}

theorem value?_of_ne_nil {text : List Char} (h : text ≠ []) :
    value? base read? text = text.foldlM (extend base read?) 0 := by
  cases text with
  | nil => exact absurd rfl h
  | cons c rest => rfl

theorem foldlM_eq_none {c : Char} (hc : read? c = none) {text : List Char} (hm : c ∈ text)
    (n : Nat) : text.foldlM (extend base read?) n = none := by
  induction text generalizing n with
  | nil => exact absurd hm List.not_mem_nil
  | cons x rest ih =>
    rw [List.foldlM_cons]
    rcases List.mem_cons.1 hm with rfl | hm
    · rw [extend, hc]
      rfl
    · cases extend base read? n x with
      | none => rfl
      | some m => exact ih hm m

/-- A numeral has digits only. -/
theorem notMem_of_value? {c : Char} (hc : read? c = none) {text : List Char} {n : Nat}
    (h : value? base read? text = some n) : c ∉ text := by
  intro hm
  rw [value?_of_ne_nil (List.ne_nil_of_mem hm), foldlM_eq_none hc hm] at h
  exact absurd h (by simp)

theorem exists_of_mem_of_value? {text : List Char} {n : Nat}
    (h : value? base read? text = some n) {c : Char} (hc : c ∈ text) : ∃ d, read? c = some d := by
  apply Option.ne_none_iff_exists'.1
  intro hnone
  exact notMem_of_value? hnone h hc

theorem foldlM_zeros (h : read? '0' = some 0) (zeros : Nat) (text : List Char) :
    (List.replicate zeros '0' ++ text).foldlM (extend base read?) 0 =
      text.foldlM (extend base read?) 0 := by
  induction zeros with
  | zero => rfl
  | succ zeros ih =>
    have hstep : extend base read? 0 '0' = some 0 := by simp [extend, h]
    rw [List.replicate_succ, List.cons_append, List.foldlM_cons, hstep]
    exact ih

/-- What is in front of a numeral adds its value once for every unit beyond the numeral. -/
theorem foldlM_add {text : List Char} {a v : Nat} (h : text.foldlM (extend base read?) a = some v)
    (d : Nat) :
    text.foldlM (extend base read?) (a + d) = some (d * base ^ text.length + v) := by
  induction text generalizing a d with
  | nil =>
    obtain rfl := Option.some.inj h
    rw [List.length_nil, Nat.pow_zero, Nat.mul_one, Nat.add_comm]
    rfl
  | cons c rest ih =>
    rw [List.foldlM_cons] at h ⊢
    obtain ⟨m, hm, hrest⟩ := Option.bind_eq_some_iff.1 h
    obtain ⟨x, hx, rfl⟩ := Option.map_eq_some_iff.1 hm
    have hstep : extend base read? (a + d) c = some (base * a + x + base * d) := by
      rw [extend, hx, Option.map_some, Nat.mul_add, Nat.add_right_comm]
    rw [hstep, List.length_cons, Nat.pow_succ', Nat.mul_left_comm, ← Nat.mul_assoc]
    exact ih hrest (base * d)

theorem foldlM_toDigits (hbase : 1 < base) (hread : ∀ d < base, read? d.digitChar = some d)
    (n : Nat) : (Nat.toDigits base n).foldlM (extend base read?) 0 = some n := by
  -- The last digit is the remainder, and what stands before it the digits of the quotient.
  induction n using Nat.base_induction base hbase with
  | single d hd =>
    rw [Nat.toDigits_of_lt_base hd]
    simp [extend, hread d hd]
  | digit n d hd hn ih =>
    rw [← Nat.toDigits_append_toDigits hbase hn hd, List.foldlM_append, ih,
      Nat.toDigits_of_lt_base hd]
    simp [extend, hread d hd]

/-- A decimal numeral of any number of zeros and the digits of a number. -/
theorem decimal?_toDigits (zeros n : Nat) :
    decimal? (List.replicate zeros '0' ++ Nat.toDigits 10 n) = some n := by
  have hread : ∀ d < 10, digit? d.digitChar = some d := by decide
  rw [decimal?, value?_of_ne_nil (by simp), foldlM_zeros (by decide),
    foldlM_toDigits (by decide) hread]

theorem decimal?_append {text rest : List Char} {n v : Nat} (htext : decimal? text = some n)
    (hrest : decimal? rest = some v) :
    decimal? (text ++ rest) = some (n * 10 ^ rest.length + v) := by
  have hne : text ≠ [] := by
    rintro rfl
    exact absurd htext (by simp [decimal?])
  have hne' : rest ≠ [] := by
    rintro rfl
    exact absurd hrest (by simp [decimal?])
  rw [decimal?, value?_of_ne_nil hne] at htext
  rw [decimal?, value?_of_ne_nil hne'] at hrest
  have hadd := foldlM_add hrest n
  rw [Nat.zero_add] at hadd
  rw [decimal?, value?_of_ne_nil (List.append_ne_nil_of_left_ne_nil hne rest), List.foldlM_append,
    htext]
  exact hadd

/-- A hexadecimal numeral of any number of zeros and the digits of a number, each of them in
either case. -/
theorem hexadecimal?_toDigits {digits : List Char} {n : Nat}
    (h : digits.map Char.toLower = Nat.toDigits 16 n) (zeros : Nat) :
    hexadecimal? (List.replicate zeros '0' ++ digits) = some n := by
  have hread : ∀ d < 16, Hex.value? d.digitChar = some d := by decide
  have hne : digits ≠ [] := by
    intro e
    rw [e, List.map_nil] at h
    exact Nat.toDigits_ne_nil h.symm
  have hcase : extend 16 Hex.value? = fun m c => extend 16 Hex.value? m c.toLower := by
    funext m c
    rw [extend, extend, Hex.value?_toLower]
  rw [hexadecimal?, value?_of_ne_nil (by simp [hne]), foldlM_zeros (by decide), hcase,
    ← List.foldlM_map, h, foldlM_toDigits (by decide) hread]

theorem foldlM_byte (n : Nat) (b : UInt8) :
    (Hex.byte b).foldlM (extend 16 Hex.value?) n = some (256 * n + b.toNat) := by
  have hb : b.toNat < 256 := b.toNat_lt
  simp only [Hex.byte, List.foldlM_cons, List.foldlM_nil, extend,
    Hex.value?_upper _ (show b.toNat / 16 < 16 by omega),
    Hex.value?_upper _ (show b.toNat % 16 < 16 by omega)]
  simp only [Option.map_some, Option.bind_eq_bind, Option.bind_some, Option.pure_def,
    Option.some.injEq]
  omega

/-- The digits of a list of bytes append the number that these are to the base of 256. -/
theorem foldlM_flatMap_byte (n : Nat) (bytes : List UInt8) :
    (bytes.flatMap Hex.byte).foldlM (extend 16 Hex.value?) n =
      some (bytes.foldl (fun m b => 256 * m + b.toNat) n) := by
  induction bytes generalizing n with
  | nil => rfl
  | cons b rest ih =>
    rw [List.flatMap_cons, List.foldlM_append, foldlM_byte]
    exact ih _

end Numeral

end LidarAngle
