import LidarAngle.Proofs.Binary.Arithmetic
import LidarAngle.Proofs.Decimal.Layout
import LidarAngle.Proofs.Text.Separator

/-!
# Decimals in columns

A decimal of a fixed count of places is read back as a count of its last place. What is read from the
column of a finite number is its value, rounded once. The characters of a column are such that it can
stand between separators.

## Main definitions

* `Decimal.ofCount` - the decimal of a count
* `Decimal.count?` - what a decimal counts
* `Decimal.column?` - what the decimal in a column counts

## Main statements

* `Decimal.units_eq_nearest` - the units of a binary number
* `Decimal.fixed_eq_ofCount` - the decimal of a finite number
* `Decimal.column?_column` - the column of a finite number
* `Decimal.notMem_column` - the characters that no column has
-/

namespace LidarAngle.Decimal

open Float.Model.UnpackedFloat (Sign)
open Binary (nearest value partsValue factor)

/-- What a decimal of exactly `places` digits behind the point counts in units of `10 ^ -places`. -/
def magnitude? (places : ℕ) (text : List Char) : Option ℕ :=
  match text.splitOn '.' with
  | [whole, fraction] =>
    if fraction.length = places then
      (Numeral.decimal? whole).bind fun n =>
        (Numeral.decimal? fraction).map (n * 10 ^ places + ·)
    else none
  | _ => none

/-- The same with a minus sign in front, or none. -/
def count? (places : ℕ) : List Char → Option ℤ
  | '-' :: text => (magnitude? places text).map fun n => -(n : ℤ)
  | text => (magnitude? places text).map fun n => (n : ℤ)

/-- A count with a sign. -/
def signedCount : Sign → ℕ → ℤ
  | .positive, n => n
  | .negative, n => -n

/-- A count of units of `10 ^ -places` as a decimal: a minus sign if it is negative, the digits of
the whole part, a point, and as many digits as places. -/
def ofCount (places : ℕ) (count : ℤ) : List Char :=
  (if count < 0 then ['-'] else []) ++ Nat.toDigits 10 (count.natAbs / 10 ^ places) ++
    '.' :: (Nat.toDigits 10 (count.natAbs % 10 ^ places)).leftpad places '0'

/-- A text without the spaces in front of it and behind it. -/
def trim (text : List Char) : List Char :=
  (text.dropWhile (· = ' ')).rdropWhile (· = ' ')

/-- What the decimal in a column counts. -/
def column? (places : ℕ) (text : List Char) : Option ℤ :=
  count? places (trim text)

section Units

/-- On rational numbers that are not negative there is one way to round. -/
theorem nearest_div (num : ℕ) {den : ℕ} (hden : 0 < den) :
    nearest (num / den) = nearestEven num den := by
  have hnonneg : (0 : ℚ) ≤ num / den := by positivity
  rw [nearestEven_eq hden (Binary.isNear_nearest hnonneg), Int.toNat_of_nonneg]
  exact Binary.nearest_nonneg hnonneg

theorem units_eq_nearest (places m : ℕ) (q : ℤ) :
    (units places m q : ℤ) = nearest (m * 2 ^ q * 10 ^ places) := by
  cases q with
  | ofNat k =>
    rw [← Binary.nearest_intCast (units places m _)]
    congr 1
    show ((m * 10 ^ places * 2 ^ k : ℕ) : ℚ) = _
    rw [Int.ofNat_eq_natCast, zpow_natCast]
    push_cast
    ring
  | negSucc k =>
    have hden : 0 < 2 ^ (k + 1) := by positivity
    have hquotient : (m * 2 ^ Int.negSucc k * 10 ^ places : ℚ) =
        (m * 10 ^ places : ℕ) / (2 ^ (k + 1) : ℕ) := by
      rw [zpow_negSucc]
      push_cast
      ring
    rw [hquotient, nearest_div _ hden]
    rfl

/-- A finite number is written as the count of units that is nearest to its value. -/
theorem exists_fixed_eq_signed (places : ℕ) {x : Float} (h : x.isFinite = true) :
    ∃ sign n, fixed places x = signed sign (pointed places n) ∧
      signedCount sign n = nearest (value x * 10 ^ places) := by
  unfold fixed value
  obtain ⟨s, hu⟩ | ⟨s, m, q, hpos, hu⟩ := @Binary.eq_zero_or_finite x.toModel.unpack h
  · have hzero : nearest 0 = 0 := Binary.nearest_intCast 0
    refine ⟨s, 0, by rw [hu], ?_⟩
    rw [hu, partsValue, zero_mul, hzero]
    cases s with
    | positive => rfl
    | negative => rfl
  · refine ⟨s, units places m q, by rw [hu], ?_⟩
    rw [hu, partsValue]
    cases s with
    | positive => rw [signedCount, units_eq_nearest, factor, one_mul]
    | negative =>
      rw [signedCount, units_eq_nearest, factor, neg_one_mul, neg_mul, Binary.nearest_neg]

theorem signed_pointed (places : ℕ) {sign : Sign} {n : ℕ} (h : signedCount sign n ≠ 0) :
    signed sign (pointed places n) = ofCount places (signedCount sign n) := by
  cases sign with
  | positive =>
    rw [signedCount, ofCount, if_neg (Int.not_lt.2 (Int.natCast_nonneg n)), Int.natAbs_natCast]
    rfl
  | negative =>
    rw [signedCount] at h ⊢
    rw [ofCount, if_pos (by omega), Int.natAbs_neg, Int.natAbs_natCast]
    rfl

/-- A finite number is written as the decimal of the nearest count, unless it is no zero but rounded
to one, or the negative zero: then its sign may be that of no count. -/
theorem fixed_eq_ofCount {places : ℕ} {x : Float} (h : x.isFinite = true)
    (hzero : nearest (value x * 10 ^ places) = 0 → x = 0) :
    fixed places x = ofCount places (nearest (value x * 10 ^ places)) := by
  obtain ⟨sign, n, hfixed, hcount⟩ := exists_fixed_eq_signed places h
  by_cases hnone : nearest (value x * 10 ^ places) = 0
  · rw [hnone, hzero hnone]
    rfl
  · rw [← hcount] at hnone ⊢
    rw [hfixed, signed_pointed places hnone]

end Units

section Text

variable {places : ℕ} (hplaces : 0 < places)

theorem dot_notMem_of_isDigit {text : List Char} (h : ∀ c ∈ text, c.isDigit) : '.' ∉ text :=
  fun hmem => absurd (h _ hmem) (by decide)

include hplaces

theorem magnitude?_pointed (n : ℕ) : magnitude? places (pointed places n) = some n := by
  obtain ⟨hlength, hdigits, hvalue⟩ :=
    leftpad_natural hplaces (Nat.mod_lt n (by positivity : 0 < 10 ^ places))
  have hsplit : (pointed places n).splitOn '.' =
      [natural (n / 10 ^ places), (natural (n % 10 ^ places)).leftpad places '0'] := by
    show List.splitOn '.' (natural (n / 10 ^ places) ++
      '.' :: (natural (n % 10 ^ places)).leftpad places '0') = _
    rw [List.splitOn_append_cons_self,
      List.splitOn_eq_singleton (dot_notMem_of_isDigit isDigit_of_mem_natural),
      List.splitOn_eq_singleton (dot_notMem_of_isDigit hdigits)]
    rfl
  rw [magnitude?, hsplit]
  dsimp only
  rw [if_pos hlength, decimal?_natural, hvalue, Option.bind_some, Option.map_some,
    Nat.div_add_mod']

theorem count?_signed (sign : Sign) (n : ℕ) :
    count? places (signed sign (pointed places n)) = some (signedCount sign n) := by
  have hread := magnitude?_pointed hplaces n
  cases sign with
  | negative =>
    rw [signed, count?, hread]
    rfl
  | positive =>
    obtain ⟨c, rest, hcons⟩ := List.exists_cons_of_ne_nil (natural_ne_nil (n / 10 ^ places))
    have hdigit : c.isDigit := isDigit_of_mem_natural c (hcons ▸ List.mem_cons_self)
    have hhead : pointed places n =
        c :: (rest ++ '.' :: (natural (n % 10 ^ places)).leftpad places '0') := by
      show natural (n / 10 ^ places) ++ _ = _
      rw [hcons]
      rfl
    rw [signed, count?, hread]
    · rfl
    · rintro text htext
      rw [hhead] at htext
      rw [(List.cons.inj htext).1] at hdigit
      exact absurd hdigit (by decide)

theorem count?_fixed {x : Float} (h : x.isFinite = true) :
    count? places (fixed places x) = some (nearest (value x * 10 ^ places)) := by
  obtain ⟨sign, n, hfixed, hcount⟩ := exists_fixed_eq_signed places h
  rw [hfixed, count?_signed hplaces, hcount]

end Text

section Characters

/-- A character of a number: a digit or a letter, a minus sign or a point. -/
def IsPlain (c : Char) : Prop :=
  c.isAlphanum = true ∨ c = '-' ∨ c = '.'

theorem isPlain_of_isDigit {c : Char} (h : c.isDigit) : IsPlain c :=
  .inl (by rw [Char.isAlphanum, h, Bool.or_true])

theorem isPlain_of_mem_pointed {places n : ℕ} : ∀ c ∈ pointed places n, IsPlain c := by
  intro c hc
  rcases List.mem_append.1 hc with hc | hc
  · exact isPlain_of_isDigit (isDigit_of_mem_natural c hc)
  · rcases List.mem_cons.1 hc with rfl | hc
    · exact .inr (.inr rfl)
    · rcases List.mem_append.1 hc with hc | hc
      · rw [List.eq_of_mem_replicate hc]
        exact .inl rfl
      · exact isPlain_of_isDigit (isDigit_of_mem_natural c hc)

theorem isPlain_of_mem_signed {sign : Sign} {text : List Char} (h : ∀ c ∈ text, IsPlain c) :
    ∀ c ∈ signed sign text, IsPlain c := by
  cases sign with
  | positive => exact h
  | negative => exact List.forall_mem_cons.2 ⟨.inr (.inl rfl), h⟩

theorem isPlain_of_mem_fixed {places : ℕ} {x : Float} : ∀ c ∈ fixed places x, IsPlain c := by
  have hletter : ∀ text : List Char, (∀ c ∈ text, c.isAlphanum = true) → ∀ c ∈ text, IsPlain c :=
    fun _ h c hc => .inl (h c hc)
  unfold fixed
  split
  · exact hletter _ (by simp)
  · exact isPlain_of_mem_signed (hletter _ (by simp))
  · exact isPlain_of_mem_signed isPlain_of_mem_pointed
  · exact isPlain_of_mem_signed isPlain_of_mem_pointed

theorem not_isPlain_space : ¬IsPlain ' ' := by
  unfold IsPlain
  decide

theorem notMem_column {width places : ℕ} {x : Float} {c : Char} (hspace : c ≠ ' ')
    (hplain : ¬IsPlain c) : c ∉ column width places x := by
  intro hc
  rcases List.mem_append.1 hc with hc | hc
  · exact hspace (List.eq_of_mem_replicate hc)
  · exact hplain (isPlain_of_mem_fixed c hc)

theorem trim_column (width places : ℕ) (x : Float) :
    trim (column width places x) = fixed places x := by
  have hspace : ∀ c ∈ fixed places x, ¬(decide (c = ' ') = true) := by
    intro c hc hspace
    rw [of_decide_eq_true hspace] at hc
    exact not_isPlain_space (isPlain_of_mem_fixed _ hc)
  have hpadding : ∀ c ∈ List.replicate (width - (fixed places x).length) ' ',
      decide (c = ' ') = true := fun c hc => decide_eq_true (List.eq_of_mem_replicate hc)
  have hleft : (column width places x).dropWhile (· = ' ') = fixed places x := by
    rw [column, List.leftpad, List.dropWhile_append_of_pos hpadding]
    cases htext : fixed places x with
    | nil => rfl
    | cons c rest =>
      exact List.dropWhile_cons_of_neg (hspace c (htext ▸ List.mem_cons_self))
  rw [trim, hleft]
  cases htext : fixed places x using List.reverseRecOn with
  | nil => rfl
  | append_singleton rest c =>
    exact List.rdropWhile_concat_neg _ _ _ (hspace c (htext ▸ List.mem_append_right _ (by simp)))

end Characters

/-- The column of a finite number is read as the count of units that is nearest to its value. -/
theorem column?_column {places : ℕ} (hplaces : 0 < places) (width : ℕ) {x : Float}
    (h : x.isFinite = true) :
    column? places (column width places x) = some (nearest (value x * 10 ^ places)) := by
  rw [column?, trim_column, count?_fixed hplaces h]

end LidarAngle.Decimal
