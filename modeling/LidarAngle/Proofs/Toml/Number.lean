import LidarAngle.Proofs.Decimal.Layout
import LidarAngle.Proofs.Decimal.Shortest
import LidarAngle.Toml.Value

/-!
# Written numbers

A number of the settings is written without an exponent, and a binary number always with a decimal
point. Behind it the line ends.

## Main statements

* `Toml.startsMoment_append` - no number begins like a moment
* `Toml.value?_integer` - an integer is read back
* `Toml.value?_write` - a binary number is read back
-/

namespace LidarAngle

namespace Toml

open Decimal
open Float.Model.UnpackedFloat (Sign)

variable {digits rest : List Char}

theorem moreDigits?_cons {c : Char} (h : c ≠ '_') (rest : List Char) :
    moreDigits? Char.isDigit (c :: rest) =
      if c.isDigit then (moreDigits? Char.isDigit rest).map fun (ds, rest) => (c :: ds, rest)
      else some ([], c :: rest) := by
  rw [moreDigits?, if_neg h]
  rintro _ _ rfl
  exact absurd rfl h

theorem moreDigits?_append (hdigits : ∀ c ∈ digits, c.isDigit) {c : Char} (hc : ¬c.isDigit)
    (hunderscore : c ≠ '_') :
    moreDigits? Char.isDigit (digits ++ c :: rest) = some (digits, c :: rest) := by
  induction digits with
  | nil => rw [List.nil_append, moreDigits?_cons hunderscore, if_neg hc]
  | cons d digits ih =>
    have hd := hdigits d List.mem_cons_self
    have hne : d ≠ '_' := by
      rintro rfl
      exact absurd hd (by decide)
    rw [List.cons_append, moreDigits?_cons hne, if_pos hd,
      ih fun c hc => hdigits c (List.mem_cons_of_mem d hc)]
    rfl

theorem digits?_append (hdigits : ∀ c ∈ digits, c.isDigit) (hne : digits ≠ []) {c : Char}
    (hc : ¬c.isDigit) (hunderscore : c ≠ '_') :
    digits? Char.isDigit (digits ++ c :: rest) = some (digits, c :: rest) := by
  rcases digits with _ | ⟨d, digits⟩
  · exact absurd rfl hne
  · rw [List.cons_append, digits?, if_pos (hdigits d List.mem_cons_self),
      moreDigits?_append (fun c hc => hdigits c (List.mem_cons_of_mem d hc)) hc hunderscore]
    rfl

theorem whole?_natural (n : ℕ) {c : Char} (hc : ¬c.isDigit) (hunderscore : c ≠ '_') :
    whole? (natural n ++ c :: rest) = some (natural n, c :: rest) := by
  rcases n.eq_zero_or_pos with rfl | hpos
  · rfl
  · obtain ⟨d, ds, hnatural, hd⟩ := exists_natural_eq_cons hpos
    have h := @digits?_append (natural n) rest isDigit_of_mem_natural
      (natural_ne_nil n) c hc hunderscore
    rw [hnatural] at h ⊢
    rw [List.cons_append, whole?]
    · exact h
    · rintro _ ⟨⟩
      exact hd rfl

/-- A whole number without a decimal point is an integer. -/
theorem decimal?_whole (negative : Bool) (n : ℕ) :
    decimal? negative (natural n ++ '\n' :: rest) =
      (integer? (if negative then -n else n)).map fun x => (x, '\n' :: rest) := by
  have hvalue := decimal?_natural n
  rw [decimal?, whole?_natural n (by decide) (by decide)]
  simp only [Option.bind_eq_bind, Option.bind_some, continuesDecimal, hvalue]
  rw [if_neg (by decide)]
  exact Option.map_eq_bind.symm

/-- A whole number with a decimal point and digits behind it is a binary number. -/
theorem decimal?_pointed (negative : Bool) (n : ℕ) {fraction : List Char}
    (hfraction : ∀ c ∈ fraction, c.isDigit) (hne : fraction ≠ []) {value : ℕ}
    (hvalue : Numeral.decimal? (natural n ++ fraction) = some value) :
    decimal? negative (natural n ++ '.' :: fraction ++ '\n' :: rest) =
      (float? negative value (-fraction.length)).map fun x => (x, '\n' :: rest) := by
  rw [List.append_assoc, List.cons_append, decimal?, whole?_natural n (by decide) (by decide)]
  have hdigits := @digits?_append fraction rest hfraction hne '\n' (by decide) (by decide)
  have hexponent : exponent? ('\n' :: rest) = some (0, '\n' :: rest) := rfl
  simp only [Option.bind_eq_bind, Option.bind_some, continuesDecimal, fraction?, hdigits, hexponent,
    hvalue, zero_sub]
  rw [if_pos (by decide)]
  exact Option.map_eq_bind.symm

theorem ne_of_isDigit {c d : Char} (hc : c.isDigit) (hd : ¬d.isDigit) : c ≠ d := by
  rintro rfl
  exact hd hc

theorem sign_cons {d : Char} (h : d.isDigit) : sign (d :: rest) = (false, d :: rest) := by
  unfold sign
  split
  · next heq => exact absurd (List.cons.inj heq).1 (ne_of_isDigit h (by decide))
  · next heq => exact absurd (List.cons.inj heq).1 (ne_of_isDigit h (by decide))
  · rfl

theorem special?_cons (negative : Bool) {d : Char} (h : d.isDigit) :
    special? negative (d :: rest) = none := by
  unfold special?
  split
  · next heq => exact absurd (List.cons.inj heq).1 (ne_of_isDigit h (by decide))
  · next heq => exact absurd (List.cons.inj heq).1 (ne_of_isDigit h (by decide))
  · rfl

/-- Without the mark of another base a number is a word or decimal. -/
theorem number?_cons_cons (a : Char) {b : Char} (h : b ∉ ['x', 'o', 'b']) :
    number? (a :: b :: rest) =
      ((special? (sign (a :: b :: rest)).1 (sign (a :: b :: rest)).2) <|>
        decimal? (sign (a :: b :: rest)).1 (sign (a :: b :: rest)).2) := by
  unfold number?
  split
  · next heq =>
    cases heq
    exact absurd h (by decide)
  · next heq =>
    cases heq
    exact absurd h (by decide)
  · next heq =>
    cases heq
    exact absurd h (by decide)
  · rfl

theorem notMem_marks_of_isDigit {c : Char} (h : c.isDigit) : c ∉ ['x', 'o', 'b'] := by
  simp only [List.mem_cons, List.not_mem_nil, or_false]
  rintro (rfl | rfl | rfl)
  all_goals exact absurd h (by decide)

theorem number?_signed (s : Sign) (n : ℕ) {c : Char} (hc : c ∉ ['x', 'o', 'b']) :
    number? (signed s (natural n ++ c :: rest)) =
      decimal? (isNegative s) (natural n ++ c :: rest) := by
  obtain ⟨d, ds, hnatural⟩ := List.exists_cons_of_ne_nil (natural_ne_nil n)
  have hdigits := @isDigit_of_mem_natural n
  rw [hnatural] at hdigits ⊢
  have hd := hdigits d List.mem_cons_self
  rw [List.cons_append]
  cases s with
  | negative =>
    show number? ('-' :: d :: (ds ++ c :: rest)) = decimal? true (d :: (ds ++ c :: rest))
    rw [number?_cons_cons '-' (notMem_marks_of_isDigit hd)]
    show (special? true (d :: _) <|> decimal? true (d :: _)) = _
    rw [special?_cons true hd]
    rfl
  | positive =>
    show number? (d :: (ds ++ c :: rest)) = decimal? false (d :: (ds ++ c :: rest))
    obtain ⟨b, tail, htail, hb⟩ :
        ∃ b tail, ds ++ c :: rest = b :: tail ∧ b ∉ ['x', 'o', 'b'] := by
      rcases ds with _ | ⟨b, ds⟩
      · exact ⟨c, rest, rfl, hc⟩
      · exact ⟨b, _, rfl, notMem_marks_of_isDigit (hdigits b (by simp))⟩
    rw [htail, number?_cons_cons d hb, sign_cons hd, special?_cons false hd]
    rfl

theorem isDigit_of_digit? {c : Char} {n : ℕ} (h : Numeral.digit? c = some n) : c.isDigit := by
  unfold Numeral.digit? at h
  split at h
  · next hrange =>
    exact Bool.and_eq_true_iff.2 ⟨decide_eq_true hrange.1, decide_eq_true hrange.2⟩
  · exact absurd h (by simp)

theorem isDigit_of_decimal? {digits : List Char} {n : ℕ} (h : Numeral.decimal? digits = some n) :
    ∀ c ∈ digits, c.isDigit := by
  intro c hc
  obtain ⟨d, hd⟩ := Numeral.exists_of_mem_of_value? h hc
  exact isDigit_of_digit? hd

theorem year?_eq_some {text : List Char} {n : ℕ} (h : year? text = some (n, rest)) :
    ∃ digits, text = digits ++ rest ∧ digits ≠ [] ∧ ∀ c ∈ digits, c.isDigit := by
  unfold year? at h
  split at h
  · next a b c d tail =>
    obtain ⟨value, hvalue, heq⟩ := Option.map_eq_some_iff.1 h
    obtain ⟨rfl, rfl⟩ := Prod.mk.inj heq
    exact ⟨[a, b, c, d], rfl, by simp, isDigit_of_decimal? hvalue⟩
  · exact absurd h (by simp)

theorem pair?_eq_some {text : List Char} {least most n : ℕ}
    (h : pair? least most text = some (n, rest)) :
    ∃ digits, text = digits ++ rest ∧ digits ≠ [] ∧ ∀ c ∈ digits, c.isDigit := by
  unfold pair? at h
  split at h
  · next a b tail =>
    obtain ⟨value, hvalue, h⟩ := Option.bind_eq_some_iff.1 h
    split at h
    · obtain ⟨rfl, rfl⟩ := Prod.mk.inj (Option.some.inj h)
      exact ⟨[a, b], rfl, by simp, isDigit_of_decimal? hvalue⟩
    · exact absurd h (by simp)
  · exact absurd h (by simp)

theorem expect?_eq_some {mark : Char} {text : List Char} (h : expect? mark text = some rest) :
    text = mark :: rest := by
  unfold expect? at h
  split at h
  · split at h
    · next heq => rw [heq, Option.some.inj h]
    · exact absurd h (by simp)
  · exact absurd h (by simp)

/-- What ends a run of digits is the first character that is none. -/
theorem eq_of_append_eq {digits' rest' : List Char} (hdigits : ∀ c ∈ digits, c.isDigit)
    (hdigits' : ∀ c ∈ digits', c.isDigit) {c mark : Char} (hc : ¬c.isDigit)
    (hmark : ¬mark.isDigit) (h : digits ++ c :: rest = digits' ++ mark :: rest') :
    c = mark ∧ (digits = [] → digits' = []) := by
  have hdrop := congrArg (List.dropWhile Char.isDigit) h
  rw [List.dropWhile_append_of_pos hdigits, List.dropWhile_append_of_pos hdigits',
    List.dropWhile_cons_of_neg hc, List.dropWhile_cons_of_neg hmark] at hdrop
  refine ⟨(List.cons.inj hdrop).1, ?_⟩
  rintro rfl
  rw [hdrop] at h
  exact (List.append_left_eq_self.1 h.symm)

/-- Text is no moment if it begins with no digit, or if its first digits end in neither a hyphen nor
a colon. -/
theorem startsMoment_append (hdigits : ∀ c ∈ digits, c.isDigit) {c : Char} (hc : ¬c.isDigit)
    (hend : digits = [] ∨ c ∉ ['-', ':']) : startsMoment (digits ++ c :: rest) = false := by
  rw [Bool.eq_false_iff]
  intro h
  have hmark : ∀ mark ∈ ['-', ':'], ∀ digits' rest',
      digits ++ c :: rest = digits' ++ mark :: rest' →
        digits' ≠ [] → (∀ d ∈ digits', d.isDigit) → False := by
    intro mark hmark digits' rest' htext hne hdigits'
    have hnone : ¬mark.isDigit := by
      simp only [List.mem_cons, List.not_mem_nil, or_false] at hmark
      rcases hmark with rfl | rfl
      · decide
      · decide
    obtain ⟨rfl, hnil⟩ := eq_of_append_eq hdigits hdigits' hc hnone htext
    rcases hend with hend | hend
    · exact hne (hnil hend)
    · exact hend hmark
  unfold startsMoment at h
  rcases of_decide_eq_true h with hyear | hhour
  · obtain ⟨tail, htail⟩ := Option.isSome_iff_exists.1 hyear
    obtain ⟨⟨n, rest'⟩, hread, hexpect⟩ := Option.bind_eq_some_iff.1 htail
    obtain ⟨digits', htext, hne, hdigits'⟩ := year?_eq_some hread
    rw [expect?_eq_some hexpect] at htext
    exact hmark '-' (by simp) digits' tail htext hne hdigits'
  · obtain ⟨tail, htail⟩ := Option.isSome_iff_exists.1 hhour
    obtain ⟨⟨n, rest'⟩, hread, hexpect⟩ := Option.bind_eq_some_iff.1 htail
    obtain ⟨digits', htext, hne, hdigits'⟩ := pair?_eq_some hread
    rw [expect?_eq_some hexpect] at htext
    exact hmark ':' (by simp) digits' tail htext hne hdigits'

/-- The characters that other values than numbers and moments begin with. -/
def openers : List Char := ['[', '\x7b', 't', 'f', '"', '\x27']

theorem notMem_openers_of_isDigit {c : Char} (h : c.isDigit) : c ∉ openers := by
  simp only [openers, List.mem_cons, List.not_mem_nil, or_false]
  rintro (rfl | rfl | rfl | rfl | rfl | rfl)
  all_goals exact absurd h (by decide)

/-- A value that begins like no other value and is no moment is a number. -/
theorem value?_eq_number (size depth : ℕ) {c : Char} (hc : c ∉ openers)
    (h : startsMoment (c :: rest) = false) :
    value? size depth (c :: rest) = (number? (c :: rest)).map fun (n, rest) => (n.node, rest) := by
  have hne : ∀ d ∈ openers, c ≠ d := fun d hd heq => hc (heq ▸ hd)
  have hsimple : simple? (c :: rest) =
      (number? (c :: rest)).map fun (n, rest) => (n.node, rest) := by
    unfold simple?
    split
    · next heq => exact absurd (List.cons.inj heq).1 (hne _ (by decide))
    · next heq => exact absurd (List.cons.inj heq).1 (hne _ (by decide))
    · next heq => exact absurd (List.cons.inj heq).1 (hne _ (by decide))
    · next heq => exact absurd (List.cons.inj heq).1 (hne _ (by decide))
    · rw [h]
      rfl
  unfold value?
  split
  · next heq => exact absurd (List.cons.inj heq).1 (hne _ (by decide))
  · next heq => exact absurd (List.cons.inj heq).1 (hne _ (by decide))
  · exact hsimple

/-- No value begins with a blank. -/
theorem skipBlanks_of_value? {size depth : ℕ} {text : List Char} {read : Node × List Char}
    (h : value? size depth text = some read) : skipBlanks text = text := by
  rcases text with _ | ⟨c, rest⟩
  · rfl
  · refine List.dropWhile_cons_of_neg fun hblank => ?_
    have hnone : ∀ d, d ∉ openers → ¬d.isDigit → number? (d :: rest) = none →
        value? size depth (d :: rest) = none := by
      intro d hd hdigit hnumber
      rw [value?_eq_number size depth hd (@startsMoment_append [] _ (by simp) d hdigit (.inl rfl)),
        hnumber]
      rfl
    rcases of_decide_eq_true hblank with rfl | rfl
    · exact absurd ((hnone ' ' (by decide) (by decide) rfl).symm.trans h) (by simp)
    · exact absurd ((hnone '\t' (by decide) (by decide) rfl).symm.trans h) (by simp)

theorem signed_append (s : Sign) (a b : List Char) : signed s a ++ b = signed s (a ++ b) := by
  cases s with
  | positive => rfl
  | negative => rfl

/-- Digits with a sign and without a moment's marks are a number. -/
theorem value?_signed (size depth : ℕ) (s : Sign) (n : ℕ) {c : Char} (hdigit : ¬c.isDigit)
    (hc : c ∉ ['-', ':', 'x', 'o', 'b']) :
    value? size depth (signed s (natural n ++ c :: rest)) =
      (decimal? (isNegative s) (natural n ++ c :: rest)).map fun (n, rest) => (n.node, rest) := by
  have hmarks : c ∉ ['x', 'o', 'b'] := fun h => hc (by simp only [List.mem_cons] at h ⊢; tauto)
  have hends : c ∉ ['-', ':'] := fun h => hc (by simp only [List.mem_cons] at h ⊢; tauto)
  rw [← number?_signed s n hmarks]
  cases s with
  | negative =>
    exact value?_eq_number size depth (by decide)
      (@startsMoment_append [] _ (by simp) '-' (by decide) (.inl rfl))
  | positive =>
    obtain ⟨d, ds, hnatural⟩ := List.exists_cons_of_ne_nil (natural_ne_nil n)
    have hd := isDigit_of_mem_natural d (hnatural ▸ List.mem_cons_self)
    have hmoment :=
      @startsMoment_append (natural n) rest isDigit_of_mem_natural c hdigit (.inr hends)
    rw [hnatural] at hmoment ⊢
    exact value?_eq_number size depth (notMem_openers_of_isDigit hd) hmoment

/-- An integer that fits 64 bits is read back. -/
theorem value?_integer (size depth : ℕ) {n : ℤ} (hlow : -2 ^ 63 ≤ n) (hhigh : n < 2 ^ 63) :
    value? size depth (integer n ++ '\n' :: rest) = some (.integer n, '\n' :: rest) := by
  have hinteger : integer? n = some (.integer n) := if_pos ⟨hlow, hhigh⟩
  cases n with
  | ofNat n =>
    refine (value?_signed size depth .positive n (by decide) (by decide)).trans ?_
    rw [decimal?_whole]
    show Option.map _ (Option.map _ (integer? (Int.ofNat n))) = _
    rw [hinteger]
    rfl
  | negSucc n =>
    refine (value?_signed size depth .negative (n + 1) (by decide) (by decide)).trans ?_
    rw [decimal?_whole]
    show Option.map _ (Option.map _ (integer? (Int.negSucc n))) = _
    rw [hinteger]
    rfl

theorem value?_positional (size depth : ℕ) {x : Float} (s : Sign) {k : ℕ} {e : ℤ}
    (h : 0 < k ∨ e = 0) (hfinite : x.isInf = false)
    (hread : ∀ count places : ℕ, 0 < places → (count : ℚ) / 10 ^ places = k * 10 ^ e →
      toFloat (isNegative s) count (-places) = x) :
    value? size depth (signed s (Layout.setting.positional k e) ++ '\n' :: rest) =
      some (.float x, '\n' :: rest) := by
  obtain ⟨n, fraction, count, htext, hdigits, hpos, hcount, hvalue⟩ := positional_setting e h
  have hfloat : float? (isNegative s) count (-fraction.length) = some (.float x) := by
    rw [float?, hread count fraction.length hpos hvalue, if_neg]
    rw [hfinite]
    simp
  rw [htext, signed_append, List.append_assoc, List.cons_append,
    value?_signed size depth s n (by decide) (by decide), ← List.cons_append, ← List.append_assoc,
    decimal?_pointed (isNegative s) n hdigits (List.ne_nil_of_length_pos hpos) hcount, hfloat]
  rfl

/-- A binary number is read back. -/
theorem value?_write (size depth : ℕ) (x : Float) :
    value? size depth (Layout.setting.write x ++ '\n' :: rest) = some (.float x, '\n' :: rest) := by
  have hinf : x.isInf = x.toModel.unpack.isInf := rfl
  unfold Layout.write
  cases hx : x.toModel.unpack with
  | notANumber =>
    rw [← ofModel_pack hx]
    exact value?_eq_number size depth (by decide)
      (@startsMoment_append [] _ (by simp) 'n' (by decide) (.inl rfl))
  | infinity s =>
    rw [← ofModel_pack hx]
    cases s with
    | positive =>
      exact value?_eq_number size depth (by decide)
        (@startsMoment_append [] _ (by simp) 'i' (by decide) (.inl rfl))
    | negative =>
      exact value?_eq_number size depth (by decide)
        (@startsMoment_append [] _ (by simp) '-' (by decide) (.inl rfl))
  | zero s =>
    rw [hx] at hinf
    refine value?_positional size depth s (.inr rfl) hinf fun count places hplaces hvalue => ?_
    have hcount : count = 0 := by
      rw [Nat.cast_zero, zero_mul, div_eq_zero_iff] at hvalue
      exact_mod_cast hvalue.resolve_right (by positivity)
    rw [hcount, toFloat_zero hx]
  | finite s m q hpos =>
    rw [hx] at hinf
    have hround := roundsTo_shortest hpos q
    have hdigits := shortest_pos (isCanonical_of_unpack hx)
    refine value?_positional size depth s (.inl hdigits) hinf fun count places hplaces hvalue => ?_
    exact toFloat_eq hx hplaces (hvalue ▸ hround)

end Toml

end LidarAngle
