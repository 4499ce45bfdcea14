import LidarAngle.Proofs.Reply.Spelling
import LidarAngle.Reply.Decode

/-!
# The words that tokens spell

A token that begins with a sign is read as a decimal integer, any other token as a hexadecimal
number. Text in front of the digits of a word keeps the low 32 bits of a hexadecimal number, but
nothing of a decimal one.

## Main definitions

* `Reply.sign`, `Reply.withSign` - a sign as a character, and in front of a magnitude
* `Reply.IsSigned` - a token that begins with a sign

## Main statements

* `Reply.signed?_eq_some_iff`, `Reply.unsigned?_eq_some_iff` - the two spellings
* `Reply.word?_digits` - the digits of a word spell it
* `Reply.exists_of_word?_append_digits` - they do so behind an unsigned text, as far as 32 bits go
-/

namespace LidarAngle.Reply

/-- The character of a sign. -/
def sign (negative : Bool) : Char :=
  if negative then '-' else '+'

/-- The integer of a sign and a magnitude. -/
def withSign (negative : Bool) (magnitude : ℕ) : ℤ :=
  if negative then -magnitude else magnitude

/-- The token begins with a sign. -/
def IsSigned (token : List Char) : Prop :=
  ∃ negative rest, token = sign negative :: rest

theorem sign_injective : ∀ {a b : Bool}, sign a = sign b → a = b := by
  decide

theorem value?_sign : ∀ negative, Hex.value? (sign negative) = none := by
  decide

theorem not_isSigned_of_notMem {token : List Char} (h : ∀ negative, sign negative ∉ token) :
    ¬IsSigned token := by
  rintro ⟨negative, rest, rfl⟩
  exact h negative List.mem_cons_self

theorem word?_sign_cons (negative : Bool) (digits : List Char) :
    word? (sign negative :: digits) = signed? negative digits := by
  cases negative with
  | false => rfl
  | true => rfl

theorem word?_of_not_isSigned {token : List Char} (h : ¬IsSigned token) :
    word? token = unsigned? (unmarked token) := by
  unfold word?
  split
  · exact absurd ⟨false, _, rfl⟩ h
  · exact absurd ⟨true, _, rfl⟩ h
  · rfl

/-- The decimal integers that fit a signed word. -/
theorem signed?_eq_some_iff {negative : Bool} {digits : List Char} {word : UInt64} :
    signed? negative digits = some word ↔
      ∃ n, Numeral.decimal? digits = some n ∧
        -2 ^ 63 ≤ withSign negative n ∧ withSign negative n < 2 ^ 63 ∧
        word = .ofInt (withSign negative n) := by
  rw [signed?, Option.bind_eq_bind, Option.bind_eq_some_iff]
  cases negative with
  | true =>
    simp only [withSign, if_true]
    constructor
    · rintro ⟨n, hn, h⟩
      split at h
      · exact ⟨n, hn, by omega, by omega, (Option.some.inj h).symm⟩
      · exact absurd h (by simp)
    · rintro ⟨n, hn, hlow, -, rfl⟩
      exact ⟨n, hn, if_pos (by omega)⟩
  | false =>
    simp only [withSign, Bool.false_eq_true, if_false, Calibration.ofNat_eq_ofInt]
    constructor
    · rintro ⟨n, hn, h⟩
      split at h
      · exact ⟨n, hn, by omega, by omega, (Option.some.inj h).symm⟩
      · exact absurd h (by simp)
    · rintro ⟨n, hn, -, hhigh, rfl⟩
      exact ⟨n, hn, if_pos (by omega)⟩

/-- The hexadecimal numbers that fit an unsigned word. -/
theorem unsigned?_eq_some_iff {digits : List Char} {word : UInt64} :
    unsigned? digits = some word ↔
      ∃ n, Numeral.hexadecimal? digits = some n ∧ n < 2 ^ 64 ∧ word = .ofNat n := by
  rw [unsigned?, Option.bind_eq_bind, Option.bind_eq_some_iff]
  constructor
  · rintro ⟨n, hn, h⟩
    split at h
    · next hlt => exact ⟨n, hn, hlt, (Option.some.inj h).symm⟩
    · exact absurd h (by simp)
  · rintro ⟨n, hn, hlt, rfl⟩
    exact ⟨n, hn, if_pos hlt⟩

theorem unmarked_cons_cons (c d : Char) (rest : List Char) :
    unmarked (c :: d :: rest) =
      if c = '0' ∧ (d = 'x' ∨ d = 'X') then rest else c :: d :: rest := by
  by_cases hc : c = '0'
  · subst hc
    by_cases hlower : d = 'x'
    · subst hlower
      rfl
    · by_cases hupper : d = 'X'
      · subst hupper
        rfl
      · simp [unmarked, hlower, hupper]
  · simp [unmarked, hc]

/-- Digits behind a text stay behind what is left of it without its mark. -/
theorem unmarked_append (text : List Char) {word : List Char} (hlower : 'x' ∉ word)
    (hupper : 'X' ∉ word) : unmarked (text ++ word) = unmarked text ++ word := by
  have hunmarked : ∀ c d rest, d ∈ word → unmarked (c :: d :: rest) = c :: d :: rest := by
    intro c d rest hd
    rw [unmarked_cons_cons, if_neg]
    rintro ⟨-, rfl | rfl⟩
    · exact hlower hd
    · exact hupper hd
  -- A mark that is not in the text would take a letter of the digits.
  match text, word with
  | [], [] => rfl
  | [], [c] => simp [unmarked]
  | [], c :: d :: rest => exact hunmarked c d rest (by simp)
  | [c], [] => simp [unmarked]
  | [c], d :: rest =>
    have hc : unmarked [c] = [c] := by simp [unmarked]
    rw [hc]
    exact hunmarked c d rest (by simp)
  | c :: d :: rest, word =>
    rw [List.cons_append, List.cons_append, unmarked_cons_cons, unmarked_cons_cons]
    split
    · rfl
    · rfl

theorem foldlM_append_digits (text : List Char) (word : UInt32) :
    (text ++ digits word).foldlM (Numeral.extend 16 Hex.value?) 0 =
      (text.foldlM (Numeral.extend 16 Hex.value?) 0).map (2 ^ 32 * · + word.toNat) := by
  rw [List.foldlM_append]
  cases text.foldlM (Numeral.extend 16 Hex.value?) 0 with
  | none => rfl
  | some n =>
    rw [Option.bind_eq_bind, Option.bind_some, digits, Numeral.foldlM_flatMap_byte,
      foldl_bigEndian]
    rfl

theorem not_isSigned_digits (word : UInt32) : ¬IsSigned (digits word) :=
  not_isSigned_of_notMem fun negative => notMem_digits (value?_sign negative) word

theorem isSigned_append_digits {text : List Char} {word : UInt32} :
    IsSigned (text ++ digits word) ↔ IsSigned text := by
  cases text with
  | nil =>
    constructor
    · intro h
      exact absurd h (not_isSigned_digits word)
    · rintro ⟨negative, rest, h⟩
      exact absurd h (by simp)
  | cons c rest =>
    constructor
    · rintro ⟨negative, others, h⟩
      exact ⟨negative, rest, congrArg (· :: rest) (List.cons.inj h).1⟩
    · rintro ⟨negative, others, h⟩
      exact ⟨negative, others ++ digits word, congrArg (· ++ digits word) h⟩

/-- The digits of a word behind an unsigned text: if this is a token at all, then the 32 bits of
the word are its last ones. -/
theorem exists_of_word?_append_digits {text : List Char} {word : UInt32} {w : UInt64}
    (hsign : ¬IsSigned text) (h : word? (text ++ digits word) = some w) :
    ∃ n : ℕ, w = .ofNat (2 ^ 32 * n + word.toNat) := by
  rw [word?_of_not_isSigned (mt isSigned_append_digits.1 hsign),
    unmarked_append text (notMem_digits (by decide) word) (notMem_digits (by decide) word)] at h
  obtain ⟨n, hn, -, rfl⟩ := unsigned?_eq_some_iff.1 h
  rw [Numeral.hexadecimal?, Numeral.value?_of_ne_nil (by simp [digits_ne_nil]),
    foldlM_append_digits, Option.map_eq_some_iff] at hn
  obtain ⟨m, -, rfl⟩ := hn
  exact ⟨m, rfl⟩

/-- The digits of a word spell it. -/
theorem word?_digits (word : UInt32) : word? (digits word) = some (.ofNat word.toNat) := by
  have hlt : word.toNat < 2 ^ 64 := lt_trans word.toNat_lt (by decide)
  have hvalue : Numeral.hexadecimal? (digits word) = some word.toNat := by
    have h := foldlM_append_digits [] word
    rw [Numeral.hexadecimal?, Numeral.value?_of_ne_nil (digits_ne_nil word)]
    simpa using h
  have hmark : unmarked (digits word) = digits word :=
    unmarked_append [] (notMem_digits (by decide) word) (notMem_digits (by decide) word)
  rw [word?_of_not_isSigned (not_isSigned_digits word), hmark]
  exact unsigned?_eq_some_iff.2 ⟨word.toNat, hvalue, hlt, rfl⟩

end LidarAngle.Reply
