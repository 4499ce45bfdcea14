import LidarAngle.Proofs.Reply.Acceptance

/-!
# Replies in UTF-8

A reply in text form is read in Latin-1, so a text that comes in UTF-8 is not read as it was
written. That changes neither how it is cut into tokens nor what its fields say: the space is a
character of ASCII, and so is every character of a field. Only a token that is named as a fault is
named as it was read.

## Main definitions

* `Reply.Rereads` - the outcome of a text and the outcome of its bytes

## Main statements

* `Reply.tokens_latin1_utf8` - a text is cut the same way
* `Reply.word?_latin1_utf8` - its fields spell the same words
* `Reply.rereads_decode` - the bytes of a text are decoded as the text itself is
* `Reply.result_decode_ascii_utf8` - a calibration is read from the bytes as from the text
-/

namespace LidarAngle.Reply

theorem latin1_utf8_eq_nil_iff (token : List Char) :
    Text.latin1 (Text.utf8 token) = [] ↔ token = [] := by
  rw [Text.latin1, List.map_eq_nil_iff, Text.utf8, List.flatMap_eq_nil_iff]
  constructor
  · intro h
    rw [List.eq_nil_iff_forall_not_mem]
    exact fun c hc => String.utf8EncodeChar_ne_nil (h c hc)
  · rintro rfl
    simp

/-- A text is cut the same way when its bytes are read in Latin-1. -/
theorem tokens_latin1_utf8 (text : List Char) :
    tokens (Text.latin1 (Text.utf8 text)) =
      (tokens text).map fun token => Text.latin1 (Text.utf8 token) := by
  rw [tokens_eq_splitOn, tokens_eq_splitOn, Text.splitOn_latin1_utf8, List.getLast?_map]
  have hlast : (Option.map (fun token => Text.latin1 (Text.utf8 token))
      (text.splitOn ' ').getLast?) = some [] ↔ (text.splitOn ' ').getLast? = some [] := by
    rw [Option.map_eq_some_iff]
    constructor
    · rintro ⟨piece, hpiece, hnil⟩
      rwa [(latin1_utf8_eq_nil_iff piece).1 hnil] at hpiece
    · intro h
      exact ⟨[], h, rfl⟩
  simp only [hlast]
  split
  · exact List.map_dropLast.symm
  · rfl

theorem mem_unmarked_or_mem {token : List Char} {c : Char} (h : c ∈ token) :
    c ∈ unmarked token ∨ c ∈ ['0', 'x', 'X'] := by
  match token, h with
  | [d], h => exact .inl (by simpa [unmarked] using h)
  | d :: e :: rest, h =>
    rw [unmarked_cons_cons]
    split
    · next hmark =>
      obtain ⟨rfl, he⟩ := hmark
      rcases List.mem_cons.1 h with rfl | h
      · exact .inr (by decide)
      · rcases List.mem_cons.1 h with rfl | h
        · rcases he with rfl | rfl
          · exact .inr (by decide)
          · exact .inr (by decide)
        · exact .inl h
    · exact .inl h

/-- A token that spells a word is in ASCII. -/
theorem lt_of_word? {token : List Char} {word : UInt64} (h : word? token = some word) :
    ∀ c ∈ token, c.toNat < 128 := by
  intro c hc
  by_cases hsign : IsSigned token
  · obtain ⟨negative, digits, rfl⟩ := hsign
    have hascii : ∀ negative, (sign negative).toNat < 128 := by decide
    rw [word?_sign_cons] at h
    obtain ⟨n, hn, -⟩ := signed?_eq_some_iff.1 h
    rcases List.mem_cons.1 hc with rfl | hc
    · exact hascii negative
    · obtain ⟨d, hd⟩ := Numeral.exists_of_mem_of_value? hn hc
      exact Numeral.lt_of_digit? hd
  · have hascii : ∀ d ∈ ['0', 'x', 'X'], d.toNat < 128 := by simp
    rw [word?_of_not_isSigned hsign] at h
    obtain ⟨n, hn, -⟩ := unsigned?_eq_some_iff.1 h
    rcases mem_unmarked_or_mem hc with hc | hc
    · obtain ⟨d, hd⟩ := Numeral.exists_of_mem_of_value? hn hc
      exact Hex.lt_of_value? hd
    · exact hascii c hc

/-- A token spells the same word, or none, when its bytes are read in Latin-1. -/
theorem word?_latin1_utf8 (token : List Char) :
    word? (Text.latin1 (Text.utf8 token)) = word? token := by
  by_cases hascii : ∀ c ∈ token, c.toNat < 128
  · rw [Text.latin1_utf8_of_ascii hascii]
  -- A character beyond ASCII keeps a token from spelling a word, read either way.
  · have hnone : ∀ other : List Char, (¬∀ c ∈ other, c.toNat < 128) → word? other = none := by
      intro other hother
      rw [Option.eq_none_iff_forall_ne_some]
      exact fun word h => hother (lt_of_word? h)
    rw [hnone token hascii, hnone _ (mt Text.forall_lt_latin1_utf8_iff.1 hascii)]

/-- What comes of the bytes of a text is what comes of the text, but for a token that is named: its
bytes are read in Latin-1. -/
inductive Rereads : Except Fault Calibration → Except Fault Calibration → Prop
  | accepted (c : Calibration) : Rereads (.ok c) (.ok c)
  | miscounted (n : Nat) : Rereads (.error (.tokenCount n)) (.error (.tokenCount n))
  | rejected (field : Field) (token : List Char) :
      Rereads (.error (.badField field token))
        (.error (.badField field (Text.latin1 (Text.utf8 token))))

namespace Rereads

variable {outcome other : Except Fault Calibration}

theorem toOption_eq (h : Rereads outcome other) : other.toOption = outcome.toOption := by
  cases h with
  | accepted c => rfl
  | miscounted n => rfl
  | rejected field token => rfl

theorem eq_ok {c : Calibration} (h : Rereads (.ok c) other) : other = .ok c := by
  cases h
  rfl

theorem eq_badField {field : Field} {token : List Char}
    (h : Rereads (.error (.badField field token)) other) :
    other = .error (.badField field (Text.latin1 (Text.utf8 token))) := by
  cases h
  rfl

end Rereads

theorem rereads_of_yields {amplitude phase offset : List Char} {outcome : Except Fault Calibration}
    (h : Yields amplitude phase offset outcome) :
    ∃ other, Rereads outcome other ∧
      Yields (Text.latin1 (Text.utf8 amplitude)) (Text.latin1 (Text.utf8 phase))
        (Text.latin1 (Text.utf8 offset)) other := by
  cases h with
  | badAmplitude hamplitude =>
    rw [← word?_latin1_utf8] at hamplitude
    exact ⟨_, .rejected _ _, .badAmplitude hamplitude⟩
  | badPhase hamplitude hphase =>
    rw [← word?_latin1_utf8] at hamplitude hphase
    exact ⟨_, .rejected _ _, .badPhase hamplitude hphase⟩
  | badOffset hamplitude hphase hoffset =>
    rw [← word?_latin1_utf8] at hamplitude hphase hoffset
    exact ⟨_, .rejected _ _, .badOffset hamplitude hphase hoffset⟩
  | words hamplitude hphase hoffset hu hv hw =>
    rw [← word?_latin1_utf8] at hamplitude hphase hoffset
    exact ⟨_, .accepted _, .words hamplitude hphase hoffset hu hv hw⟩

theorem rereads_decodeTokens (pieces : List (List Char)) :
    Rereads (decodeTokens pieces)
      (decodeTokens (pieces.map fun piece => Text.latin1 (Text.utf8 piece))) := by
  by_cases hlength : pieces.length = 5
  · match pieces, hlength with
    | [marker, command, amplitude, phase, offset], _ =>
      obtain ⟨outcome, hyields⟩ := exists_yields amplitude phase offset
      obtain ⟨other, hrereads, hother⟩ := rereads_of_yields hyields
      simp only [List.map_cons, List.map_nil]
      rwa [hyields.decodeTokens_eq, hother.decodeTokens_eq]
  · rw [decodeTokens_of_length_ne hlength, decodeTokens_of_length_ne (by simpa using hlength),
      List.length_map]
    exact .miscounted _

/-- The bytes of a text are decoded as the text itself is. -/
theorem rereads_decode (text : List Char) :
    Rereads (decodeText text) (decode .ascii (Text.utf8 text)).result := by
  have hresult : (decode .ascii (Text.utf8 text)).result =
      decodeTokens (tokens (Text.latin1 (Text.utf8 text))) := rfl
  rw [hresult, tokens_latin1_utf8]
  exact rereads_decodeTokens (tokens text)

/-- A calibration is read from the bytes of a text as from the text itself. -/
theorem result_decode_ascii_utf8 {text : List Char} {c : Calibration}
    (h : decodeText text = .ok c) : (decode .ascii (Text.utf8 text)).result = .ok c := by
  have hrereads := rereads_decode text
  rw [h] at hrereads
  exact hrereads.eq_ok

end LidarAngle.Reply
