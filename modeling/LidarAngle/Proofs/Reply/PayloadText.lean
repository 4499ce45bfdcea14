import LidarAngle.Proofs.Text.Ascii
import LidarAngle.Proofs.Text.Positional
import LidarAngle.Reply.PayloadText

/-!
# Typed payloads

Bytes can be typed in digits of either case, with ASCII blanks anywhere, even within a pair. They
are read back from any such text. The only other texts that are read have a plus sign in place of
the first digit of some pair.

## Main definitions

* `PayloadText.Types` - the text types the bytes
* `PayloadText.Reads` - the characters are read as the bytes

## Main statements

* `PayloadText.Types.read` - typed bytes are read back
* `PayloadText.read_cases` - which texts are read, and what is wrong with the others
* `PayloadText.not_forall_types` - a text that is read need not type anything
-/

namespace LidarAngle

namespace PayloadText

/-- The characters that are passed over. -/
def blanks : List Char :=
  [' ', '\t', '\n', '\x0c', '\r']

/-- The text types the bytes: without its blanks it is their digits, each in either case. -/
def Types (text : List Char) (bytes : List UInt8) : Prop :=
  (text.filter (· ∉ blanks)).map Char.toLower = (bytes.flatMap Hex.byte).map Char.toLower

instance (text : List Char) (bytes : List UInt8) : Decidable (Types text bytes) := by
  unfold Types; infer_instance

theorem isBlank_ofNat_iff {c : Char} (h : c.toNat < 128) :
    IsBlank (UInt8.ofNat c.toNat) ↔ c ∈ blanks := by
  have hbyte : (UInt8.ofNat c.toNat).toNat = c.toNat :=
    UInt8.toNat_ofNat_of_lt' (Nat.lt_trans h (by decide))
  have hchar : ∀ d : Char, c = d ↔ c.toNat = d.toNat := fun d =>
    ⟨congrArg Char.toNat, fun e => Char.ext (UInt32.toNat_inj.1 e)⟩
  simp only [IsBlank, blanks, List.mem_cons, List.not_mem_nil, or_false, ← UInt8.toNat_inj, hbyte,
    hchar]
  rfl

/-- Leaving out blank bytes leaves out the blanks of a text and cuts no character. -/
theorem digits_eq (text : List Char) : digits text = Text.utf8 (text.filter (· ∉ blanks)) := by
  induction text with
  | nil => rfl
  | cons c rest ih =>
    have hcons : digits (c :: rest) =
        (String.utf8EncodeChar c).filter (fun b => ¬IsBlank b) ++ digits rest := by
      rw [digits, Text.utf8_cons, List.filter_append]
      rfl
    rw [hcons, ih]
    by_cases hc : c.toNat < 128
    · rw [Text.utf8EncodeChar_of_lt hc]
      by_cases hm : c ∈ blanks
      · have hblank := (isBlank_ofNat_iff hc).2 hm
        simp [hblank, hm]
      · have hblank := mt (isBlank_ofNat_iff hc).1 hm
        simp [hblank, hm, Text.utf8EncodeChar_of_lt hc]
    · have hm : c ∉ blanks := by
        have hall : ∀ d ∈ blanks, d.toNat < 128 := by simp [blanks]
        exact fun hm => hc (hall c hm)
      have hkeep : (String.utf8EncodeChar c).filter (fun b => ¬IsBlank b) =
          String.utf8EncodeChar c := by
        apply List.filter_eq_self.2
        intro b hb
        have hle := Text.le_of_mem_utf8EncodeChar (by omega) hb
        have hblank : ¬IsBlank b := by
          rintro (rfl | rfl | rfl | rfl | rfl)
          all_goals exact absurd hle (by decide)
        simp [hblank]
      rw [hkeep, List.filter_cons_of_pos (by simpa using hm), Text.utf8_cons]

/-- The characters are read as the bytes: two of them as one byte, of which the first digit may be a
plus sign and then counts for nothing. -/
inductive Reads : List Char → List UInt8 → Prop
  | nil : Reads [] []
  | pair {a b : Char} {high low : ℕ} {chars : List Char} {bytes : List UInt8}
      (ha : a = '+' ∧ high = 0 ∨ Hex.value? a = some high) (hb : Hex.value? b = some low)
      (hrest : Reads chars bytes) :
      Reads (a :: b :: chars) (.ofNat (16 * high + low) :: bytes)

theorem pair?_eq_some_iff {first second byte : UInt8} :
    pair? first second = some byte ↔
      ∃ high low, (first = 0x2B ∧ high = 0 ∨ digit? first = some high) ∧
        digit? second = some low ∧ .ofNat (16 * high + low) = byte := by
  have hplus : digit? 0x2B = none := by decide
  have hhigh : ∀ high, (if first = 0x2B then some 0 else digit? first) = some high ↔
      first = 0x2B ∧ high = 0 ∨ digit? first = some high := by
    intro high
    split
    · next h => simp [h, hplus, eq_comm]
    · next h => simp [h]
  have hpair : pair? first second = (if first = 0x2B then some 0 else digit? first).bind
      fun high => (digit? second).map fun low => .ofNat (16 * high + low) := by
    unfold pair?
    split
    · cases digit? second with
      | _ => rfl
    · cases digit? second with
      | _ => rfl
  rw [hpair, Option.bind_eq_some_iff]
  simp only [hhigh, Option.map_eq_some_iff, exists_and_left]

section Ascii

variable {c : Char} (h : c.toNat < 128)
include h

theorem digit?_ofNat : digit? (UInt8.ofNat c.toNat) = Hex.value? c := by
  rw [digit?, Text.ofUInt8_ofNat_toNat h]

theorem ofNat_eq_plus_iff : UInt8.ofNat c.toNat = 0x2B ↔ c = '+' := by
  rw [← UInt8.toNat_inj, UInt8.toNat_ofNat_of_lt' (Nat.lt_trans h (by decide)), ← Char.toNat_inj]
  rfl

end Ascii

/-- The characters of a pair that is read are in ASCII. -/
theorem lt_of_high {a : Char} {high : ℕ} (ha : a = '+' ∧ high = 0 ∨ Hex.value? a = some high) :
    a.toNat < 128 := by
  rcases ha with ⟨rfl, -⟩ | ha
  · decide
  · exact Hex.lt_of_value? ha

theorem pair?_ofNat_eq_some_iff {a b : Char} (ha : a.toNat < 128) (hb : b.toNat < 128)
    {byte : UInt8} :
    pair? (.ofNat a.toNat) (.ofNat b.toNat) = some byte ↔
      ∃ high low, (a = '+' ∧ high = 0 ∨ Hex.value? a = some high) ∧ Hex.value? b = some low ∧
        .ofNat (16 * high + low) = byte := by
  rw [pair?_eq_some_iff]
  simp only [ofNat_eq_plus_iff ha, digit?_ofNat ha, digit?_ofNat hb]

section Pairs

variable {chars : List Char} {bytes : List UInt8}

theorem Reads.pairs?_utf8 (h : Reads chars bytes) :
    (Text.utf8 chars).length = 2 * bytes.length ∧ pairs? (Text.utf8 chars) = some bytes := by
  induction h with
  | nil => exact ⟨rfl, rfl⟩
  | pair ha hb hrest ih =>
    obtain ⟨hlength, hpairs⟩ := ih
    have hascii := lt_of_high ha
    have hascii' := Hex.lt_of_value? hb
    have hpair := (pair?_ofNat_eq_some_iff hascii hascii').2 ⟨_, _, ha, hb, rfl⟩
    rw [Text.utf8_cons, Text.utf8_cons, Text.utf8EncodeChar_of_lt hascii,
      Text.utf8EncodeChar_of_lt hascii', List.singleton_append, List.singleton_append]
    constructor
    · rw [List.length_cons, List.length_cons, List.length_cons, hlength]
      omega
    · rw [pairs?, hpair, hpairs]
      rfl

theorem lt_of_mem_of_pairs? {input : List UInt8} (h : pairs? input = some bytes) :
    ∀ b ∈ input, b.toNat < 128 := by
  have hdigit : ∀ {b : UInt8} {n : ℕ}, digit? b = some n → b.toNat < 128 :=
    fun hb => Hex.lt_of_value? hb
  fun_induction pairs? input generalizing bytes with
  | case1 => simp
  | case2 => exact nomatch h
  | case3 first second rest ih =>
    obtain ⟨byte, hpair, hbytes⟩ := Option.bind_eq_some_iff.1 h
    obtain ⟨others, hothers, -⟩ := Option.bind_eq_some_iff.1 hbytes
    obtain ⟨high, low, hfirst, hsecond, -⟩ := pair?_eq_some_iff.1 hpair
    rw [List.forall_mem_cons, List.forall_mem_cons]
    refine ⟨?_, hdigit hsecond, ih hothers⟩
    rcases hfirst with ⟨rfl, -⟩ | hfirst
    · decide
    · exact hdigit hfirst

/-- A character beyond ASCII has bytes that are in no pair. -/
theorem lt_of_mem_of_pairs?_utf8 (h : pairs? (Text.utf8 chars) = some bytes) :
    ∀ c ∈ chars, c.toNat < 128 := by
  intro c hc
  apply Nat.lt_of_not_le
  intro hle
  obtain ⟨b, hb⟩ := List.exists_mem_of_ne_nil _ (String.utf8EncodeChar_ne_nil (c := c))
  have hlt := lt_of_mem_of_pairs? h b (List.mem_flatMap.2 ⟨c, hc, hb⟩)
  exact absurd (Text.le_of_mem_utf8EncodeChar hle hb) (Nat.not_le_of_lt hlt)

theorem reads_of_pairs? {chars : List Char} {bytes : List UInt8}
    (hascii : ∀ c ∈ chars, c.toNat < 128)
    (h : pairs? (chars.map fun c => UInt8.ofNat c.toNat) = some bytes) : Reads chars bytes := by
  match chars, h with
  | [], h =>
    obtain rfl := Option.some.inj h
    exact .nil
  | [c], h => exact nomatch h
  | a :: b :: rest, h =>
    rw [List.forall_mem_cons, List.forall_mem_cons] at hascii
    obtain ⟨ha, hb, hrest⟩ := hascii
    obtain ⟨byte, hpair, hbytes⟩ := Option.bind_eq_some_iff.1 h
    obtain ⟨others, hothers, hcons⟩ := Option.bind_eq_some_iff.1 hbytes
    obtain ⟨high, low, hhigh, hlow, rfl⟩ := (pair?_ofNat_eq_some_iff ha hb).1 hpair
    obtain rfl := Option.some.inj hcons
    exact .pair hhigh hlow (reads_of_pairs? hrest hothers)

/-- What is read from the bytes of characters is what the characters are read as. -/
theorem pairs?_utf8_eq_some_iff : pairs? (Text.utf8 chars) = some bytes ↔ Reads chars bytes := by
  constructor
  · intro h
    have hascii := lt_of_mem_of_pairs?_utf8 h
    rw [Text.utf8_of_ascii hascii] at h
    exact reads_of_pairs? hascii h
  · exact fun h => h.pairs?_utf8.2

theorem ne_plus_of_value? {c : Char} {n : ℕ} (h : Hex.value? c = some n) : '+' ≠ c := by
  have hplus : Hex.value? '+' = none := by decide
  rintro rfl
  exact absurd (hplus.symm.trans h) (by simp)

theorem value?_eq_some_iff_toLower_eq {c : Char} {n : ℕ} (hn : n < 16) :
    Hex.value? c = some n ↔ c.toLower = (Hex.upper n).toLower := by
  have hdigit : ∀ n < 16, (Hex.upper n).toLower = n.digitChar := by decide
  rw [Hex.value?_eq_some_iff, hdigit n hn, and_iff_right hn]

/-- What is read without a plus sign is the digits of the bytes, each in either case. -/
theorem toLower_eq_iff_reads :
    chars.map Char.toLower = (bytes.flatMap Hex.byte).map Char.toLower ↔
      Reads chars bytes ∧ '+' ∉ chars := by
  constructor
  · intro h
    induction bytes generalizing chars with
    | nil =>
      obtain rfl := List.map_eq_nil_iff.1 h
      exact ⟨.nil, List.not_mem_nil⟩
    | cons byte bytes ih =>
      have hbyte : byte.toNat < 256 := byte.toNat_lt
      rw [List.flatMap_cons, Hex.byte, List.map_append, List.map_cons, List.map_singleton,
        List.cons_append, List.singleton_append, List.map_eq_cons_iff] at h
      obtain ⟨a, chars, rfl, ha, h⟩ := h
      obtain ⟨b, rest, rfl, hb, hrest⟩ := List.map_eq_cons_iff.1 h
      have hhigh := (value?_eq_some_iff_toLower_eq (by omega)).2 ha
      have hlow := (value?_eq_some_iff_toLower_eq (by omega)).2 hb
      obtain ⟨hreads, hplus⟩ := ih hrest
      have hsum : 16 * (byte.toNat / 16) + byte.toNat % 16 = byte.toNat := by omega
      have hpair := hreads.pair (.inr hhigh) hlow
      rw [hsum, UInt8.ofNat_toNat] at hpair
      refine ⟨hpair, ?_⟩
      rw [List.mem_cons, List.mem_cons, not_or, not_or]
      exact ⟨ne_plus_of_value? hhigh, ne_plus_of_value? hlow, hplus⟩
  · rintro ⟨h, hplus⟩
    induction h with
    | nil => rfl
    | @pair a b high low chars bytes ha hb hrest ih =>
      rw [List.mem_cons, List.mem_cons, not_or, not_or] at hplus
      obtain ⟨hfirst, -, hplus⟩ := hplus
      have hhigh := ha.resolve_left fun h => hfirst h.1.symm
      have hlt := (Hex.value?_eq_some_iff.1 hhigh).1
      have hlt' := (Hex.value?_eq_some_iff.1 hb).1
      have hbyte : (UInt8.ofNat (16 * high + low)).toNat = 16 * high + low :=
        UInt8.toNat_ofNat_of_lt' (show 16 * high + low < 256 by omega)
      have hdiv : (16 * high + low) / 16 = high := by omega
      have hmod : (16 * high + low) % 16 = low := by omega
      rw [List.flatMap_cons, Hex.byte, hbyte, hdiv, hmod, List.map_append, ← ih hplus,
        List.map_cons, List.map_cons, (value?_eq_some_iff_toLower_eq hlt).1 hhigh,
        (value?_eq_some_iff_toLower_eq hlt').1 hb]
      rfl

theorem exists_reads_of_digits {chars : List Char} (heven : chars.length % 2 = 0)
    (hdigits : ∀ c ∈ chars, (Hex.value? c).isSome) : ∃ bytes, Reads chars bytes := by
  match chars with
  | [] => exact ⟨[], .nil⟩
  | [c] => exact absurd heven (by simp)
  | a :: b :: rest =>
    rw [List.forall_mem_cons, List.forall_mem_cons] at hdigits
    obtain ⟨ha, hb, hrest⟩ := hdigits
    obtain ⟨high, hhigh⟩ := Option.isSome_iff_exists.1 ha
    obtain ⟨low, hlow⟩ := Option.isSome_iff_exists.1 hb
    have heven' : rest.length % 2 = 0 := by
      rw [List.length_cons, List.length_cons] at heven
      omega
    obtain ⟨bytes, hreads⟩ := exists_reads_of_digits heven' hrest
    exact ⟨_, hreads.pair (.inr hhigh) hlow⟩

theorem Reads.digits_of_notMem (h : Reads chars bytes) (hplus : '+' ∉ chars) :
    chars.length % 2 = 0 ∧ ∀ c ∈ chars, (Hex.value? c).isSome := by
  induction h with
  | nil => simp
  | @pair a b high low chars bytes ha hb hrest ih =>
    rw [List.mem_cons, List.mem_cons, not_or, not_or] at hplus
    obtain ⟨hfirst, -, hplus⟩ := hplus
    obtain ⟨heven, hdigits⟩ := ih hplus
    have hhigh := ha.resolve_left fun h => hfirst h.1.symm
    rw [List.length_cons, List.length_cons, List.forall_mem_cons, List.forall_mem_cons, hhigh, hb]
    exact ⟨by omega, rfl, rfl, hdigits⟩

end Pairs

section Text

variable {text : List Char} {bytes : List UInt8}

/-- A text is read as bytes if it is so without its blanks. -/
theorem read_eq_ok_iff :
    read text = .ok bytes ↔ Reads (text.filter (· ∉ blanks)) bytes := by
  rw [← pairs?_utf8_eq_some_iff, ← digits_eq]
  constructor
  · intro h
    unfold read at h
    split at h
    · exact nomatch h
    · split at h
      · next hpairs => rw [hpairs, Except.ok.inj h]
      · exact nomatch h
  · intro h
    have hreads := pairs?_utf8_eq_some_iff.1 (digits_eq text ▸ h)
    have hlength := hreads.pairs?_utf8.1
    rw [← digits_eq] at hlength
    rw [read, if_neg (by omega), h]

theorem types_iff : Types text bytes ↔ read text = .ok bytes ∧ '+' ∉ text := by
  have hplus : '+' ∈ text.filter (· ∉ blanks) ↔ '+' ∈ text := by
    rw [List.mem_filter]
    exact and_iff_left (by decide)
  rw [Types, toLower_eq_iff_reads, read_eq_ok_iff, hplus]

/-- Bytes are read back from any text that types them. -/
theorem Types.read (h : Types text bytes) : read text = .ok bytes :=
  (types_iff.1 h).1

/-- Some bytes are typed by an even number of digits and blanks, and by nothing else. -/
theorem exists_types_iff :
    (∃ bytes, Types text bytes) ↔
      (text.filter (· ∉ blanks)).length % 2 = 0 ∧
        ∀ c ∈ text.filter (· ∉ blanks), (Hex.value? c).isSome := by
  simp only [Types, toLower_eq_iff_reads]
  constructor
  · rintro ⟨bytes, hreads, hplus⟩
    exact hreads.digits_of_notMem hplus
  · rintro ⟨heven, hdigits⟩
    obtain ⟨bytes, hreads⟩ := exists_reads_of_digits heven hdigits
    have hplus : ¬(Hex.value? '+').isSome := by decide
    exact ⟨bytes, hreads, fun h => hplus (hdigits _ h)⟩

end Text

/-- A text is read as bytes if it is so without its blanks. It types them then, that is it has their
digits, each in either case, and nothing else, unless there is a plus sign in it. What is wrong with
any other text is an odd number of bytes without the blanks, and only if that is even some pair. -/
theorem read_cases (text : List Char) :
    (∀ bytes, read text = .ok bytes ↔ Reads (text.filter (· ∉ blanks)) bytes) ∧
    (∀ bytes, Types text bytes ↔ read text = .ok bytes ∧ '+' ∉ text) ∧
    ((∃ bytes, Types text bytes) ↔
      (text.filter (· ∉ blanks)).length % 2 = 0 ∧
        ∀ c ∈ text.filter (· ∉ blanks), (Hex.value? c).isSome) ∧
    ((Text.utf8 (text.filter (· ∉ blanks))).length % 2 = 1 →
      read text = .error (.oddLength text)) ∧
    ((Text.utf8 (text.filter (· ∉ blanks))).length % 2 = 0 →
      (∃ bytes, read text = .ok bytes) ∨ read text = .error (.badPair text)) := by
  refine ⟨fun _ => read_eq_ok_iff, fun _ => types_iff, exists_types_iff, ?_, ?_⟩
  · intro hodd
    rw [← digits_eq] at hodd
    rw [read, if_pos hodd]
  · intro heven
    rw [← digits_eq] at heven
    rw [read, if_neg (by omega)]
    split
    · next bytes _ => exact .inl ⟨bytes, rfl⟩
    · exact .inr rfl

/-- A letter of two bytes beside one digit is an odd number of bytes, and not a wrong digit. Two
signs are a wrong pair. -/
theorem read_cases_umlaut_and_signs :
    read "5 é".toList = .error (.oddLength "5 é".toList) ∧
      read "+\t+".toList = .error (.badPair "+\t+".toList) := by
  obtain ⟨-, -, -, hodd, -⟩ := read_cases "5 é".toList
  obtain ⟨hread, -, -, -, heven⟩ := read_cases "+\t+".toList
  refine ⟨hodd (by decide), (heven (by decide)).resolve_left ?_⟩
  rintro ⟨bytes, h⟩
  have hfilter : "+\t+".toList.filter (· ∉ blanks) = ['+', '+'] := by decide
  have hreads := (hread bytes).1 h
  rw [hfilter] at hreads
  cases hreads with
  | pair ha hb hrest => exact ne_plus_of_value? hb rfl

/-- A plus sign and a digit are read as a byte and type nothing. -/
theorem not_forall_types :
    ¬∀ (text : List Char) (bytes : List UInt8), read text = .ok bytes → Types text bytes := by
  intro hall
  have hread : read ['+', '5'] = .ok [5] := by decide
  have htypes : ¬Types ['+', '5'] [5] := by decide
  exact htypes (hall _ _ hread)

end PayloadText

end LidarAngle
