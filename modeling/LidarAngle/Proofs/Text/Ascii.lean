import LidarAngle.Text.Encoding

/-!
# ASCII in UTF-8

A character of ASCII is written in UTF-8 as one byte, its code point, and every other character in
bytes beyond ASCII. So reading back in Latin-1 what was written in UTF-8 changes no ASCII text.

## Main statements

* `Text.utf8EncodeChar_of_lt`, `Text.le_of_mem_utf8EncodeChar` - the bytes of a character
* `Text.latin1_utf8_of_ascii` - ASCII text is read back
* `Text.forall_lt_latin1_utf8_iff` - no other text is read back in ASCII
-/

namespace LidarAngle.Text

theorem utf8EncodeChar_of_lt {c : Char} (h : c.toNat < 128) :
    String.utf8EncodeChar c = [UInt8.ofNat c.toNat] := by
  have hle : c.val.toNat ≤ 127 := Nat.le_of_lt_succ h
  simp only [String.utf8EncodeChar]
  rw [if_pos hle]
  rfl

/-- A character beyond ASCII is written in bytes beyond ASCII. -/
theorem le_of_mem_utf8EncodeChar {c : Char} (h : 128 ≤ c.toNat) {b : UInt8}
    (hb : b ∈ String.utf8EncodeChar c) : 128 ≤ b.toNat := by
  have hc : 128 ≤ c.val.toNat := h
  have hbyte : ∀ n, 128 ≤ n → n < 256 → 128 ≤ (UInt8.ofNat n).toNat := by
    intro n hn hlt
    rwa [UInt8.toNat_ofNat_of_lt' hlt]
  simp only [String.utf8EncodeChar] at hb
  rw [if_neg (by omega)] at hb
  -- The first of two, three or four bytes tells how many there are.
  split at hb
  · simp only [List.mem_cons, List.not_mem_nil, or_false] at hb
    rcases hb with rfl | rfl
    all_goals exact hbyte _ (by omega) (by omega)
  · split at hb
    · simp only [List.mem_cons, List.not_mem_nil, or_false] at hb
      rcases hb with rfl | rfl | rfl
      all_goals exact hbyte _ (by omega) (by omega)
    · simp only [List.mem_cons, List.not_mem_nil, or_false] at hb
      rcases hb with rfl | rfl | rfl | rfl
      all_goals exact hbyte _ (by omega) (by omega)

theorem utf8_of_ascii {text : List Char} (h : ∀ c ∈ text, c.toNat < 128) :
    utf8 text = text.map fun c => UInt8.ofNat c.toNat := by
  induction text with
  | nil => rfl
  | cons c rest ih =>
    have hc := utf8EncodeChar_of_lt (h c List.mem_cons_self)
    have hrest := ih fun d hd => h d (List.mem_cons_of_mem c hd)
    rw [utf8_cons, hc, hrest]
    rfl

theorem ofUInt8_ofNat_toNat {c : Char} (h : c.toNat < 128) :
    Char.ofUInt8 (UInt8.ofNat c.toNat) = c := by
  apply Char.ext
  apply UInt32.toNat_inj.1
  show (UInt8.ofNat c.toNat).toNat = c.toNat
  exact UInt8.toNat_ofNat_of_lt' (Nat.lt_trans h (by decide))

theorem latin1_utf8_of_ascii {text : List Char} (h : ∀ c ∈ text, c.toNat < 128) :
    latin1 (utf8 text) = text := by
  calc latin1 (utf8 text) = text.map fun c => Char.ofUInt8 (UInt8.ofNat c.toNat) := by
        rw [utf8_of_ascii h, latin1, List.map_map]
        rfl
    _ = text.map id := List.map_congr_left fun c hc => ofUInt8_ofNat_toNat (h c hc)
    _ = text := List.map_id text

/-- A character beyond ASCII is read back as characters beyond ASCII, of which there is one at
least. -/
theorem forall_lt_latin1_utf8_iff {text : List Char} :
    (∀ c ∈ latin1 (utf8 text), c.toNat < 128) ↔ ∀ c ∈ text, c.toNat < 128 := by
  constructor
  · intro h c hc
    apply Nat.lt_of_not_le
    intro hle
    obtain ⟨b, rest, hbytes⟩ : ∃ b rest, String.utf8EncodeChar c = b :: rest :=
      List.exists_cons_of_ne_nil String.utf8EncodeChar_ne_nil
    have hmem : b ∈ String.utf8EncodeChar c := hbytes ▸ List.mem_cons_self
    have hbyte := le_of_mem_utf8EncodeChar hle hmem
    have hread : Char.ofUInt8 b ∈ latin1 (utf8 text) :=
      List.mem_map_of_mem (List.mem_flatMap.2 ⟨c, hc, hmem⟩)
    exact absurd (h _ hread) (Nat.not_lt_of_le hbyte)
  · intro h
    rwa [latin1_utf8_of_ascii h]

end LidarAngle.Text
