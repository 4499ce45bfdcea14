import LidarAngle.Proofs.Text.Ascii

/-!
# Texts cut at a separator

How `List.splitOn` acts on texts that are put together from parts, and on texts that are encoded
character by character. An encoding that keeps the separator apart from everything else can be
applied before or after cutting.

## Main statements

* `Text.length_splitOn` - there is one piece more than there are separators
* `Text.notMem_of_mem_splitOn` - no piece has a separator
* `Text.splitOn_append_of_notMem` - text without a separator goes to the last piece
* `Text.splitOn_flatMap_append_self` - pieces that are each followed by a separator
* `Text.splitOn_latin1_utf8` - cutting commutes with writing UTF-8 and reading Latin-1
-/

namespace LidarAngle.Text

section Pieces

variable {α β : Type} [BEq α] [BEq β] {a : α} {b : β}

theorem length_splitOn (text : List α) : (text.splitOn a).length = text.count a + 1 := by
  induction text with
  | nil => simp
  | cons x rest ih =>
    rw [List.splitOn_cons_eq_if_modifyHead, List.count_cons]
    split
    · rw [List.length_cons, ih]
    · rw [List.length_modifyHead, ih]

variable [LawfulBEq α] [LawfulBEq β]

theorem notMem_of_mem_splitOn {text piece : List α} (h : piece ∈ text.splitOn a) : a ∉ piece := by
  induction text generalizing piece with
  | nil =>
    rw [List.splitOn_nil, List.mem_singleton] at h
    rw [h]
    exact List.not_mem_nil
  | cons x rest ih =>
    rw [List.splitOn_cons_eq_if_modifyHead] at h
    split at h
    · rcases List.mem_cons.1 h with rfl | h
      · exact List.not_mem_nil
      · exact ih h
    · next hx =>
      obtain ⟨first, others, hs⟩ := List.exists_cons_of_ne_nil (List.splitOn_ne_nil a rest)
      rw [hs, List.modifyHead_cons] at h
      rw [hs] at ih
      rcases List.mem_cons.1 h with rfl | h
      · rw [List.mem_cons, not_or]
        exact ⟨fun e => hx (by simp [e]), ih List.mem_cons_self⟩
      · exact ih (List.mem_cons_of_mem _ h)

theorem splitOn_append_self (text : List α) :
    (text ++ [a]).splitOn a = text.splitOn a ++ [[]] := by
  rw [List.splitOn_append_cons_self, List.splitOn_nil]

/-- Text without a separator goes to the last piece of what stands before it. -/
theorem splitOn_append_of_notMem (text : List α) {word : List α} (h : a ∉ word) :
    (text ++ word).splitOn a =
      (text.splitOn a).dropLast ++ [(text.splitOn a).getLastD [] ++ word] := by
  induction text with
  | nil => simpa using List.splitOn_eq_singleton h
  | cons x rest ih =>
    obtain ⟨first, others, hs⟩ := List.exists_cons_of_ne_nil (List.splitOn_ne_nil a rest)
    rw [List.cons_append, List.splitOn_cons_eq_if_modifyHead, List.splitOn_cons_eq_if_modifyHead,
      ih, hs]
    split
    · simp [List.getLastD]
    · cases others with
      | nil => simp [List.getLastD]
      | cons second others => simp [List.getLastD]

/-- Text without a separator goes to the first piece of what stands behind it. -/
theorem splitOn_append_of_notMem_left {word : List α} (h : a ∉ word) (text : List α) :
    (word ++ text).splitOn a = (text.splitOn a).modifyHead (word ++ ·) := by
  induction word with
  | nil => exact (congrFun List.modifyHead_id (text.splitOn a)).symm
  | cons x word ih =>
    rw [List.mem_cons, not_or] at h
    rw [List.cons_append, List.splitOn_cons_eq_if_modifyHead, ih h.2,
      if_neg (by simpa using Ne.symm h.1), List.modifyHead_modifyHead]
    rfl

/-- Pieces that are each followed by a separator are cut at all of them, the last one included. -/
theorem splitOn_flatMap_append_self {γ : Type} {f : γ → List α} {xs : List γ}
    (h : ∀ x ∈ xs, a ∉ f x) :
    (xs.flatMap fun x => f x ++ [a]).splitOn a = xs.map f ++ [[]] := by
  induction xs with
  | nil => simp
  | cons x xs ih =>
    rw [List.forall_mem_cons] at h
    rw [List.flatMap_cons, List.append_assoc, List.singleton_append, List.splitOn_append_cons_self,
      List.splitOn_eq_singleton h.1, ih h.2]
    rfl

/-- Cutting commutes with an encoding that keeps the separator apart. -/
theorem splitOn_flatMap {f : α → List β} (hsep : f a = [b]) (hother : ∀ x, x ≠ a → b ∉ f x)
    (text : List α) :
    (text.flatMap f).splitOn b = (text.splitOn a).map fun piece => piece.flatMap f := by
  induction text with
  | nil => simp
  | cons x rest ih =>
    rw [List.flatMap_cons, List.splitOn_cons_eq_if_modifyHead]
    by_cases hx : x = a
    · rw [hx, hsep, List.singleton_append, List.splitOn_cons_eq_if_modifyHead, ih]
      simp
    -- What `x` becomes has no separator, so it stays in front of the first piece.
    · obtain ⟨first, others, hs⟩ := List.exists_cons_of_ne_nil (List.splitOn_ne_nil a rest)
      rw [splitOn_append_of_notMem_left (hother x hx), ih, if_neg (by simpa using hx), hs]
      simp

end Pieces

section Encoding

theorem latin1_utf8 (text : List Char) :
    latin1 (utf8 text) = text.flatMap fun c => latin1 (String.utf8EncodeChar c) := by
  simp [latin1, utf8, List.map_flatMap]

theorem ofUInt8_eq_space_iff (b : UInt8) : Char.ofUInt8 b = ' ' ↔ b = 0x20 := by
  rw [Char.ext_iff, ← UInt32.toNat_inj, ← UInt8.toNat_inj]
  rfl

theorem count_latin1 (bytes : List UInt8) : (latin1 bytes).count ' ' = bytes.count 0x20 := by
  rw [latin1, List.count_eq_countP, List.countP_map, List.count_eq_countP]
  apply List.countP_congr
  intro b _
  simp [ofUInt8_eq_space_iff]

/-- Only the space has the byte of a space in its UTF-8 form. -/
theorem space_notMem_utf8EncodeChar {c : Char} (h : c ≠ ' ') :
    0x20 ∉ String.utf8EncodeChar c := by
  intro hm
  by_cases hc : c.toNat < 128
  · rw [utf8EncodeChar_of_lt hc, List.mem_singleton, ← UInt8.toNat_inj,
      UInt8.toNat_ofNat_of_lt' (Nat.lt_trans hc (by decide))] at hm
    exact h (Char.ext (UInt32.toNat_inj.1 hm.symm))
  · exact absurd (le_of_mem_utf8EncodeChar (by omega) hm) (by decide)

/-- Cutting at spaces commutes with reading back in Latin-1 what was written in UTF-8. -/
theorem splitOn_latin1_utf8 (text : List Char) :
    (latin1 (utf8 text)).splitOn ' ' = (text.splitOn ' ').map fun piece => latin1 (utf8 piece) := by
  simp only [latin1_utf8]
  apply splitOn_flatMap
  · rfl
  · intro c hc hm
    obtain ⟨b, hb, e⟩ := List.mem_map.1 hm
    rw [ofUInt8_eq_space_iff] at e
    exact space_notMem_utf8EncodeChar hc (e ▸ hb)

end Encoding

end LidarAngle.Text
