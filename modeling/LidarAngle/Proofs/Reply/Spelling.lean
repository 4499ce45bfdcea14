import LidarAngle.Proofs.Reply.Payload
import LidarAngle.Proofs.Reply.Tokens

/-!
# Spelled replies

A reply that has a whole payload is spelled as its header followed by three words of eight digits.
Nothing separates the header from the first word: what the header has after its last space, its
tail, is read together with that word. The other two words are tokens of their own.

## Main definitions

* `Reply.header`, `Reply.payload` - the two parts of a reply
* `Reply.tail` - what a header has after its last space
* `Reply.digits` - the eight digits of a word

## Main statements

* `Reply.spell_eq`, `Reply.tokens_spell` - a reply with a whole payload, and its tokens
* `Reply.length_tokens_spell_of_lt` - a reply without one has a token for every group begun
-/

namespace LidarAngle.Reply

/-- The part of a reply in front of its payload. -/
def header (reply : List UInt8) : List UInt8 :=
  reply.take (headerSize reply)

/-- The payload of a reply, which is all of a reply that is too short. -/
def payload (reply : List UInt8) : List UInt8 :=
  reply.drop (headerSize reply)

/-- What a header has after its last space. -/
def tail (header : List UInt8) : List Char :=
  ((Text.latin1 header).splitOn ' ').getLastD []

/-- The eight digits of a word. -/
def digits (word : UInt32) : List Char :=
  (bigEndian word).flatMap Hex.byte

theorem length_payload_of_le {reply : List UInt8} (h : payloadSize ≤ reply.length) :
    (payload reply).length = payloadSize := by
  rw [payload, headerSize, List.length_drop]
  omega

section Append

variable {bytes : List UInt8} (front : List UInt8) (h : bytes.length = payloadSize)
include h

theorem header_append : header (front ++ bytes) = front := by
  rw [header, headerSize_append front h, List.take_left]

theorem payload_append : payload (front ++ bytes) = bytes := by
  rw [payload, headerSize_append front h, List.drop_left]

end Append

theorem notMem_flatMap_byte {c : Char} (h : Hex.value? c = none) (bytes : List UInt8) :
    c ∉ bytes.flatMap Hex.byte := by
  intro hm
  have hvalue := Numeral.foldlM_flatMap_byte 0 bytes
  rw [Numeral.foldlM_eq_none h hm] at hvalue
  exact absurd hvalue (by simp)

theorem space_notMem_byte (b : UInt8) : ' ' ∉ Hex.byte b := by
  have hnot := notMem_flatMap_byte (c := ' ') (by decide) [b]
  rwa [List.flatMap_singleton] at hnot

theorem notMem_digits {c : Char} (h : Hex.value? c = none) (word : UInt32) : c ∉ digits word :=
  notMem_flatMap_byte h _

theorem digits_ne_nil (word : UInt32) : digits word ≠ [] :=
  List.cons_ne_nil _ _

/-- A payload is spelled as its words with spaces between them. -/
theorem spellPayload_words (u v w : UInt32) :
    spellPayload 0 (bigEndian u ++ bigEndian v ++ bigEndian w) =
      digits u ++ ' ' :: (digits v ++ ' ' :: digits w) := by
  rfl

theorem splitOn_words (front : List UInt8) (u v w : UInt32) :
    (Text.latin1 front ++ (digits u ++ ' ' :: (digits v ++ ' ' :: digits w))).splitOn ' ' =
      ((Text.latin1 front).splitOn ' ').dropLast ++
        [tail front ++ digits u, digits v, digits w] := by
  have hspace : ∀ word, ' ' ∉ digits word := notMem_digits (by decide)
  rw [← List.append_assoc, List.splitOn_append_cons_self, List.splitOn_append_cons_self,
    Text.splitOn_append_of_notMem _ (hspace u), List.splitOn_eq_singleton (hspace v),
    List.splitOn_eq_singleton (hspace w), ← tail, List.append_assoc]
  rfl

/-- A reply with a whole payload is spelled as its header and the three words. -/
theorem spell_eq {reply : List UInt8} (h : payloadSize ≤ reply.length) :
    spell reply = Text.latin1 (header reply) ++ (digits (group (payload reply) 0) ++
      ' ' :: (digits (group (payload reply) 1) ++ ' ' :: digits (group (payload reply) 2))) := by
  rw [← spellPayload_words, bigEndian_groups (length_payload_of_le h)]
  rfl

/-- The tokens of a reply with a whole payload. -/
theorem tokens_spell {reply : List UInt8} (h : payloadSize ≤ reply.length) :
    tokens (spell reply) =
      ((Text.latin1 (header reply)).splitOn ' ').dropLast ++
        [tail (header reply) ++ digits (group (payload reply) 0),
          digits (group (payload reply) 1), digits (group (payload reply) 2)] := by
  rw [spell_eq h, tokens_of_last_piece, splitOn_words]
  -- The last piece is the third word, so no space ends the text.
  rw [splitOn_words, List.getLast?_append]
  intro e
  exact digits_ne_nil _ (Option.some.inj e)

/-- What is spelled of the last bytes of a payload has a space after each whole group but the
last. -/
theorem count_spellPayload (count : Nat) (bytes : List UInt8) :
    (spellPayload count bytes).count ' ' + min count 11 / 4 =
      min (count + bytes.length) 11 / 4 := by
  -- Of the first eleven bytes every fourth is followed by a space, and no later one.
  induction bytes generalizing count with
  | nil => simp [spellPayload]
  | cons b rest ih =>
    have hbyte := List.count_eq_zero.2 (space_notMem_byte b)
    have hgap : (gap (count + 1)).count ' ' + min count 11 / 4 = min (count + 1) 11 / 4 := by
      unfold gap payloadSize groupSize
      split
      · rw [List.count_singleton_self]
        omega
      · rw [List.count_nil]
        omega
    have hrest := ih (count + 1)
    rw [spellPayload, List.count_append, List.count_append, hbyte, List.length_cons]
    rw [show count + (rest.length + 1) = count + 1 + rest.length by omega, ← hrest, ← hgap]
    omega

/-- What is spelled of bytes ends with a space exactly after a whole group that is not the last. -/
theorem getLast?_spellPayload_eq_space_iff (count : Nat) {bytes : List UInt8} (h : bytes ≠ []) :
    (spellPayload count bytes).getLast? = some ' ' ↔
      count + bytes.length < payloadSize ∧ (count + bytes.length) % groupSize = 0 := by
  induction bytes generalizing count with
  | nil => exact absurd rfl h
  | cons b rest ih =>
    by_cases hrest : rest = []
    · subst hrest
      rw [spellPayload, spellPayload, List.append_nil, List.length_singleton]
      unfold gap
      split
      · next hgap =>
        rw [List.getLast?_concat]
        exact iff_of_true rfl hgap
      · next hgap =>
        rw [List.append_nil]
        exact iff_of_false (fun e => space_notMem_byte b (List.mem_of_getLast? e)) hgap
    · have hne : spellPayload (count + 1) rest ≠ [] := by
        obtain ⟨d, others, rfl⟩ := List.exists_cons_of_ne_nil hrest
        exact List.cons_ne_nil _ _
      obtain ⟨last, hlast⟩ := Option.isSome_iff_exists.1 (List.getLast?_isSome.2 hne)
      rw [spellPayload, List.getLast?_append, hlast, Option.some_or, ← hlast, ih (count + 1) hrest,
        List.length_cons, Nat.add_right_comm, Nat.add_assoc]

/-- A reply without a whole payload has one token for every group that it has begun. -/
theorem length_tokens_spell_of_lt {reply : List UInt8} (h : reply.length < payloadSize) :
    (tokens (spell reply)).length = (reply.length + 3) / 4 := by
  have hsize : headerSize reply = 0 := by
    rw [headerSize]
    omega
  have hspell : spell reply = spellPayload 0 reply := by
    rw [spell, hsize]
    rfl
  have hcount := count_spellPayload 0 reply
  unfold payloadSize at h
  rw [hspell]
  by_cases hne : reply = []
  · rw [hne]
    rfl
  · have hpos := List.length_pos_iff.2 hne
    have htext : spellPayload 0 reply ≠ [] := by
      obtain ⟨b, rest, rfl⟩ := List.exists_cons_of_ne_nil hne
      exact List.cons_ne_nil _ _
    rw [length_tokens, if_neg htext]
    simp only [getLast?_spellPayload_eq_space_iff 0 hne, payloadSize, groupSize]
    split
    · omega
    · omega

end LidarAngle.Reply
