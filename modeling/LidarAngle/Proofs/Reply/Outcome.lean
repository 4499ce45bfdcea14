import LidarAngle.Proofs.Reply.Binary

/-!
# The outcomes of binary replies

Whether a binary reply is accepted is settled by its length and its header. A reply that is too
short is rejected for its number of tokens, and so is one whose header does not have two spaces,
whatever its payload is. With two spaces the only thing that can still go wrong is the amplitude,
and only if the header goes on behind the second space.

## Main statements

* `Reply.result_decode_binary_cases` - what comes of any binary reply
-/

namespace LidarAngle.Reply

/-- The digits of the first word of a payload are those of its first four bytes. -/
theorem digits_group_zero {bytes : List UInt8} (h : bytes.length = payloadSize) :
    digits (group bytes 0) = (bytes.take groupSize).flatMap Hex.byte := by
  have htake : (bytes.take groupSize).length = 4 := by
    rw [List.length_take, h]
    rfl
  have hgroup : group bytes 0 = .ofNat (ofBigEndian (bytes.take groupSize)) := rfl
  rw [digits, hgroup, bigEndian_ofBigEndian htake]

/-- The tail of a header is what stands behind its last space. -/
theorem tail_append {front rest : List UInt8} (h : 0x20 ∉ rest) :
    tail (front ++ 0x20 :: rest) = Text.latin1 rest := by
  have hrest : ' ' ∉ Text.latin1 rest := by
    rw [← List.count_eq_zero, Text.count_latin1]
    exact List.count_eq_zero.2 h
  have hcons : Text.latin1 (0x20 :: rest) = ' ' :: Text.latin1 rest := rfl
  rw [tail, Text.latin1_append, hcons, List.splitOn_append_cons_self,
    List.splitOn_eq_singleton hrest, List.getLastD_concat]

/-- What comes of any binary reply. One that is too short counts a token for every group begun; one
with another header than of two spaces counts three tokens more than spaces. With two spaces, the
second one at the end, every payload is read; with something behind the second space the reply is
accepted or its amplitude rejected, with that something in front of the digits. No other field is
ever rejected. -/
theorem result_decode_binary_cases (reply : List UInt8) :
    (reply.length < payloadSize →
      (decode .binary reply).result = .error (.tokenCount ((reply.length + 3) / 4))) ∧
    (payloadSize ≤ reply.length →
      ((header reply).count 0x20 ≠ 2 →
        (decode .binary reply).result = .error (.tokenCount ((header reply).count 0x20 + 3))) ∧
      ((header reply).count 0x20 = 2 → (header reply).getLast? = some 0x20 →
        (decode .binary reply).result = .ok (.ofPayload (payload reply))) ∧
      ∀ front rest, header reply = front ++ 0x20 :: rest → 0x20 ∉ rest → rest ≠ [] →
        (header reply).count 0x20 = 2 →
          (∃ c, (decode .binary reply).result = .ok c) ∨
            (decode .binary reply).result = .error (.badField .amplitude
              (Text.latin1 rest ++ ((payload reply).take groupSize).flatMap Hex.byte))) ∧
    ∀ field token,
      (decode .binary reply).result = .error (.badField field token) → field = .amplitude := by
  refine ⟨result_decode_binary_of_lt, fun hsize => ⟨?_, ?_, ?_⟩, ?_⟩
  · intro hcount
    rw [result_decode_binary hsize, if_neg hcount]
  · intro hcount hlast
    have hbytes := length_payload_of_le hsize
    have hreply : header reply ++ payload reply = reply := List.take_append_drop _ _
    have h := result_decode_binary_of_terminated hcount hlast hbytes
    rwa [hreply] at h
  · intro front rest hheader hrest _ hcount
    have htoken : amplitudeToken reply =
        Text.latin1 rest ++ ((payload reply).take groupSize).flatMap Hex.byte := by
      rw [amplitudeToken, hheader, tail_append hrest,
        digits_group_zero (length_payload_of_le hsize)]
    rw [result_decode_binary hsize, if_pos hcount, htoken]
    unfold readField
    split
    · exact .inl ⟨_, rfl⟩
    · exact .inr rfl
  · intro field token h
    by_cases hsize : payloadSize ≤ reply.length
    · rw [result_decode_binary hsize] at h
      unfold readField at h
      split at h
      · split at h
        · exact absurd h (by simp [Except.map])
        · injection h with hfault
          injection hfault with hfield _
          exact hfield.symm
      · exact absurd h (by simp)
    · rw [result_decode_binary_of_lt (not_le.1 hsize)] at h
      exact absurd h (by simp)

/-- Four bytes, whose text ends with a space that counts for nothing; a header of one space in front
of a payload of spaces; and a header that goes on behind its second space. -/
theorem result_decode_binary_cases_short_and_tailed :
    (decode .binary [0x20, 0x20, 0x20, 0x20]).result = .error (.tokenCount 1) ∧
      (decode .binary ([0x61, 0x20, 0x62] ++ List.replicate 12 0x20)).result =
        .error (.tokenCount 4) ∧
      ((∃ c, (decode .binary ([0x61, 0x20, 0x62, 0x20, 0xE9] ++ List.replicate 12 0x20)).result =
          .ok c) ∨
        (decode .binary ([0x61, 0x20, 0x62, 0x20, 0xE9] ++ List.replicate 12 0x20)).result =
          .error (.badField .amplitude "é20202020".toList)) := by
  refine ⟨?_, ?_, ?_⟩
  · exact (result_decode_binary_cases [0x20, 0x20, 0x20, 0x20]).1 (by decide)
  · exact ((result_decode_binary_cases ([0x61, 0x20, 0x62] ++ List.replicate 12 0x20)).2.1
      (by decide)).1 (by decide)
  · exact ((result_decode_binary_cases
      ([0x61, 0x20, 0x62, 0x20, 0xE9] ++ List.replicate 12 0x20)).2.1 (by decide)).2.2
      [0x61, 0x20, 0x62] [0xE9] (by decide) (by decide) (by decide) (by decide)

end LidarAngle.Reply
