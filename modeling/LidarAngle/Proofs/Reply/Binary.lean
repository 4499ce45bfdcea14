import LidarAngle.Proofs.Reply.Word

/-!
# Decoding binary replies

A binary reply is accepted or rejected for its header: for the number of spaces in it, and for what
stands after the last of them, which is read together with the word of the amplitude. The phase and
the offset are always read from the payload as they stand.

## Main definitions

* `Reply.amplitudeToken` - what the amplitude is read from

## Main statements

* `Reply.result_decode_binary` - what comes of a reply with a whole payload
* `Reply.result_decode_binary_of_terminated` - a header that ends in a space leaves the payload
  alone
-/

namespace LidarAngle.Reply

/-- What the amplitude is read from: the tail of the header and the digits of the first word. -/
def amplitudeToken (reply : List UInt8) : List Char :=
  tail (header reply) ++ digits (group (payload reply) 0)

theorem readField_eq_ok_iff {field : Field} {token : List Char} {word : UInt64} :
    readField field token = .ok word ↔ word? token = some word := by
  unfold readField
  cases word? token with
  | none => simp
  | some w => simp

alias ⟨_, readField_of_word?⟩ := readField_eq_ok_iff

theorem decodeTokens_of_length_ne {pieces : List (List Char)} (h : pieces.length ≠ 5) :
    decodeTokens pieces = .error (.tokenCount pieces.length) := by
  unfold decodeTokens
  split
  · exact absurd rfl h
  · rfl

/-- The phase and the offset are read from their words as they stand. -/
theorem decodeTokens_words (marker command amplitude : List Char) (v w : UInt32) :
    decodeTokens [marker, command, amplitude, digits v, digits w] =
      (readField .amplitude amplitude).map fun word =>
        { amplitude := Calibration.low16 word, phase := v.toInt32,
          offset := w.toUInt16.toInt16 } := by
  rw [decodeTokens]
  cases readField .amplitude amplitude with
  | error fault => rfl
  | ok word =>
    rw [readField_of_word? (word?_digits v), readField_of_word? (word?_digits w)]
    show Except.ok (Calibration.ofWords word (.ofNat v.toNat) (.ofNat w.toNat)) = _
    rw [Calibration.ofWords, Calibration.low32_ofNat_toNat, Calibration.low16_ofNat_toNat]
    rfl

/-- What comes of a reply with a whole payload. -/
theorem result_decode_binary {reply : List UInt8} (h : payloadSize ≤ reply.length) :
    (decode .binary reply).result =
      if (header reply).count 0x20 = 2 then
        (readField .amplitude (amplitudeToken reply)).map fun word =>
          { Calibration.ofPayload (payload reply) with amplitude := Calibration.low16 word }
      else .error (.tokenCount ((header reply).count 0x20 + 3)) := by
  have hresult : (decode .binary reply).result = decodeTokens (tokens (spell reply)) := rfl
  have hlength : ((Text.latin1 (header reply)).splitOn ' ').length =
      (header reply).count 0x20 + 1 := by
    rw [Text.length_splitOn, Text.count_latin1]
  rw [hresult, tokens_spell h, ← amplitudeToken]
  -- Two spaces in the header leave just the marker and the command in front of the three fields.
  split
  · next hcount =>
    rw [hcount] at hlength
    match (Text.latin1 (header reply)).splitOn ' ', hlength with
    | [marker, command, _], _ => exact decodeTokens_words marker command _ _ _
  · next hcount =>
    rw [decodeTokens_of_length_ne]
    · congr 2
      rw [List.length_append, List.length_dropLast, hlength]
      rfl
    · rw [List.length_append, List.length_dropLast, hlength]
      simpa using hcount

/-- A header with two spaces, the second one at its end, leaves the payload alone: whatever the
payload is, the reply is accepted and read as what the payload says. -/
theorem result_decode_binary_of_terminated {front bytes : List UInt8}
    (hcount : front.count 0x20 = 2) (hlast : front.getLast? = some 0x20)
    (hbytes : bytes.length = payloadSize) :
    (decode .binary (front ++ bytes)).result = .ok (.ofPayload bytes) := by
  have hle : payloadSize ≤ (front ++ bytes).length := by
    rw [List.length_append]
    omega
  have htail : tail front = [] := by
    obtain ⟨init, rfl⟩ := List.getLast?_eq_some_iff.1 hlast
    rw [tail, Text.latin1_append]
    show ((Text.latin1 init ++ [' ']).splitOn ' ').getLastD [] = []
    rw [Text.splitOn_append_self, List.getLastD_concat]
  -- Nothing is read together with the first word.
  rw [result_decode_binary hle, amplitudeToken, header_append front hbytes,
    payload_append front hbytes, if_pos hcount, htail, List.nil_append,
    readField_of_word? (word?_digits _)]
  exact congrArg Except.ok (by simp only [Calibration.low16_ofNat_toNat]; rfl)

/-- A reply without a whole payload is rejected for its number of tokens. -/
theorem result_decode_binary_of_lt {reply : List UInt8} (h : reply.length < payloadSize) :
    (decode .binary reply).result = .error (.tokenCount ((reply.length + 3) / 4)) := by
  have hlength := length_tokens_spell_of_lt h
  have hne : (tokens (spell reply)).length ≠ 5 := by
    unfold payloadSize at h
    omega
  rw [← hlength]
  exact decodeTokens_of_length_ne hne

end LidarAngle.Reply
