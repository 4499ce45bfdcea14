import LidarAngle.Proofs.Reply.Binary

/-!
# Misread binary replies

An accepted binary reply has a whole payload, and its phase and its offset are what the payload
says. So is its amplitude, unless the tail of the header begins with a sign: then the digits of the
first word are read in base ten, with what the tail has behind the sign in front of them, and the
amplitude is that of the payload only if the integer happens to agree with the word.

## Main definitions

* `Reply.IsMisread` - the first word is read as another integer, in base ten

## Main statements

* `Reply.eq_ofPayload_iff` - which accepted replies say what their payload says
-/

namespace LidarAngle.Reply

/-- The first word of a reply has digits of base ten only and is read in base ten, as an integer
that the amplitude tells apart from the word. -/
def IsMisread (reply : List UInt8) : Prop :=
  ∃ negative rest n, tail (header reply) = sign negative :: rest ∧
    Numeral.decimal? (rest ++ digits (group (payload reply) 0)) = some n ∧
    ¬withSign negative n ≡ (group (payload reply) 0).toNat [ZMOD 2 ^ 16]

theorem not_isMisread {reply : List UInt8} (h : ¬IsSigned (tail (header reply))) :
    ¬IsMisread reply := by
  rintro ⟨negative, rest, n, htail, -, -⟩
  exact h ⟨negative, rest, htail⟩

theorem isMisread_iff {reply : List UInt8} {negative : Bool} {rest : List Char} {n : ℕ}
    (htail : tail (header reply) = sign negative :: rest)
    (hn : Numeral.decimal? (rest ++ digits (group (payload reply) 0)) = some n) :
    IsMisread reply ↔
      ¬withSign negative n ≡ (group (payload reply) 0).toNat [ZMOD 2 ^ 16] := by
  constructor
  · rintro ⟨negative', rest', n', htail', hn', hne⟩
    obtain ⟨hsign, rfl⟩ := List.cons.inj (htail.symm.trans htail')
    obtain rfl := sign_injective hsign
    obtain rfl := Option.some.inj (hn.symm.trans hn')
    exact hne
  · intro hne
    exact ⟨negative, rest, n, htail, hn, hne⟩

/-- The amplitude that is read is that of the payload unless the reply is misread. -/
theorem low16_eq_iff {reply : List UInt8} {word : UInt64}
    (h : word? (amplitudeToken reply) = some word) :
    Calibration.low16 word = (group (payload reply) 0).toUInt16.toInt16 ↔ ¬IsMisread reply := by
  by_cases hsign : IsSigned (tail (header reply))
  · obtain ⟨negative, rest, htail⟩ := hsign
    rw [amplitudeToken, htail, List.cons_append, word?_sign_cons] at h
    obtain ⟨n, hn, -, -, rfl⟩ := signed?_eq_some_iff.1 h
    rw [isMisread_iff htail hn, not_not]
    exact Calibration.low16_ofInt_eq_half_iff _ _
  -- Without a sign the digits of the first word end a hexadecimal number.
  · obtain ⟨n, rfl⟩ := exists_of_word?_append_digits hsign h
    exact iff_of_true (Calibration.low16_ofNat_append n _) (not_isMisread hsign)

/-- An accepted binary reply has a whole payload and says the phase and the offset of it. It says
all that its payload says exactly if it is not misread. -/
theorem eq_ofPayload_iff {reply : List UInt8} {c : Calibration}
    (h : (decode .binary reply).result = .ok c) :
    payloadSize ≤ reply.length ∧ c.phase = (Calibration.ofPayload (payload reply)).phase ∧
      c.offset = (Calibration.ofPayload (payload reply)).offset ∧
      (c = .ofPayload (payload reply) ↔ ¬IsMisread reply) := by
  by_cases hsize : payloadSize ≤ reply.length
  · rw [result_decode_binary hsize] at h
    split at h
    · cases hread : readField .amplitude (amplitudeToken reply) with
      | error fault =>
        rw [hread] at h
        exact absurd h (by simp [Except.map])
      | ok word =>
        rw [hread] at h
        obtain rfl := Except.ok.inj h
        refine ⟨hsize, rfl, rfl, ?_⟩
        rw [← low16_eq_iff (readField_eq_ok_iff.1 hread), Calibration.mk.injEq]
        exact ⟨fun e => e.1, fun e => ⟨e, rfl, rfl⟩⟩
    · exact absurd h (by simp)
  · rw [result_decode_binary_of_lt (not_le.1 hsize)] at h
    exact absurd h (by simp)

/-- A mark of hexadecimal numbers in front of the payload does no harm. -/
theorem eq_ofPayload_iff_marked :
    payloadSize ≤ (Text.utf8 "sRA MCAngleCompSin 0x".toList ++
        [0, 0, 7, 0x65, 0xFF, 0xFC, 0xC9, 0xB9, 0xFF, 0xFF, 0xFF, 0x0B]).length ∧
      (⟨1893, -210503, -245⟩ : Calibration) = .ofPayload (payload (
        Text.utf8 "sRA MCAngleCompSin 0x".toList ++
          [0, 0, 7, 0x65, 0xFF, 0xFC, 0xC9, 0xB9, 0xFF, 0xFF, 0xFF, 0x0B])) ∧
      ¬IsMisread (Text.utf8 "sRA MCAngleCompSin 0x".toList ++
        [0, 0, 7, 0x65, 0xFF, 0xFC, 0xC9, 0xB9, 0xFF, 0xFF, 0xFF, 0x0B]) := by
  have h : (decode .binary (Text.utf8 "sRA MCAngleCompSin 0x".toList ++
      [0, 0, 7, 0x65, 0xFF, 0xFC, 0xC9, 0xB9, 0xFF, 0xFF, 0xFF, 0x0B])).result =
        .ok ⟨1893, -210503, -245⟩ := by
    decide
  obtain ⟨hsize, -, -, hiff⟩ := eq_ofPayload_iff h
  have hpayload : (⟨1893, -210503, -245⟩ : Calibration) = .ofPayload (payload (
      Text.utf8 "sRA MCAngleCompSin 0x".toList ++
        [0, 0, 7, 0x65, 0xFF, 0xFC, 0xC9, 0xB9, 0xFF, 0xFF, 0xFF, 0x0B])) := by
    decide
  exact ⟨hsize, hpayload, hiff.1 hpayload⟩

/-- An accepted reply need not say what its payload says: behind a header that ends in a plus sign
the word of the amplitude `0x10` is read as the integer ten. -/
theorem not_forall_eq_ofPayload :
    ¬∀ reply c, (decode .binary reply).result = .ok c →
      payloadSize ≤ reply.length ∧ c = .ofPayload (payload reply) := by
  intro hall
  have h := hall (Text.utf8 "sRA MCAngleCompSin +".toList ++
    [0, 0, 0, 0x10, 0, 0, 0, 0, 0, 0, 0, 0]) ⟨10, 0, 0⟩ (by decide)
  exact absurd h.2 (by decide)

end LidarAngle.Reply
