import LidarAngle.Proofs.Reply.Binary

/-!
# Composing and decoding binary replies

A header that has two spaces, the second one at its end, keeps the payload apart, in whatever
characters it is written otherwise: characters above ASCII come back as others, but spaces neither
appear nor vanish. Behind such a header a composed reply is read as the calibration that it was
composed of, and every payload is read. A payload is composed again from what was read unless its
redundant halves say something of their own.

## Main statements

* `Reply.decode_compose` - both directions of the round trip
-/

namespace LidarAngle

namespace Text

/-- Reading back in Latin-1 what was written in UTF-8 keeps the number of spaces. -/
theorem count_utf8 (text : List Char) : (utf8 text).count 0x20 = text.count ' ' := by
  have hlatin := length_splitOn (a := ' ') (latin1 (utf8 text))
  have htext := length_splitOn (a := ' ') text
  rw [splitOn_latin1_utf8, List.length_map, htext, count_latin1] at hlatin
  omega

theorem getLast?_utf8 {text : List Char} (h : text.getLast? = some ' ') :
    (utf8 text).getLast? = some 0x20 := by
  obtain ⟨init, rfl⟩ := List.getLast?_eq_some_iff.1 h
  have hspace : utf8 [' '] = [0x20] := by decide
  rw [utf8_append, hspace, List.getLast?_concat]

end Text

namespace Reply

/-- Behind a header with two spaces, the second one at its end, a composed reply is read as the
calibration that it was composed of. Conversely every payload is read there, and composed again
from what was read exactly if the words of the amplitude and the offset are widened by their
sign. -/
theorem decode_compose {header : List Char} (hcount : header.count ' ' = 2)
    (hlast : header.getLast? = some ' ') :
    (∀ c : Calibration, (decode .binary (compose header c)).result = .ok c) ∧
      ∀ bytes : List UInt8, bytes.length = payloadSize →
        ∃ c : Calibration, (decode .binary (Text.utf8 header ++ bytes)).result = .ok c ∧
          (c.payload = bytes ↔
            IsSignExtended (group bytes 0) ∧ IsSignExtended (group bytes 2)) := by
  have hcount' : (Text.utf8 header).count 0x20 = 2 := by rw [Text.count_utf8, hcount]
  have hlast' := Text.getLast?_utf8 hlast
  constructor
  · intro c
    rw [compose, result_decode_binary_of_terminated hcount' hlast' (length_payload c),
      Calibration.ofPayload_payload]
  · intro bytes hbytes
    refine ⟨.ofPayload bytes, ?_, ?_⟩
    · exact result_decode_binary_of_terminated hcount' hlast' hbytes
    · exact Calibration.payload_ofPayload_iff hbytes

/-- A header beyond ASCII, extreme values, and a payload of spaces, signs and zeros. -/
theorem decode_compose_umbrella :
    ['é', ' ', '☂', ' '].count ' ' = 2 ∧ ['é', ' ', '☂', ' '].getLast? = some ' ' ∧
      (decode .binary (compose ['é', ' ', '☂', ' ']
        { amplitude := -32768, phase := 2147483647, offset := -1 })).result =
        .ok { amplitude := -32768, phase := 2147483647, offset := -1 } ∧
      ∃ c : Calibration, (decode .binary (Text.utf8 ['é', ' ', '☂', ' '] ++
          [0x20, 0x2B, 0x30, 0x20, 0x20, 0x20, 0x20, 0x20, 0x2D, 0x30, 0x30, 0x78])).result =
          .ok c ∧
        (c.payload = [0x20, 0x2B, 0x30, 0x20, 0x20, 0x20, 0x20, 0x20, 0x2D, 0x30, 0x30, 0x78] ↔
          IsSignExtended (group
            [0x20, 0x2B, 0x30, 0x20, 0x20, 0x20, 0x20, 0x20, 0x2D, 0x30, 0x30, 0x78] 0) ∧
          IsSignExtended (group
            [0x20, 0x2B, 0x30, 0x20, 0x20, 0x20, 0x20, 0x20, 0x2D, 0x30, 0x30, 0x78] 2)) := by
  have hcount : ['é', ' ', '☂', ' '].count ' ' = 2 := by decide
  have hlast : ['é', ' ', '☂', ' '].getLast? = some ' ' := by decide
  obtain ⟨hcompose, hdecode⟩ := decode_compose hcount hlast
  exact ⟨hcount, hlast, hcompose _, hdecode _ (by decide)⟩

end Reply

end LidarAngle
