import LidarAngle.Calibration
import LidarAngle.Text.Encoding
import LidarAngle.Text.Hex

/-!
# Binary replies

A binary reply is a header of text followed by a payload of twelve bytes: amplitude, phase and
offset, each as four bytes, most significant first. The amplitude and the offset are widened by
their sign.

To be decoded it is first spelled out: the header byte by byte as Latin-1 text, the payload in
hexadecimal with a space after the fourth and the eighth byte. A reply of fewer than twelve bytes
is all payload.

## Main definitions

* `Calibration.payload` - the payload of a calibration
* `Reply.compose` - a whole binary reply
* `Reply.spell` - a binary reply spelled out as text
-/

namespace LidarAngle

/-- The four bytes of a word, most significant first. -/
def bigEndian (word : UInt32) : List UInt8 :=
  [(word >>> 24).toUInt8, (word >>> 16).toUInt8, (word >>> 8).toUInt8, word.toUInt8]

def Calibration.payload (calibration : Calibration) : List UInt8 :=
  bigEndian calibration.amplitude.toInt32.toUInt32 ++ bigEndian calibration.phase.toUInt32
    ++ bigEndian calibration.offset.toInt32.toUInt32

namespace Reply

def payloadSize : Nat := 12

def groupSize : Nat := 4

def compose (header : List Char) (calibration : Calibration) : List UInt8 :=
  Text.utf8 header ++ calibration.payload

/-- What follows the byte that makes up the given number of bytes so far: a space after each
group but the last. -/
def gap (count : Nat) : List Char :=
  if count < payloadSize ∧ count % groupSize = 0 then [' '] else []

/-- A payload in hexadecimal, after `count` bytes of it. -/
def spellPayload (count : Nat) : List UInt8 → List Char
  | [] => []
  | b :: rest => Hex.byte b ++ gap (count + 1) ++ spellPayload (count + 1) rest

/-- The number of bytes in front of the payload. -/
def headerSize (reply : List UInt8) : Nat :=
  reply.length - payloadSize

/-- A binary reply spelled out as text. -/
def spell (reply : List UInt8) : List Char :=
  Text.latin1 (reply.take (headerSize reply)) ++ spellPayload 0 (reply.drop (headerSize reply))

@[simp] theorem length_payload (calibration : Calibration) :
    calibration.payload.length = payloadSize := rfl

theorem headerSize_append (header : List UInt8) {payload : List UInt8}
    (h : payload.length = payloadSize) : headerSize (header ++ payload) = header.length := by
  simp [headerSize, h]

/-- A reply of payload size or more is spelled as its header and then its payload. -/
theorem spell_append (header : List UInt8) {payload : List UInt8}
    (h : payload.length = payloadSize) :
    spell (header ++ payload) = Text.latin1 header ++ spellPayload 0 payload := by
  simp [spell, headerSize_append header h]

end Reply

end LidarAngle
