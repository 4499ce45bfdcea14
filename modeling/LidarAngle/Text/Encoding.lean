/-!
# Latin-1 and UTF-8 text

`Text.latin1` reads every byte as the character with that code point, so it never fails and
never merges bytes. `Text.utf8` writes characters in UTF-8. Reading back with `latin1` what
`utf8` wrote leaves ASCII as it is and turns every other character into characters above ASCII.

## Main definitions

* `Text.latin1` - one character per byte
* `Text.utf8` - the UTF-8 bytes of a text
* `Text.bytes` - the same bytes in one block
-/

namespace LidarAngle.Text

/-- The text that bytes stand for in Latin-1. -/
def latin1 (bytes : List UInt8) : List Char :=
  bytes.map Char.ofUInt8

/-- The UTF-8 bytes of a text. -/
def utf8 (text : List Char) : List UInt8 :=
  text.flatMap String.utf8EncodeChar

/-- The UTF-8 bytes of a text in one block. -/
def bytes (text : List Char) : ByteArray :=
  (String.ofList text).toUTF8

@[simp] theorem latin1_nil : latin1 [] = [] := rfl

@[simp] theorem latin1_append (a b : List UInt8) : latin1 (a ++ b) = latin1 a ++ latin1 b := by
  simp [latin1]

@[simp] theorem length_latin1 (bytes : List UInt8) : (latin1 bytes).length = bytes.length := by
  simp [latin1]

@[simp] theorem utf8_nil : utf8 [] = [] := rfl

@[simp] theorem utf8_cons (c : Char) (text : List Char) :
    utf8 (c :: text) = String.utf8EncodeChar c ++ utf8 text := by
  simp [utf8]

@[simp] theorem utf8_append (a b : List Char) : utf8 (a ++ b) = utf8 a ++ utf8 b := by
  simp [utf8]

theorem bytes_append (a b : List Char) : bytes (a ++ b) = bytes a ++ bytes b := by
  simp [bytes]

end LidarAngle.Text
