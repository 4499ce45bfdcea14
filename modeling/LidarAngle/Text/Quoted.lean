import LidarAngle.Text.Hex
import LidarAngle.Text.Printable

/-!
# Quoted text

Messages show text from outside between double quotes, with escapes for whatever would be
ambiguous or invisible: the quote and the backslash, four controls with a letter of their own,
and every other character that does not show as its code point in hexadecimal. The apostrophe
stays as it is.

## Main definitions

* `Quoted.escape` - one character as it stands between the quotes
* `Quoted.quote` - a text in its quotes
-/

namespace LidarAngle.Quoted

/-- A code point in braces: lower-case hexadecimal without leading zeros. -/
def codePoint (c : Char) : List Char :=
  ['\\', 'u', '\x7b'] ++ Nat.toDigits 16 c.toNat ++ ['\x7d']

/-- One character as it stands between the quotes. -/
def escape (c : Char) : List Char :=
  if c = '\x00' then ['\\', '0']
  else if c = '\t' then ['\\', 't']
  else if c = '\n' then ['\\', 'n']
  else if c = '\r' then ['\\', 'r']
  else if c = '"' then ['\\', '"']
  else if c = '\\' then ['\\', '\\']
  else if Text.Shows c then [c]
  else codePoint c

def quote (text : List Char) : List Char :=
  '"' :: text.flatMap escape ++ ['"']

/-- A text whose characters all show and need no escape is quoted as it is. -/
theorem flatMap_escape_of_plain {text : List Char}
    (h : ∀ c ∈ text, Text.Shows c ∧ c ≠ '"' ∧ c ≠ '\\') : text.flatMap escape = text := by
  induction text with
  | nil => rfl
  | cons c rest ih =>
    obtain ⟨hs, hq, hb⟩ := h c (by simp)
    have hp : escape c = [c] := by
      have hc : ∀ d, ¬Text.Shows d → c ≠ d := fun d hd e => hd (e ▸ hs)
      simp [escape, hs, hq, hb, hc '\x00' (by decide), hc '\t' (by decide), hc '\n' (by decide),
        hc '\r' (by decide)]
    simp [hp, ih fun d hd => h d (by simp [hd])]

end LidarAngle.Quoted
