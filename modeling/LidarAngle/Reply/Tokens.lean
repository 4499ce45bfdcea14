/-!
# Tokens

A reply in text form is cut at every single space. Spaces next to each other enclose empty
tokens. One space at the very end only terminates the last token, and an empty reply has no
tokens at all.

## Main definitions

* `Reply.tokens` - the tokens of a reply
-/

namespace LidarAngle.Reply

/-- A text without the one space it may end in. -/
def unterminated (text : List Char) : List Char :=
  if text.getLast? = some ' ' then text.dropLast else text

def tokens (text : List Char) : List (List Char) :=
  if text = [] then [] else (unterminated text).splitOn ' '

@[simp] theorem tokens_nil : tokens [] = [] := rfl

/-- A space at the very end only terminates the last token. -/
theorem tokens_append_space (text : List Char) : tokens (text ++ [' ']) = text.splitOn ' ' := by
  simp [tokens, unterminated]

end LidarAngle.Reply
