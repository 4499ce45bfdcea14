import LidarAngle.Proofs.Text.Separator
import LidarAngle.Reply.Tokens

/-!
# Cutting replies into tokens

The number of tokens of a text is a matter of its spaces alone. Tokens that are written with single
spaces between them are found again, whether or not the text ends with one more space. Only an empty
token at the end has to be terminated, or it is lost; if every token is terminated none is.

## Main definitions

* `Reply.numTokens` - the number of tokens, by the spaces of a text
* `Reply.IsCut` - a text as pieces with single spaces between them

## Main statements

* `Reply.tokens_eq_splitOn`, `Reply.length_tokens` - the tokens and their number
* `Reply.tokens_intercalate`, `Reply.tokens_intercalate_append_space` - tokens are found again
* `Reply.isCut_iff` - a text is cut into its tokens and in no other way
* `Reply.tokens_spec` - which pieces are found again, and what is lost of a text
-/

namespace LidarAngle.Reply

theorem tokens_of_getLast?_ne {text : List Char} (hne : text ≠ [])
    (hlast : text.getLast? ≠ some ' ') : tokens text = text.splitOn ' ' := by
  rw [tokens, if_neg hne, unterminated, if_neg hlast]

theorem tokens_of_last_piece {text : List Char} (h : (text.splitOn ' ').getLast? ≠ some []) :
    tokens text = text.splitOn ' ' := by
  apply tokens_of_getLast?_ne
  · rintro rfl
    exact h rfl
  · intro hlast
    obtain ⟨init, rfl⟩ := List.getLast?_eq_some_iff.1 hlast
    rw [Text.splitOn_append_self, List.getLast?_concat] at h
    exact h rfl

theorem tokens_of_last_piece_nil {text : List Char} (h : (text.splitOn ' ').getLast? = some []) :
    tokens text = (text.splitOn ' ').dropLast := by
  rcases List.eq_nil_or_concat text with rfl | ⟨init, c, rfl⟩
  · rfl
  · rw [List.concat_eq_append] at h ⊢
    by_cases hc : c = ' '
    · rw [hc, tokens_append_space, Text.splitOn_append_self, List.dropLast_concat]
    -- Any other last character stands in the last piece.
    · have hnot : ' ' ∉ [c] := by simpa using Ne.symm hc
      rw [Text.splitOn_append_of_notMem init hnot, List.getLast?_concat] at h
      exact absurd (Option.some.inj h) (by simp)

/-- The tokens are the pieces between spaces, without the last one if it is empty. -/
theorem tokens_eq_splitOn (text : List Char) :
    tokens text =
      if (text.splitOn ' ').getLast? = some [] then (text.splitOn ' ').dropLast
      else text.splitOn ' ' := by
  split
  · next h => exact tokens_of_last_piece_nil h
  · next h => exact tokens_of_last_piece h

theorem length_tokens (text : List Char) :
    (tokens text).length =
      if text = [] then 0
      else if text.getLast? = some ' ' then text.count ' '
      else text.count ' ' + 1 := by
  by_cases hne : text = []
  · simp [hne]
  · rw [if_neg hne]
    by_cases hlast : text.getLast? = some ' '
    · obtain ⟨init, rfl⟩ := List.getLast?_eq_some_iff.1 hlast
      rw [if_pos hlast, tokens_append_space, Text.length_splitOn]
      simp
    · rw [if_neg hlast, tokens_of_getLast?_ne hne hlast, Text.length_splitOn]

/-- Tokens with single spaces between them are found again, if the last one is not empty. -/
theorem tokens_intercalate {pieces : List (List Char)} (hpieces : ∀ piece ∈ pieces, ' ' ∉ piece)
    (hne : pieces ≠ []) (hlast : pieces.getLast? ≠ some []) :
    tokens ([' '].intercalate pieces) = pieces := by
  have hsplit := List.splitOn_intercalate ' ' hpieces hne
  rw [tokens_of_last_piece (by rwa [hsplit]), hsplit]

theorem tokens_intercalate_append_space {pieces : List (List Char)}
    (hpieces : ∀ piece ∈ pieces, ' ' ∉ piece) (hne : pieces ≠ []) :
    tokens ([' '].intercalate pieces ++ [' ']) = pieces := by
  rw [tokens_append_space, List.splitOn_intercalate ' ' hpieces hne]

theorem tokens_flatMap_append_space {pieces : List (List Char)}
    (hpieces : ∀ piece ∈ pieces, ' ' ∉ piece) :
    tokens (pieces.flatMap fun piece => piece ++ [' ']) = pieces := by
  have hsplit := Text.splitOn_flatMap_append_self (f := id) hpieces
  rw [List.map_id] at hsplit
  change (pieces.flatMap fun piece => piece ++ [' ']).splitOn ' ' = _ at hsplit
  rw [tokens_of_last_piece_nil (by rw [hsplit, List.getLast?_concat]), hsplit,
    List.dropLast_concat]

theorem space_notMem_of_mem_tokens {text token : List Char} (h : token ∈ tokens text) :
    ' ' ∉ token := by
  rw [tokens] at h
  split at h
  · exact absurd h List.not_mem_nil
  · exact Text.notMem_of_mem_splitOn h

/-- Nothing of a text is lost but the space that it may end in. -/
theorem intercalate_tokens (text : List Char) :
    [' '].intercalate (tokens text) = unterminated text := by
  rw [tokens]
  split
  · next h =>
    rw [h]
    rfl
  · exact List.intercalate_splitOn ' '

section Cut

variable {text : List Char} {pieces : List (List Char)} {terminated : Bool}

/-- The number of tokens: one more than there are spaces, not counting a space at the very end, and
none in an empty text. -/
def numTokens (text : List Char) : Nat :=
  if text = [] then 0
  else text.count ' ' + 1 - if text.getLast? = some ' ' then 1 else 0

/-- Pieces with single spaces between them, and one more at the end if they are terminated. -/
def join (pieces : List (List Char)) (terminated : Bool) : List Char :=
  if terminated then [' '].intercalate pieces ++ [' '] else [' '].intercalate pieces

/-- The pieces have no spaces and make up the text. -/
structure IsCut (text : List Char) (pieces : List (List Char)) (terminated : Bool) : Prop where
  space_notMem : ∀ piece ∈ pieces, ' ' ∉ piece
  join_eq : join pieces terminated = text

theorem length_tokens_eq_numTokens (text : List Char) : (tokens text).length = numTokens text := by
  rw [length_tokens, numTokens]
  split
  · rfl
  · split
    · rfl
    · rfl

/-- Of the pieces only an empty last one may be lost, if nothing terminates it. -/
theorem IsCut.tokens_eq (h : IsCut text pieces terminated) (hne : pieces ≠ []) :
    tokens text =
      if terminated = false ∧ pieces.getLast? = some [] then pieces.dropLast else pieces := by
  obtain ⟨hpieces, rfl⟩ := h
  cases terminated with
  | true =>
    rw [if_neg (by simp)]
    exact tokens_intercalate_append_space hpieces hne
  | false =>
    have hsplit := List.splitOn_intercalate ' ' hpieces hne
    show tokens ([' '].intercalate pieces) = _
    rw [tokens_eq_splitOn, hsplit]
    simp

theorem IsCut.tokens_eq_iff (h : IsCut text pieces terminated) (hne : pieces ≠ []) :
    tokens text = pieces ↔ ¬(terminated = false ∧ pieces.getLast? = some []) := by
  have hpos := List.length_pos_iff.2 hne
  rw [h.tokens_eq hne]
  split
  · next hlost =>
    refine iff_of_false (fun e => ?_) (not_not_intro hlost)
    have hlength := congrArg List.length e
    rw [List.length_dropLast] at hlength
    omega
  · next hkept => exact iff_of_true rfl hkept

theorem isCut_tokens (text : List Char) :
    IsCut text (tokens text) (text.getLast? = some ' ') := by
  refine ⟨fun piece => space_notMem_of_mem_tokens, ?_⟩
  rw [join, intercalate_tokens, unterminated]
  by_cases hlast : text.getLast? = some ' '
  · obtain ⟨init, rfl⟩ := List.getLast?_eq_some_iff.1 hlast
    simp
  · rw [if_neg (by simpa using hlast), if_neg hlast]

/-- If nothing is lost, the pieces are terminated exactly if the text ends with a space. -/
theorem IsCut.terminated_eq (h : IsCut text pieces terminated) (hne : pieces ≠ [])
    (hkept : ¬(terminated = false ∧ pieces.getLast? = some [])) :
    terminated = decide (text.getLast? = some ' ') := by
  cases terminated with
  | true => simp [← h.join_eq, join]
  -- A text that nothing terminates ends with its last piece, which is not empty.
  | false =>
    have hsplit := List.splitOn_intercalate ' ' h.space_notMem hne
    have htext : [' '].intercalate pieces = text := h.join_eq
    rw [htext] at hsplit
    symm
    rw [decide_eq_false_iff_not]
    intro hlast
    obtain ⟨init, rfl⟩ := List.getLast?_eq_some_iff.1 hlast
    rw [Text.splitOn_append_self] at hsplit
    exact hkept ⟨rfl, by rw [← hsplit, List.getLast?_concat]⟩

/-- A text is cut into as many pieces as it has tokens in one way only. -/
theorem isCut_iff (hcount : numTokens text ≠ 0) :
    pieces.length = numTokens text ∧ IsCut text pieces terminated ↔
      pieces = tokens text ∧ terminated = decide (text.getLast? = some ' ') := by
  constructor
  · rintro ⟨hlength, h⟩
    have hpos : 0 < pieces.length := by omega
    have hne := List.length_pos_iff.1 hpos
    have htokens := h.tokens_eq hne
    rw [← length_tokens_eq_numTokens] at hlength
    split at htokens
    · rw [htokens, List.length_dropLast] at hlength
      omega
    · next hkept => exact ⟨htokens.symm, h.terminated_eq hne hkept⟩
  · rintro ⟨rfl, rfl⟩
    exact ⟨length_tokens_eq_numTokens text, isCut_tokens text⟩

end Cut

/-- Pieces that are each followed by a space are the tokens of what they make up exactly if none of
them has a space. The tokens of a text never have one, and with single spaces between them they make
up the text again, without the space that it may end in. Pieces with single spaces between them and
nothing behind the last are the tokens of what they make up exactly if none of them has a space and
the last one is not empty. -/
theorem tokens_spec (pieces : List (List Char)) (text : List Char) :
    (tokens (pieces.flatMap fun piece => piece ++ [' ']) = pieces ↔
      ∀ piece ∈ pieces, ' ' ∉ piece) ∧
    (∀ token ∈ tokens text, ' ' ∉ token) ∧
    [' '].intercalate (tokens text) =
      (if text.getLast? = some ' ' then text.dropLast else text) ∧
    (tokens ([' '].intercalate pieces) = pieces ↔
      (∀ piece ∈ pieces, ' ' ∉ piece) ∧ pieces.getLast? ≠ some []) := by
  have hmem : ∀ {text}, tokens text = pieces → ∀ piece ∈ pieces, ' ' ∉ piece := by
    rintro text rfl piece
    exact space_notMem_of_mem_tokens
  refine ⟨⟨hmem, tokens_flatMap_append_space⟩, fun _ => space_notMem_of_mem_tokens,
    intercalate_tokens text, ?_⟩
  by_cases hne : pieces = []
  · subst hne
    exact iff_of_true rfl ⟨by simp, by simp⟩
  · constructor
    · intro h
      have hcut : IsCut ([' '].intercalate pieces) pieces false := ⟨hmem h, rfl⟩
      exact ⟨hmem h, fun hlast => (hcut.tokens_eq_iff hne).1 h ⟨rfl, hlast⟩⟩
    · rintro ⟨hpieces, hlast⟩
      exact tokens_intercalate hpieces hne hlast

end LidarAngle.Reply
