import LidarAngle.Proofs.Reply.Binary

/-!
# The outcomes of replies in text form

Whether a text has the right number of tokens is a matter of its spaces alone and comes before
everything else. A text of five tokens can be cut in one way only. Its marker and its command are
never looked at; of its three fields the first that is no word is named, with the token as it
stands.

## Main definitions

* `Reply.Yields` - what three fields come to

## Main statements

* `Reply.yields_iff` - what is decoded from tokens is what their fields come to
* `Reply.decodeText_cases` - what comes of any text
-/

namespace LidarAngle

namespace Calibration

theorem toInt_low16 (word : UInt64) : (low16 word).toInt = (word.toNat : ℤ).bmod (2 ^ 16) := by
  rw [← UInt64.ofNat_toNat (x := word), ofNat_eq_ofInt, low16_ofInt, Int16.toInt_ofInt,
    ← ofNat_eq_ofInt, UInt64.ofNat_toNat]
  rfl

theorem toInt_low32 (word : UInt64) : (low32 word).toInt = (word.toNat : ℤ).bmod (2 ^ 32) := by
  rw [← UInt64.ofNat_toNat (x := word), ofNat_eq_ofInt, low32_ofInt, Int32.toInt_ofInt,
    ← ofNat_eq_ofInt, UInt64.ofNat_toNat]
  rfl

end Calibration

namespace Reply

section Fields

variable {amplitude phase offset : List Char} {outcome : Except Fault Calibration}

/-- What three fields come to: the first of them that is no word is at fault; if there is none, the
low bits of the words, as signed integers, are the calibration. -/
inductive Yields (amplitude phase offset : List Char) : Except Fault Calibration → Prop
  | badAmplitude (hamplitude : word? amplitude = none) :
      Yields amplitude phase offset (.error (.badField .amplitude amplitude))
  | badPhase {u : UInt64} (hamplitude : word? amplitude = some u) (hphase : word? phase = none) :
      Yields amplitude phase offset (.error (.badField .phase phase))
  | badOffset {u v : UInt64} (hamplitude : word? amplitude = some u)
      (hphase : word? phase = some v) (hoffset : word? offset = none) :
      Yields amplitude phase offset (.error (.badField .offset offset))
  | words {u v w : UInt64} {c : Calibration} (hamplitude : word? amplitude = some u)
      (hphase : word? phase = some v) (hoffset : word? offset = some w)
      (hu : c.amplitude.toInt = (u.toNat : ℤ).bmod (2 ^ 16))
      (hv : c.phase.toInt = (v.toNat : ℤ).bmod (2 ^ 32))
      (hw : c.offset.toInt = (w.toNat : ℤ).bmod (2 ^ 16)) : Yields amplitude phase offset (.ok c)

theorem readField_of_word?_eq_none {token : List Char} (h : word? token = none) (field : Field) :
    readField field token = .error (.badField field token) := by
  rw [readField, h]

theorem Yields.decodeTokens_eq (h : Yields amplitude phase offset outcome)
    (marker command : List Char) :
    decodeTokens [marker, command, amplitude, phase, offset] = outcome := by
  rw [decodeTokens]
  cases h with
  | badAmplitude hamplitude =>
    rw [readField_of_word?_eq_none hamplitude]
    rfl
  | badPhase hamplitude hphase =>
    rw [readField_of_word? hamplitude, readField_of_word?_eq_none hphase]
    rfl
  | badOffset hamplitude hphase hoffset =>
    rw [readField_of_word? hamplitude, readField_of_word? hphase,
      readField_of_word?_eq_none hoffset]
    rfl
  | @words u v w c hamplitude hphase hoffset hu hv hw =>
    rw [readField_of_word? hamplitude, readField_of_word? hphase, readField_of_word? hoffset]
    rw [← Calibration.toInt_low16, Int16.toInt_inj] at hu hw
    rw [← Calibration.toInt_low32, Int32.toInt_inj] at hv
    show Except.ok (Calibration.ofWords u v w) = .ok c
    rw [Calibration.ofWords, ← hu, ← hv, ← hw]

theorem exists_yields (amplitude phase offset : List Char) :
    ∃ outcome, Yields amplitude phase offset outcome := by
  cases hamplitude : word? amplitude with
  | none => exact ⟨_, .badAmplitude hamplitude⟩
  | some u =>
    cases hphase : word? phase with
    | none => exact ⟨_, .badPhase hamplitude hphase⟩
    | some v =>
      cases hoffset : word? offset with
      | none => exact ⟨_, .badOffset hamplitude hphase hoffset⟩
      | some w =>
        exact ⟨.ok (.ofWords u v w), .words hamplitude hphase hoffset (Calibration.toInt_low16 u)
          (Calibration.toInt_low32 v) (Calibration.toInt_low16 w)⟩

/-- What is decoded from five tokens is what the last three come to, and nothing else is. -/
theorem yields_iff (marker command : List Char) :
    Yields amplitude phase offset outcome ↔
      decodeTokens [marker, command, amplitude, phase, offset] = outcome := by
  constructor
  · exact fun h => h.decodeTokens_eq marker command
  · rintro rfl
    obtain ⟨outcome, h⟩ := exists_yields amplitude phase offset
    rwa [h.decodeTokens_eq marker command]

/-- Another marker and another command make no difference to what is decoded. -/
theorem IsCut.decodeText_join {text marker command marker' command' : List Char}
    {terminated : Bool}
    (h : IsCut text [marker, command, amplitude, phase, offset] terminated)
    (htokens : tokens text = [marker, command, amplitude, phase, offset])
    (hmarker : ' ' ∉ marker') (hcommand : ' ' ∉ command') :
    decodeText (join [marker', command', amplitude, phase, offset] terminated) =
      decodeText text := by
  have h' : IsCut (join [marker', command', amplitude, phase, offset] terminated)
      [marker', command', amplitude, phase, offset] terminated := by
    refine ⟨?_, rfl⟩
    have hfields := h.space_notMem
    simp only [List.forall_mem_cons] at hfields ⊢
    exact ⟨hmarker, hcommand, hfields.2.2⟩
  -- Whether the last piece is lost depends on this piece alone, and it is the same.
  have hkept := (h.tokens_eq_iff (List.cons_ne_nil _ _)).1 htokens
  have htokens' := (h'.tokens_eq_iff (List.cons_ne_nil _ _)).2 hkept
  rw [decodeText, decodeText, htokens, htokens']
  exact (yields_iff marker' command').1 ((yields_iff marker command).2 rfl)

end Fields

/-- What comes of any text. With another number of tokens than five it is rejected for that,
whatever the tokens are. With five it is cut into a marker, a command and three fields in one way,
and it comes to what the fields do; another marker and another command make no difference. -/
theorem decodeText_cases (text : List Char) :
    (numTokens text ≠ Fault.expectedTokens →
      decodeText text = .error (.tokenCount (numTokens text))) ∧
    (numTokens text = Fault.expectedTokens →
      ∃ marker command amplitude phase offset terminated,
        (∀ pieces ending, pieces.length = Fault.expectedTokens ∧ IsCut text pieces ending ↔
          pieces = [marker, command, amplitude, phase, offset] ∧ ending = terminated) ∧
        Yields amplitude phase offset (decodeText text) ∧
        ∀ marker' command', ' ' ∉ marker' → ' ' ∉ command' →
          decodeText (join [marker', command', amplitude, phase, offset] terminated) =
            decodeText text) := by
  have hlength := length_tokens_eq_numTokens text
  constructor
  · intro hcount
    rw [← hlength] at hcount ⊢
    exact decodeTokens_of_length_ne hcount
  · intro hcount
    have hiff : ∀ pieces ending, pieces.length = Fault.expectedTokens ∧ IsCut text pieces ending ↔
        pieces = tokens text ∧ ending = decide (text.getLast? = some ' ') := by
      intro pieces ending
      rw [← hcount]
      exact isCut_iff (by rw [hcount]; decide)
    rw [hcount] at hlength
    match htokens : tokens text, hlength with
    | [marker, command, amplitude, phase, offset], _ =>
      rw [htokens] at hiff
      obtain ⟨-, hcut⟩ := (hiff _ _).2 ⟨rfl, rfl⟩
      refine ⟨marker, command, amplitude, phase, offset, _, hiff, ?_, ?_⟩
      · rw [yields_iff marker command, decodeText, htokens]
      · intro marker' command' hmarker hcommand
        exact hcut.decodeText_join htokens hmarker hcommand

/-- Three tokens, the last one empty; and five behind an empty marker, of which the phase and the
offset are no words. -/
theorem decodeText_cases_short_and_rejected :
    decodeText "a b  ".toList = .error (.tokenCount 3) ∧
      decodeText " Ω +1 é 0x ".toList = .error (.badField .phase ['é']) ∧
      decodeText (join ["m".toList, [], "+1".toList, "é".toList, "0x".toList] true) =
        .error (.badField .phase ['é']) := by
  obtain ⟨marker, command, amplitude, phase, offset, terminated, hcut, hyields, hsame⟩ :=
    (decodeText_cases " Ω +1 é 0x ".toList).2 (by decide)
  obtain ⟨hpieces, rfl⟩ := (hcut [[], "Ω".toList, "+1".toList, "é".toList, "0x".toList] true).1
    ⟨rfl, by decide, by decide⟩
  simp only [List.cons.injEq, and_true] at hpieces
  obtain ⟨rfl, rfl, rfl, rfl, rfl⟩ := hpieces
  have hrejected : Yields "+1".toList "é".toList "0x".toList (.error (.badField .phase ['é'])) :=
    .badPhase (u := 1) (by decide) (by decide)
  have hdecode := (hyields.decodeTokens_eq [] []).symm.trans (hrejected.decodeTokens_eq [] [])
  refine ⟨(decodeText_cases "a b  ".toList).1 (by decide), hdecode, ?_⟩
  rw [hsame _ _ (by decide) (by decide), hdecode]

end Reply

end LidarAngle
