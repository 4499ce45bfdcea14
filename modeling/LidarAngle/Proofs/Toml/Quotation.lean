import LidarAngle.Proofs.Text.Ascii
import LidarAngle.Settings.Write
import LidarAngle.Toml.Value
import Mathlib.Data.List.Basic

/-!
# Written strings

A string that is written between double quotes is read back whatever its characters are. Between
single quotes it is read back as it stands if it has no controls and no run of quotes that could
close it.

## Main statements

* `Toml.Quotation.read_counted`, `Toml.Quotation.read_uncounted`, `Toml.Quotation.read_closed` - the
  reader at a quote that counts, at any other character, and behind the quotes that close a string
* `Toml.Quotation.escape_cases` - the forms of an escaped character
* `Toml.Quotation.read_escapeLine`, `Toml.Quotation.read_escapeLines` - text between double quotes
* `Toml.Quotation.read_literal`, `Toml.Quotation.read_literalLines` - text between single quotes
* `Toml.value?_quote` - a string in its form
-/

namespace LidarAngle.Toml

namespace Quotation

variable {q : Quotation} {text rest tail : List Char} {c : Char}

/-- A quote that counts. -/
theorem read_counted {state : State} {n : ℕ} (hrun : state.run? = some n) :
    q.read state (q.quote :: rest) =
      if q.multiline then if n < 5 then q.read (.quotes (n + 1)) rest else none
      else some ([], rest) := by
  have hcount : (if q.quote = q.quote then state.run? else none) = some n := by
    rw [if_pos rfl, hrun]
  cases state with
  | _ =>
    rw [read.eq_def]
    dsimp only
    rw [hcount]

/-- A character that does not count as a quote and leaves the string open. -/
theorem read_uncounted {state : State} (hopen : ∀ n, state ≠ .quotes (n + 3))
    (hquote : c ≠ q.quote ∨ state.run? = none) :
    q.read state (c :: rest) = (q.advance c state).bind fun (added, next) =>
      (q.read next rest).bind fun (text, tail) => some (added ++ text, tail) := by
  have hcount : (if c = q.quote then state.run? else none) = none := by
    rcases hquote with hquote | hquote
    · exact if_neg hquote
    · rw [hquote, ite_self]
  rw [read.eq_4 _ _ _ _ fun n => hopen n, hcount]
  rfl

/-- A character behind three quotes, which is not part of the string. -/
theorem read_closed {n : ℕ} (hc : c ≠ q.quote) :
    q.read (.quotes (n + 3)) (c :: rest) = some (List.replicate n q.quote, c :: rest) := by
  rw [read.eq_3, if_neg hc]

/-- A character that neither counts as a quote nor ends the string. -/
theorem read_cons {state next : State} {added : List Char}
    (hopen : ∀ n, state ≠ .quotes (n + 3)) (hquote : c ≠ q.quote ∨ state.run? = none)
    (hstep : q.advance c state = some (added, next)) (h : q.read next rest = some (text, tail)) :
    q.read state (c :: rest) = some (added ++ text, tail) := by
  rw [read_uncounted hopen hquote, hstep, Option.bind_some]
  dsimp only
  rw [h, Option.bind_some]

theorem read_cons_plain {next : State} {added : List Char} (hc : c ≠ q.quote)
    (hstep : q.plainStep c = some (added, next)) (h : q.read next rest = some (text, tail)) :
    q.read .plain (c :: rest) = some (added ++ text, tail) :=
  read_cons (by simp) (.inl hc) hstep h

/-- Nothing pending is the same as no quote so far. -/
theorem read_plain (text : List Char) : q.read .plain text = q.read (.quotes 0) text := by
  rcases text with _ | ⟨c, rest⟩
  · rfl
  · by_cases hc : c = q.quote
    · subst hc
      rw [read_counted rfl, read_counted rfl]
    · have hadvance : q.advance c (.quotes 0) = q.advance c .plain := by
        rw [advance, advance]
        cases q.plainStep c with
        | none => rfl
        | some step => rfl
      rw [read_uncounted (by simp) (.inl hc), read_uncounted (by simp) (.inl hc), hadvance]

theorem read_quote (hmultiline : q.multiline = true) {n : ℕ} (hn : n < 5) :
    q.read (.quotes n) (q.quote :: rest) = q.read (.quotes (n + 1)) rest := by
  rw [read_counted rfl, if_pos hmultiline, if_pos hn]

/-- A quote that does not close the string is part of it. -/
theorem read_quote_of_read (hmultiline : q.multiline = true) {n : ℕ} (hn : n < 5)
    (h : q.read (.quotes (n + 1)) rest = some (List.replicate (n + 1) q.quote ++ text, tail)) :
    q.read (.quotes n) (q.quote :: rest) =
      some (List.replicate n q.quote ++ q.quote :: text, tail) := by
  rw [read_quote hmultiline hn, h, List.replicate_succ', List.append_assoc]
  rfl

/-- Up to two quotes in front of another character are part of the string. -/
theorem read_quotes {n : ℕ} (hn : n < 3) (hc : c ≠ q.quote)
    (h : q.read .plain (c :: rest) = some (text, tail)) :
    q.read (.quotes n) (c :: rest) = some (List.replicate n q.quote ++ text, tail) := by
  rw [read_uncounted (by simp) (.inl hc)] at h
  obtain ⟨⟨added, next⟩, hstep, h⟩ := Option.bind_eq_some_iff.1 h
  obtain ⟨⟨text', tail'⟩, hread, h⟩ := Option.bind_eq_some_iff.1 h
  obtain ⟨rfl, rfl⟩ := Prod.mk.inj (Option.some.inj h)
  have hstep' : q.advance c (.quotes n) = some (List.replicate n q.quote ++ added, next) := by
    have hplain : q.plainStep c = some (added, next) := hstep
    rw [advance, hplain]
    rfl
  rw [← List.append_assoc]
  refine read_cons ?_ (.inl hc) hstep' hread
  rintro k ⟨⟩
  omega

/-- Three quotes close a string, and up to two in front of them are part of it. -/
theorem read_closing (hmultiline : q.multiline = true) {n : ℕ} (hn : n < 3) (hc : c ≠ q.quote) :
    q.read (.quotes n) (List.replicate 3 q.quote ++ c :: rest) =
      some (List.replicate n q.quote, c :: rest) := by
  show q.read _ (q.quote :: q.quote :: q.quote :: c :: rest) = _
  rw [read_quote hmultiline (by omega), read_quote hmultiline (by omega),
    read_quote hmultiline (by omega), read_closed hc]

/-- One quote closes a string within one line. -/
theorem read_closing_line (hline : q.multiline = false) :
    q.read .plain (q.quote :: rest) = some ([], rest) := by
  rw [read_counted rfl, hline, if_neg Bool.false_ne_true]

theorem lt_of_isControl (h : Settings.isControl c = true) : c.toNat < 0x10000 := by
  unfold Settings.isControl at h
  rcases of_decide_eq_true h with ⟨hlt, -, -⟩ | rfl
  · have hlt' : c.toNat < 32 := hlt
    omega
  · decide

theorem isText_of_not_isControl (h : ¬Settings.isControl c = true) (hline : c ≠ '\n') :
    isText c = true := by
  unfold Settings.isControl at h
  obtain ⟨hlow, hdelete⟩ := not_or.1 (of_decide_eq_false (Bool.eq_false_iff.2 h))
  apply decide_eq_true
  by_cases htab : c = '\t'
  · exact .inl htab
  · exact .inr ⟨Char.not_lt.1 fun hlt => hlow ⟨hlt, htab, hline⟩, hdelete⟩

/-- A character is escaped by a letter or its code point, or stands for itself. -/
theorem escape_cases (c : Char) :
    (∃ e, Settings.escape c = ['\\', e] ∧ escaped? e = some c ∧
        e ∉ ['\n', '\r', ' ', '\t', 'u', 'U']) ∨
      (Settings.escape c = Settings.codePoint c ∧ Settings.isControl c = true) ∨
      (Settings.escape c = [c] ∧ c ≠ '\\' ∧ c ≠ '\r' ∧ ¬Settings.isControl c = true) := by
  unfold Settings.escape
  split
  · next heq => exact .inl ⟨'b', rfl, heq ▸ rfl, by decide⟩
  · split
    · next heq => exact .inl ⟨'t', rfl, heq ▸ rfl, by decide⟩
    · split
      · next heq => exact .inl ⟨'f', rfl, heq ▸ rfl, by decide⟩
      · split
        · next heq => exact .inl ⟨'r', rfl, heq ▸ rfl, by decide⟩
        · next hreturn =>
          split
          · next heq => exact .inl ⟨'\\', rfl, by rw [heq]; rfl, by decide⟩
          · next hbackslash =>
            split
            · next hcontrol => exact .inr (.inl ⟨rfl, hcontrol⟩)
            · next hcontrol => exact .inr (.inr ⟨rfl, hbackslash, hreturn, hcontrol⟩)

/-- An escaped character does not begin with a double quote or a line end. -/
theorem exists_escape_eq_cons (hquote : c ≠ '"') (hline : c ≠ '\n') :
    ∃ d rest, Settings.escape c = d :: rest ∧ d ∉ ['"', '\n', '\r'] := by
  rcases escape_cases c with ⟨e, hescape, -, -⟩ | ⟨hescape, -⟩ | ⟨hescape, -, hreturn, -⟩
  · exact ⟨'\\', [e], hescape, by decide⟩
  · exact ⟨'\\', _, hescape, by decide⟩
  · exact ⟨c, [], hescape, by simp [hquote, hline, hreturn]⟩

section Escapes

variable (hescapes : q.escapes = true) (hdouble : q.quote = '"')
include hescapes hdouble

theorem read_backslash {next : State} {added : List Char} {e : Char}
    (hstep : q.advance e .escape = some (added, next)) (h : q.read next rest = some (text, tail)) :
    q.read .plain ('\\' :: e :: rest) = some (added ++ text, tail) := by
  have hplain : q.plainStep '\\' = some ([], .escape) := by
    rw [plainStep, if_pos ⟨hescapes, rfl⟩]
  have hne : '\\' ≠ q.quote := by
    rw [hdouble]
    decide
  have hread := read_cons (by simp) (.inr rfl) hstep h
  have hnext : q.read .plain ('\\' :: e :: rest) = some ([] ++ (added ++ text), tail) :=
    read_cons_plain hne hplain hread
  exact hnext

/-- The letter behind a backslash stands for a character. -/
theorem read_escaped {d e : Char} (he : e ∉ ['\n', '\r', ' ', '\t', 'u', 'U'])
    (hescaped : escaped? e = some d) (h : q.read .plain rest = some (text, tail)) :
    q.read .plain ('\\' :: e :: rest) = some (d :: text, tail) := by
  simp only [List.mem_cons, List.not_mem_nil, or_false, not_or] at he
  obtain ⟨hn, hr, hblank, htab, hu, hU⟩ := he
  have hstep : q.advance e .escape = some ([d], .plain) := by
    simp [advance, hn, hr, isBlank, hblank, htab, codeDigits?, hu, hU, hescaped]
  exact read_backslash hescapes hdouble hstep h

/-- Four digits behind a backslash are a code point. -/
theorem read_codePoint (hc : c.toNat < 0x10000) (h : q.read .plain rest = some (text, tail)) :
    q.read .plain (Settings.codePoint c ++ rest) = some (c :: text, tail) := by
  have hdigit : ∀ n missing value, q.advance (Hex.upper (n % 16)) (.code (missing + 2) value) =
      some ([], .code (missing + 1) (16 * value + n % 16)) := by
    intro n missing value
    simp [advance, Hex.value?_upper _ (Nat.mod_lt n (by decide))]
  have hlast : q.advance (Hex.upper (c.toNat % 16)) (.code 1 (c.toNat / 16)) =
      some ([c], .plain) := by
    have hvalid : c.toNat.isValidChar := c.valid
    have hsum : 16 * (c.toNat / 16) + c.toNat % 16 = c.toNat := Nat.div_add_mod _ _
    simp [advance, Hex.value?_upper _ (Nat.mod_lt c.toNat (by decide)), hsum, character?, hvalid]
  have hmark : q.advance 'u' .escape = some ([], .code 4 0) := by
    simp [advance, isBlank, codeDigits?]
  have hvalue : 16 * (16 * (16 * 0 + c.toNat / 4096 % 16) + c.toNat / 256 % 16) +
      c.toNat / 16 % 16 = c.toNat / 16 := by
    omega
  have hread := read_cons (by simp) (.inr rfl) hlast h
  rw [← hvalue] at hread
  have hread₁ := read_cons (by simp) (.inr rfl) (hdigit (c.toNat / 16) 0 _) hread
  have hread₂ := read_cons (by simp) (.inr rfl) (hdigit (c.toNat / 256) 1 _) hread₁
  have hread₃ := read_cons (by simp) (.inr rfl) (hdigit (c.toNat / 4096) 2 0) hread₂
  exact read_backslash hescapes hdouble hmark hread₃

/-- A character in its escaped form. -/
theorem read_escape (hquote : c ≠ '"') (hline : c ≠ '\n')
    (h : q.read .plain rest = some (text, tail)) :
    q.read .plain (Settings.escape c ++ rest) = some (c :: text, tail) := by
  rcases escape_cases c with
    ⟨e, hescape, he, hletter⟩ | ⟨hescape, hcontrol⟩ | ⟨hescape, hbackslash, hreturn, hcontrol⟩
  · rw [hescape]
    exact read_escaped hescapes hdouble hletter he h
  · rw [hescape]
    exact read_codePoint hescapes hdouble (lt_of_isControl hcontrol) h
  · have htext := isText_of_not_isControl hcontrol hline
    have hstep : q.plainStep c = some ([c], .plain) := by
      simp [plainStep, hbackslash, hline, hreturn, htext]
    rw [hescape]
    exact read_cons_plain (hdouble ▸ hquote) hstep h

end Escapes

theorem escapeLine_cons (c : Char) (text : List Char) :
    Settings.escapeLine (c :: text) =
      (if c = '"' then ['\\', '"'] else if c = '\n' then ['\\', 'n'] else Settings.escape c) ++
        Settings.escapeLine text :=
  List.flatMap_cons

/-- Any text between double quotes in one line is read back. -/
theorem read_escapeLine (text rest : List Char) :
    basic.read .plain (Settings.escapeLine text ++ '"' :: rest) = some (text, rest) := by
  induction text with
  | nil => exact read_closing_line rfl
  | cons c text ih =>
    rw [escapeLine_cons, List.append_assoc]
    split
    · next heq => exact read_escaped rfl rfl (by decide) (by rw [heq]; rfl) ih
    · next hquote =>
      split
      · next heq => exact read_escaped rfl rfl (by decide) (by rw [heq]; rfl) ih
      · next hline => exact read_escape rfl rfl hquote hline ih

/-- Any text between three double quotes is read back, also behind quotes that are part of it. -/
theorem read_escapeLines (text : List Char) {run : ℕ} (hrun : run < 3) {d : Char} (hd : d ≠ '"')
    (rest : List Char) :
    basicLines.read (.quotes run)
        (Settings.escapeLines run text ++ (List.replicate 3 '"' ++ d :: rest)) =
      some (List.replicate run '"' ++ text, d :: rest) := by
  -- The quotes written last are still pending in the reader, so both count the same run.
  induction text generalizing run with
  | nil =>
    rw [List.append_nil]
    exact read_closing rfl hrun hd
  | cons c text ih =>
    have hplain : basicLines.read .plain
        (Settings.escapeLines 0 text ++ (List.replicate 3 '"' ++ d :: rest)) =
          some (text, d :: rest) := by
      rw [read_plain]
      exact ih (by decide)
    rw [Settings.escapeLines]
    split
    · next heq =>
      subst heq
      split
      · next hlt => exact read_quote_of_read rfl (by omega) (ih (Nat.succ_lt_succ hlt))
      · have hread : basicLines.read .plain ('\\' :: '"' :: _) = _ :=
          read_escaped rfl rfl (by decide) rfl hplain
        exact read_quotes hrun (by decide) hread
    · next hquote =>
      split
      · next heq =>
        subst heq
        have hread : basicLines.read .plain ('\n' :: _) = _ :=
          read_cons_plain (by decide) rfl hplain
        exact read_quotes hrun (by decide) hread
      · next hline =>
        have hread := read_escape rfl rfl hquote hline hplain
        obtain ⟨e, tail, hescape, he⟩ := exists_escape_eq_cons hquote hline
        rw [hescape] at hread
        rw [List.append_assoc, hescape]
        exact read_quotes hrun (fun h => he (by simp [h, basicLines])) hread

theorem plainStep_literal (hescapes : q.escapes = false) (hcontrol : ¬Settings.isControl c = true)
    (hline : c = '\n' → q.multiline = true) : q.plainStep c = some ([c], .plain) := by
  have hreturn : c ≠ '\r' := by
    rintro rfl
    exact hcontrol rfl
  by_cases hc : c = '\n'
  · simp [plainStep, hescapes, hline hc, hc]
  · have htext := isText_of_not_isControl hcontrol hc
    simp [plainStep, hescapes, hc, hreturn, htext]

/-- Text between single quotes in one line is read as it stands. -/
theorem read_literal (hcontrol : ∀ c ∈ text, ¬Settings.isControl c = true)
    (hquote : '\x27' ∉ text) (hline : '\n' ∉ text) (rest : List Char) :
    literal.read .plain (text ++ '\x27' :: rest) = some (text, rest) := by
  induction text with
  | nil => exact read_closing_line rfl
  | cons c text ih =>
    rw [List.mem_cons, not_or] at hquote hline
    have hstep := plainStep_literal (q := literal) rfl (hcontrol c List.mem_cons_self)
      fun h => absurd h.symm hline.1
    exact read_cons_plain (Ne.symm hquote.1) hstep
      (ih (fun d hd => hcontrol d (List.mem_cons_of_mem c hd)) hquote.2 hline.2)

theorem le_longestRun (quote : Char) (run : ℕ) (text : List Char) :
    run ≤ Settings.longestRun quote run text := by
  induction text generalizing run with
  | nil => exact Nat.le_refl run
  | cons c text ih =>
    rw [Settings.longestRun]
    split
    · exact Nat.le_of_succ_le (ih (run + 1))
    · exact Nat.le_max_left _ _

/-- Text between three single quotes is read as it stands, also behind quotes that are part of
it. -/
theorem read_literalLines (hcontrol : ∀ c ∈ text, ¬Settings.isControl c = true) {run : ℕ}
    (hrun : Settings.longestRun '\x27' run text ≤ 2) {d : Char} (hd : d ≠ '\x27')
    (rest : List Char) :
    literalLines.read (.quotes run) (text ++ (List.replicate 3 '\x27' ++ d :: rest)) =
      some (List.replicate run '\x27' ++ text, d :: rest) := by
  have hle := Nat.le_trans (le_longestRun '\x27' run text) hrun
  induction text generalizing run with
  | nil =>
    rw [List.append_nil]
    exact read_closing rfl (by omega) hd
  | cons c text ih =>
    have hcontrol' := fun d hd => hcontrol d (List.mem_cons_of_mem c hd)
    rw [Settings.longestRun] at hrun
    split at hrun
    · next heq =>
      subst heq
      have hnext := ih hcontrol' hrun (Nat.le_trans (le_longestRun _ _ text) hrun)
      exact read_quote_of_read rfl (by omega) hnext
    · next hne =>
      have hplain : literalLines.read .plain (text ++ (List.replicate 3 '\x27' ++ d :: rest)) =
          some (text, d :: rest) := by
        rw [read_plain]
        exact ih hcontrol' (Nat.max_le.1 hrun).2 (by omega)
      have hstep := plainStep_literal (q := literalLines) rfl (hcontrol c List.mem_cons_self)
        fun _ => rfl
      exact read_quotes (by omega) hne (read_cons_plain hne hstep hplain)

end Quotation

variable {text rest : List Char}

/-- Without escapes a string is only written if it has no controls, and in one line only if it has
no quotes or line ends. -/
theorem style_cases (text : List Char) :
    Settings.style text = .basic ∨ Settings.style text = .basicLines ∨
      ((∀ c ∈ text, ¬Settings.isControl c = true) ∧
        ((Settings.style text = .literal ∧ '\x27' ∉ text ∧ '\n' ∉ text) ∨
          (Settings.style text = .literalLines ∧ Settings.longestRun '\x27' 0 text ≤ 2))) := by
  unfold Settings.style
  dsimp only
  split
  · split
    · exact .inr (.inl rfl)
    · exact .inl rfl
  · next hcontrol =>
    have hcontrol' : ∀ c ∈ text, ¬Settings.isControl c = true := fun c hc h =>
      hcontrol (List.any_eq_true.2 ⟨c, hc, h⟩)
    split
    · exact .inl rfl
    · split
      · next hliteral => exact .inr (.inr ⟨hcontrol', .inl ⟨rfl, hliteral⟩⟩)
      · split
        · exact .inr (.inl rfl)
        · split
          · next hrun => exact .inr (.inr ⟨hcontrol', .inr ⟨rfl, hrun⟩⟩)
          · split
            · exact .inr (.inl rfl)
            · exact .inl rfl

/-- The line end that is put after opening quotes is dropped, and no other one. -/
theorem afterOpening_append {c : Char} (h : '\n' ∉ text → c ∉ ['\n', '\r']) :
    afterOpening (Settings.opening text ++ c :: rest) = c :: rest := by
  unfold Settings.opening
  split
  · rfl
  · next hline =>
    have hc := h hline
    simp only [List.mem_cons, List.not_mem_nil, or_false, not_or] at hc
    rw [List.nil_append, afterOpening, newline?]
    · rfl
    · exact fun _ h => hc.1 (List.cons.inj h).1
    · exact fun _ h => hc.2 (List.cons.inj h).1

/-- Escaped text does not begin with a double quote. -/
theorem escapeLine_append_ne (text rest : List Char) (tail : List Char) :
    Settings.escapeLine text ++ '"' :: '\n' :: rest ≠ '"' :: '"' :: tail := by
  rcases text with _ | ⟨c, text⟩
  · simp [Settings.escapeLine]
  · rw [Quotation.escapeLine_cons]
    split
    · simp
    · next hquote =>
      split
      · simp
      · next hline =>
        obtain ⟨d, escaped, hescape, hd⟩ := Quotation.exists_escape_eq_cons hquote hline
        rw [hescape]
        intro h
        exact hd (by simp [(List.cons.inj h).1])

theorem quoted?_basic (text rest : List Char) :
    quoted? (Settings.quoteIn text .basic ++ '\n' :: rest) = some (text, '\n' :: rest) := by
  have htext : Settings.quoteIn text .basic ++ '\n' :: rest =
      '"' :: (Settings.escapeLine text ++ '"' :: '\n' :: rest) := by
    simp [Settings.quoteIn]
  rw [htext, quoted?]
  · exact Quotation.read_escapeLine text _
  · rintro tail h
    exact escapeLine_append_ne text rest _ (List.cons.inj h).2
  · rintro tail h
    exact absurd (List.cons.inj h).1 (by decide)

theorem quoted?_literal (hcontrol : ∀ c ∈ text, ¬Settings.isControl c = true)
    (hquote : '\x27' ∉ text) (hline : '\n' ∉ text) (rest : List Char) :
    quoted? (Settings.quoteIn text .literal ++ '\n' :: rest) = some (text, '\n' :: rest) := by
  have htext : Settings.quoteIn text .literal ++ '\n' :: rest =
      '\x27' :: (text ++ '\x27' :: '\n' :: rest) := by
    simp [Settings.quoteIn]
  rw [htext, quoted?]
  · exact Quotation.read_literal hcontrol hquote hline _
  · rintro tail h
    exact absurd (List.cons.inj h).1 (by decide)
  · rintro tail h
    rcases text with _ | ⟨c, text⟩
    · simp at h
    · exact hquote (by simp [(List.cons.inj (List.cons.inj h).2).1])

/-- Between opening quotes and a string without line ends there is no line end. -/
theorem exists_escapeLines_append_eq_cons (text rest : List Char) :
    ∃ c tail, Settings.escapeLines 0 text ++ '"' :: rest = c :: tail ∧
      ('\n' ∉ text → c ∉ ['\n', '\r']) := by
  rcases text with _ | ⟨c, text⟩
  · exact ⟨'"', _, rfl, fun _ => by decide⟩
  · rw [Settings.escapeLines]
    split
    · exact ⟨'"', _, rfl, fun _ => by decide⟩
    · next hquote =>
      split
      · next hline => exact ⟨'\n', _, rfl, fun h => absurd (by simp [hline]) h⟩
      · next hline =>
        obtain ⟨d, escaped, hescape, hd⟩ := Quotation.exists_escape_eq_cons hquote hline
        rw [hescape]
        exact ⟨d, _, rfl, fun _ h => hd (List.mem_cons_of_mem _ h)⟩

theorem quoted?_basicLines (text rest : List Char) :
    quoted? (Settings.quoteIn text .basicLines ++ '\n' :: rest) = some (text, '\n' :: rest) := by
  obtain ⟨c, tail, hcons, hc⟩ :=
    exists_escapeLines_append_eq_cons text ('"' :: '"' :: '\n' :: rest)
  have htext : Settings.quoteIn text .basicLines ++ '\n' :: rest =
      '"' :: '"' :: '"' :: (Settings.opening text ++ c :: tail) := by
    rw [← hcons]
    simp [Settings.quoteIn, List.replicate]
  rw [htext, quoted?, afterOpening_append hc, ← hcons, Quotation.read_plain]
  exact Quotation.read_escapeLines text (by decide) (by decide) rest

theorem exists_append_eq_cons (hcontrol : ∀ c ∈ text, ¬Settings.isControl c = true)
    (rest : List Char) :
    ∃ c tail, text ++ '\x27' :: rest = c :: tail ∧ ('\n' ∉ text → c ∉ ['\n', '\r']) := by
  rcases text with _ | ⟨c, text⟩
  · exact ⟨'\x27', _, rfl, fun _ => by decide⟩
  · refine ⟨c, _, rfl, fun hline h => ?_⟩
    simp only [List.mem_cons, List.not_mem_nil, or_false] at h
    rcases h with rfl | rfl
    · exact hline List.mem_cons_self
    · exact hcontrol _ List.mem_cons_self rfl

theorem quoted?_literalLines (hcontrol : ∀ c ∈ text, ¬Settings.isControl c = true)
    (hrun : Settings.longestRun '\x27' 0 text ≤ 2) (rest : List Char) :
    quoted? (Settings.quoteIn text .literalLines ++ '\n' :: rest) = some (text, '\n' :: rest) := by
  obtain ⟨c, tail, hcons, hc⟩ :=
    exists_append_eq_cons hcontrol ('\x27' :: '\x27' :: '\n' :: rest)
  have htext : Settings.quoteIn text .literalLines ++ '\n' :: rest =
      '\x27' :: '\x27' :: '\x27' :: (Settings.opening text ++ c :: tail) := by
    rw [← hcons]
    simp [Settings.quoteIn, List.replicate]
  rw [htext, quoted?, afterOpening_append hc, ← hcons, Quotation.read_plain]
  exact Quotation.read_literalLines hcontrol hrun (by decide) rest

/-- A string in its form is read back. -/
theorem quoted?_quote (text rest : List Char) :
    quoted? (Settings.quote text ++ '\n' :: rest) = some (text, '\n' :: rest) := by
  unfold Settings.quote
  rcases style_cases text with h | h | ⟨hcontrol, ⟨h, hquote, hline⟩ | ⟨h, hrun⟩⟩
  · rw [h]
    exact quoted?_basic text rest
  · rw [h]
    exact quoted?_basicLines text rest
  · rw [h]
    exact quoted?_literal hcontrol hquote hline rest
  · rw [h]
    exact quoted?_literalLines hcontrol hrun rest

theorem exists_quoteIn_eq_cons (text : List Char) (style : Settings.Style) :
    ∃ c tail, Settings.quoteIn text style = c :: tail ∧ (c = '"' ∨ c = '\x27') := by
  cases style with
  | basic => exact ⟨_, _, rfl, .inl rfl⟩
  | literal => exact ⟨_, _, rfl, .inr rfl⟩
  | basicLines => exact ⟨_, _, rfl, .inl rfl⟩
  | literalLines => exact ⟨_, _, rfl, .inr rfl⟩

/-- A value that begins with a quote is a string. -/
theorem value?_eq_quoted? (size depth : ℕ) {c : Char} (hc : c = '"' ∨ c = '\x27')
    (rest : List Char) :
    value? size depth (c :: rest) = (quoted? (c :: rest)).map fun (s, rest) => (.text s, rest) := by
  rcases hc with rfl | rfl
  all_goals cases depth with
    | zero => rfl
    | succ depth => rfl

/-- A string in its form is a value. -/
theorem value?_quote (size depth : ℕ) (text rest : List Char) :
    value? size depth (Settings.quote text ++ '\n' :: rest) = some (.text text, '\n' :: rest) := by
  have hread := quoted?_quote text rest
  obtain ⟨c, tail, hcons, hc⟩ := exists_quoteIn_eq_cons text (Settings.style text)
  rw [Settings.quote, hcons, List.cons_append] at hread ⊢
  rw [value?_eq_quoted? size depth hc, hread]
  rfl

end LidarAngle.Toml
