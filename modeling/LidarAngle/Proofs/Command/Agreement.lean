import LidarAngle.Proofs.Command.Run
import LidarAngle.Proofs.Reply.PayloadText
import LidarAngle.Proofs.Reply.Reread
import LidarAngle.Proofs.Reply.RoundTrip

/-!
# The ways of giving a calibration

A run takes its calibration from its settings, from a reply in text form, or from a payload behind
the header in its settings. Whichever it is, the run succeeds and the table is the same, on standard
output or in the output file.

## Main definitions

* `Command.Gives` - the options give a calibration

## Main statements

* `Command.run_of_gives` - the run of options that give a calibration writes its table
-/

namespace LidarAngle.Command

variable {options : Options} {settings : Settings} {c : Calibration}

/-- With the settings, the options give the calibration in one of three ways. -/
inductive Gives (settings : Settings) (c : Calibration) : Options → Prop
  | configured {options : Options} (hascii : options.ascii = none)
      (hpayload : options.payload = none) (hsettings : settings.calibration = c) :
      Gives settings c options
  | text {options : Options} (text : List Char) (hascii : options.ascii = some text)
      (htext : Reply.decodeText text = .ok c) : Gives settings c options
  -- The header has two spaces, the second one at its end.
  | payload {options : Options} (text : List Char) (hascii : options.ascii = none)
      (hpayload : options.payload = some text) (hcount : settings.header.count ' ' = 2)
      (hlast : settings.header.getLast? = some ' ') (htext : PayloadText.Types text c.payload) :
      Gives settings c options

theorem Gives.goesBy (h : Gives settings c options) : GoesBy settings options c := by
  cases h with
  | configured hascii hpayload hsettings =>
    rw [← hsettings]
    exact .configured hascii hpayload
  | text text hascii htext => exact .reply (.text hascii) (Reply.result_decode_ascii_utf8 htext)
  | payload text hascii hpayload hcount hlast htext =>
    have hcount' : (Text.utf8 settings.header).count 0x20 = 2 := by rw [Text.count_utf8, hcount]
    have hlast' := Text.getLast?_utf8 hlast
    have hdecode := Reply.result_decode_binary_of_terminated hcount' hlast'
      (Reply.length_payload c)
    rw [Calibration.ofPayload_payload] at hdecode
    exact .reply (.payload hascii hpayload htext.read) hdecode

theorem Gives.result_correction (h : Gives settings c options) :
    (correction options settings).result = .ok (.ofCalibration c) :=
  h.goesBy.result_correction

/-- Options that give a calibration make a run succeed and write the whole table of the calibration
over the sweep of the settings: to standard output, or else to the output file if this can be
created. -/
theorem run_of_gives {directory : Directory}
    (hsettings : Command.settings options directory.read = .ok settings)
    (hgives : Gives settings c options)
    (hcreate : ∀ path, options.output = some path → ∃ name, directory.create path = .ok name) :
    (run options directory).status = 0 ∧
      ∃ table rows,
        (Table.write (.ofCalibration c) settings.sweep {}).result =
          ({ held := table }, .ok rows) ∧
        (options.output = none →
          (run options directory).printed = table ∧
            (run options directory).directory = directory) ∧
        ∀ path, options.output = some path →
          (run options directory).printed = .empty ∧
            (run options directory).directory.read path = .ok table := by
  obtain ⟨angles, hangles⟩ := exists_angles hsettings
  have hcorrection := hgives.result_correction
  have hwrite := @Table.result_write_of_unlimited {} rfl rfl _ _ hangles (.ofCalibration c)
  rw [ByteArray.empty_append] at hwrite
  cases houtput : options.output with
  | none =>
    obtain ⟨hfault, hprinted, hdirectory⟩ :=
      run_of_correction_ok hsettings hangles hcorrection houtput
    refine ⟨by rw [Outcome.status, hfault], _, _, hwrite, ?_, ?_⟩
    · exact fun _ => ⟨hprinted, hdirectory⟩
    · exact fun path h => absurd h (by simp)
  | some path =>
    obtain ⟨name, hname⟩ := hcreate path houtput
    obtain ⟨hfault, hprinted, hdirectory⟩ :=
      run_of_correction_ok_of_create hsettings hangles hcorrection houtput hname
    refine ⟨by rw [Outcome.status, hfault], _, _, hwrite, ?_, ?_⟩
    · exact fun h => absurd h (by simp)
    · rintro _ ⟨⟩
      exact ⟨hprinted, hdirectory ▸ Directory.read_store_of_create hname _⟩

/-- A payload in mixed case with blanks also within pairs, behind the default header. -/
theorem run_of_gives_typed :
    (run { payload := some "00 00 0\t7 E5 ff\nFc c9 b9 F F F f f F 0 B ".toList,
           output := some "out.csv" } []).status = 0 ∧
      ∃ table rows,
        (Table.write (.ofCalibration { amplitude := 2021, phase := -210503, offset := -245 }) {}
          {}).result = ({ held := table }, .ok rows) ∧
        (run { payload := some "00 00 0\t7 E5 ff\nFc c9 b9 F F F f f F 0 B ".toList,
               output := some "out.csv" } []).printed = .empty ∧
        (run { payload := some "00 00 0\t7 E5 ff\nFc c9 b9 F F F f f F 0 B ".toList,
               output := some "out.csv" } []).directory.read "out.csv" = .ok table := by
  have hcreate : Directory.create [] "out.csv" = .ok "out.csv".toList := by decide
  have htypes : PayloadText.Types "00 00 0\t7 E5 ff\nFc c9 b9 F F F f f F 0 B ".toList
      (Calibration.payload { amplitude := 2021, phase := -210503, offset := -245 }) := by decide
  have hgives : Gives {} { amplitude := 2021, phase := -210503, offset := -245 }
      { payload := some "00 00 0\t7 E5 ff\nFc c9 b9 F F F f f F 0 B ".toList,
        output := some "out.csv" } :=
    .payload _ rfl rfl (by decide) (by decide) htypes
  obtain ⟨hstatus, table, rows, hwrite, -, hfile⟩ := @run_of_gives _ _ _ [] rfl hgives
    fun path h => ⟨_, Option.some.inj h ▸ hcreate⟩
  obtain ⟨hprinted, hread⟩ := hfile _ rfl
  exact ⟨hstatus, table, rows, hwrite, hprinted, hread⟩

end LidarAngle.Command
