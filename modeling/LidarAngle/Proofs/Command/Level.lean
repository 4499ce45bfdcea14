import LidarAngle.Proofs.Command.Run
import LidarAngle.Proofs.Settings.RoundTrip

/-!
# Runs at different levels

The level in the settings decides which events of a run are shown, and whether the disagreement of
the two forms of the correction is worked out at all. Working it out cannot fail, as loaded settings
have a sweep with angles. So a run has the same effect at every level, and what it shows at one
level is what is left of all its events.

## Main definitions

* `Command.Effect`, `Command.effect` - what a run does, apart from what it shows
* `Command.IsGiven` - the settings that a run is given, which need not have passed the check

## Main statements

* `Command.run_eq_effect` - a run shows what its level leaves of its effect
* `Command.run_level` - two runs at different levels
-/

namespace LidarAngle

namespace Log.Threshold

/-- The word for a threshold. -/
def name : Threshold → List Char
  | none => "off".toList
  | some .error => "error".toList
  | some .warn => "warn".toList
  | some .info => "info".toList
  | some .debug => "debug".toList
  | some .trace => "trace".toList

/-- The word for a threshold is read as that threshold in letters of either case. -/
theorem ofText_eq {threshold : Threshold} {text : List Char}
    (h : text.map Char.toLower = threshold.name) : ofText text = threshold := by
  unfold ofText
  rw [h]
  match threshold with
  | none => decide
  | some .error => decide
  | some .warn => decide
  | some .info => decide
  | some .debug => decide
  | some .trace => decide

theorem filter_trace (events : List Event) : filter (some .trace) events = events := by
  apply List.filter_eq_self.2
  intro event _
  rw [decide_eq_true_iff]
  show event.level.rank ≤ Level.trace.rank
  cases event.level <;> decide

end Log.Threshold

/-- The directory with a file stored, if there is one to store. -/
def Directory.change (directory : Directory) : Option (List Char × ByteArray) → Directory
  | none => directory
  | some (name, content) => directory.store name content

namespace Command

variable {options : Options} {settings : Settings} {directory : Directory} {angles : List Float}

/-- What a run does, whatever it shows. -/
structure Effect where
  fault : Option Fault
  events : List Log.Event
  printed : ByteArray
  stored : Option (List Char × ByteArray)

/-- The events of working out how far the two forms of a correction disagree. -/
def measured (settings : Settings) (c : Correction) : List Log.Event :=
  match Table.largestDisagreement c settings.sweep with
  | .error _ => []
  | .ok degrees => [.disagreement degrees]

/-- What happens in a run with a correction before its output is opened, shown or not. -/
def prepared (options : Options) (settings : Settings) (c : Correction) : List Log.Event :=
  (correction options settings).events ++ [.inForce c] ++ measured settings c

/-- What a run with loaded settings does, given the angles of their sweep and where files can be
created. -/
def effect (options : Options) (settings : Settings) (angles : List Float)
    (create : String → Except FileFault (List Char)) : Effect :=
  match (correction options settings).result with
  | .error fault => ⟨some fault, (correction options settings).events, .empty, none⟩
  | .ok c =>
    let table := Text.bytes (Table.text c angles)
    let events := prepared options settings c
    match options.output.map create with
    | none => ⟨none, events ++ (finish options settings c).events, table, none⟩
    | some (.error cause) => ⟨some (.file cause), events, .empty, none⟩
    | some (.ok name) =>
      ⟨none, events ++ (finish options settings c).events, .empty, some (name, table)⟩

/-- Of the disagreement is shown what would be shown if it was worked out in any case. -/
theorem filter_events_measure (settings : Settings) (c : Correction) :
    (Log.Threshold.ofText settings.level).filter (measure settings c).events =
      (Log.Threshold.ofText settings.level).filter (measured settings c) := by
  unfold measure measured
  split
  · cases Table.largestDisagreement c settings.sweep with
    | error fault => rfl
    | ok degrees => rfl
  · next hhidden =>
    cases Table.largestDisagreement c settings.sweep with
    | error fault => rfl
    | ok degrees =>
      rw [Log.Threshold.filter, Log.Threshold.filter, List.filter_cons_of_neg]
      · rfl
      · exact decide_eq_true_iff.not.2 hhidden

theorem events_prepare_of_error {fault : Fault}
    (h : (correction options settings).result = .error fault) :
    (prepare options settings).events = (correction options settings).events := by
  rw [prepare, Logged.events_bind, h]
  exact List.append_nil _

/-- Of what happens before the output is opened the level shows its part. -/
theorem filter_events_prepare {c : Correction} (hangles : settings.sweep.angles = .ok angles)
    (h : (correction options settings).result = .ok c) :
    (Log.Threshold.ofText settings.level).filter (prepare options settings).events =
      (Log.Threshold.ofText settings.level).filter (prepared options settings c) := by
  have hevents : (prepare options settings).events =
      (correction options settings).events ++ [.inForce c] ++ (measure settings c).events := by
    rw [prepare, Logged.events_bind, h]
    dsimp only
    rw [Logged.events_bind, Logged.events_bind, result_measure hangles, Logged.events_report]
    simp
  rw [hevents, prepared, Log.Threshold.filter_append, filter_events_measure,
    ← Log.Threshold.filter_append]

/-- A run with loaded settings has its effect, and shows what the level leaves of its events. -/
theorem run_eq_effect (hsettings : Command.settings options directory.read = .ok settings)
    (hangles : settings.sweep.angles = .ok angles) :
    run options directory =
      { fault := (effect options settings angles directory.create).fault
        shown := (Log.Threshold.ofText settings.level).filter
          (effect options settings angles directory.create).events
        printed := (effect options settings angles directory.create).printed
        directory :=
          directory.change (effect options settings angles directory.create).stored } := by
  cases hcorrection : (correction options settings).result with
  | error fault =>
    have hprepare := result_prepare_of_error hcorrection
    have hevents := events_prepare_of_error hcorrection
    simp [run, hsettings, hprepare, hevents, effect, hcorrection, Directory.change]
  | ok c =>
    have hprepare := result_prepare_of_ok hangles hcorrection
    have hevents := filter_events_prepare hangles hcorrection
    have hfinish := result_finish hangles options c
    cases houtput : options.output with
    | none =>
      simp [run, hsettings, hprepare, hevents, hfinish, effect, hcorrection, houtput,
        Directory.change]
    | some path =>
      cases hcreate : directory.create path with
      | error cause =>
        simp [run, hsettings, hprepare, hevents, effect, hcorrection, houtput, hcreate,
          Directory.change]
      | ok name =>
        simp [run, hsettings, hprepare, hevents, hfinish, effect, hcorrection, houtput, hcreate,
          Directory.change]

/-- The settings that a run is given, by default or in a file. They need not have passed the
check. -/
inductive IsGiven (options : Options) (directory : Directory) : Settings → Prop
  | default (hconfig : options.config = none) : IsGiven options directory {}
  | file {path : String} {content : ByteArray} {settings : Settings}
      (hconfig : options.config = some path) (hread : directory.read path = .ok content)
      (hsaid : settings.IsSaidBy content) : IsGiven options directory settings

theorem IsGiven.settings_eq (h : IsGiven options directory settings) :
    Command.settings options directory.read = settings.check.map fun _ => settings := by
  unfold Command.settings
  cases h with
  | default hconfig =>
    rw [hconfig]
    rfl
  | file hconfig hread hsaid =>
    rw [hconfig]
    dsimp only
    rw [hread, hsaid.load_eq]

/-- Two runs that are given the same settings but for the level, where files of the same names are,
come to the same end: with the same fault or none, the same text printed and the same change to the
files. If the one is given the least important level, then the other shows those of its events that
pass the own level. -/
theorem run_level {first second : Directory} {level : List Char}
    (hnames : first.HasSameNames second) (hfirst : IsGiven options first settings)
    (hsecond : IsGiven options second { settings with level := level }) :
    (run options first).fault = (run options second).fault ∧
      (run options first).status = (run options second).status ∧
      (run options first).printed = (run options second).printed ∧
      (∃ stored, (run options first).directory = first.change stored ∧
        (run options second).directory = second.change stored) ∧
      ∀ threshold : Log.Threshold, settings.level.map Char.toLower = threshold.name →
        level.map Char.toLower = "trace".toList →
        (run options first).shown = threshold.filter (run options second).shown := by
  have hloadFirst := hfirst.settings_eq
  have hloadSecond := hsecond.settings_eq
  have hcheck : ({ settings with level := level } : Settings).check = settings.check := rfl
  rw [hcheck] at hloadSecond
  cases hsweep : settings.check with
  | error fault =>
    rw [hsweep] at hloadFirst hloadSecond
    rw [run_of_settings_error hloadFirst, run_of_settings_error hloadSecond]
    exact ⟨rfl, rfl, rfl, ⟨none, rfl, rfl⟩, fun _ _ _ => rfl⟩
  | ok =>
    rw [hsweep] at hloadFirst hloadSecond
    obtain ⟨angles, hangles⟩ := Settings.check_eq_ok_iff.1 hsweep
    have hcreate : first.create = second.create := funext hnames.create_eq
    have heffect : effect options { settings with level := level } angles second.create =
        effect options settings angles second.create := rfl
    rw [run_eq_effect hloadFirst hangles, run_eq_effect hloadSecond hangles, heffect, hcreate]
    refine ⟨rfl, rfl, rfl, ⟨_, rfl, rfl⟩, ?_⟩
    intro threshold hlevel htrace
    have htrace' : Log.Threshold.ofText level = some .trace := Log.Threshold.ofText_eq htrace
    rw [Log.Threshold.ofText_eq hlevel, htrace', Log.Threshold.filter_trace]

/-- A payload into an output file, with warnings only and with everything shown. -/
theorem run_level_warn_and_trace :
    let options : Options :=
      { config := some "c.toml"
        payload := some "00000765 FFFCC9B9 FFFFFF0B".toList
        output := some "out.csv" }
    let quiet : Settings := { level := "WARN".toList }
    let loud : Settings := { level := "Trace".toList }
    let first := Directory.store [] "c.toml".toList quiet.content
    let second := Directory.store [] "c.toml".toList loud.content
    (run options first).fault = (run options second).fault ∧
      (run options first).status = (run options second).status ∧
      (run options first).printed = (run options second).printed ∧
      (∃ stored, (run options first).directory = first.change stored ∧
        (run options second).directory = second.change stored) ∧
      (run options first).shown =
        Log.Threshold.filter (some .warn) (run options second).shown := by
  intro options quiet loud first second
  have hcreate : Directory.create [] "c.toml" = .ok "c.toml".toList := by decide
  have hfirst : IsGiven options first quiet :=
    .file rfl (Directory.read_store_of_create hcreate _) quiet.isSaidBy_content
  have hsecond : IsGiven options second loud :=
    .file rfl (Directory.read_store_of_create hcreate _) loud.isSaidBy_content
  obtain ⟨hfault, hstatus, hprinted, hstored, hshown⟩ :=
    run_level (Directory.HasSameNames.store [] "c.toml".toList _ _) hfirst hsecond
  exact ⟨hfault, hstatus, hprinted, hstored, hshown (some .warn) (by decide) (by decide)⟩

end Command

end LidarAngle
