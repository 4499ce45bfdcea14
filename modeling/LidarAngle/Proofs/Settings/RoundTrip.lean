import LidarAngle.Proofs.Directory
import LidarAngle.Proofs.Toml.Document
import LidarAngle.Proofs.Toml.Quotation
import LidarAngle.Settings.Read
import LidarAngle.Settings.Save

/-!
# Saved settings are loaded again

Written settings are a document with one table for every section, in which every item stands for
what it is. Loading looks every item up in that document, so it returns the settings as they were,
unless their sweep has no angles.

## Main definitions

* `Settings.node` - what an item stands for
* `Settings.tree` - the document of written settings
* `Settings.IsSaidBy` - the settings in the content of a file

## Main statements

* `Settings.document?_render` - written settings are that document
* `Settings.ofTree?_tree` - the settings in that document
* `Settings.load_read_save` - loading what was saved
-/

namespace LidarAngle.Settings

open Toml (Node Entries ReadsAs ReadsAsLines)

theorem Item.isBare_name (item : Item) : ∀ c ∈ item.name, Toml.isBare c :=
  List.all_eq_true.1 (by cases item <;> rfl)

theorem Item.name_ne_nil (item : Item) : item.name ≠ [] := by
  cases item <;> decide

theorem Section.isBare_name (s : Section) : ∀ c ∈ s.name, Toml.isBare c :=
  List.all_eq_true.1 (by cases s <;> rfl)

theorem Section.name_ne_nil (s : Section) : s.name ≠ [] := by
  cases s <;> decide

theorem Section.nodup_names : (Section.all.map Section.name).Nodup := by
  decide

theorem Section.nodup_item_names (s : Section) : (s.items.map Item.name).Nodup := by
  cases s <;> decide

variable (settings : Settings)

/-- What an item stands for in the document. -/
def node : Item → Node
  | .format => .text (framingName settings.framing)
  | .header => .text settings.header
  | .amplitude => .integer settings.calibration.amplitude.toInt
  | .phase => .integer settings.calibration.phase.toInt
  | .offset => .integer settings.calibration.offset.toInt
  | .start => .float settings.sweep.start
  | .stop => .float settings.sweep.stop
  | .step => .float settings.sweep.step
  | .level => .text settings.level

def entries (s : Section) : Entries :=
  s.items.map fun item => (item.name, settings.node item)

def tables : List (List Char × Entries) :=
  Section.all.map fun s => (s.name, settings.entries s)

/-- The document of written settings. -/
def tree : Entries :=
  settings.tables.map fun (name, entries) => (name, .table .header entries)

/-- What is written for an item is what it stands for. -/
theorem value?_value (size depth : ℕ) (item : Item) (rest : List Char) :
    Toml.value? size depth (settings.value item ++ '\n' :: rest) =
      some (settings.node item, '\n' :: rest) := by
  have hinteger : ∀ {n : ℤ}, -2 ^ 31 ≤ n ∧ n < 2 ^ 31 →
      Toml.value? size depth (Decimal.integer n ++ '\n' :: rest) =
        some (.integer n, '\n' :: rest) := fun h =>
    Toml.value?_integer size depth (by omega) (by omega)
  have hint16 : ∀ x : Int16, -2 ^ 31 ≤ x.toInt ∧ x.toInt < 2 ^ 31 := by
    intro x
    have hlow := x.le_toInt
    have hhigh := x.toInt_lt
    omega
  cases item with
  | format => exact Toml.value?_quote size depth _ rest
  | header => exact Toml.value?_quote size depth _ rest
  | amplitude => exact hinteger (hint16 _)
  | phase => exact hinteger ⟨Int32.le_toInt _, Int32.toInt_lt _⟩
  | offset => exact hinteger (hint16 _)
  | start => exact Toml.value?_write size depth _
  | stop => exact Toml.value?_write size depth _
  | step => exact Toml.value?_write size depth _
  | level => exact Toml.value?_quote size depth _ rest

theorem readsAs_line (item : Item) :
    ReadsAs (settings.line item) (some (.entry ⟨[], item.name⟩ (settings.node item))) :=
  Toml.readsAs_entry item.isBare_name item.name_ne_nil fun size rest =>
    settings.value?_value size _ item rest

theorem readsAsLines_block (s : Section) :
    ReadsAsLines (settings.block s) (Toml.headed [(s.name, settings.entries s)]) := by
  have hlines : Toml.headed [(s.name, settings.entries s)] = .header false ⟨[], s.name⟩ ::
      s.items.flatMap fun item => [.entry ⟨[], item.name⟩ (settings.node item)] := by
    rw [← List.map_eq_flatMap]
    simp [Toml.headed, Toml.undotted, entries, Function.comp_def]
  rw [hlines]
  exact (ReadsAsLines.flatMap (fun item => (settings.readsAs_line item).lines) s.items).cons
    (Toml.readsAs_header s.isBare_name s.name_ne_nil)

theorem readsAsLines_render : ReadsAsLines settings.render (Toml.headed settings.tables) := by
  have hlines : Toml.headed settings.tables =
      Section.all.flatMap fun s => Toml.headed [(s.name, settings.entries s)] := by
    simp [Toml.headed, tables, List.flatMap_map]
  rw [hlines]
  exact ReadsAsLines.intercalate Toml.readsAs_blank settings.readsAsLines_block Section.all

/-- Written settings are their document. -/
theorem document?_render : Toml.document? settings.render = some settings.tree := by
  have hnames : (settings.tables.map Prod.fst).Nodup := by
    simpa [tables, Function.comp_def] using Section.nodup_names
  have hkeys : ∀ table ∈ settings.tables, (table.2.map Prod.fst).Nodup := by
    intro table htable
    obtain ⟨s, -, rfl⟩ := List.mem_map.1 htable
    simpa [entries, Function.comp_def] using s.nodup_item_names
  rw [settings.readsAsLines_render.document?_eq, Toml.tree?_headed hnames hkeys]
  rfl

/-- Every item is found in the document. -/
theorem item?_tree {α : Type} (item : Item) (fallback : α) (read? : Node → Option α) :
    item? settings.tree item fallback read? = read? (settings.node item) := by
  cases item <;> rfl

theorem int16?_toInt (x : Int16) : int16? (.integer x.toInt) = some x := by
  rw [int16?, if_pos ⟨x.le_toInt, x.toInt_lt⟩, Int16.ofInt_toInt]

theorem int32?_toInt (x : Int32) : int32? (.integer x.toInt) = some x := by
  rw [int32?, if_pos ⟨x.le_toInt, x.toInt_lt⟩, Int32.ofInt_toInt]

theorem framing?_framingName (framing : Reply.Framing) :
    framing? (.text (framingName framing)) = some framing := by
  cases framing <;> rfl

/-- The settings in their document are the settings. -/
theorem ofTree?_tree : ofTree? settings.tree = some settings := by
  simp [ofTree?, item?_tree, node, framing?_framingName, int16?_toInt, int32?_toInt, text?, float?]

theorem textOf_bytes (text : List Char) : textOf (Text.bytes text) = .ok text := by
  have hread : String.fromUTF8? (Text.bytes text) = some (String.ofList text) :=
    dif_pos (String.ofList text).isValidUTF8
  rw [textOf, hread]
  exact congrArg Except.ok String.toList_ofList

/-- The content of a file says the settings, which need not have passed the check. -/
def IsSaidBy (content : ByteArray) : Prop :=
  ∃ text, textOf content = .ok text ∧ (Toml.document? text >>= ofTree?) = some settings

theorem isSaidBy_content : settings.IsSaidBy settings.content := by
  refine ⟨settings.render, textOf_bytes _, ?_⟩
  rw [document?_render]
  exact settings.ofTree?_tree

variable {settings}

/-- What is loaded is what the content says, or refused for the reason for which its sweep is. -/
theorem IsSaidBy.load_eq {content : ByteArray} (h : settings.IsSaidBy content) :
    load (.ok content) = settings.check.map fun _ => settings := by
  obtain ⟨text, htext, hsettings⟩ := h
  have hread : (Except.ok content >>= textOf) = .ok text := htext
  rw [load, hread]
  show ofText text = _
  rw [ofText, hsettings]
  show (do settings.check; return settings) = _
  cases settings.check with
  | error fault => rfl
  | ok => rfl

/-- The content of a file that settings were saved in is loaded as they were, or refused for the
reason for which their sweep is. -/
theorem load_content : load (.ok settings.content) = settings.check.map fun _ => settings :=
  settings.isSaidBy_content.load_eq

theorem eq_sweep_of_check {fault : Fault} (h : settings.check = .error fault) :
    ∃ flaw, fault = .sweep flaw := by
  unfold check at h
  split at h
  · exact absurd h (by simp)
  · exact ⟨_, (Except.error.inj h).symm⟩

/-- Wherever a file can be created, settings can be saved. What is loaded from there are the same
settings if their sweep has angles, and otherwise the fault of the sweep. -/
theorem load_read_save {directory : Directory} {path : String} {name : List Char}
    (h : directory.create path = .ok name) :
    ∃ saved, settings.save directory path = .ok saved ∧
      (settings.check = .ok () → load (saved.read path) = .ok settings) ∧
      (∀ fault, settings.check = .error fault →
        (∃ flaw, fault = .sweep flaw) ∧ load (saved.read path) = .error fault) ∧
      load (saved.read path) ≠ .error .settings := by
  have hsave : settings.save directory path = .ok (directory.store name settings.content) := by
    rw [save, h]
  have hload : load ((directory.store name settings.content).read path) =
      settings.check.map fun _ => settings := by
    rw [Directory.read_store_of_create h, load_content]
  refine ⟨_, hsave, fun hcheck => ?_, fun fault hcheck => ⟨eq_sweep_of_check hcheck, ?_⟩, ?_⟩
  · rw [hload, hcheck]
    rfl
  · rw [hload, hcheck]
    rfl
  · rw [hload]
    cases hcheck : settings.check with
    | ok => exact fun heq => nomatch heq
    | error fault =>
      obtain ⟨flaw, rfl⟩ := eq_sweep_of_check hcheck
      exact fun heq => Fault.noConfusion (Except.error.inj heq)

/-- Quotes of both kinds, controls and line ends, and a sweep of two rows from minus zero to the
smallest positive number; then the same without a step. -/
theorem load_read_save_quotes :
    (let settings : Settings := {
        framing := .ascii
        header := "\n\x27\x27\x27 \"\"\"\r\x00\x7f µ\\".toList
        calibration := { amplitude := -32768, phase := -2147483648, offset := 32767 }
        sweep := { start := -0.0, stop := 5e-324, step := 5e-324 }
        level := "\"\"\x27\x27".toList }
      ∃ saved, settings.save [] "c.toml" = .ok saved ∧
        load (saved.read "c.toml") = .ok settings) ∧
      ∃ saved, save { sweep := { step := 0 } } [] "c.toml" = .ok saved ∧
        load (saved.read "c.toml") = .error (.sweep (.noStep 0)) := by
  have hcreate : Directory.create [] "c.toml" = .ok "c.toml".toList := by decide
  constructor
  · obtain ⟨saved, hsave, hload, -⟩ := load_read_save hcreate
    exact ⟨saved, hsave, hload (by decide +kernel)⟩
  · obtain ⟨saved, hsave, -, hload, -⟩ := load_read_save hcreate
    exact ⟨saved, hsave, (hload _ (by decide)).2⟩

end LidarAngle.Settings
