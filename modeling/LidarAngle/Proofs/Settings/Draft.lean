import LidarAngle.Proofs.Settings.RoundTrip
import LidarAngle.Proofs.Toml.Change

/-!
# Files with some of the items

A draft has the lines of some items below the headers of their sections, in any order, and between
them lines that have nothing to do with items: comments, keys of other names, and headers of other
tables with the keys below them. Its text is read line by line whatever is written for the items,
so the same draft can be read with the items and without them.

## Main definitions

* `Settings.IsForeign` - a key that has nothing to do with an item
* `Settings.Stray`, `Settings.Row`, `Settings.Block` - lines, and headers with the lines below them
* `Settings.Draft` - a file of such lines
* `Settings.Draft.text`, `Settings.Draft.items` - what is written in it, and whose lines it has

## Main statements

* `Settings.Draft.document?_text` - the document of a draft, section by section
* `Settings.Draft.document?_bare_of_nodup` - nothing but headers of different sections
-/

namespace LidarAngle.Settings

open Toml (Path Node Line ReadsAs ReadsAsLines)

/-- The key of an item in a document. -/
def Item.parts (item : Item) : List (List Char) :=
  [item.home.name, item.name]

/-- The key is no item's, and leads neither to an item nor through one. -/
def IsForeign (parts : List (List Char)) : Prop :=
  ∀ item : Item, ¬item.parts <+: parts ∧ ¬parts <+: item.parts

/-- A line below a header that has nothing to do with an item. It may be empty. -/
structure Stray (header : List (List Char)) where
  text : List Char
  entry : Option (Path × Node)
  readsAs : ReadsAs text (entry.map fun (path, node) => .entry path node)
  isForeign : ∀ path node, entry = some (path, node) → IsForeign (header ++ path.parts)

/-- A line below the header of a section. -/
inductive Row (s : Section) where
  | own (item : Item) (hitem : item ∈ s.items)
  | stray (stray : Stray [s.name])

/-- A header with the lines below it. -/
inductive Block where
  | own (s : Section) (rows : List (Row s))
  | stray (text : List Char) (repeated : Bool) (path : Path)
      (readsAs : ReadsAs text (some (.header repeated path))) (isForeign : IsForeign path.parts)
      (rows : List (Stray path.parts))

/-- A file that is put together of lines of items and other lines. -/
structure Draft where
  top : List (Stray [])
  blocks : List Block

section Written

-- What is written for an item, and what is read there.
variable (write : Item → List Char) (read : Item → Option (Path × Node))

def Row.text {s : Section} : Row s → List Char
  | .own item _ => write item
  | .stray line => line.text

def Row.entry {s : Section} : Row s → Option (Path × Node)
  | .own item _ => read item
  | .stray line => line.entry

def Block.text : Block → List Char
  | .own s rows => s.line ++ rows.flatMap (Row.text write)
  | .stray text _ _ _ _ rows => text ++ rows.flatMap Stray.text

def Block.section : Block → Toml.Section
  | .own s rows => ⟨false, ⟨[], s.name⟩, rows.filterMap (Row.entry read)⟩
  | .stray _ repeated path _ _ rows => ⟨repeated, path, rows.filterMap Stray.entry⟩

/-- The file, given what is written for an item. -/
def Draft.text (draft : Draft) : List Char :=
  draft.top.flatMap Stray.text ++ draft.blocks.flatMap (Block.text write)

end Written

def Row.items {s : Section} : Row s → List Item
  | .own item _ => [item]
  | .stray _ => []

def Block.items : Block → List Item
  | .own _ rows => rows.flatMap Row.items
  | .stray _ _ _ _ _ _ => []

/-- The items whose lines the draft has. -/
def Draft.items (draft : Draft) : List Item :=
  draft.blocks.flatMap Block.items

theorem Item.mem_items_iff {item : Item} {s : Section} : item ∈ s.items ↔ item.home = s := by
  cases item <;> cases s <;> decide

theorem Item.parts_eq {item : Item} {s : Section} (h : item ∈ s.items) :
    item.parts = [s.name, item.name] := by
  rw [parts, mem_items_iff.1 h]

theorem Item.eq_of_name_eq {s : Section} {item other : Item} (hitem : item ∈ s.items)
    (hother : other ∈ s.items) (h : item.name = other.name) : item = other :=
  List.inj_on_of_nodup_map s.nodup_item_names hitem hother h

theorem Section.mem_all (s : Section) : s ∈ Section.all := by
  cases s <;> decide

theorem Section.name_injective : Function.Injective Section.name := fun s other =>
  List.inj_on_of_nodup_map Section.nodup_names s.mem_all other.mem_all

theorem Section.exists_mem_items (s : Section) : ∃ item, item ∈ s.items := by
  cases s with
  | reply => exact ⟨.format, by decide⟩
  | calibration => exact ⟨.amplitude, by decide⟩
  | table => exact ⟨.start, by decide⟩
  | logging => exact ⟨.level, by decide⟩

/-- A key of one part is no section. -/
theorem IsForeign.ne_section {key : List Char} (h : IsForeign [key]) (s : Section) :
    key ≠ s.name := by
  rintro rfl
  obtain ⟨item, hitem⟩ := s.exists_mem_items
  exact (h item).2 ⟨[item.name], (Item.parts_eq hitem).symm⟩

/-- A key that leads through a section leads beside its items. -/
theorem IsForeign.ne_item {s : Section} {key : List Char} {path : List (List Char)}
    (h : IsForeign (s.name :: key :: path)) {item : Item} (hitem : item ∈ s.items) :
    key ≠ item.name := by
  rintro rfl
  refine (h item).1 ⟨path, ?_⟩
  rw [Item.parts_eq hitem]
  rfl

theorem Row.mem_items {s : Section} (row : Row s) {item : Item} (h : item ∈ row.items) :
    item ∈ s.items := by
  cases row with
  | own other hother => rwa [List.mem_singleton.1 h]
  | stray line => exact absurd h List.not_mem_nil

section Reading

variable {write : Item → List Char} {read : Item → Option (Path × Node)}
  (h : ∀ item, ReadsAsLines (write item)
    ((read item).map fun (path, node) => Line.entry path node).toList)

/-- Lines with an entry or none. -/
theorem readsAsLines_filterMap {α : Type} {text : α → List Char} {entry : α → Option (Path × Node)}
    (h : ∀ x, ReadsAsLines (text x) ((entry x).map fun (path, node) => Line.entry path node).toList)
    (xs : List α) :
    ReadsAsLines (xs.flatMap text)
      ((xs.filterMap entry).map fun (path, node) => Line.entry path node) := by
  rw [List.map_filterMap, List.filterMap_eq_flatMap_toList]
  exact ReadsAsLines.flatMap h xs

theorem Stray.readsAsLines {header : List (List Char)} (rows : List (Stray header)) :
    ReadsAsLines (rows.flatMap Stray.text)
      ((rows.filterMap Stray.entry).map fun (path, node) => Line.entry path node) :=
  readsAsLines_filterMap (fun row => row.readsAs.lines) rows

include h

theorem Block.readsAsLines (block : Block) :
    ReadsAsLines (block.text write) (block.section read).lines := by
  cases block with
  | own s rows =>
    refine (readsAsLines_filterMap (fun row => ?_) rows).cons
      (Toml.readsAs_header s.isBare_name s.name_ne_nil)
    cases row with
    | own item hitem => exact h item
    | stray line => exact line.readsAs.lines
  | stray text repeated path hheader hforeign rows => exact (Stray.readsAsLines rows).cons hheader

/-- A draft is read section by section. -/
theorem Draft.document?_text (draft : Draft) : Toml.document? (draft.text write) =
    (Toml.putAll? [] (draft.top.filterMap Stray.entry)).bind
      ((draft.blocks.map (Block.section read)).foldlM fun root s =>
        Toml.open? s.change? s.path.before s.path.last root) := by
  have hblocks := ReadsAsLines.flatMap (fun block : Block => block.readsAsLines h) draft.blocks
  have hlines := (Stray.readsAsLines draft.top).append hblocks
  rw [Draft.text, hlines.document?_eq, ← Toml.tree?_append, List.flatMap_map]

end Reading

/-- The file without the lines of the items. -/
def Draft.bare (draft : Draft) : List Char :=
  draft.text fun _ => []

theorem Draft.document?_bare (draft : Draft) : Toml.document? draft.bare =
    (Toml.putAll? [] (draft.top.filterMap Stray.entry)).bind
      ((draft.blocks.map (Block.section fun _ => none)).foldlM fun root s =>
        Toml.open? s.change? s.path.before s.path.last root) :=
  Draft.document?_text (fun _ => .nil) draft

/-- If a draft without the lines of the items has nothing but headers of different sections, then
it is a document. -/
theorem Draft.document?_bare_of_nodup {draft : Draft} {headers : List Section}
    (htop : draft.top.filterMap Stray.entry = [])
    (hblocks : draft.blocks.map (Block.section fun _ => none) =
      headers.map fun s => ⟨false, ⟨[], s.name⟩, []⟩)
    (hheaders : headers.Nodup) :
    Toml.document? draft.bare = some (headers.map fun s => (s.name, .table .header [])) := by
  have hnames : (headers.map fun s => (s.name, ([] : Toml.Entries))).map Prod.fst =
      headers.map Section.name := by
    rw [List.map_map]
    rfl
  have hopen := @Toml.foldlM_open? [] (headers.map fun s => (s.name, []))
    (by rw [hnames]; exact hheaders.map Section.name_injective)
    (by simp)
  rw [List.map_map, List.map_map] at hopen
  rw [Draft.document?_bare, htop, hblocks]
  exact hopen

end LidarAngle.Settings
