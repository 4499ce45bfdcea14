import LidarAngle.Proofs.Settings.Draft

/-!
# Partial settings

A file that has the lines of some items is loaded as the settings with these items and the
defaults of all others.

A draft is read twice at the same time, with the lines of its items and without them. Every other
line does the same to both trees, because it neither changes what stands for an item nor depends
on it; the line of an item adds what stands for it to one of them. So the draft is a document
exactly if it is one without the items, and differs from that in these items.

## Main definitions

* `Settings.overlay` - some items of the settings and the defaults of all others
* `Settings.Matches` - two functions that keep things related
* `Settings.FillsEntries`, `Settings.FillsTree` - a section and a document with and without items

## Main statements

* `Settings.FillsTree.act` - a change that has nothing to do with an item
* `Settings.rel_document?_draft` - a draft with the lines of its items and without them
* `Settings.load_draft` - loading a draft
-/

namespace LidarAngle.Settings

open Toml (Path Node Entries ActsBy AgreeOff ChangesAt)

variable (settings : Settings)

/-- The settings with these items, and the defaults of all others. -/
def overlay (items : List Item) : Settings :=
  let fallback : Settings := {}
  { framing := if .format ∈ items then settings.framing else fallback.framing
    header := if .header ∈ items then settings.header else fallback.header
    calibration := {
      amplitude := if .amplitude ∈ items then settings.calibration.amplitude
        else fallback.calibration.amplitude
      phase := if .phase ∈ items then settings.calibration.phase else fallback.calibration.phase
      offset := if .offset ∈ items then settings.calibration.offset
        else fallback.calibration.offset }
    sweep := {
      start := if .start ∈ items then settings.sweep.start else fallback.sweep.start
      stop := if .stop ∈ items then settings.sweep.stop else fallback.sweep.stop
      step := if .step ∈ items then settings.sweep.step else fallback.sweep.step }
    level := if .level ∈ items then settings.level else fallback.level }

/-- Of related things, both functions make something related, or both make nothing. -/
def Matches {α β γ δ : Type} (R : α → β → Prop) (S : γ → δ → Prop) (act : α → Option γ)
    (act' : β → Option δ) : Prop :=
  ∀ x y, R x y → Option.Rel S (act x) (act' y)

/-- The entry that the line of an item is read as. -/
def said (item : Item) : Option (Path × Node) :=
  some (⟨[], item.name⟩, settings.node item)

/-- The entries of a section with these items, and without any. -/
structure FillsEntries (s : Section) (items : List Item) (entries filled : Entries) : Prop where
  agreeOff : AgreeOff (s.items.map Item.name) entries filled
  find?_name : ∀ item ∈ s.items,
    filled.find? item.name = if item ∈ items then some (settings.node item) else none

/-- What stands for a section with these items, and without any. -/
inductive FillsNode (s : Section) (items : List Item) : Option Node → Option Node → Prop
  | missing (h : ∀ item ∈ s.items, item ∉ items) : FillsNode s items none none
  | table {origin : Toml.Origin} {entries filled : Entries}
      (h : FillsEntries settings s items entries filled) :
      FillsNode s items (some (.table origin entries)) (some (.table origin filled))

/-- A document with these items, and without any. -/
structure FillsTree (items : List Item) (tree filled : Entries) : Prop where
  agreeOff : AgreeOff (Section.all.map Section.name) tree filled
  node : ∀ s : Section, FillsNode settings s items (tree.find? s.name) (filled.find? s.name)

variable {settings} {s : Section} {items more : List Item}

section Matches

variable {α β γ δ ε ζ : Type} {R : α → β → Prop} {S : γ → δ → Prop} {T : ε → ζ → Prop}

theorem rel_map {x : Option α} {y : Option β} (h : Option.Rel R x y) {f : α → γ} {g : β → δ}
    (hmap : ∀ x y, R x y → S (f x) (g y)) : Option.Rel S (x.map f) (y.map g) := by
  cases h with
  | none => exact .none
  | some hR => exact .some (hmap _ _ hR)

theorem rel_bind {x : Option α} {y : Option β} (h : Option.Rel R x y) {next : α → Option γ}
    {next' : β → Option δ} (hnext : Matches R S next next') :
    Option.Rel S (x.bind next) (y.bind next') := by
  cases h with
  | none => exact .none
  | some hR => exact hnext _ _ hR

theorem Matches.bind {act : α → Option γ} {act' : β → Option δ} {next : γ → Option ε}
    {next' : δ → Option ζ} (h : Matches R S act act') (hnext : Matches S T next next') :
    Matches R T (fun x => (act x).bind next) (fun y => (act' y).bind next') :=
  fun x y hR => rel_bind (h x y hR) hnext

end Matches

/-- Functions that match step by step do so from the first step to the last. The items that the
steps add are all different. -/
theorem Matches.foldlM {α β γ : Type} {R : List Item → α → β → Prop} {added : γ → List Item}
    {act : α → γ → Option α} {act' : β → γ → Option β} {xs : List γ}
    (hstep : ∀ x ∈ xs, ∀ items, (items ++ added x).Nodup →
      Matches (R items) (R (items ++ added x)) (act · x) (act' · x))
    (hitems : (items ++ xs.flatMap added).Nodup) :
    Matches (R items) (R (items ++ xs.flatMap added)) (xs.foldlM act) (xs.foldlM act') := by
  induction xs generalizing items with
  | nil =>
    intro x y hR
    rw [List.flatMap_nil, List.append_nil]
    exact .some hR
  | cons x xs ih =>
    rw [List.flatMap_cons, ← List.append_assoc] at hitems ⊢
    exact (hstep x List.mem_cons_self items hitems.of_append_left).bind
      (ih (fun x hx => hstep x (List.mem_cons_of_mem _ hx)) hitems)

/-- A line that has nothing to do with an item, if no change like that matters. -/
theorem Matches.stray {header : List (List Char)} {R : Entries → Entries → Prop}
    (h : ∀ {path : List (List Char)} {act : Entries → Option Entries}, ChangesAt path act →
      IsForeign (header ++ path) → Matches R R act act) (line : Stray header) :
    Matches R R (Toml.putAll? · line.entry.toList) (Toml.putAll? · line.entry.toList) := by
  cases hentry : line.entry with
  | none => exact fun entries filled hR => .some hR
  | some entry =>
    obtain ⟨path, node⟩ := entry
    simp only [Option.toList_some, Toml.putAll?_singleton]
    exact h (Toml.changesAt_put? path node) (line.isForeign path node hentry)

namespace FillsEntries

variable {entries filled : Entries}

theorem nil (h : ∀ item ∈ s.items, item ∉ items) : FillsEntries settings s items [] [] :=
  ⟨fun _ _ => rfl, fun item hitem => (if_neg (h item hitem)).symm⟩

theorem congr (h : FillsEntries settings s items entries filled)
    (hmore : ∀ item ∈ s.items, item ∈ more ↔ item ∈ items) :
    FillsEntries settings s more entries filled := by
  refine ⟨h.agreeOff, fun item hitem => ?_⟩
  rw [h.find?_name item hitem]
  simp only [hmore item hitem]

/-- What changes beside the items changes in the same way with them. -/
theorem act {path : List (List Char)} {act : Entries → Option Entries} (hact : ChangesAt path act)
    (hforeign : IsForeign (s.name :: path)) :
    Matches (FillsEntries settings s items) (FillsEntries settings s items) act act := by
  intro entries filled h
  rcases path with _ | ⟨key, path⟩
  · cases hact
  · obtain ⟨change, rfl⟩ := hact.eq_open?
    have hkey : key ∉ s.items.map Item.name := by
      intro hmem
      obtain ⟨item, hitem, hname⟩ := List.mem_map.1 hmem
      exact hforeign.ne_item hitem hname.symm
    rw [h.agreeOff.open? hkey, Toml.open?_nil]
    cases change (entries.find? key) with
    | none => exact .none
    | some node =>
      refine .some ⟨h.agreeOff.set key node, fun item hitem => ?_⟩
      rw [Toml.Entries.find?_set, if_neg, h.find?_name item hitem]
      rintro rfl
      exact hkey (List.mem_map_of_mem hitem)

/-- The line of an item adds what stands for the item. -/
theorem put? (h : FillsEntries settings s items entries filled) {item : Item}
    (hitem : item ∈ s.items) (hnew : item ∉ items) :
    ∃ filled', Toml.put? [] item.name (settings.node item) filled = some filled' ∧
      FillsEntries settings s (items ++ [item]) entries filled' := by
  refine ⟨filled.set item.name (settings.node item), ?_, fun key hkey => ?_, fun other hother => ?_⟩
  · rw [Toml.put?_nil, Toml.open?_nil, h.find?_name item hitem, if_neg hnew]
    rfl
  · rw [Toml.Entries.find?_set, if_neg, h.agreeOff key hkey]
    rintro rfl
    exact hkey (List.mem_map_of_mem hitem)
  · rw [Toml.Entries.find?_set]
    by_cases hname : other.name = item.name
    · rw [if_pos hname, Item.eq_of_name_eq hother hitem hname, if_pos (by simp)]
    · have hne : other ≠ item := fun heq => hname (congrArg Item.name heq)
      rw [if_neg hname, h.find?_name other hother]
      simp [hne]

theorem row (row : Row s) (hitems : (items ++ row.items).Nodup) :
    Matches (FillsEntries settings s items) (FillsEntries settings s (items ++ row.items))
      (Toml.putAll? · (row.entry fun _ => none).toList)
      (Toml.putAll? · (row.entry settings.said).toList) := by
  cases row with
  | own item hitem =>
    intro entries filled h
    have hfresh : item ∉ items := fun hmem =>
      (List.nodup_append.1 hitems).2.2 item hmem item List.mem_cons_self rfl
    obtain ⟨filled', hput, hfills⟩ := h.put? hitem hfresh
    have hfilled : Toml.putAll? filled (Option.toList (settings.said item)) = some filled' :=
      (Toml.putAll?_singleton ..).trans hput
    -- Without the items the line is not there, so nothing changes.
    show Option.Rel _ (some entries) (Toml.putAll? filled (Option.toList (settings.said item)))
    rw [hfilled]
    exact .some hfills
  | stray line =>
    rw [Row.items, List.append_nil]
    exact .stray act line

/-- The lines below the header of a section. -/
theorem rows {rows : List (Row s)} (hitems : (items ++ rows.flatMap Row.items).Nodup) :
    Matches (FillsEntries settings s items)
      (FillsEntries settings s (items ++ rows.flatMap Row.items))
      (Toml.putAll? · (rows.filterMap (Row.entry fun _ => none)))
      (Toml.putAll? · (rows.filterMap (Row.entry settings.said))) := by
  simp only [Toml.putAll?_filterMap]
  exact .foldlM (fun row _ _ hitems => FillsEntries.row row hitems) hitems

end FillsEntries

/-- A change that treats a table by its entries does so with the items and without them. -/
theorem FillsNode.change {fresh : Toml.Origin} {next : Toml.Origin → Option Toml.Origin}
    {act act' : Entries → Option Entries} {change change' : Option Node → Option Node}
    (hchange : ActsBy fresh next act change) (hchange' : ActsBy fresh next act' change')
    (hact : Matches (FillsEntries settings s items) (FillsEntries settings s more) act act') :
    Matches (FillsNode settings s items)
      (fun new new' => FillsNode settings s more (some new) (some new')) change change' := by
  intro node node' h
  cases h with
  | missing hitems =>
    rw [hchange.none, hchange'.none]
    exact rel_map (hact [] [] (.nil hitems)) fun _ _ hfills => .table hfills
  | @table origin entries filled hfills =>
    rw [hchange.table, hchange'.table]
    cases next origin with
    | none => exact .none
    | some later => exact rel_map (hact _ _ hfills) fun _ _ hfills => .table hfills

theorem FillsNode.congr {node node' : Option Node} (h : FillsNode settings s items node node')
    (hmore : ∀ item ∈ s.items, item ∈ more ↔ item ∈ items) :
    FillsNode settings s more node node' := by
  cases h with
  | missing hitems => exact .missing fun item hitem => mt (hmore item hitem).1 (hitems item hitem)
  | table hfills => exact .table (hfills.congr hmore)

namespace FillsTree

theorem nil : FillsTree settings [] [] [] :=
  ⟨fun _ _ => rfl, fun _ => .missing fun _ _ => List.not_mem_nil⟩

/-- What changes beside the sections changes in the same way with the items. -/
theorem open?_of_ne (change : Option Node → Option Node) {key : List Char}
    (hkey : ∀ s : Section, key ≠ s.name) :
    Matches (FillsTree settings items) (FillsTree settings items) (Toml.open? change [] key)
      (Toml.open? change [] key) := by
  intro tree filled h
  have hmem : key ∉ Section.all.map Section.name := by
    intro hmem
    obtain ⟨s, -, hname⟩ := List.mem_map.1 hmem
    exact hkey s hname.symm
  rw [h.agreeOff.open? hmem, Toml.open?_nil]
  cases change (tree.find? key) with
  | none => exact .none
  | some node =>
    refine .some ⟨h.agreeOff.set key node, fun s => ?_⟩
    rw [Toml.Entries.find?_set, Toml.Entries.find?_set, if_neg (hkey s).symm,
      if_neg (hkey s).symm]
    exact h.node s

/-- What stands for a section changes with the items and without them. -/
theorem open?_section {change change' : Option Node → Option Node}
    (hchange : Matches (FillsNode settings s items)
      (fun new new' => FillsNode settings s more (some new) (some new')) change change')
    (hmore : ∀ item ∉ s.items, item ∈ more ↔ item ∈ items) :
    Matches (FillsTree settings items) (FillsTree settings more) (Toml.open? change [] s.name)
      (Toml.open? change' [] s.name) := by
  intro tree filled h
  rw [Toml.open?_nil, Toml.open?_nil]
  refine rel_map (hchange _ _ (h.node s)) fun node node' hfills => ⟨fun key hkey => ?_, ?_⟩
  · have hne : key ≠ s.name := by
      rintro rfl
      exact hkey (List.mem_map_of_mem s.mem_all)
    rw [Toml.Entries.find?_set, Toml.Entries.find?_set, if_neg hne, if_neg hne,
      h.agreeOff key hkey]
  · intro other
    rw [Toml.Entries.find?_set, Toml.Entries.find?_set]
    by_cases hother : other = s
    · rw [if_pos (congrArg _ hother), if_pos (congrArg _ hother), hother]
      exact hfills
    · have hname : other.name ≠ s.name := Section.name_injective.ne hother
      rw [if_neg hname, if_neg hname]
      refine (h.node other).congr fun item hitem => hmore item fun hmem => hother ?_
      rw [← Item.mem_items_iff.1 hitem, Item.mem_items_iff.1 hmem]

/-- A change that has nothing to do with an item is the same with the items. -/
theorem act {path : List (List Char)} {act : Entries → Option Entries} (hact : ChangesAt path act)
    (hforeign : IsForeign path) :
    Matches (FillsTree settings items) (FillsTree settings items) act act := by
  cases hact with
  | last change key => exact open?_of_ne change hforeign.ne_section
  | @inner path act _ _ change key hact hchange =>
    by_cases hkey : ∃ s : Section, key = s.name
    · -- The table of a section differs in its items, and the rest of the key leads beside them.
      obtain ⟨s, rfl⟩ := hkey
      exact open?_section
        (FillsNode.change hchange hchange (FillsEntries.act hact hforeign)) fun _ _ => Iff.rfl
    · exact open?_of_ne change (not_exists.1 hkey)

/-- The lines before the first header. -/
theorem top (rows : List (Stray [])) : Matches (FillsTree settings []) (FillsTree settings [])
    (Toml.putAll? · (rows.filterMap Stray.entry))
    (Toml.putAll? · (rows.filterMap Stray.entry)) := by
  have hnone : rows.flatMap (fun _ => ([] : List Item)) = [] :=
    List.flatMap_eq_nil_iff.2 fun _ _ => rfl
  simp only [Toml.putAll?_filterMap]
  exact @Matches.foldlM [] _ _ _ (fun _ => FillsTree settings []) (fun _ => []) _ _ rows
    (fun row _ _ _ => .stray act row) (by simp [hnone])

/-- A header with the lines below it. -/
theorem block (block : Block) (hitems : (items ++ block.items).Nodup) :
    Matches (FillsTree settings items) (FillsTree settings (items ++ block.items))
      (Toml.open? (block.section fun _ => none).change?
        (block.section fun _ => none).path.before (block.section fun _ => none).path.last)
      (Toml.open? (block.section settings.said).change?
        (block.section settings.said).path.before (block.section settings.said).path.last) := by
  cases block with
  | own s rows =>
    refine open?_section (FillsNode.change (Toml.Section.actsBy_change? _ _)
      (Toml.Section.actsBy_change? _ _) (FillsEntries.rows hitems)) fun item hitem => ?_
    rw [Block.items, List.mem_append, or_iff_left]
    intro hmem
    obtain ⟨row, -, hrow⟩ := List.mem_flatMap.1 hmem
    exact hitem (row.mem_items hrow)
  | stray text repeated path hheader hforeign rows =>
    rw [Block.items, List.append_nil]
    exact act (Toml.changesAt_open? _ path) hforeign

/-- The headers with the lines below them. -/
theorem blocks (blocks : List Block) (hitems : (blocks.flatMap Block.items).Nodup) :
    Matches (FillsTree settings []) (FillsTree settings (blocks.flatMap Block.items))
      ((blocks.map (Block.section fun _ => none)).foldlM fun root s =>
        Toml.open? s.change? s.path.before s.path.last root)
      ((blocks.map (Block.section settings.said)).foldlM fun root s =>
        Toml.open? s.change? s.path.before s.path.last root) := by
  simp only [List.foldlM_map]
  exact .foldlM (fun b _ _ => block b) hitems

/-- An item is what its line says if the line is there, and its default otherwise. -/
theorem item?_eq {tree filled : Entries} (h : FillsTree settings items tree filled) {α : Type}
    (item : Item) (fallback : α) (read? : Node → Option α) :
    item? filled item fallback read? =
      if item ∈ items then read? (settings.node item) else some fallback := by
  have hnode := h.node item.home
  rw [item?]
  generalize tree.find? item.home.name = node at hnode
  generalize filled.find? item.home.name = node' at hnode ⊢
  cases hnode with
  | missing hitems => exact (if_neg (hitems item item.mem_items)).symm
  | @table origin entries inner hfills =>
    rw [fields?, Option.bind_eq_bind, Option.bind_some, Fields.find?,
      hfills.find?_name item item.mem_items]
    by_cases hitem : item ∈ items
    · rw [if_pos hitem, if_pos hitem]
    · rw [if_neg hitem, if_neg hitem]

end FillsTree

/-- A document with these items says the settings with these items. -/
theorem ofTree?_of_fillsTree {tree filled : Entries} (h : FillsTree settings items tree filled) :
    ofTree? filled = some (settings.overlay items) := by
  simp only [ofTree?, h.item?_eq, node, framing?_framingName, int16?_toInt, int32?_toInt, text?,
    float?, ← apply_ite some]
  rfl

variable (settings) {draft : Draft}

/-- A draft is a document exactly if it is one without the lines of its items, and then it has
these items in addition. -/
theorem rel_document?_draft (hitems : draft.items.Nodup) :
    Option.Rel (FillsTree settings draft.items) (Toml.document? draft.bare)
      (Toml.document? (draft.text settings.line)) := by
  have htext := @Draft.document?_text settings.line settings.said fun item =>
    (settings.readsAs_line item).lines
  rw [draft.document?_bare, htext]
  exact rel_bind (FillsTree.top draft.top [] [] .nil) (FillsTree.blocks draft.blocks hitems)

/-- A draft says the settings with its items, if it is a document without them. -/
theorem isSaidBy_draft (hitems : draft.items.Nodup)
    (hbare : (Toml.document? draft.bare).isSome) :
    (settings.overlay draft.items).IsSaidBy (Text.bytes (draft.text settings.line)) := by
  refine ⟨_, textOf_bytes _, ?_⟩
  have hrel := settings.rel_document?_draft hitems
  generalize Toml.document? draft.bare = tree at hrel hbare
  generalize Toml.document? (draft.text settings.line) = filled at hrel
  cases hrel with
  | none => exact absurd hbare Bool.false_ne_true
  | some hfills => exact ofTree?_of_fillsTree hfills

/-- A file with the lines of some items below the headers of their sections, and with anything
else that has nothing to do with items, is loaded as the settings with these items and the
defaults of all others, or refused for the reason for which the sweep of these is. What is left
without the lines of the items has to be a document, as it always is if that are only headers of
different sections: see `Draft.document?_bare_of_nodup`. -/
theorem load_draft (hitems : draft.items.Nodup)
    (hbare : (Toml.document? draft.bare).isSome) :
    ((settings.overlay draft.items).check = .ok () →
      load (.ok (Text.bytes (draft.text settings.line))) = .ok (settings.overlay draft.items)) ∧
    (∀ fault, (settings.overlay draft.items).check = .error fault →
      (∃ flaw, fault = .sweep flaw) ∧
        load (.ok (Text.bytes (draft.text settings.line))) = .error fault) ∧
    (.format ∉ draft.items → (settings.overlay draft.items).framing = .binary) := by
  have hload := (settings.isSaidBy_draft hitems hbare).load_eq
  refine ⟨fun hcheck => ?_, fun fault hcheck => ⟨eq_sweep_of_check hcheck, ?_⟩, fun h => if_neg h⟩
  · rw [hload, hcheck]
    rfl
  · rw [hload, hcheck]
    rfl

/-- A key and a comment before the first header, an item and an array below `[table]`, a table that
is no section, another item below `[reply]`, and a section without items. -/
def Draft.mixed : Draft where
  top := [
    { text := "title = true\n".toList
      entry := some (⟨[], "title".toList⟩, .boolean true)
      readsAs := ⟨by simp, fun _ _ _ => rfl⟩
      isForeign := by
        rintro _ _ ⟨⟩ item
        cases item <;> decide },
    { text := "# angles\n".toList
      entry := none
      readsAs := ⟨by simp, fun _ _ _ => rfl⟩
      isForeign := fun _ _ h => nomatch h }]
  blocks := [
    .own .table [
      .stray {
        text := "level = [1, 'x']\n".toList
        entry := some (⟨[], "level".toList⟩, .array [.integer 1, .text ['x']])
        readsAs := ⟨by simp, fun size rest (h : 17 ≤ size) => by
          obtain ⟨n, rfl⟩ := Nat.exists_eq_add_of_le' h
          rfl⟩
        isForeign := by
          rintro _ _ ⟨⟩ item
          cases item <;> decide },
      .own .start (by decide)],
    .stray "[[other.reply]]\n".toList true ⟨["other".toList], "reply".toList⟩
      ⟨by simp, fun _ _ _ => rfl⟩ (fun item => by cases item <;> decide) [],
    .own .reply [.own .header (by decide)],
    .own .logging []]

/-- Two items, of which the start is before the end by default or after it. -/
theorem load_draft_mixed :
    load (.ok (Text.bytes (Draft.mixed.text (line
        { framing := .ascii, header := "x ".toList, sweep := { start := 90 } })))) =
      .ok { header := "x ".toList, sweep := { start := 90 } } ∧
    load (.ok (Text.bytes (Draft.mixed.text (line { sweep := { start := 400, stop := 500 } })))) =
      .error (.sweep (.reversed 400 359)) :=
  ⟨(load_draft _ (by decide) (by decide)).1 (by decide),
    ((load_draft _ (by decide) (by decide)).2.1 _ (by decide)).2⟩

end LidarAngle.Settings
