import LidarAngle.Proofs.Toml.Document

/-!
# Changes of a document

A value under a dotted key and a header change what the first part of their key stands for, and
look at nothing else. If that is a table, the rest of the key changes its entries in the same way,
whatever else the table has.

## Main definitions

* `Toml.Entries.set` - the entries with something else for a key
* `Toml.AgreeOff` - entries that differ at most in what some keys stand for
* `Toml.ActsBy` - a change of a table by its entries
* `Toml.ChangesAt` - a change that follows a path

## Main statements

* `Toml.open?_nil` - a change of what one key stands for
* `Toml.changesAt_put?`, `Toml.changesAt_open?` - values and headers follow their keys
-/

namespace LidarAngle.Toml

namespace Entries

variable (entries : Entries) (key other : List Char) (node : Node)

theorem find?_cons (entry : List Char × Node) :
    find? (entry :: entries) key = if key = entry.1 then some entry.2 else find? entries key := by
  rw [find?, List.lookup_cons]
  by_cases h : key = entry.1
  · rw [if_pos h, beq_iff_eq.2 h]
  · rw [if_neg h, beq_false_of_ne h]
    rfl

theorem find?_append_singleton :
    find? (entries ++ [(key, node)]) other =
      (find? entries other).or (if other = key then some node else none) := by
  rw [find?, List.lookup_append]
  exact congrArg _ (find?_cons [] other (key, node))

theorem find?_replace :
    find? (entries.replace key node) other =
      if other = key then (find? entries key).map fun _ => node else find? entries other := by
  induction entries with
  | nil => split <;> rfl
  | cons entry entries ih =>
    have hcons : Entries.replace (entry :: entries) key node =
        (if entry.1 = key then (key, node) else entry) :: Entries.replace entries key node := rfl
    rw [hcons, find?_cons, find?_cons, find?_cons, ih]
    by_cases hentry : entry.1 = key
    · rw [if_pos hentry, hentry, if_pos rfl]
      by_cases hother : other = key
      · rw [if_pos hother, if_pos hother]
        rfl
      · simp only [if_neg hother]
    · rw [if_neg hentry, if_neg (Ne.symm hentry)]
      by_cases hother : other = key
      · rw [if_pos hother, if_neg (hother ▸ Ne.symm hentry), if_pos hother]
      · rw [if_neg hother, if_neg hother]

/-- The entries with something else for a key, at the end if they do not have it. -/
def set : Entries :=
  if entries.find? key = none then entries ++ [(key, node)] else entries.replace key node

theorem find?_set : find? (entries.set key node) other =
    if other = key then some node else find? entries other := by
  unfold set
  split
  · next hnone =>
    rw [find?_append_singleton]
    by_cases hother : other = key
    · rw [if_pos hother, hother, hnone, if_pos rfl]
      rfl
    · rw [if_neg hother, if_neg hother, Option.or_none]
  · next hsome =>
    obtain ⟨old, hold⟩ := Option.ne_none_iff_exists'.1 hsome
    rw [find?_replace, hold]
    rfl

end Entries

/-- The entries differ at most in what these keys stand for. -/
def AgreeOff (keys : List (List Char)) (entries others : Entries) : Prop :=
  ∀ key ∉ keys, others.find? key = entries.find? key

theorem AgreeOff.set {keys : List (List Char)} {entries others : Entries}
    (h : AgreeOff keys entries others) (key : List Char) (node : Node) :
    AgreeOff keys (entries.set key node) (others.set key node) := by
  intro other hother
  rw [Entries.find?_set, Entries.find?_set, h other hother]

section Change

variable {change : Option Node → Option Node} {key : List Char} {entries : Entries}

/-- A change of what one key stands for. -/
theorem open?_nil : open? change [] key entries =
    (change (entries.find? key)).map (entries.set key) := by
  rw [open?]
  cases hfind : entries.find? key with
  | none =>
    cases hnode : change none with
    | none => rfl
    | some node => exact congrArg some (if_pos hfind).symm
  | some old =>
    cases hnode : change (some old) with
    | none => simp [hnode]
    | some node =>
      have hold : entries.find? key ≠ none := by simp [hfind]
      have hset : entries.set key node = entries.replace key node := if_neg hold
      simp [hnode, hset]

/-- A change that looks at a key in which entries agree is the same for both. -/
theorem AgreeOff.open? {keys : List (List Char)} {others : Entries}
    (h : AgreeOff keys entries others) (hkey : key ∉ keys) :
    open? change [] key others = (change (entries.find? key)).map (others.set key) := by
  rw [open?_nil, h key hkey]

end Change

/-- What a key stands for is changed by a change of its entries if it is a table. How the table
came to be decides whether there is a change at all. -/
structure ActsBy (fresh : Origin) (next : Origin → Option Origin)
    (act : Entries → Option Entries) (change : Option Node → Option Node) : Prop where
  none : change none = (act []).map (.table fresh)
  table : ∀ origin entries, change (some (.table origin entries)) =
    (next origin).bind fun origin => (act entries).map (.table origin)

/-- The parts of a key. -/
def Path.parts (path : Path) : List (List Char) :=
  path.before ++ [path.last]

/-- The change follows a path through the tables of a document. -/
inductive ChangesAt : List (List Char) → (Entries → Option Entries) → Prop
  | last (change : Option Node → Option Node) (key : List Char) :
      ChangesAt [key] (open? change [] key)
  | inner {path : List (List Char)} {act : Entries → Option Entries} {fresh : Origin}
      {next : Origin → Option Origin} {change : Option Node → Option Node} (key : List Char)
      (hact : ChangesAt path act) (hchange : ActsBy fresh next act change) :
      ChangesAt (key :: path) (open? change [] key)

theorem ChangesAt.eq_open? {key : List Char} {path : List (List Char)}
    {act : Entries → Option Entries} (h : ChangesAt (key :: path) act) :
    ∃ change, act = open? change [] key := by
  cases h with
  | last change => exact ⟨change, rfl⟩
  | @inner _ _ _ _ change => exact ⟨change, rfl⟩

/-- What a value makes of whatever its key stood for. -/
def fill? (value : Node) : Option Node → Option Node
  | none => some value
  | some _ => none

/-- What a value under a dotted key makes of whatever the first part of the key stood for. -/
def putInto? (path : List (List Char)) (key : List Char) (value : Node) :
    Option Node → Option Node
  | none => (put? path key value []).map (.table .dotted)
  | some (.table .dotted inner) => (put? path key value inner).map (.table .dotted)
  | some (.table .implied inner) =>
    if path = [] then none else (put? path key value inner).map (.table .implied)
  | some (.tables rows) =>
    if path = [] then none else (changeLast? (put? path key value) rows).map .tables
  | some _ => none

/-- What a longer header makes of whatever the first part of its key stood for. -/
def openInto? (change : Option Node → Option Node) (path : List (List Char)) (key : List Char) :
    Option Node → Option Node
  | none => (open? change path key []).map (.table .implied)
  | some (.table .inline _) => none
  | some (.table origin inner) => (open? change path key inner).map (.table origin)
  | some (.tables rows) => (changeLast? (open? change path key) rows).map .tables
  | some _ => none

/-- How a table came to be after a dotted key led into it. -/
def dottedNext (path : List (List Char)) : Origin → Option Origin
  | .dotted => some .dotted
  | .implied => if path = [] then none else some .implied
  | _ => none

section Paths

variable (change : Option Node → Option Node) (first : List Char) (path : List (List Char))
  (key : List Char) (value : Node)

theorem put?_nil : put? [] key value = open? (fill? value) [] key := by
  funext entries
  rw [put?, open?]
  cases entries.find? key with
  | none => rfl
  | some node => rfl

theorem put?_cons :
    put? (first :: path) key value = open? (putInto? path key value) [] first := by
  funext entries
  rw [put?.eq_2, open?.eq_1]
  cases entries.find? first with
  | none => simp [putInto?, Option.bind_map]
  | some node =>
    rcases eq_or_ne path [] with hpath | hpath
    all_goals
      fun_cases putInto? path key value (some node)
      all_goals simp [putInto?, hpath, Option.bind_map]

theorem open?_cons :
    open? change (first :: path) key = open? (openInto? change path key) [] first := by
  funext entries
  rw [open?.eq_2, open?.eq_1]
  cases entries.find? first with
  | none => simp [openInto?, Option.bind_map]
  | some node =>
    fun_cases openInto? change path key (some node)
    all_goals simp [openInto?, Option.bind_map]

theorem actsBy_putInto? :
    ActsBy .dotted (dottedNext path) (put? path key value) (putInto? path key value) := by
  refine ⟨rfl, fun origin entries => ?_⟩
  cases origin with
  | inline => rfl
  | header => rfl
  | implied =>
    rcases eq_or_ne path [] with hpath | hpath
    · simp [dottedNext, putInto?, hpath]
    · simp [dottedNext, putInto?, hpath]
  | dotted => rfl

theorem actsBy_openInto? :
    ActsBy .implied (fun origin => if origin = .inline then none else some origin)
      (open? change path key) (openInto? change path key) := by
  refine ⟨rfl, fun origin entries => ?_⟩
  cases origin with
  | inline => rfl
  | header => rfl
  | implied => rfl
  | dotted => rfl

end Paths

/-- A header in single brackets makes a table its own by the keys below it. -/
theorem Section.actsBy_change? (path : Path) (pairs : List (Path × Node)) :
    ActsBy .header (fun origin => if origin = .implied then some .header else none)
      (fun entries => putAll? entries pairs) (Section.change? ⟨false, path, pairs⟩) := by
  refine ⟨rfl, fun origin entries => ?_⟩
  cases origin with
  | inline => rfl
  | header => rfl
  | implied => rfl
  | dotted => rfl

/-- A value is put where its key leads. -/
theorem changesAt_put? (path : Path) (value : Node) :
    ChangesAt path.parts (put? path.before path.last value) := by
  obtain ⟨before, key⟩ := path
  show ChangesAt (before ++ [key]) (put? before key value)
  induction before with
  | nil =>
    rw [put?_nil]
    exact .last (fill? value) key
  | cons first before ih =>
    rw [put?_cons]
    exact ih.inner first (actsBy_putInto? before key value)

/-- A header changes what its key names. -/
theorem changesAt_open? (change : Option Node → Option Node) (path : Path) :
    ChangesAt path.parts (open? change path.before path.last) := by
  obtain ⟨before, key⟩ := path
  show ChangesAt (before ++ [key]) (open? change before key)
  induction before with
  | nil => exact .last change key
  | cons first before ih =>
    rw [open?_cons]
    exact ih.inner first (actsBy_openInto? change before key)

theorem putAll?_singleton (entries : Entries) (path : Path) (node : Node) :
    putAll? entries [(path, node)] = put? path.before path.last node entries := by
  rw [putAll?, List.foldlM_cons]
  exact bind_pure _

/-- Lines with an entry or none put their entries one after another. -/
theorem putAll?_filterMap {α : Type} (entry : α → Option (Path × Node)) (rows : List α)
    (entries : Entries) : putAll? entries (rows.filterMap entry) =
      rows.foldlM (fun entries row => putAll? entries (entry row).toList) entries := by
  induction rows generalizing entries with
  | nil => rfl
  | cons row rows ih =>
    rw [List.foldlM_cons, List.filterMap_eq_flatMap_toList, List.flatMap_cons, putAll?,
      List.foldlM_append, ← List.filterMap_eq_flatMap_toList]
    exact congrArg _ (funext ih)

end LidarAngle.Toml
