import LidarAngle.Proofs.Toml.Number
import LidarAngle.Toml.Document
import Mathlib.Data.List.Nodup

/-!
# Documents put together of lines

A text that is put together of lines is read line by line. Headers with names of their own, and
below each of them keys of their own, make a tree of one table for every header.

## Main definitions

* `Toml.ReadsAs` - a text is read as one line, whatever follows it
* `Toml.ReadsAsLines` - a text is put together of such lines
* `Toml.headed` - headers with the keys below them, as lines

## Main statements

* `Toml.ReadsAsLines.document?_eq` - the tree of a text that is put together of lines
* `Toml.readsAs_entry`, `Toml.readsAs_header` - a key with a value, and a header
* `Toml.tree?_headed` - the tree of headers with the keys below them
-/

namespace LidarAngle.Toml

/-- The text is read as one line, whatever follows it. Its brackets hold no more items than it has
characters. -/
structure ReadsAs (text : List Char) (line : Option Line) : Prop where
  ne_nil : text ≠ []
  line?_append : ∀ size rest, text.length ≤ size → line? size (text ++ rest) = some (line, rest)

/-- The text is put together of lines, of which these matter. -/
inductive ReadsAsLines : List Char → List Line → Prop
  | nil : ReadsAsLines [] []
  | cons {text rest : List Char} {line : Option Line} {lines : List Line}
      (h : ReadsAs text line) (hrest : ReadsAsLines rest lines) :
      ReadsAsLines (text ++ rest) (line.toList ++ lines)

namespace ReadsAsLines

variable {text other : List Char} {lines more : List Line}

theorem append (h : ReadsAsLines text lines) (hother : ReadsAsLines other more) :
    ReadsAsLines (text ++ other) (lines ++ more) := by
  induction h with
  | nil => exact hother
  | cons hline _ ih =>
    rw [List.append_assoc, List.append_assoc]
    exact cons hline ih

theorem flatMap {α : Type} {write : α → List Char} {lines : α → List Line}
    (h : ∀ x, ReadsAsLines (write x) (lines x)) (xs : List α) :
    ReadsAsLines (xs.flatMap write) (xs.flatMap lines) := by
  induction xs with
  | nil => exact nil
  | cons x xs ih => exact (h x).append ih

/-- Lines that do not matter may stand between blocks of lines. -/
theorem intercalate {α : Type} {write : α → List Char} {lines : α → List Line}
    {separator : List Char} (hseparator : ReadsAs separator none)
    (h : ∀ x, ReadsAsLines (write x) (lines x)) (xs : List α) :
    ReadsAsLines (separator.intercalate (xs.map write)) (xs.flatMap lines) := by
  induction xs with
  | nil => exact nil
  | cons x xs ih =>
    rcases xs with _ | ⟨y, ys⟩
    · simpa using h x
    · rw [List.map_cons, List.map_cons, List.intercalate_cons_cons, List.append_assoc,
        List.flatMap_cons]
      exact (h x).append (cons hseparator ih)

theorem linesUpTo?_eq (h : ReadsAsLines text lines) {size most : ℕ} (hsize : text.length ≤ size)
    (hmost : text.length ≤ most) : linesUpTo? size most text = some lines := by
  induction h generalizing most with
  | nil => simp [linesUpTo?]
  | @cons text rest line lines hline _ ih =>
    obtain ⟨hne, happend⟩ := hline
    have hpos := List.length_pos_iff.2 hne
    rw [List.length_append] at hsize hmost
    rcases most with _ | most
    · omega
    · rw [linesUpTo?]
      · rw [happend size rest (by omega), Option.bind_eq_bind, Option.bind_some]
        dsimp only
        rw [ih (by omega) (by omega)]
        rfl
      · simp [hne]

/-- A text that is put together of lines is read line by line. -/
theorem lines?_eq (h : ReadsAsLines text lines) : lines? text = some lines :=
  h.linesUpTo?_eq (Nat.le_refl _) (Nat.le_refl _)

/-- The mark that says a text is Unicode starts no line. -/
theorem unmarked_eq (h : ReadsAsLines text lines) : unmarked text = text := by
  cases h with
  | nil => rfl
  | @cons text rest line lines hline _ =>
    rw [unmarked.eq_def]
    split
    · next tail htext =>
      have hread := hline.line?_append _ rest (Nat.le_refl _)
      rw [htext] at hread
      exact nomatch hread
    · rfl

/-- A text that is put together of lines is the tree of these lines. -/
theorem document?_eq (h : ReadsAsLines text lines) : document? text = tree? lines := by
  rw [document?, h.unmarked_eq, h.lines?_eq]
  rfl

end ReadsAsLines

theorem ReadsAs.lines {text : List Char} {line : Option Line} (h : ReadsAs text line) :
    ReadsAsLines text line.toList := by
  simpa using ReadsAsLines.nil.cons h

theorem ne_of_isBare {c d : Char} (hc : isBare c) (hd : ¬isBare d) : c ≠ d := by
  rintro rfl
  exact hd hc

section Keys

variable {key : List Char} (hkey : ∀ c ∈ key, isBare c) (hne : key ≠ [])
include hkey hne

theorem part?_bare {c : Char} (hc : ¬isBare c) (rest : List Char) :
    part? (key ++ c :: rest) = some (key, c :: rest) := by
  obtain ⟨first, tail, rfl⟩ := List.exists_cons_of_ne_nil hne
  have hfirst := hkey first List.mem_cons_self
  have hquote : ¬(first = '"' ∨ first = '\x27') :=
    not_or.2 ⟨ne_of_isBare hfirst (by decide), ne_of_isBare hfirst (by decide)⟩
  rw [List.cons_append, part?, if_neg hquote, if_pos hfirst, ← List.cons_append,
    List.takeWhile_append_of_pos hkey, List.dropWhile_append_of_pos hkey,
    List.takeWhile_cons_of_neg hc, List.dropWhile_cons_of_neg hc, List.append_nil]

theorem skipBlanks_bare (rest : List Char) : skipBlanks (key ++ rest) = key ++ rest := by
  obtain ⟨first, tail, rfl⟩ := List.exists_cons_of_ne_nil hne
  have hfirst := hkey first List.mem_cons_self
  refine List.dropWhile_cons_of_neg fun hblank => ?_
  rcases of_decide_eq_true hblank with rfl | rfl
  · exact absurd hfirst (by decide)
  · exact absurd hfirst (by decide)

theorem path?_bare {c : Char} (hc : ¬isBare c) {rest : List Char}
    (hpoint : ∀ tail, skipBlanks (c :: rest) ≠ '.' :: tail) :
    path? (key ++ c :: rest) = some (⟨[], key⟩, skipBlanks (c :: rest)) := by
  have hparts : parts? (depthLimit - 1) (key ++ c :: rest) =
      some ([key], skipBlanks (c :: rest)) := by
    show parts? (78 + 1) _ = _
    rw [parts?, skipBlanks_bare hkey hne, part?_bare hkey hne hc]
    dsimp only
    split
    · next tail htail => exact absurd htail (hpoint tail)
    · rfl
  rw [path?, hparts]
  rfl

/-- A header with a key of one part. -/
theorem readsAs_header : ReadsAs ('[' :: key ++ [']', '\n']) (some (.header false ⟨[], key⟩)) := by
  refine ⟨by simp, fun size rest _ => ?_⟩
  have hpath : path? (key ++ ']' :: '\n' :: rest) = some (⟨[], key⟩, ']' :: '\n' :: rest) :=
    path?_bare hkey hne (by decide) (by simp [skipBlanks, isBlank])
  have hcontent : content? size ('[' :: (key ++ ']' :: '\n' :: rest)) =
      some (some (.header false ⟨[], key⟩), '\n' :: rest) := by
    rw [content?]
    · rw [hpath]
      rfl
    · intro tail htail
      obtain ⟨first, rest, rfl⟩ := List.exists_cons_of_ne_nil hne
      exact ne_of_isBare (hkey first List.mem_cons_self) (by decide) (List.cons.inj htail).1
  have htext : '[' :: key ++ [']', '\n'] ++ rest = '[' :: (key ++ ']' :: '\n' :: rest) := by simp
  rw [htext, line?]
  show (content? size ('[' :: (key ++ ']' :: '\n' :: rest))).bind _ = _
  rw [hcontent]
  rfl

theorem pair_bare {read? : Reader} {text : List Char} {node : Node} {rest : List Char}
    (hvalue : read? (skipBlanks text) = some (node, rest)) :
    pair read? (key ++ ' ' :: '=' :: text) = some ((⟨[], key⟩, node), rest) := by
  have hpath : path? (key ++ ' ' :: '=' :: text) = some (⟨[], key⟩, '=' :: text) :=
    path?_bare hkey hne (by decide) (by simp [skipBlanks, isBlank])
  rw [pair, hpath, Option.bind_eq_bind, Option.bind_some]
  show (read? (skipBlanks text)).bind _ = _
  rw [hvalue]
  rfl

/-- A key of one part with anything that is read as a value up to the end of the line. -/
theorem readsAs_entry {value : List Char} {node : Node}
    (hvalue : ∀ size rest, value? size (depthLimit - 1) (value ++ '\n' :: rest) =
      some (node, '\n' :: rest)) :
    ReadsAs (key ++ " = ".toList ++ value ++ ['\n']) (some (.entry ⟨[], key⟩ node)) := by
  refine ⟨by simp, fun size rest _ => ?_⟩
  have hskip : skipBlanks (' ' :: (value ++ '\n' :: rest)) = value ++ '\n' :: rest :=
    skipBlanks_of_value? (hvalue size rest)
  have hpair := pair_bare hkey hne ((congrArg _ hskip).trans (hvalue size rest))
  have htext : key ++ " = ".toList ++ value ++ ['\n'] ++ rest =
      key ++ ' ' :: '=' :: ' ' :: (value ++ '\n' :: rest) := by simp
  rw [htext, line?, skipBlanks_bare hkey hne]
  obtain ⟨first, tail, rfl⟩ := List.exists_cons_of_ne_nil hne
  have hfirst : ∀ d, ¬isBare d → first ≠ d := fun d hd =>
    ne_of_isBare (hkey first List.mem_cons_self) hd
  have hcontent : content? size (first :: tail ++ ' ' :: '=' :: ' ' :: (value ++ '\n' :: rest)) =
      some (some (.entry ⟨[], first :: tail⟩ node), '\n' :: rest) := by
    rw [List.cons_append] at hpair ⊢
    rw [content?, hpair, if_neg]
    · rfl
    · rintro (h | h | h)
      all_goals exact hfirst _ (by decide) h
    · exact fun _ h _ => hfirst '[' (by decide) h
    · exact hfirst '[' (by decide)
  rw [hcontent]
  rfl

end Keys

/-- An empty line. -/
theorem readsAs_blank : ReadsAs ['\n'] none :=
  ⟨by simp, fun _ _ _ => rfl⟩

/-- Entries as they are put into a table, with keys of one part. -/
def undotted (entries : Entries) : List (Path × Node) :=
  entries.map fun (key, node) => (⟨[], key⟩, node)

/-- Headers with the keys below them, as lines. -/
def headed (tables : List (List Char × Entries)) : List Line :=
  tables.flatMap fun (name, entries) =>
    .header false ⟨[], name⟩ :: (undotted entries).map fun (path, node) => .entry path node

theorem find?_eq_none {entries : Entries} {key : List Char} (h : key ∉ entries.map Prod.fst) :
    entries.find? key = none := by
  rw [Entries.find?, List.lookup_eq_none_iff]
  intro entry hentry
  rw [bne_iff_ne]
  rintro rfl
  exact h (List.mem_map_of_mem hentry)

/-- Keys that a table does not have are put at its end. -/
theorem putAll?_undotted {entries new : Entries} (h : ((entries ++ new).map Prod.fst).Nodup) :
    putAll? entries (undotted new) = some (entries ++ new) := by
  induction new generalizing entries with
  | nil => rw [List.append_nil]; rfl
  | cons entry new ih =>
    obtain ⟨key, node⟩ := entry
    have happend : entries ++ (key, node) :: new = (entries ++ [(key, node)]) ++ new := by simp
    have hfresh : key ∉ entries.map Prod.fst := by
      rw [List.map_append, List.map_cons, List.nodup_append] at h
      exact fun hmem => h.2.2 key hmem key List.mem_cons_self rfl
    have hput : put? [] key node entries = some (entries ++ [(key, node)]) := by
      rw [put?, find?_eq_none hfresh]
    rw [happend] at h ⊢
    exact (congrArg (Option.bind · _) hput).trans (ih h)

theorem sections_append (pairs : List (Path × Node)) (lines : List Line) :
    sections (pairs.map (fun (path, node) => .entry path node) ++ lines) =
      (pairs ++ (sections lines).1, (sections lines).2) := by
  induction pairs with
  | nil => rfl
  | cons pair pairs ih =>
    rw [List.map_cons, List.cons_append, sections, ih]
    rfl

/-- A header with the keys below it, as lines. -/
def Section.lines (s : Section) : List Line :=
  .header s.repeated s.path :: s.entries.map fun (path, node) => .entry path node

theorem sections_flatMap_lines (headers : List Section) :
    sections (headers.flatMap Section.lines) = ([], headers) := by
  induction headers with
  | nil => rfl
  | cons s headers ih =>
    rw [List.flatMap_cons, Section.lines, List.cons_append, sections, sections_append, ih,
      List.append_nil]

/-- The tree of the keys before the first header and the headers with the keys below them. -/
theorem tree?_append (top : List (Path × Node)) (headers : List Section) :
    tree? (top.map (fun (path, node) => .entry path node) ++ headers.flatMap Section.lines) =
      (putAll? [] top).bind (headers.foldlM fun root s =>
        open? s.change? s.path.before s.path.last root) := by
  rw [tree?, sections_append, sections_flatMap_lines, List.append_nil]
  rfl

theorem sections_headed (tables : List (List Char × Entries)) :
    sections (headed tables) =
      ([], tables.map fun (name, entries) => ⟨false, ⟨[], name⟩, undotted entries⟩) := by
  rw [← sections_flatMap_lines, List.flatMap_map]
  rfl

/-- A new header makes a table of its own at the end of the document. -/
theorem open?_change? {root : Entries} {name : List Char} {entries : Entries}
    (hname : name ∉ root.map Prod.fst) (hkeys : (entries.map Prod.fst).Nodup) :
    open? (Section.change? ⟨false, ⟨[], name⟩, undotted entries⟩) [] name root =
      some (root ++ [(name, .table .header entries)]) := by
  have hputAll := @putAll?_undotted [] entries hkeys
  have hchange : Section.change? ⟨false, ⟨[], name⟩, undotted entries⟩ none =
      some (.table .header entries) := by
    show (putAll? [] (undotted entries)).map _ = _
    rw [hputAll]
    rfl
  rw [open?, find?_eq_none hname]
  dsimp only
  rw [hchange]
  rfl

theorem foldlM_open? {root : Entries} {tables : List (List Char × Entries)}
    (hnames : (root.map Prod.fst ++ tables.map Prod.fst).Nodup)
    (hkeys : ∀ table ∈ tables, (table.2.map Prod.fst).Nodup) :
    (tables.map fun (name, entries) => (⟨false, ⟨[], name⟩, undotted entries⟩ : Section)).foldlM
        (fun root s => open? s.change? s.path.before s.path.last root) root =
      some (root ++ tables.map fun (name, entries) => (name, .table .header entries)) := by
  induction tables generalizing root with
  | nil => simp
  | cons table tables ih =>
    obtain ⟨name, entries⟩ := table
    have hname : name ∉ root.map Prod.fst := by
      rw [List.map_cons, List.nodup_append] at hnames
      exact fun hmem => hnames.2.2 name hmem name List.mem_cons_self rfl
    have hopen := open?_change? hname (hkeys _ List.mem_cons_self)
    have hnames' : ((root ++ [(name, Node.table .header entries)]).map Prod.fst ++
        tables.map Prod.fst).Nodup := by
      simpa using hnames
    have hrest := ih hnames' fun table htable => hkeys table (List.mem_cons_of_mem _ htable)
    rw [List.append_assoc] at hrest
    exact (congrArg (Option.bind · _) hopen).trans hrest

/-- Headers with names of their own, and below each of them keys of their own, make one table
each. -/
theorem tree?_headed {tables : List (List Char × Entries)} (hnames : (tables.map Prod.fst).Nodup)
    (hkeys : ∀ table ∈ tables, (table.2.map Prod.fst).Nodup) :
    tree? (headed tables) =
      some (tables.map fun (name, entries) => (name, .table .header entries)) := by
  have hfold := @foldlM_open? [] tables hnames hkeys
  rw [tree?, sections_headed]
  exact hfold

end LidarAngle.Toml
