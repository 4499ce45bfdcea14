import LidarAngle.Directory

/-!
# Reading what was stored

A path that a file can be created at leads to that file once it is stored: the steps before the last
one do not depend on the files, and no step leads on from a file.

## Main definitions

* `Directory.Place.name?` - the name that a place has or could have
* `Directory.HasSameNames` - files of the same names

## Main statements

* `Directory.follow_inside_cases` - where one step leads
* `Directory.read_store_of_create` - what was stored is read at the path
* `Directory.HasSameNames.create_eq` - what files hold does not matter to where one can be created
-/

namespace LidarAngle.Directory

/-- The name of a file, or one that no file has. -/
def Place.name? : Place → Option (List Char)
  | inside => none
  | outside => none
  | file name _ => some name
  | absent name => some name

variable {directory : Directory} {place next : Place} {name step : List Char}

/-- A step in the directory stays there, whatever the files are, or leaves for good, or leads to its
own name, under which a file can be stored. -/
theorem follow_inside_cases (h : directory.follow .inside step = .ok next) :
    (next = .inside ∧ ∀ other : Directory, other.follow .inside step = .ok .inside) ∨
      next = .outside ∨
      (next.name? = some step ∧ ∀ content,
        (directory.store step content).follow .inside step = .ok (.file step content)) := by
  simp only [follow] at h ⊢
  by_cases hstay : step = [] ∨ step = ['.']
  · rw [if_pos hstay] at h
    exact .inl ⟨(Except.ok.inj h).symm, fun _ => if_pos hstay⟩
  · rw [if_neg hstay] at h
    by_cases hleave : step = ['.', '.']
    · rw [if_pos hleave] at h
      exact .inr (.inl (Except.ok.inj h).symm)
    · rw [if_neg hleave] at h
      by_cases hlong : nameLimit < (String.ofList step).utf8ByteSize
      · rw [if_pos hlong] at h
        exact absurd h (by simp)
      · rw [if_neg hlong] at h
        refine .inr (.inr ⟨?_, fun content => ?_⟩)
        · split at h
          · rw [← Except.ok.inj h, Place.name?]
          · rw [← Except.ok.inj h, Place.name?]
        · rw [if_neg hstay, if_neg hleave, if_neg hlong, lookup_store]

theorem eq_outside_of_follow (h : directory.follow .outside step = .ok next) : next = .outside := by
  unfold follow at h
  dsimp only at h
  split at h
  · exact (Except.ok.inj h).symm
  · split at h
    · exact absurd h (by simp)
    · exact absurd h (by simp)

theorem eq_outside_of_foldlM {steps : List (List Char)}
    (h : steps.foldlM directory.follow .outside = .ok place) : place = .outside := by
  induction steps with
  | nil => exact (Except.ok.inj h).symm
  | cons step rest ih =>
    rw [List.foldlM_cons] at h
    cases hstep : directory.follow .outside step with
    | error cause => simp [hstep, bind, Except.bind] at h
    | ok next =>
      rw [hstep, eq_outside_of_follow hstep] at h
      exact ih h

/-- No step leads on from a name. -/
theorem eq_nil_of_foldlM {start : Place} (hstart : start.name? = some name)
    {steps : List (List Char)} (h : steps.foldlM directory.follow start = .ok place) :
    steps = [] := by
  rcases steps with _ | ⟨step, rest⟩
  · rfl
  · rw [List.foldlM_cons] at h
    cases start with
    | inside => simp [Place.name?] at hstart
    | outside => simp [Place.name?] at hstart
    | file _ _ => simp [follow, bind, Except.bind] at h
    | absent _ => simp [follow, bind, Except.bind] at h

/-- Steps that lead to a name lead to its file once it is stored. -/
theorem locate_store {steps : List (List Char)} (hname : place.name? = some name)
    (h : directory.locate steps = .ok place) (content : ByteArray) :
    (directory.store name content).locate steps = .ok (.file name content) := by
  unfold locate at h ⊢
  induction steps with
  | nil =>
    obtain rfl := Except.ok.inj h
    simp [Place.name?] at hname
  | cons step rest ih =>
    rw [List.foldlM_cons] at h ⊢
    cases hstep : directory.follow .inside step with
    | error cause => simp [hstep, bind, Except.bind] at h
    | ok next =>
      rw [hstep] at h
      have hrest : rest.foldlM directory.follow next = .ok place := h
      rcases follow_inside_cases hstep with ⟨rfl, hstay⟩ | rfl | ⟨hnext, hstored⟩
      · rw [hstay]
        exact ih hrest
      · rw [eq_outside_of_foldlM hrest] at hname
        simp [Place.name?] at hname
      · obtain rfl := eq_nil_of_foldlM hnext hrest
        obtain rfl := Except.ok.inj hrest
        obtain rfl := Option.some.inj (hnext.symm.trans hname)
        rw [hstored]
        rfl

/-- What was stored is read at the path. -/
theorem read_store_of_create {path : String} (h : directory.create path = .ok name)
    (content : ByteArray) : (directory.store name content).read path = .ok content := by
  unfold create at h
  unfold read
  cases hsteps : steps path with
  | error cause => simp [hsteps, bind, Except.bind] at h
  | ok walk =>
    simp only [hsteps, bind, Except.bind] at h ⊢
    by_cases hslash : walk.getLast? = some []
    · rw [if_pos hslash] at h
      cases hwalk : directory.locate (approach walk ++ [[]]) with
      | error cause => simp [hwalk] at h
      | ok place => simp [hwalk] at h
    · rw [if_neg hslash] at h
      cases hwalk : directory.locate walk with
      | error cause => simp [hwalk] at h
      | ok place =>
        have hname : place.name? = some name := by
          rw [hwalk] at h
          cases place with
          | inside => simp at h
          | outside => simp at h
          | file _ _ => simpa [Place.name?] using h
          | absent _ => simpa [Place.name?] using h
        rw [locate_store hname hwalk content]

section SameNames

/-- The directories have files of the same names. -/
def HasSameNames (first second : Directory) : Prop :=
  ∀ name, (first.lookup name).isSome = (second.lookup name).isSome

/-- The places are the same but for the content of a file. -/
inductive Place.IsLike : Place → Place → Prop
  | inside : IsLike .inside .inside
  | outside : IsLike .outside .outside
  | file (name : List Char) (content other : ByteArray) :
      IsLike (.file name content) (.file name other)
  | absent (name : List Char) : IsLike (.absent name) (.absent name)

/-- Two ways are barred by the same cause or lead to the same place but for the content of a
file. -/
def LeadAlike (x y : Except FileFault Place) : Prop :=
  (∃ cause, x = .error cause ∧ y = .error cause) ∨ ∃ p q, x = .ok p ∧ y = .ok q ∧ p.IsLike q

variable {first second : Directory} {p q : Place}

theorem LeadAlike.error (cause : FileFault) : LeadAlike (.error cause) (.error cause) :=
  .inl ⟨cause, rfl, rfl⟩

theorem Place.IsLike.leadAlike (h : p.IsLike q) : LeadAlike (.ok p) (.ok q) :=
  .inr ⟨p, q, rfl, rfl, h⟩

namespace HasSameNames

theorem store (directory : Directory) (name : List Char) (content other : ByteArray) :
    HasSameNames (directory.store name content) (directory.store name other) := by
  intro step
  by_cases hstep : step = name
  · rw [hstep, lookup_store, lookup_store]
    rfl
  · have hne : (step == name) = false := by simpa using hstep
    simp [Directory.store, List.lookup_cons, hne]

theorem follow (h : HasSameNames first second) (hplace : p.IsLike q) (step : List Char) :
    LeadAlike (first.follow p step) (second.follow q step) := by
  unfold Directory.follow
  cases hplace with
  | inside =>
    dsimp only
    split
    · exact Place.IsLike.inside.leadAlike
    · split
      · exact Place.IsLike.outside.leadAlike
      · split
        · exact .error _
        · have hlookup := h step
          cases hfirst : first.lookup step with
          | none =>
            have hsecond : second.lookup step = none := by simpa [hfirst] using hlookup
            rw [hsecond]
            exact (Place.IsLike.absent step).leadAlike
          | some content =>
            have hsome : (second.lookup step).isSome := by simp [← hlookup, hfirst]
            obtain ⟨other, hsecond⟩ := Option.isSome_iff_exists.1 hsome
            rw [hsecond]
            exact (Place.IsLike.file step content other).leadAlike
  | outside =>
    dsimp only
    split
    · exact Place.IsLike.outside.leadAlike
    · split
      · exact .error _
      · exact .error _
  | file name content other => exact .error _
  | absent name => exact .error _

theorem foldlM (h : HasSameNames first second) (hplace : p.IsLike q) (steps : List (List Char)) :
    LeadAlike (steps.foldlM first.follow p) (steps.foldlM second.follow q) := by
  induction steps generalizing p q with
  | nil => exact hplace.leadAlike
  | cons step rest ih =>
    rw [List.foldlM_cons, List.foldlM_cons]
    rcases h.follow hplace step with ⟨cause, hfirst, hsecond⟩ | ⟨p', q', hfirst, hsecond, hnext⟩
    · rw [hfirst, hsecond]
      exact .error cause
    · rw [hfirst, hsecond]
      exact ih hnext

/-- Where a file can be created is a matter of the names alone. -/
theorem create_eq (h : HasSameNames first second) (path : String) :
    first.create path = second.create path := by
  unfold create
  cases steps path with
  | error cause => rfl
  | ok walk =>
    show (if walk.getLast? = some [] then _ else _) = if walk.getLast? = some [] then _ else _
    split
    · rcases h.foldlM .inside (approach walk ++ [[]]) with
        ⟨cause, hfirst, hsecond⟩ | ⟨p, q, hfirst, hsecond, -⟩
      · rw [locate, locate, hfirst, hsecond]
      · rw [locate, locate, hfirst, hsecond]
        rfl
    · rcases h.foldlM .inside walk with
        ⟨cause, hfirst, hsecond⟩ | ⟨p, q, hfirst, hsecond, hplace⟩
      · rw [locate, locate, hfirst, hsecond]
      · rw [locate, locate, hfirst, hsecond]
        cases hplace with
        | inside => rfl
        | outside => rfl
        | file name content other => rfl
        | absent name => rfl

end HasSameNames

end SameNames

end LidarAngle.Directory
