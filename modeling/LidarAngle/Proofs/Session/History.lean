import LidarAngle.Proofs.Session.Step

/-!
# Sessions and what was asked of them

What a handle reaches can be told from the requests alone, without cells. A history has the latest
request first. A cloned shared handle stands for the same state as the handle it was cloned from,
any other new handle for a state of its own, named by its number; a new handle takes over the
history of the handle that it was made from. The calibration of a state is the one that was set on
it last.

## Main definitions

* `Session.count`, `Session.isShared`, `Session.root` - the handles, their kind and their state
* `Session.latest` - the calibration that was set last
* `Session.IsAfter` - a session as its history says it is

## Main statements

* `Session.IsAfter.start`, `Session.IsAfter.step` - a session that starts, and one request
-/

namespace LidarAngle.Session

/-- The number of handles after some requests, the latest of which comes first. -/
def count : List Request → Nat
  | [] => 1
  | request :: past => if request.action.makesHandle then count past + 1 else count past

/-- Every request was asked of a handle that there was. -/
def IsValid : List Request → Prop
  | [] => True
  | request :: past => request.index < count past ∧ IsValid past

section History

variable (shared : Bool) (initial : Calibration)

/-- The handle is shared; the first one is as given. -/
def isShared : List Request → Nat → Bool
  | [], _ => shared
  | request :: past, h =>
    if h < count past then isShared past h
    else match request.action with
      | .clone => isShared past request.index
      | _ => true

/-- The state that a handle stands for, by the number of the first handle that does. -/
def root : List Request → Nat → Nat
  | [], h => h
  | request :: past, h =>
    if h < count past then root past h
    else match request.action with
      | .clone => if isShared shared past request.index then root past request.index else h
      | _ => h

/-- The calibration that was set last on the state that a handle stands for. -/
def latest : List Request → Nat → Calibration
  | [], _ => initial
  | request :: past, h =>
    -- A handle that is there sees what is set on its state; a new one has the history of another.
    if h < count past then
      match request.action.sets? with
      | some c => if root shared past request.index = root shared past h then c else latest past h
      | none => latest past h
    else latest past request.index

variable {shared initial} {request : Request} {past : List Request} {h : Nat}

theorem isShared_of_lt (hlt : h < count past) :
    isShared shared (request :: past) h = isShared shared past h :=
  if_pos hlt

theorem root_of_lt (hlt : h < count past) :
    root shared (request :: past) h = root shared past h :=
  if_pos hlt

theorem latest_of_sets?_eq_some {c : Calibration} (hlt : h < count past)
    (hsets : request.action.sets? = some c) :
    latest shared initial (request :: past) h =
      if root shared past request.index = root shared past h then c
      else latest shared initial past h := by
  rw [latest, if_pos hlt, hsets]

theorem latest_of_sets?_eq_none (hlt : h < count past) (hsets : request.action.sets? = none) :
    latest shared initial (request :: past) h = latest shared initial past h := by
  rw [latest, if_pos hlt, hsets]

/-- A new handle takes over the history of the one that it was made from. -/
theorem latest_count :
    latest shared initial (request :: past) (count past) =
      latest shared initial past request.index := by
  rw [latest, if_neg (Nat.lt_irrefl _)]

theorem isShared_count_clone {i : Nat} :
    isShared shared (⟨i, .clone⟩ :: past) (count past) = isShared shared past i := by
  rw [isShared, if_neg (Nat.lt_irrefl _)]

theorem isShared_count_share {i : Nat} :
    isShared shared (⟨i, .share⟩ :: past) (count past) = true := by
  rw [isShared, if_neg (Nat.lt_irrefl _)]

theorem root_count_clone {i : Nat} :
    root shared (⟨i, .clone⟩ :: past) (count past) =
      if isShared shared past i then root shared past i else count past := by
  rw [root, if_neg (Nat.lt_irrefl _)]

theorem root_count_share {i : Nat} :
    root shared (⟨i, .share⟩ :: past) (count past) = count past := by
  rw [root, if_neg (Nat.lt_irrefl _)]

end History

theorem count_le (request : Request) (past : List Request) :
    count past ≤ count (request :: past) := by
  rw [count]
  split
  · exact Nat.le_succ _
  · exact Nat.le_refl _

theorem IsValid.of_append {recent past : List Request} (h : IsValid (recent ++ past)) :
    IsValid past := by
  induction recent with
  | nil => exact h
  | cons request recent ih => exact ih h.2

/-- The session is as its history says: its handles are those of the history, two of them reach the
same cell exactly if they stand for the same state, and every cell has the calibration that was set
last. -/
structure IsAfter (shared : Bool) (initial : Calibration) (past : List Request)
    (session : Session) : Prop where
  length_handles : session.handles.length = count past
  root_lt : ∀ h < count past, root shared past h < count past
  shared_eq : ∀ {h : Nat} {a : Handle}, session.handles[h]? = some a →
    a.shared = isShared shared past h
  cell_eq_iff : ∀ {h k : Nat} {a b : Handle}, session.handles[h]? = some a →
    session.handles[k]? = some b → (a.cell = b.cell ↔ root shared past h = root shared past k)
  cells_eq : ∀ {h : Nat} {a : Handle}, session.handles[h]? = some a →
    session.cells[a.cell]? = some (.ofCalibration (latest shared initial past h))

namespace IsAfter

variable {shared : Bool} {initial : Calibration} {past : List Request} {session : Session}

theorem lt_count (hs : IsAfter shared initial past session) {h : Nat} {a : Handle}
    (ha : session.handles[h]? = some a) : h < count past := by
  obtain ⟨hlt, -⟩ := List.getElem?_eq_some_iff.1 ha
  rwa [hs.length_handles] at hlt

theorem exists_handle (hs : IsAfter shared initial past session) {h : Nat} (hlt : h < count past) :
    ∃ a, session.handles[h]? = some a := by
  rw [← hs.length_handles] at hlt
  exact ⟨_, List.getElem?_eq_getElem hlt⟩

theorem correction?_eq (hs : IsAfter shared initial past session) {h : Nat}
    (hlt : h < count past) :
    session.correction? h = some (.ofCalibration (latest shared initial past h)) := by
  obtain ⟨a, ha⟩ := hs.exists_handle hlt
  rw [correction?, ha]
  exact hs.cells_eq ha

theorem start (shared : Bool) (initial : Calibration) :
    IsAfter shared initial [] (start shared (.ofCalibration initial)) := by
  have honly : ∀ {h : Nat} {a : Handle},
      (Session.start shared (.ofCalibration initial)).handles[h]? = some a →
        h = 0 ∧ a = { cell := 0, shared } := by
    intro h a ha
    rw [Session.start, List.getElem?_singleton] at ha
    split at ha
    · next hzero => exact ⟨hzero, (Option.some.inj ha).symm⟩
    · exact absurd ha (by simp)
  constructor
  · rfl
  · intro h hlt
    exact hlt
  · intro h a ha
    obtain ⟨rfl, rfl⟩ := honly ha
    rfl
  · intro h k a b ha hb
    obtain ⟨rfl, rfl⟩ := honly ha
    obtain ⟨rfl, rfl⟩ := honly hb
    exact iff_of_true rfl rfl
  · intro h a ha
    obtain ⟨rfl, rfl⟩ := honly ha
    rfl

/-- A request that makes no handle sets the state that its handle stands for, or nothing. -/
theorem setCell (hs : IsAfter shared initial past session) {request : Request} {handle : Handle}
    (hmakes : request.action.makesHandle = false)
    (hhandle : session.handles[request.index]? = some handle) :
    IsAfter shared initial (request :: past)
      (session.setCell handle.cell request.action.sets?) := by
  have hcount : count (request :: past) = count past := by simp [count, hmakes]
  have hhandles : (session.setCell handle.cell request.action.sets?).handles = session.handles := by
    cases request.action.sets? with
    | none => rfl
    | some c => rfl
  constructor
  · rw [hhandles, hcount, hs.length_handles]
  · intro h hlt
    rw [hcount] at hlt ⊢
    rw [root_of_lt hlt]
    exact hs.root_lt h hlt
  · intro h a ha
    rw [hhandles] at ha
    rw [isShared_of_lt (hs.lt_count ha), hs.shared_eq ha]
  · intro h k a b ha hb
    rw [hhandles] at ha hb
    rw [root_of_lt (hs.lt_count ha), root_of_lt (hs.lt_count hb)]
    exact hs.cell_eq_iff ha hb
  · intro h a ha
    rw [hhandles] at ha
    have hcell := hs.cells_eq ha
    cases hsets : request.action.sets? with
    | none =>
      rw [latest_of_sets?_eq_none (hs.lt_count ha) hsets]
      exact hcell
    | some c =>
      rw [latest_of_sets?_eq_some (hs.lt_count ha) hsets]
      show (session.cells.set handle.cell (.ofCalibration c))[a.cell]? = _
      obtain ⟨hlt, -⟩ := List.getElem?_eq_some_iff.1 hcell
      -- The handle sees the change exactly if it stands for the state that was set.
      by_cases heq : handle.cell = a.cell
      · rw [if_pos ((hs.cell_eq_iff hhandle ha).1 heq), heq, List.getElem?_set_self hlt]
      · rw [if_neg (mt (hs.cell_eq_iff hhandle ha).2 heq), List.getElem?_set_ne heq, hcell]

/-- A request that makes a handle: the new handle has the calibration of the one that it was made
from, and shares its cell with the handles that stand for the same state. -/
theorem addHandle (hs : IsAfter shared initial past session) {request : Request} {new : Handle}
    {extra : List Correction} (hmakes : request.action.makesHandle = true)
    (hnew : (session.cells ++ extra)[new.cell]? =
      some (.ofCalibration (latest shared initial past request.index)))
    (hshared : new.shared = isShared shared (request :: past) (count past))
    (hroot : root shared (request :: past) (count past) ≤ count past)
    (hcell : ∀ {h : Nat} {a : Handle}, session.handles[h]? = some a →
      (new.cell = a.cell ↔ root shared (request :: past) (count past) = root shared past h)) :
    IsAfter shared initial (request :: past)
      ⟨session.cells ++ extra, session.handles ++ [new]⟩ := by
  have hcount : count (request :: past) = count past + 1 := by simp [count, hmakes]
  have hlookup : ∀ {h : Nat} {a : Handle}, (session.handles ++ [new])[h]? = some a →
      session.handles[h]? = some a ∨ h = count past ∧ a = new := by
    intro h a ha
    rw [List.getElem?_append] at ha
    split at ha
    · exact .inl ha
    · next hge =>
      rw [List.getElem?_singleton] at ha
      split at ha
      · refine .inr ⟨?_, (Option.some.inj ha).symm⟩
        rw [← hs.length_handles]
        omega
      · exact absurd ha (by simp)
  constructor
  · rw [hcount, List.length_append, hs.length_handles]
    rfl
  · intro h hlt
    rw [hcount] at hlt ⊢
    by_cases hold : h < count past
    · rw [root_of_lt hold]
      exact Nat.lt_succ_of_lt (hs.root_lt h hold)
    · obtain rfl : h = count past := by omega
      exact Nat.lt_succ_of_le hroot
  · intro h a ha
    rcases hlookup ha with hold | ⟨rfl, rfl⟩
    · rw [isShared_of_lt (hs.lt_count hold), hs.shared_eq hold]
    · exact hshared
  · intro h k a b ha hb
    rcases hlookup ha with hold | ⟨rfl, rfl⟩
    · rw [root_of_lt (hs.lt_count hold)]
      rcases hlookup hb with hold' | ⟨rfl, rfl⟩
      · rw [root_of_lt (hs.lt_count hold')]
        exact hs.cell_eq_iff hold hold'
      · rw [eq_comm, hcell hold, eq_comm]
    · rcases hlookup hb with hold' | ⟨rfl, rfl⟩
      · rw [root_of_lt (hs.lt_count hold')]
        exact hcell hold'
      · exact iff_of_true rfl rfl
  · intro h a ha
    rcases hlookup ha with hold | ⟨rfl, rfl⟩
    · have hold' := hs.cells_eq hold
      obtain ⟨hlt, -⟩ := List.getElem?_eq_some_iff.1 hold'
      rw [latest_of_sets?_eq_none (hs.lt_count hold) (sets?_of_makesHandle hmakes),
        List.getElem?_append_left hlt, hold']
    · rw [latest_count]
      exact hnew

/-- A request that makes a handle of a new state, which is a copy. -/
theorem addCell (hs : IsAfter shared initial past session) {request : Request} {kind : Bool}
    (hmakes : request.action.makesHandle = true)
    (hkind : kind = isShared shared (request :: past) (count past))
    (hroot : root shared (request :: past) (count past) = count past) :
    IsAfter shared initial (request :: past)
      (session.addCell (.ofCalibration (latest shared initial past request.index)) kind) := by
  apply hs.addHandle hmakes
  · exact List.getElem?_concat_length
  · exact hkind
  · exact Nat.le_of_eq hroot
  · intro h a ha
    -- Neither the cell nor the number of the new handle was there before.
    obtain ⟨hlt, -⟩ := List.getElem?_eq_some_iff.1 (hs.cells_eq ha)
    have hold := hs.root_lt h (hs.lt_count ha)
    rw [hroot]
    exact iff_of_false (Nat.ne_of_gt hlt) (Nat.ne_of_gt hold)

/-- A request that clones a shared handle makes another handle of the same state. -/
theorem clone_shared (hs : IsAfter shared initial past session) {i : Nat} {handle : Handle}
    (hhandle : session.handles[i]? = some handle) (hshared : handle.shared = true) :
    IsAfter shared initial (⟨i, .clone⟩ :: past) (session.addHandle handle) := by
  have hroot : root shared (⟨i, .clone⟩ :: past) (count past) = root shared past i := by
    rw [root_count_clone, ← hs.shared_eq hhandle, if_pos hshared]
  have hcells : session.cells ++ [] = session.cells := List.append_nil _
  rw [Session.addHandle, ← hcells]
  apply hs.addHandle rfl
  · rw [hcells]
    exact hs.cells_eq hhandle
  · rw [isShared_count_clone, hs.shared_eq hhandle]
  · rw [hroot]
    exact Nat.le_of_lt (hs.root_lt i (hs.lt_count hhandle))
  · intro h a ha
    rw [hroot]
    exact hs.cell_eq_iff hhandle ha

/-- One request, asked of a handle that there is. -/
theorem step (hs : IsAfter shared initial past session) {request : Request}
    (hindex : request.index < count past) :
    ∃ next, session.step request.index request.action = some next ∧
      IsAfter shared initial (request :: past) next.result.1 := by
  obtain ⟨handle, hhandle⟩ := hs.exists_handle hindex
  have hcell := hs.cells_eq hhandle
  refine ⟨session.act handle (.ofCalibration (latest shared initial past request.index))
    request.action, ?_, ?_⟩
  · rw [Session.step, hhandle, Option.bind_eq_bind, Option.bind_some, hcell]
    rfl
  · cases hmakes : request.action.makesHandle with
    | false =>
      rw [result_act_of_not_makesHandle _ _ _ hmakes]
      exact hs.setCell hmakes hhandle
    | true =>
      obtain ⟨i, action⟩ := request
      cases action with
      | clone =>
        cases hshared : handle.shared with
        | true =>
          simp only [act, hshared, if_true]
          exact hs.clone_shared hhandle hshared
        | false =>
          have hkind := hs.shared_eq hhandle
          rw [hshared] at hkind
          simp only [act, hshared, Bool.false_eq_true, if_false]
          apply hs.addCell rfl
          · rw [isShared_count_clone, ← hkind]
          · rw [root_count_clone, ← hkind]
            rfl
      | share => exact hs.addCell rfl isShared_count_share.symm root_count_share
      | _ => exact absurd hmakes (by simp [Action.makesHandle])

end IsAfter

end LidarAngle.Session
