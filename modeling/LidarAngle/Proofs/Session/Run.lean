import LidarAngle.Proofs.Session.History

/-!
# Runs of a session

Whatever is asked in whatever order, of handles that there are, a session answers, and each of its
handles has the correction of the calibration that was set last on the state that the handle stands
for.

## Main statements

* `Session.IsAfter.run` - a run from anywhere
* `Session.run_latest` - a run from the start
-/

namespace LidarAngle.Session

theorem run_cons {session final : Session} {request : Request} {rest : List Request}
    {next : Logged (Session × Answer)} {correction : Correction} {entries : List Entry}
    (hstep : session.step request.index request.action = some next)
    (hcorrection : next.result.1.correction? request.index = some correction)
    (hrun : next.result.1.run rest = some (final, entries)) :
    session.run (request :: rest) =
      some (final, ⟨next.result.2, next.events, correction⟩ :: entries) := by
  rw [run, hstep, Option.bind_eq_bind, Option.bind_some]
  dsimp only
  rw [hcorrection, Option.bind_eq_bind, Option.bind_some, hrun]
  rfl

/-- A run leads from one history to a longer one, and each request leaves its handle with the
calibration that was set last, by itself or before. -/
theorem IsAfter.run {shared : Bool} {initial : Calibration} {past : List Request}
    {session : Session} (hs : IsAfter shared initial past session) {requests : List Request}
    (hvalid : IsValid (requests.reverse ++ past)) :
    ∃ final entries, session.run requests = some (final, entries) ∧
      IsAfter shared initial (requests.reverse ++ past) final ∧
      ∀ k, (entries[k]?).map Entry.correction = (requests[k]?).map fun request =>
        .ofCalibration (latest shared initial ((requests.take (k + 1)).reverse ++ past)
          request.index) := by
  induction requests generalizing past session with
  | nil => exact ⟨session, [], rfl, hs, fun _ => rfl⟩
  | cons request rest ih =>
    -- The first request is the oldest one of those that come on top of the history.
    have hreverse : ∀ others : List Request,
        (request :: others).reverse ++ past = others.reverse ++ request :: past := by simp
    rw [hreverse] at hvalid
    obtain ⟨hindex, -⟩ := hvalid.of_append
    obtain ⟨next, hstep, hnext⟩ := hs.step hindex
    have hcorrection := hnext.correction?_eq (Nat.lt_of_lt_of_le hindex (count_le request past))
    obtain ⟨final, entries, hrun, hfinal, hentries⟩ := ih hnext hvalid
    refine ⟨final, _, run_cons hstep hcorrection hrun, ?_, ?_⟩
    · rw [hreverse]
      exact hfinal
    · intro k
      cases k with
      | zero => rfl
      | succ k =>
        rw [List.take_succ_cons, hreverse, List.getElem?_cons_succ, List.getElem?_cons_succ]
        exact hentries k

/-- A session starts with the neutral correction or with that of a calibration. Then any requests
of handles that there are can be carried out; afterwards each handle has the correction of the
calibration that was set last on the state that the handle stands for, and so has, at any time in
between, the handle of which something was asked. A further request that sets nothing changes the
correction of no handle. -/
theorem run_latest {shared : Bool} {initial : Option Calibration} {requests : List Request}
    (hvalid : IsValid requests.reverse) :
    ∃ session entries,
      (start shared (initial.elim .neutral .ofCalibration)).run requests =
        some (session, entries) ∧
      session.handles.length = count requests.reverse ∧
      (∀ h < count requests.reverse, session.correction? h =
        some (.ofCalibration (latest shared (initial.getD {}) requests.reverse h))) ∧
      (∀ k, (entries[k]?).map Entry.correction = (requests[k]?).map fun request =>
        .ofCalibration (latest shared (initial.getD {}) (requests.take (k + 1)).reverse
          request.index)) ∧
      ∀ request : Request, request.index < count requests.reverse →
        request.action.sets? = none → ∃ next,
          session.step request.index request.action = some next ∧
          ∀ h < count requests.reverse, next.result.1.correction? h = session.correction? h := by
  have hinitial : initial.elim .neutral .ofCalibration =
      Correction.ofCalibration (initial.getD {}) := by
    cases initial with
    | none => exact Correction.ofCalibration_zero.symm
    | some c => rfl
  have hempty : ∀ others : List Request, others.reverse ++ [] = others.reverse := by simp
  rw [hinitial]
  obtain ⟨session, entries, hrun, hs, hentries⟩ :=
    (IsAfter.start shared (initial.getD {})).run (hempty requests ▸ hvalid)
  simp only [hempty] at hs hentries
  refine ⟨session, entries, hrun, hs.length_handles, fun h hlt => hs.correction?_eq hlt, hentries,
    ?_⟩
  intro request hindex hsets
  obtain ⟨next, hstep, hnext⟩ := hs.step hindex
  refine ⟨next, hstep, ?_⟩
  intro h hlt
  rw [hnext.correction?_eq (Nat.lt_of_lt_of_le hlt (count_le request _)), hs.correction?_eq hlt,
    latest_of_sets?_eq_none hlt hsets]

/-- An owned handle, two shared handles of a copy and an owned copy go their own ways; a rejected
reply changes nothing. -/
theorem run_latest_copies : ∃ session entries,
    (start false .neutral).run
      [⟨0, .install ⟨1, 2, 3⟩⟩, ⟨0, .share⟩, ⟨1, .clone⟩, ⟨0, .clone⟩,
        ⟨2, .receiveText "sRA MCAngleCompSin +1893 -210503 -245".toList⟩, ⟨3, .reset⟩,
        ⟨1, .receive .binary []⟩] = some (session, entries) ∧
      session.correction? 0 = some (.ofCalibration ⟨1, 2, 3⟩) ∧
      session.correction? 1 = some (.ofCalibration ⟨1893, -210503, -245⟩) ∧
      session.correction? 2 = some (.ofCalibration ⟨1893, -210503, -245⟩) ∧
      session.correction? 3 = some (.ofCalibration {}) := by
  have hvalid : IsValid [⟨0, .install ⟨1, 2, 3⟩⟩, ⟨0, .share⟩, ⟨1, .clone⟩, ⟨0, .clone⟩,
      ⟨2, .receiveText "sRA MCAngleCompSin +1893 -210503 -245".toList⟩, ⟨3, .reset⟩,
      ⟨1, .receive .binary []⟩].reverse := by
    simp [IsValid, count, Action.makesHandle]
  obtain ⟨session, entries, hrun, -, hlatest, -, -⟩ := @run_latest false none _ hvalid
  refine ⟨session, entries, hrun, ?_, ?_, ?_, ?_⟩
  · exact hlatest 0 (by decide)
  · exact hlatest 1 (by decide)
  · exact hlatest 2 (by decide)
  · exact hlatest 3 (by decide)

end LidarAngle.Session
