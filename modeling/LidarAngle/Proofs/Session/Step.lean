import LidarAngle.Session

/-!
# What an action does to a session

An action either makes a handle or leaves the handles as they are. In the latter case it sets the
calibration of the cell that it is asked of, or it changes nothing at all: whether a reply was
rejected, a table was cut off or an angle was asked for makes no difference.

## Main definitions

* `Session.Action.makesHandle` - the actions that make a handle
* `Session.Action.sets?` - the calibration that an action sets, if it sets one
* `Session.LeftBy` - the correction that an accepted reply leaves

## Main statements

* `Session.result_act_of_not_makesHandle` - the session after an action that makes no handle
* `Session.map_step_of_sets?_eq` - two actions that set the same
* `Session.LeftBy.exists_calibration` - what an accepted reply leaves
-/

namespace LidarAngle.Session

/-- The action makes a handle. -/
def Action.makesHandle : Action → Bool
  | .clone => true
  | .share => true
  | _ => false

/-- The calibration that an action sets, if it sets one. -/
def Action.sets? : Action → Option Calibration
  | .receive framing reply => (Reply.decode framing reply).result.toOption
  | .receiveText text => (Reply.decodeText text).toOption
  | .reset => some {}
  | .install calibration => some calibration
  | _ => none

/-- The session in which a cell has a calibration, if there is one to set. -/
def setCell (session : Session) (cell : Nat) (calibration : Option Calibration) : Session :=
  calibration.elim session fun c => session.put cell (.ofCalibration c)

/-- A shared handle reports the fault besides, which does not touch the session. -/
theorem result_settle_error (session : Session) (handle : Handle) (fault : Fault) :
    (session.settle handle (.error fault)).result = (session, .refused fault) := by
  unfold settle
  cases handle.shared with
  | false => rfl
  | true => rfl

theorem result_settle_adopt (session : Session) (handle : Handle)
    (outcome : Except Fault Calibration) :
    (session.settle handle (Reply.adopt outcome).result).result.1 =
      session.setCell handle.cell outcome.toOption := by
  cases outcome with
  | ok calibration => rfl
  | error fault => exact congrArg Prod.fst (result_settle_error session handle fault)

/-- An action that makes no handle sets what it sets and does nothing else to the session. -/
theorem result_act_of_not_makesHandle (session : Session) (handle : Handle)
    (correction : Correction) {action : Action} (h : action.makesHandle = false) :
    (session.act handle correction action).result.1 =
      session.setCell handle.cell action.sets? := by
  cases action with
  | receive framing reply => exact result_settle_adopt session handle _
  | receiveText text => exact result_settle_adopt session handle _
  | reset =>
    show session.put handle.cell .neutral = session.put handle.cell (.ofCalibration {})
    rw [Correction.ofCalibration_zero]
  | measure sweep =>
    show (act session handle correction (.measure sweep)).result.1 = session
    simp only [act]
    cases Table.largestDisagreement correction sweep with
    | ok most => rfl
    | error fault => rfl
  | clone => exact absurd h (by decide)
  | share => exact absurd h (by decide)
  | inDegrees angle => rfl
  | inRadians angle => rfl
  | isIdentity => rfl
  | install calibration => rfl
  | tabulate sweep sink => rfl

/-- Actions that set the same have the same effect on any session. -/
theorem map_step_of_sets?_eq {a b : Action} (ha : a.makesHandle = false)
    (hb : b.makesHandle = false) (h : a.sets? = b.sets?) (session : Session) (index : Nat) :
    (session.step index a).map (fun next => next.result.1) =
      (session.step index b).map fun next => next.result.1 := by
  unfold step
  cases session.handles[index]? with
  | none => rfl
  | some handle =>
    simp only [Option.bind_eq_bind, Option.bind_some]
    cases session.cells[handle.cell]? with
    | none => rfl
    | some correction =>
      show some (session.act handle correction a).result.1 =
        some (session.act handle correction b).result.1
      rw [result_act_of_not_makesHandle _ _ _ ha, result_act_of_not_makesHandle _ _ _ hb, h]

theorem sets?_of_makesHandle {action : Action} (h : action.makesHandle = true) :
    action.sets? = none := by
  cases action with
  | clone => rfl
  | share => rfl
  | _ => exact absurd h (by simp [Action.makesHandle])

/-- What a reply decodes to, if the action is to receive one. -/
def Action.decoded? : Action → Option (Except Fault Calibration)
  | .receive framing reply => some (Reply.decode framing reply).result
  | .receiveText text => some (Reply.decodeText text)
  | _ => none

/-- Some handle of some session received a reply with the outcome, did not refuse it, and reaches the
correction from then on. -/
def LeftBy (outcome : Except Fault Calibration) (correction : Correction) : Prop :=
  ∃ (session : Session) (index : Nat) (action : Action) (next : Logged (Session × Answer)),
    action.decoded? = some outcome ∧ session.step index action = some next ∧
      next.result.2 = .done ∧ next.result.1.correction? index = some correction

theorem result_act_of_decoded? {action : Action} {outcome : Except Fault Calibration}
    (h : action.decoded? = some outcome) (session : Session) (handle : Handle)
    (correction : Correction) :
    (session.act handle correction action).result =
      (session.settle handle (Reply.adopt outcome).result).result := by
  cases action with
  | receive framing reply =>
    obtain rfl := Option.some.inj h
    rfl
  | receiveText text =>
    obtain rfl := Option.some.inj h
    rfl
  | _ => exact nomatch h

/-- An accepted reply leaves the correction of what it decodes to. -/
theorem LeftBy.exists_calibration {outcome : Except Fault Calibration} {correction : Correction}
    (h : LeftBy outcome correction) :
    ∃ calibration, outcome = .ok calibration ∧ correction = .ofCalibration calibration := by
  obtain ⟨session, index, action, next, hdecoded, hstep, hdone, hleft⟩ := h
  obtain ⟨handle, hhandle, hstep⟩ := Option.bind_eq_some_iff.1 hstep
  obtain ⟨before, hbefore, hstep⟩ := Option.bind_eq_some_iff.1 hstep
  obtain rfl := Option.some.inj hstep
  obtain ⟨hlt, -⟩ := List.getElem?_eq_some_iff.1 hbefore
  rw [result_act_of_decoded? hdecoded] at hdone hleft
  cases outcome with
  | error fault =>
    have hrefused := congrArg Prod.snd (result_settle_error session handle fault)
    exact nomatch hrefused.symm.trans hdone
  | ok calibration =>
    have hcell : (session.put handle.cell (.ofCalibration calibration)).correction? index =
        some (.ofCalibration calibration) := by
      rw [correction?, put, hhandle]
      exact List.getElem?_set_self hlt
    exact ⟨calibration, rfl, Option.some.inj (hleft.symm.trans hcell)⟩

theorem leftBy_start {action : Action} {calibration : Calibration}
    (h : action.decoded? = some (.ok calibration)) (shared : Bool) (correction : Correction) :
    LeftBy (.ok calibration) (.ofCalibration calibration) := by
  refine ⟨start shared correction, 0, action,
    (start shared correction).act ⟨0, shared⟩ correction action, h, rfl, ?_, ?_⟩
  · rw [result_act_of_decoded? h]
    rfl
  · rw [result_act_of_decoded? h]
    rfl

end LidarAngle.Session
