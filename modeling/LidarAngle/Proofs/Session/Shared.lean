import LidarAngle.Proofs.Session.Run

/-!
# Owned and shared handles

What an owned handle answers a shared handle answers too, and both have the same correction after
each action. They differ in what they report: a shared handle warns of each reply that it rejects.

## Main definitions

* `Session.Action.IsCommon` - the actions that either kind of handle can be asked for
* `Session.Action.IsRejected` - the action is a reply that is rejected
* `Session.Entry.warned` - an entry with the warning of a shared handle

## Main statements

* `Session.step_common` - one action on either kind of handle
* `Session.run_shared` - the same actions on an owned and on a shared handle
-/

namespace LidarAngle.Session

/-- Either kind of handle can be asked for the action. -/
def Action.IsCommon : Action → Prop
  | .receive _ _ => True
  | .inDegrees _ => True
  | .inRadians _ => True
  | .isIdentity => True
  | _ => False

/-- The action is a reply that is rejected with a fault. -/
def Action.IsRejected (fault : Fault) : Action → Prop
  | .receive framing reply => (Reply.decode framing reply).result = .error fault
  | _ => False

/-- What a shared handle reports of its answer. -/
def Answer.warnings : Answer → List Log.Event
  | .refused fault => [.rejected fault]
  | _ => []

/-- The entry of a shared handle in place of that of an owned one. -/
def Entry.warned (entry : Entry) : Entry :=
  { entry with events := entry.events ++ entry.answer.warnings }

/-- The log of a run, line by line. -/
def lines (entries : List Entry) : List String :=
  entries.flatMap fun entry => entry.events.map Log.Event.line

/-- A reply to the only handle of a session: what was spelled out is reported first, then what
became of the reply. -/
theorem act_receive (shared : Bool) (correction : Correction) (framing : Reply.Framing)
    (reply : List UInt8) :
    (start shared correction).act { cell := 0, shared } correction (.receive framing reply) =
      match (Reply.decode framing reply).result with
      | .ok calibration =>
        ⟨(start shared (.ofCalibration calibration), .done),
          Reply.reports framing reply ++ [.adopted (.ofCalibration calibration)]⟩
      | .error fault =>
        ⟨(start shared correction, .refused fault),
          Reply.reports framing reply ++ if shared then [.rejected fault] else []⟩ := by
  rw [act, Reply.receive]
  apply Logged.ext
  · rw [Logged.result_bind, Logged.result_bind]
    cases (Reply.decode framing reply).result with
    | ok calibration => rfl
    | error fault =>
      cases shared with
      | false => rfl
      | true => rfl
  · rw [Logged.events_bind, Logged.events_bind, Logged.result_bind, List.append_assoc]
    cases (Reply.decode framing reply).result with
    | ok calibration => rfl
    | error fault =>
      cases shared with
      | false => rfl
      | true => rfl

/-- One action on an owned and on a shared handle: the same correction afterwards, the same answer,
and the same events up to the warning of a rejected reply. -/
theorem step_common {action : Action} (h : action.IsCommon) (correction : Correction) :
    ∃ next answer events,
      (start false correction).step 0 action = some ⟨(start false next, answer), events⟩ ∧
      (start true correction).step 0 action =
        some ⟨(start true next, answer), events ++ answer.warnings⟩ ∧
      ∀ fault, answer = .refused fault ↔ action.IsRejected fault := by
  have hstep : ∀ shared, (start shared correction).step 0 action =
      some ((start shared correction).act { cell := 0, shared } correction action) :=
    fun _ => rfl
  rw [hstep, hstep]
  cases action with
  | receive framing reply =>
    rw [act_receive, act_receive]
    simp only [Action.IsRejected]
    cases (Reply.decode framing reply).result with
    | ok calibration => exact ⟨_, _, _, rfl, by simp [Answer.warnings], by simp⟩
    | error fault => exact ⟨_, _, _, rfl, by simp [Answer.warnings], by simp⟩
  | inDegrees angle => exact ⟨_, _, _, rfl, rfl, by simp [Action.IsRejected]⟩
  | inRadians angle => exact ⟨_, _, _, rfl, rfl, by simp [Action.IsRejected]⟩
  | isIdentity => exact ⟨_, _, _, rfl, rfl, by simp [Action.IsRejected]⟩
  | _ => exact absurd h (by simp [Action.IsCommon])

/-- The log with the warnings: each refusal has one line more, with the message of its fault. -/
theorem lines_map_warned (entries : List Entry) :
    lines (entries.map Entry.warned) = entries.flatMap fun entry =>
      entry.events.map Log.Event.line ++
        match entry.answer with
        | .refused fault => ["WARN Rejected angle compensation reply: " ++ fault.message]
        | _ => [] := by
  have hline : ∀ fault, (Log.Event.rejected fault).line =
      "WARN Rejected angle compensation reply: " ++ fault.message := by
    intro fault
    have hstart : "WARN" ++ " " ++ "Rejected angle compensation reply: " =
        "WARN Rejected angle compensation reply: " := by decide
    rw [← hstart, String.append_assoc]
    rfl
  rw [lines, List.flatMap_map]
  congr 1
  funext entry
  rw [Entry.warned, List.map_append]
  cases entry.answer with
  | refused fault => exact congrArg (fun line => _ ++ [line]) (hline fault)
  | _ => rfl

/-- The same actions on an owned and on a shared handle, entry by entry. -/
theorem run_common {actions : List Action} (h : ∀ action ∈ actions, action.IsCommon)
    (correction : Correction) :
    ∃ final entries,
      (start false correction).run (actions.map (Request.mk 0)) =
        some (start false final, entries) ∧
      (start true correction).run (actions.map (Request.mk 0)) =
        some (start true final, entries.map Entry.warned) ∧
      entries.length = actions.length ∧
      ∀ (k : Nat) (fault : Fault), (entries[k]?).map Entry.answer = some (.refused fault) ↔
        ∃ action : Action, actions[k]? = some action ∧ action.IsRejected fault := by
  induction actions generalizing correction with
  | nil => exact ⟨correction, [], rfl, rfl, rfl, by simp⟩
  | cons action rest ih =>
    obtain ⟨hfirst, hrest⟩ := List.forall_mem_cons.1 h
    obtain ⟨next, answer, events, howned, hshared, hrefused⟩ := step_common hfirst correction
    obtain ⟨final, entries, howneds, hshareds, hlength, hrefuseds⟩ := ih hrest next
    refine ⟨final, ⟨answer, events, next⟩ :: entries,
      @run_cons _ _ ⟨0, action⟩ _ _ _ _ howned rfl howneds,
      @run_cons _ _ ⟨0, action⟩ _ _ _ _ hshared rfl hshareds, congrArg Nat.succ hlength, ?_⟩
    intro k fault
    cases k with
    | zero => simp [hrefused]
    | succ k => exact hrefuseds k fault

/-- An owned and a shared handle start with the same correction, and the same actions are asked of
both. Then they have the same correction at the end and, entry by entry, the same answer and the
same correction afterwards. A reply is refused exactly if it does not decode, and the log of the
shared handle is that of the owned one with a warning after each refusal. -/
theorem run_shared {initial : Option Calibration} {actions : List Action}
    (hcommon : ∀ action ∈ actions, action.IsCommon) :
    ∃ final owned shared,
      (start false (initial.elim .neutral .ofCalibration)).run (actions.map (Request.mk 0)) =
        some (start false final, owned) ∧
      (start true (initial.elim .neutral .ofCalibration)).run (actions.map (Request.mk 0)) =
        some (start true final, shared) ∧
      owned.length = actions.length ∧
      shared.map Entry.answer = owned.map Entry.answer ∧
      shared.map Entry.correction = owned.map Entry.correction ∧
      (∀ (k : Nat) (fault : Fault), (owned[k]?).map Entry.answer = some (.refused fault) ↔
        ∃ action : Action, actions[k]? = some action ∧ action.IsRejected fault) ∧
      lines shared = owned.flatMap fun entry =>
        entry.events.map Log.Event.line ++
          match entry.answer with
          | .refused fault => ["WARN Rejected angle compensation reply: " ++ fault.message]
          | _ => [] := by
  obtain ⟨final, owned, howned, hshared, hlength, hrefused⟩ :=
    run_common hcommon (initial.elim .neutral .ofCalibration)
  refine ⟨final, owned, owned.map Entry.warned, howned, hshared, hlength, ?_, ?_, hrefused,
    lines_map_warned owned⟩
  · rw [List.map_map]
    rfl
  · rw [List.map_map]
    rfl

/-- A reply that is accepted, one with a token too few and one that is cut short in its offset,
with an angle in between. -/
theorem run_shared_rejections : ∃ final owned shared,
    (start false (.ofCalibration ⟨1, 2, 3⟩)).run
        [⟨0, .receive .ascii (Text.utf8 "sRA m +1 -2 +3".toList)⟩, ⟨0, .inDegrees 45⟩,
          ⟨0, .receive .ascii (Text.utf8 "sRA m +1 -2".toList)⟩,
          ⟨0, .receive .binary [32, 0, 1, 0, 0, 0, 2, 0]⟩, ⟨0, .isIdentity⟩] =
      some (start false final, owned) ∧
    (start true (.ofCalibration ⟨1, 2, 3⟩)).run
        [⟨0, .receive .ascii (Text.utf8 "sRA m +1 -2 +3".toList)⟩, ⟨0, .inDegrees 45⟩,
          ⟨0, .receive .ascii (Text.utf8 "sRA m +1 -2".toList)⟩,
          ⟨0, .receive .binary [32, 0, 1, 0, 0, 0, 2, 0]⟩, ⟨0, .isIdentity⟩] =
      some (start true final, shared) ∧
    shared.map Entry.correction = owned.map Entry.correction ∧
    (owned[2]?).map Entry.answer = some (.refused (.tokenCount 4)) := by
  have hcommon : ∀ action ∈ [Action.receive .ascii (Text.utf8 "sRA m +1 -2 +3".toList),
      .inDegrees 45, .receive .ascii (Text.utf8 "sRA m +1 -2".toList),
      .receive .binary [32, 0, 1, 0, 0, 0, 2, 0], .isIdentity], action.IsCommon := by
    simp [Action.IsCommon]
  obtain ⟨final, owned, shared, howned, hshared, -, -, hcorrection, hrefused, -⟩ :=
    @run_shared (some ⟨1, 2, 3⟩) _ hcommon
  have hdecode : (Reply.decode .ascii (Text.utf8 "sRA m +1 -2".toList)).result =
      .error (.tokenCount 4) := rfl
  exact ⟨final, owned, shared, howned, hshared, hcorrection,
    (hrefused 2 (.tokenCount 4)).2 ⟨_, rfl, hdecode⟩⟩

end LidarAngle.Session
