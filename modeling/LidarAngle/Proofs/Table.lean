import LidarAngle.Table

/-!
# Tables in sinks

A table goes to its sink line by line. A sink that is written to piece by piece ends up as if it had
been given all pieces at once, so wherever its limit cuts a table off, it holds a leading part of
the whole table.

## Main statements

* `Sink.write_append`, `Sink.writeEach_eq_write` - pieces one after another, and all at once
* `Table.writeLines_eq` - the lines of a table as one piece
* `Table.write_limited` - a table in a sink with a limit
* `Table.result_write_of_unlimited` - a table in a sink without one
-/

namespace LidarAngle

namespace Sink

variable (sink : Sink)

theorem accepts_le (size : Nat) : sink.accepts size ≤ size := by
  unfold accepts
  split
  · exact Nat.le_refl _
  · exact Nat.min_le_left _ _

/-- A write leaves as much as the sink takes, and fails unless that is all. -/
theorem write_eq (piece : ByteArray) :
    sink.write piece =
      ({ sink with held := sink.held ++ piece.extract 0 (sink.accepts piece.size) },
        if sink.accepts piece.size = piece.size then .ok () else .error .full) := by
  by_cases hall : sink.accepts piece.size = piece.size
  · rw [write, if_pos hall, if_pos hall, hall, ByteArray.extract_zero_size]
  · rw [write, if_neg hall, if_neg hall]

/-- After a piece that it took, a sink takes what it would have taken besides. -/
theorem accepts_append {a b : ByteArray} (h : sink.accepts a.size = a.size) :
    sink.accepts (a ++ b).size =
      a.size + accepts { sink with held := sink.held ++ a } b.size := by
  unfold accepts at h ⊢
  rw [ByteArray.size_append]
  cases hlimit : sink.limit with
  | none => rfl
  | some limit =>
    rw [hlimit] at h
    dsimp only at h ⊢
    rw [ByteArray.size_append]
    omega

/-- After a piece that was cut off, a sink takes nothing more. -/
theorem accepts_append_of_ne {a b : ByteArray} (h : sink.accepts a.size ≠ a.size) :
    sink.accepts (a ++ b).size = sink.accepts a.size := by
  unfold accepts at h ⊢
  rw [ByteArray.size_append]
  cases hlimit : sink.limit with
  | none =>
    rw [hlimit] at h
    exact absurd rfl h
  | some limit =>
    rw [hlimit] at h
    dsimp only at h ⊢
    omega

/-- Two pieces one after the other end up as both of them together. -/
theorem write_append (a b : ByteArray) :
    sink.write (a ++ b) =
      match sink.write a with
      | (next, .ok ()) => next.write b
      | (next, .error cause) => (next, .error cause) := by
  have hle := sink.accepts_le a.size
  by_cases hall : sink.accepts a.size = a.size
  · have hcut : (a ++ b).extract 0 (sink.accepts (a ++ b).size) =
        a ++ b.extract 0 (accepts { sink with held := sink.held ++ a } b.size) := by
      rw [sink.accepts_append hall, ByteArray.extract_append, Nat.zero_sub, Nat.add_sub_cancel_left]
      congr 1
      exact ByteArray.ext (by simp)
    have hfull : sink.accepts (a ++ b).size = (a ++ b).size ↔
        accepts { sink with held := sink.held ++ a } b.size = b.size := by
      rw [sink.accepts_append hall, ByteArray.size_append, Nat.add_left_cancel_iff]
    rw [sink.write_eq a, if_pos hall, hall, ByteArray.extract_zero_size, sink.write_eq, hcut]
    dsimp only
    rw [write_eq, ByteArray.append_assoc]
    simp only [hfull]
  · have hcut : (a ++ b).extract 0 (sink.accepts (a ++ b).size) =
        a.extract 0 (sink.accepts a.size) := by
      rw [sink.accepts_append_of_ne hall, ByteArray.extract_append, Nat.zero_sub,
        Nat.sub_eq_zero_of_le hle, ByteArray.extract_same, ByteArray.append_empty]
    have hfull : sink.accepts (a ++ b).size ≠ (a ++ b).size := by
      rw [sink.accepts_append_of_ne hall, ByteArray.size_append]
      omega
    rw [sink.write_eq a, if_neg hall, sink.write_eq, hcut, if_neg hfull]

/-- However many pieces a text is written in, the sink ends up as if it were written at once. -/
theorem writeEach_eq_write {α : Type} (piece : α → List Char) (items : List α) :
    sink.writeEach (fun a => Text.bytes (piece a)) items =
      sink.write (Text.bytes (items.flatMap piece)) := by
  induction items generalizing sink with
  | nil =>
    have hnil : Text.bytes [] = .empty := rfl
    have hnone : sink.accepts 0 = 0 := Nat.le_zero.1 (sink.accepts_le 0)
    rw [writeEach, List.flatMap_nil, hnil, write_eq, ByteArray.size_empty, hnone, if_pos rfl,
      ByteArray.extract_same, ByteArray.append_empty]
  | cons a rest ih =>
    rw [writeEach, List.flatMap_cons, Text.bytes_append, write_append]
    rcases sink.write (Text.bytes (piece a)) with ⟨next, cause | ⟨⟩⟩
    · rfl
    · exact ih next

theorem write_of_unlimited {sink : Sink} (h : sink.limit = none) (piece : ByteArray) :
    sink.write piece = ({ sink with held := sink.held ++ piece }, .ok ()) := by
  have hall : sink.accepts piece.size = piece.size := by
    rw [accepts, h]
  rw [write, if_pos hall]

end Sink

namespace Table

variable (c : Correction)

/-- The lines of a table end up as the whole table written at once and passed on. -/
theorem writeLines_eq (angles : List Float) (sink : Sink) :
    writeLines c angles sink =
      match sink.write (Text.bytes (text c angles)) with
      | (next, .ok ()) => (next, next.flush)
      | (next, .error cause) => (next, .error cause) := by
  rw [writeLines, text, Text.bytes_append, Sink.write_append]
  split
  · next next cause hheader => rw [hheader]
  · next next hheader =>
    rw [hheader]
    dsimp only
    rw [Sink.writeEach_eq_write]
    split
    · next hrows => rw [hrows]
    · next hrows => rw [hrows]

/-- What becomes of a sink that is given a table, and what is reported. -/
theorem write_eq {sweep : Sweep} {angles : List Float} (h : sweep.angles = .ok angles)
    (sink : Sink) :
    write c sweep sink =
      match writeLines c angles sink with
      | (next, .ok ()) => ⟨(next, .ok angles.length), [.tabulated angles.length]⟩
      | (next, .error cause) => ⟨(next, .error (.sink cause)), []⟩ := by
  rw [write, h]
  dsimp only
  split
  · next hlines => rw [hlines]; rfl
  · next hlines => rw [hlines]; rfl

/-- A table in a sink with a limit. Without angles nothing is written. Otherwise the sink holds the
table up to the limit; the number of rows is returned, and reported, if that is all of it and the
sink passes it on. -/
theorem write_limited (sweep : Sweep) (limit : Nat) (failsFlush : Bool) :
    match sweep.angles with
    | .error flaw =>
      sweep.rows = .error flaw ∧
        write c sweep { limit := some limit, failsFlush } =
          pure ({ limit := some limit, failsFlush }, .error (.sweep flaw))
    | .ok angles =>
      sweep.rows = .ok angles.length ∧
        let whole := Text.bytes (text c angles)
        let written := write c sweep { limit := some limit, failsFlush }
        written.result.1 =
            { limit := some limit, failsFlush, held := whole.extract 0 (min limit whole.size) } ∧
          written.result.2 =
            (if limit < whole.size then .error (.sink .full)
            else if failsFlush then .error (.sink .unflushed)
            else .ok angles.length) ∧
          written.events.map Log.Event.line =
            (if limit < whole.size ∨ failsFlush then []
            else [s!"DEBUG Wrote compensation table with {angles.length} rows"]) ∧
          (Fault.sink .full).message = "I/O error: failed to write whole buffer" ∧
          (Fault.sink .unflushed).message = "I/O error: flush failed" := by
  split
  · next flaw hangles =>
    refine ⟨Sweep.rows_of_angles_error hangles, ?_⟩
    rw [write, hangles]
  · next angles hangles =>
    refine ⟨Sweep.length_of_angles hangles, ?_⟩
    dsimp only
    have haccepts : Sink.accepts { limit := some limit, failsFlush }
        (Text.bytes (text c angles)).size = min limit (Text.bytes (text c angles)).size := by
      rw [Nat.min_comm]
      rfl
    rw [write_eq c hangles, writeLines_eq, Sink.write_eq, haccepts, ByteArray.empty_append]
    by_cases hcut : limit < (Text.bytes (text c angles)).size
    · rw [if_neg (by omega), if_pos hcut, if_pos (.inl hcut)]
      exact ⟨rfl, rfl, rfl, rfl, rfl⟩
    · rw [if_pos (by omega), if_neg hcut]
      cases failsFlush with
      | true =>
        rw [if_pos rfl, if_pos (Or.inr rfl)]
        exact ⟨rfl, rfl, rfl, rfl, rfl⟩
      | false =>
        rw [if_neg Bool.false_ne_true, if_neg (not_or.2 ⟨hcut, Bool.false_ne_true⟩)]
        exact ⟨rfl, rfl, rfl, rfl, rfl⟩

/-- A sink without a limit that passes on what it holds takes the whole table. -/
theorem result_write_of_unlimited {sink : Sink} (hlimit : sink.limit = none)
    (hflush : sink.failsFlush = false) {sweep : Sweep} {angles : List Float}
    (h : sweep.angles = .ok angles) (c : Correction) :
    (write c sweep sink).result =
      ({ sink with held := sink.held ++ Text.bytes (text c angles) }, .ok angles.length) := by
  have hlines : writeLines c angles sink =
      ({ sink with held := sink.held ++ Text.bytes (text c angles) }, .ok ()) := by
    rw [writeLines_eq, Sink.write_of_unlimited hlimit]
    dsimp only
    rw [Sink.flush, hflush]
    rfl
  rw [write_eq c h, hlines]

end Table

end LidarAngle
