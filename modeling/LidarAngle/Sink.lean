import LidarAngle.Fault

/-!
# Sinks

A sink takes bytes up to an optional limit. A write beyond the limit leaves as much as fits and
fails, and so does every later write that is not empty. Passing on what the sink holds may fail
by itself.

## Main definitions

* `Sink` - the limit, whether passing on fails, and the bytes held
* `Sink.write`, `Sink.writeEach` - one piece, or one piece for each member of a list
* `Sink.flush` - passing on what the sink holds
-/

namespace LidarAngle

structure Sink where
  -- The number of bytes the sink takes in all, if there is a limit.
  limit : Option Nat := none
  failsFlush : Bool := false
  held : ByteArray := .empty

namespace Sink

/-- How many of `size` further bytes the sink takes. -/
def accepts (sink : Sink) (size : Nat) : Nat :=
  match sink.limit with
  | none => size
  | some limit => min size (limit - sink.held.size)

/-- Writes one piece, or as much of it as the sink takes. -/
def write (sink : Sink) (piece : ByteArray) : Sink × Except SinkFault Unit :=
  let taken := sink.accepts piece.size
  if taken = piece.size then ({ sink with held := sink.held ++ piece }, .ok ())
  else ({ sink with held := sink.held ++ piece.extract 0 taken }, .error .full)

/-- Writes the pieces of a list in order, up to the first that the sink does not take. -/
def writeEach {α : Type} (piece : α → ByteArray) : List α → Sink → Sink × Except SinkFault Unit
  | [], sink => (sink, .ok ())
  | a :: rest, sink =>
    match sink.write (piece a) with
    | (sink, .ok ()) => writeEach piece rest sink
    | (sink, .error cause) => (sink, .error cause)

/-- Passes on what the sink holds. -/
def flush (sink : Sink) : Except SinkFault Unit :=
  if sink.failsFlush then .error .unflushed else .ok ()

end Sink

end LidarAngle
