import RunnerPool.Event.Stream
import RunnerPool.Listener.Basic

/-! # Sources of events

What the successive reads of a source give.

* `Read.ofLines bytes`        a stream of lines that is all there
* `Read.ofOpenLines bytes r`  a stream of lines that stays open
* `Read.ofEvents es r`        events that were sent into a source -/

namespace RunnerPool

namespace Read

/-- A read that gives an event at once, or fails. -/
def ofResult (r : Except LineFault Event) : Read :=
  .done ((r.mapError LineFault.chain).map some)

/-- The read that finds the source closed. -/
def closed : Read := .done (.ok none)

/-- The reads of a stream of lines, up to its end. -/
def ofLines (bytes : List UInt8) : List Read :=
  (EventLines.ofBytes bytes).toList.map ofResult ++ [closed]

/-- The bytes up to the last newline. -/
def wholeLines (bytes : List UInt8) : List UInt8 :=
  (bytes.reverse.dropWhile (· != 10)).reverse

/-- The reads of a stream of lines that stays open, with what follows the last whole line; a line
    that is not whole yet is not read. -/
def ofOpenLines (bytes : List UInt8) (after : Read) : List Read :=
  (EventLines.ofBytes (wholeLines bytes)).toList.map ofResult ++ [after]

/-- The reads of a source into which events were sent, with what follows them. -/
def ofEvents (es : List Event) (after : Read) : List Read :=
  es.map (fun e => .done (.ok (some e))) ++ [after]

end Read

end RunnerPool
