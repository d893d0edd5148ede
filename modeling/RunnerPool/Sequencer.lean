import RunnerPool.Log

/-! # Targets and decision numbers

The session reports how many jobs want a runner far more often than the pool changes its size.
Each report is a decision with a number of its own; a decision that changes nothing while the
pool is at its least size carries the idle number instead, so that nobody acts on it.

* `Sequencer.evaluate s n`   the decision for `n` jobs and the state after it
* `Sequencer.markDirty s`    a job event happened: the next decision is not idle -/

namespace RunnerPool

/-- The least and the largest size of a pool. -/
structure Bounds where
  min : Int32
  max : Int32
deriving Repr, DecidableEq

/-- What was decided: the size and the number of the decision. -/
structure Decision where
  patchId : Int32
  target : Int32
deriving Repr, DecidableEq

/-- The state between decisions. -/
structure Sequencer where
  bounds : Bounds
  /-- The last target, if any. -/
  target : Option Int32
  /-- The last number in the sequence, if any. -/
  seq : Option Int32
  /-- Whether a job event happened since the last decision. -/
  dirty : Bool
deriving Repr, DecidableEq

namespace Sequencer

/-- The number of an idle decision. -/
def idlePatchId : Int32 := 0

/-- The state before the first decision. -/
def new (bounds : Bounds) : Sequencer := ⟨bounds, none, none, false⟩

/-- Notes that a job event happened. -/
def markDirty (s : Sequencer) : Sequencer := { s with dirty := true }

/-- The number after the last one: from zero up, and after the largest from one again. -/
def nextSeq : Option Int32 → Int32
  | none => 0
  | some n => if n = Int32.maxValue then 1 else n + 1

/-- The size for so many jobs: the least one more for each job, at most the largest. -/
def targetFor (bounds : Bounds) (assigned : UInt32) : Int32 :=
  Int32.ofInt (min (bounds.min.toInt + assigned.toNat) bounds.max.toInt)

/-- Whether a decision changes nothing: no job event since the last one, the same target, and
    the pool at its least size. -/
def isIdle (s : Sequencer) (target : Int32) : Bool :=
  !s.dirty && s.target == some target && target == s.bounds.min

/-- The decision for so many jobs, and the state after it. -/
def evaluate (s : Sequencer) (assigned : UInt32) : Decision × Sequencer :=
  let seq := nextSeq s.seq
  let target := targetFor s.bounds assigned
  -- an idle decision takes a number too, but does not show it
  let patchId := if s.isIdle target then idlePatchId else seq
  (⟨patchId, target⟩, { s with target := some target, seq := some seq, dirty := false })

/-- The entry that tells of the decision made in a state. -/
def report (s : Sequencer) (assigned : UInt32) : Log.Entry where
  level := .info
  source := .sequencer
  message := "Calculated target runner count"
  fields := [
    ("assigned_jobs", .int assigned.toNat),
    ("decision", .int (s.evaluate assigned).1.target.toInt),
    ("min", .int s.bounds.min.toInt),
    ("max", .int s.bounds.max.toInt),
    ("dirty", .bool s.dirty),
    ("patch_seq", .int (nextSeq s.seq).toInt),
    ("patch_id", .int (s.evaluate assigned).1.patchId.toInt)]

end Sequencer

end RunnerPool
