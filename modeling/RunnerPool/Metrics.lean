import RunnerPool.Number.Digits
/-! # Metrics

The numbers that the listener keeps, and their text for a collector: six series, each with a help
line, a type line and one sample.

* `Metrics.recordStatic`, `recordStarted`, `recordCompleted`, `recordDesired`   the updates
* `Metrics.render m`   the text -/

namespace RunnerPool

/-- The labels of every series. -/
structure Labels where
  /-- The runner set. -/
  name : String
  /-- Its namespace. -/
  ns : String
  /-- The scale set as it is registered with the session. -/
  scaleSet : String
deriving Repr, DecidableEq

namespace Labels

/-- One character of a label's value: backslash, quote and newline are escaped. -/
def escapedChar (c : Char) : List Char :=
  match c with
  | '\\' => ['\\', '\\']
  | '"' => ['\\', '"']
  | '\n' => ['\\', 'n']
  | c => [c]

/-- A label's value without its quotes. -/
def escaped (s : String) : List Char :=
  s.toList.flatMap escapedChar

/-- One label. -/
def pair (key value : String) : List Char :=
  key.toList ++ '=' :: '"' :: (escaped value ++ ['"'])

/-- The labels between the braces of a sample. -/
def chars (l : Labels) : List Char :=
  pair "name" l.name ++ ',' :: (pair "namespace" l.ns ++ ',' :: pair "runner_scale_set" l.scaleSet)

end Labels

/-- The recorded numbers. -/
structure Metrics where
  labels : Labels
  minRunners : Int
  maxRunners : Int
  assignedJobs : Int
  desiredRunners : Int
  startedJobs : UInt64
  completedJobs : UInt64
deriving Repr, DecidableEq

namespace Metrics

/-- Nothing recorded yet. -/
def new (labels : Labels) : Metrics := ⟨labels, 0, 0, 0, 0, 0, 0⟩

/-- Records the bounds of the pool. -/
def recordStatic (m : Metrics) (min max : Int32) : Metrics :=
  { m with minRunners := min.toInt, maxRunners := max.toInt }

/-- Records that a job started. -/
def recordStarted (m : Metrics) : Metrics :=
  { m with startedJobs := m.startedJobs + 1 }

/-- Records that a job ended. -/
def recordCompleted (m : Metrics) : Metrics :=
  { m with completedJobs := m.completedJobs + 1 }

/-- Records a desired count and the target that was applied for it. -/
def recordDesired (m : Metrics) (assigned : UInt32) (target : Int32) : Metrics :=
  { m with assignedJobs := assigned.toNat, desiredRunners := target.toInt }

/-- The series. -/
inductive Series
  | minRunners
  | maxRunners
  | assignedJobs
  | desiredRunners
  | startedJobs
  | completedJobs
deriving Repr, DecidableEq

namespace Series

/-- The series in the order in which they are written. -/
def all : List Series :=
  [.minRunners, .maxRunners, .assignedJobs, .desiredRunners, .startedJobs, .completedJobs]

/-- The name of a series. -/
def name : Series → String
  | .minRunners => "poolscale_min_runners"
  | .maxRunners => "poolscale_max_runners"
  | .assignedJobs => "poolscale_assigned_jobs"
  | .desiredRunners => "poolscale_desired_runners"
  | .startedJobs => "poolscale_started_jobs_total"
  | .completedJobs => "poolscale_completed_jobs_total"

/-- A number that is set, or one that only grows. -/
def kind : Series → String
  | .startedJobs | .completedJobs => "counter"
  | _ => "gauge"

/-- What the series tells. -/
def help : Series → String
  | .minRunners => "Configured minimum number of runners."
  | .maxRunners => "Configured maximum number of runners."
  | .assignedJobs => "Jobs currently asking for a runner, as last reported by the session."
  | .desiredRunners => "Replica target last applied to the runner set."
  | .startedJobs => "Jobs started on runners of this pool."
  | .completedJobs => "Jobs completed on runners of this pool."

end Series

/-- The number of a series. -/
def value (m : Metrics) : Series → Int
  | .minRunners => m.minRunners
  | .maxRunners => m.maxRunners
  | .assignedJobs => m.assignedJobs
  | .desiredRunners => m.desiredRunners
  | .startedJobs => m.startedJobs.toNat
  | .completedJobs => m.completedJobs.toNat

/-- The help line of a series. -/
def helpLine (s : Series) : List Char :=
  "# HELP ".toList ++ s.name.toList ++ ' ' :: s.help.toList

/-- The type line of a series. -/
def typeLine (s : Series) : List Char :=
  "# TYPE ".toList ++ s.name.toList ++ ' ' :: s.kind.toList

/-- The sample of a series. -/
def sampleLine (m : Metrics) (s : Series) : List Char :=
  s.name.toList ++ '{' :: (m.labels.chars ++ '}' :: ' ' :: Digits.ofInt (m.value s))

/-- The three lines of a series. -/
def seriesLines (m : Metrics) (s : Series) : List (List Char) :=
  [helpLine s, typeLine s, m.sampleLine s]

/-- All lines. -/
def lines (m : Metrics) : List (List Char) :=
  Series.all.flatMap m.seriesLines

/-- The text for a collector: each line ends with a newline. -/
def render (m : Metrics) : String :=
  String.ofList (m.lines.flatMap fun l => l ++ ['\n'])

end Metrics

end RunnerPool
