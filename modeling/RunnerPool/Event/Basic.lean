/-! # Session events

What the session tells the listener: a job started on a runner, a job ended, or how many jobs
want a runner now. -/

namespace RunnerPool

/-- A job was assigned to a runner and started there. -/
structure JobStarted where
  /-- The runner resource that executes the job. -/
  runner : String
  /-- The session's number for the acquisition of the runner. -/
  requestId : Int64
  owner : String
  repository : String
  jobId : String
  workflowRef : String
  workflowRun : Int64
  displayName : String
deriving Repr, DecidableEq

/-- A job ended on a runner.  Only that it did matters for scaling. -/
structure JobCompleted where
  runner : String
  requestId : Int64
  jobId : String
  /-- How the job ended, in the session's words. -/
  result : String
deriving Repr, DecidableEq

/-- One event of the session. -/
inductive Event
  | jobStarted (job : JobStarted)
  | jobCompleted (job : JobCompleted)
  /-- How many jobs wait for a runner or have one. -/
  | desiredCount (count : UInt32)
deriving Repr, DecidableEq

/-- The repository with its owner. -/
def JobStarted.repositoryFullName (job : JobStarted) : String :=
  job.owner ++ "/" ++ job.repository

namespace Event

/-- The kinds of event. -/
inductive Tag
  | jobStarted
  | jobCompleted
  | desiredCount
deriving Repr, DecidableEq

/-- Words that begin with capitals, in small letters with a line between them. -/
def snakeCase (s : String) : String :=
  match s.toList with
  | [] => ""
  | c :: cs => String.ofList (c.toLower :: cs.flatMap fun c =>
      if c.isUpper then ['_', c.toLower] else [c.toLower])

namespace Tag

/-- The name of a kind. -/
def name : Tag → String
  | .jobStarted => "job_started"
  | .jobCompleted => "job_completed"
  | .desiredCount => "desired_count"

/-- The kinds that the listener knows by their names. -/
def all : List Tag := [.jobStarted, .jobCompleted, .desiredCount]

/-- Whether the listener knows a kind with the name. -/
def isKnown (name : String) : Bool :=
  all.any (·.name == name)

/-- What a kind is called where events are declared. -/
def variantName : Tag → String
  | .jobStarted => "JobStarted"
  | .jobCompleted => "JobCompleted"
  | .desiredCount => "DesiredCount"

/-- The kinds that are declared. -/
def variants : List Tag := [.jobStarted, .jobCompleted, .desiredCount]

/-- The name of a kind on the wire. -/
def wireName (t : Tag) : String :=
  snakeCase t.variantName

/-- The kind with a name on the wire. -/
def ofWireName? (name : String) : Option Tag :=
  variants.find? (·.wireName == name)

end Tag

/-- The kind of an event. -/
def tag : Event → Tag
  | .jobStarted _ => .jobStarted
  | .jobCompleted _ => .jobCompleted
  | .desiredCount _ => .desiredCount

end Event

end RunnerPool
