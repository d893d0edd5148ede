import RunnerPool.Event.Wire
import RunnerPool.Json.MergePatch
import RunnerPool.Resource.Kind
import RunnerPool.Resource.Metadata

/-! # Runners

A runner executes one job.  The listener writes the job into the runner's status and leaves the
rest of it to whoever runs the cluster.

* `RunnerStatus.record`       the status as JSON: what is empty or zero is left out
* `RunnerStatus.ofJob job`    the status that tells of a job
* `RunnerStatus.patch job`    the merge patch that writes it -/

namespace RunnerPool

open Json

/-- The status of a runner. -/
structure RunnerStatus where
  phase : String
  runnerId : Int64
  jobRequestId : Int64
  jobRepository : String
  jobId : String
  workflowRun : Int64
  jobWorkflowRef : String
  jobDisplayName : String
deriving Repr, DecidableEq

namespace RunnerStatus

/-- The status with nothing in it. -/
def blank : RunnerStatus := ⟨"", 0, 0, "", "", 0, "", ""⟩

/-- A text that is left out if it is empty. -/
private def textField (key : String) (get : RunnerStatus → String)
    (set : String → RunnerStatus → RunnerStatus) : RecordField RunnerStatus :=
  (RecordField.text key .defaulted get set).omitting fun s => get s == ""

/-- A number that is left out if it is zero. -/
private def intField (key : String) (get : RunnerStatus → Int64)
    (set : Int64 → RunnerStatus → RunnerStatus) : RecordField RunnerStatus :=
  (RecordField.int64 key .defaulted get set).omitting fun s => get s == 0

/-- The status as a record. -/
def record : Record RunnerStatus where
  name := "EphemeralRunnerStatus"
  blank := blank
  fields := [
    textField "phase" (·.phase) fun x s => { s with phase := x },
    intField "runnerId" (·.runnerId) fun x s => { s with runnerId := x },
    intField "jobRequestId" (·.jobRequestId) fun x s => { s with jobRequestId := x },
    textField "jobRepositoryName" (·.jobRepository) fun x s => { s with jobRepository := x },
    textField "jobId" (·.jobId) fun x s => { s with jobId := x },
    intField "workflowRunId" (·.workflowRun) fun x s => { s with workflowRun := x },
    textField "jobWorkflowRef" (·.jobWorkflowRef) fun x s => { s with jobWorkflowRef := x },
    textField "jobDisplayName" (·.jobDisplayName) fun x s => { s with jobDisplayName := x }]

/-- The status that tells only of a job. -/
def ofJob (job : JobStarted) : RunnerStatus :=
  { blank with
    jobRequestId := job.requestId
    jobRepository := job.repositoryFullName
    jobId := job.jobId
    workflowRun := job.workflowRun
    jobWorkflowRef := job.workflowRef
    jobDisplayName := job.displayName }

/-- A status as a value whose keys are ascending. -/
def sortedValue (s : RunnerStatus) : Value :=
  .object (Members.ofList (record.members s))

/-- The merge patch that writes a job into a runner's status: the difference between a status
    with the job and one with nothing. -/
def patch (job : JobStarted) : Value :=
  .object [("status", MergePatch.diff blank.sortedValue (ofJob job).sortedValue)]

end RunnerStatus

/-- A runner, as far as the listener looks at it. -/
structure Runner where
  metadata : Resource.Metadata
  status : Option RunnerStatus

namespace Runner

/-- The specification of a runner: a record of which nothing is read. -/
def specRecord : Record Unit := ⟨"EphemeralRunnerSpec", (), []⟩

/-- A runner as a record. -/
def record : Record Runner where
  name := "EphemeralRunner"
  blank := ⟨{}, none⟩
  fields := [
    ⟨"metadata", .required,
      fun n => (Resource.Metadata.record.ofNode n).map fun m r => { r with metadata := m },
      fun r => some (Resource.Metadata.record.toValue r.metadata)⟩,
    ⟨"spec", .required, fun n => (specRecord.ofNode n).map fun _ r => r,
      fun _ => some (specRecord.toValue ())⟩,
    ⟨"status", .member,
      fun n => (Reader.optional RunnerStatus.record.ofNode n).map fun s r => { r with status := s },
      fun r => r.status.map RunnerStatus.record.toValue⟩]

/-- A runner as an object, with the names of its kind first. -/
def toValue (r : Runner) : Value :=
  .object (("apiVersion", .text Resource.apiVersion) ::
    ("kind", .text Resource.Kind.runner.name) :: record.members r)

end Runner

end RunnerPool
