import RunnerPool.Cluster.Answer
import RunnerPool.Log
import RunnerPool.Resource.Runner
import RunnerPool.Resource.RunnerSet
import RunnerPool.Sequencer

/-! # The scaler

Turns session events into requests to the cluster.  Job events only mark the state of the
sequencer, and a started job is also noted on its runner; a desired count makes a decision and
sets the size of the pool.  The state moves on before the cluster is asked and is never taken
back.

* `Scaler.jobStarted`, `jobCompleted`, `desiredCount`   the three handlers
* `Handling`   what a handler does at once, and what an answer makes of the rest -/

namespace RunnerPool

open Cluster

/-- Why a handler fails. -/
inductive HandlerError
  /-- No patch could be made; the wording of the reason. -/
  | unencodable (why : String)
  | cluster (e : Cluster.Error)
deriving Repr, DecidableEq

namespace HandlerError

/-- The error and what lies behind it, the outermost first. -/
def chain : HandlerError → List String
  | .unencodable why => ["failed to encode merge patch: " ++ why, why]
  | .cluster e => e.chain

/-- The wording of an error. -/
def message (e : HandlerError) : String := e.chain.headD ""

end HandlerError

/-- How a handler ends: what it logs last, and its result. -/
structure Outcome (α : Type) where
  entries : List Log.Entry
  result : Except HandlerError α

/-- What is left to do of a handler after its first steps. -/
inductive Exchange (α : Type)
  /-- Nothing: this is the outcome. -/
  | settled (outcome : Outcome α)
  /-- One request, whose answer settles the outcome. -/
  | ask (request : Request) (settle : Answer → Outcome α)

/-- A handler at work: what it logs at once, and the rest. -/
structure Handling (α : Type) where
  entries : List Log.Entry
  exchange : Exchange α

/-- The scaler of one pool. -/
structure Scaler where
  ns : String
  name : String
  sequencer : Sequencer
deriving Repr, DecidableEq

namespace Scaler

/-- A scaler before its first event. -/
def new (ns name : String) (bounds : Bounds) : Scaler := ⟨ns, name, .new bounds⟩

/-- An entry of the scaler. -/
private def entry (level : Log.Level) (message : String) (fields : List (String × Log.Datum)) :
    Log.Entry :=
  ⟨level, .scaler, message, fields⟩

/-! ### A started job -/

/-- The entry that tells of a started job. -/
def startedEntry (job : JobStarted) : Log.Entry :=
  entry .info "Updating job info for the runner" [
    ("runner_name", .plain job.runner),
    ("owner_name", .plain job.owner),
    ("repo_name", .plain job.repository),
    ("job_id", .plain job.jobId),
    ("workflow_ref", .plain job.workflowRef),
    ("workflow_run_id", .int job.workflowRun.toInt),
    ("job_display_name", .plain job.displayName),
    ("request_id", .int job.requestId.toInt)]

/-- How the update of a runner ends; a runner that is gone needs none. -/
def settleStarted (job : JobStarted) (answer : Except Cluster.Error Runner) : Outcome Unit :=
  match answer with
  | .ok _ =>
    ⟨[entry .info "Ephemeral runner status updated" [("runner_name", .plain job.runner)]], .ok ()⟩
  | .error e =>
    -- the runner is gone, and its status with it
    if e.isNotFound then
      ⟨[entry .info "Ephemeral runner not found, skipping status update"
        [("runner_name", .plain job.runner)]], .ok ()⟩
    else
      ⟨[entry .error "Failed to patch ephemeral runner status" [
          ("runner_name", .plain job.runner),
          ("patch", .plain (RunnerStatus.patch job).compact),
          ("error", .plain e.message)]],
        .error (.cluster e)⟩

/-- Notes a started job on its runner. -/
def jobStarted (s : Scaler) (job : JobStarted) : Scaler × Handling Unit :=
  let patch := RunnerStatus.patch job
  let entries := [startedEntry job,
    entry .debug "Patching ephemeral runner status" [
      ("runner_name", .plain job.runner), ("patch", .plain patch.compact)]]
  let exchange :=
    match Request.build .runner s.ns job.runner (some "status") patch with
    | .error why => .settled (settleStarted job (.error (.unbuildable why)))
    | .ok request => .ask request fun a => settleStarted job (a.decode Runner.record)
  ({ s with sequencer := s.sequencer.markDirty }, ⟨entries, exchange⟩)

/-! ### A completed job -/

/-- Notes that a job ended. -/
def jobCompleted (s : Scaler) (job : JobCompleted) : Scaler × Handling Unit :=
  let entries := [entry .debug "Job completed" [
    ("runner_name", .plain job.runner),
    ("job_id", .plain job.jobId),
    ("result", .plain job.result)]]
  ({ s with sequencer := s.sequencer.markDirty }, ⟨entries, .settled ⟨[], .ok ()⟩⟩)

/-! ### A desired count -/

/-- How the change of the pool's size ends. -/
def settleDesired (s : Scaler) (d : Decision) (answer : Except Cluster.Error RunnerSet) :
    Outcome Int32 :=
  match answer with
  | .ok set =>
    ⟨[entry .info "Ephemeral runner set scaled" [
        ("namespace", .plain s.ns),
        ("name", .plain s.name),
        ("replicas", .int set.spec.replicas.toInt),
        ("patch_id", .int d.patchId.toInt)]],
      .ok d.target⟩
  | .error e =>
    ⟨[entry .error "Failed to patch ephemeral runner set" [
        ("namespace", .plain s.ns),
        ("name", .plain s.name),
        ("patch", .plain (RunnerSetSpec.patch d.target d.patchId).compact),
        ("error", .plain e.message)]],
      .error (.cluster e)⟩

/-- Decides on the size of the pool and sets it. -/
def desiredCount (s : Scaler) (count : UInt32) : Scaler × Handling Int32 :=
  let (d, sequencer) := s.sequencer.evaluate count
  let patch := RunnerSetSpec.patch d.target d.patchId
  let entries := [s.sequencer.report count,
    entry .debug "Preparing ephemeral runner set update" [("patch", .plain patch.compact)]]
  let exchange :=
    match Request.build .runnerSet s.ns s.name none patch with
    | .error why => .settled (s.settleDesired d (.error (.unbuildable why)))
    | .ok request => .ask request fun a => s.settleDesired d (a.decode RunnerSet.record)
  ({ s with sequencer }, ⟨entries, exchange⟩)

end Scaler

namespace Handling

/-- The request that a handler sends, if it sends one. -/
def request? (h : Handling α) : Option Request :=
  match h.exchange with
  | .settled _ => none
  | .ask r _ => some r

/-- The outcome once the request, if there is one, got the answer. -/
def settle (h : Handling α) (answer : Answer) : Outcome α :=
  match h.exchange with
  | .settled o => o
  | .ask _ f => f answer

/-- The handler's result put into another form. -/
def map (f : α → β) (h : Handling α) : Handling β :=
  let outcome (o : Outcome α) : Outcome β := ⟨o.entries, o.result.map f⟩
  ⟨h.entries,
    match h.exchange with
    | .settled o => .settled (outcome o)
    | .ask r g => .ask r fun a => outcome (g a)⟩

end Handling

end RunnerPool
