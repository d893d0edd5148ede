import RunnerPool.Event.Basic
import RunnerPool.Json.Record

/-! # Events on the wire

An event is a JSON object with its kind under `type` and its own fields beside it.

* `Event.toValue e`   the object, the kind first
* `Event.encode e`    its text
* `Event.decode s`    the event of a text, or why it is none: the text is not JSON, it has no kind,
  its kind is not known, or a field is not of its form -/

namespace RunnerPool

open Json

namespace JobStarted

/-- A job without any data. -/
def blank : JobStarted := ⟨"", 0, "", "", "", "", 0, ""⟩

/-- Only the runner must be given. -/
def record : Record JobStarted where
  name := "JobStarted"
  blank := blank
  fields := [
    .text "runner_name" .required (·.runner) fun s j => { j with runner := s },
    .int64 "runner_request_id" .defaulted (·.requestId) fun n j => { j with requestId := n },
    .text "owner_name" .defaulted (·.owner) fun s j => { j with owner := s },
    .text "repository_name" .defaulted (·.repository) fun s j => { j with repository := s },
    .text "job_id" .defaulted (·.jobId) fun s j => { j with jobId := s },
    .text "job_workflow_ref" .defaulted (·.workflowRef) fun s j => { j with workflowRef := s },
    .int64 "workflow_run_id" .defaulted (·.workflowRun) fun n j => { j with workflowRun := n },
    .text "job_display_name" .defaulted (·.displayName) fun s j => { j with displayName := s }]

end JobStarted

namespace JobCompleted

/-- An ended job without any data. -/
def blank : JobCompleted := ⟨"", 0, "", ""⟩

/-- Nothing must be given. -/
def record : Record JobCompleted where
  name := "JobCompleted"
  blank := blank
  fields := [
    .text "runner_name" .defaulted (·.runner) fun s j => { j with runner := s },
    .int64 "runner_request_id" .defaulted (·.requestId) fun n j => { j with requestId := n },
    .text "job_id" .defaulted (·.jobId) fun s j => { j with jobId := s },
    .text "result" .defaulted (·.result) fun s j => { j with result := s }]

end JobCompleted

namespace Event

/-- The one field of a desired count. -/
def countRecord : Record UInt32 where
  name := "DesiredCount"
  blank := 0
  fields := [
    .int "count" .nat32 .required (fun n => (n.toNat : Int)) fun n _ => UInt32.ofNat n.toNat]

/-- The fields of an event beside its kind. -/
def members : Event → Members
  | .jobStarted job => JobStarted.record.members job
  | .jobCompleted job => JobCompleted.record.members job
  | .desiredCount count => countRecord.members count

/-- An event as an object. -/
def toValue (e : Event) : Value :=
  .object (("type", .text e.tag.wireName) :: e.members)

/-- The text of an event. -/
def encode (e : Event) : String :=
  e.toValue.compact

/-- Why a text is no event. -/
inductive Refusal
  | notJson (flaw : Flaw) (position : Position)
  /-- The value is no object, or its kind no text. -/
  | untagged
  | unknownTag (name : String)
  | payload (cause : Cause)
deriving DecidableEq

/-- The wording of a refusal. -/
def Refusal.message : Refusal → String
  | .notJson flaw position => "serialization error: " ++ flaw.message ++ position.message
  | .untagged => "invalid event payload: missing `type` tag"
  | .unknownTag name => "unknown event type: " ++ name
  | .payload cause => "invalid event payload: " ++ cause.message

/-- The event of a kind that the fields of an object give. -/
def ofFields (tag : Tag) (v : Value) : Except Cause Event :=
  match tag with
  | .jobStarted => (JobStarted.record.ofValue v).map .jobStarted
  | .jobCompleted => (JobCompleted.record.ofValue v).map .jobCompleted
  | .desiredCount => (countRecord.ofValue v).map .desiredCount

/-- The event that a value stands for. -/
def ofValue (v : Value) : Except Refusal Event :=
  match (v.member? "type").bind Value.text? with
  | none => .error .untagged
  | some name =>
    if Tag.isKnown name then
      match Tag.ofWireName? name with
      | none => .error (.payload (.mismatch (.variant name (Tag.variants.map (·.wireName)))))
      | some tag => (ofFields tag v).mapError .payload
    else .error (.unknownTag name)

/-- The event of a text given as characters. -/
def read (cs : List Char) : Except Refusal Event :=
  match Value.read cs with
  | .error f => .error (.notJson f.cause (.ofLeft cs f.left))
  | .ok v => ofValue v

/-- The event of a text. -/
def decode (s : String) : Except Refusal Event :=
  read s.toList

end Event

end RunnerPool
