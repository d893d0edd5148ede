import RunnerPool.Json.MergePatch
import RunnerPool.Json.Record
import RunnerPool.Resource.Kind
import RunnerPool.Resource.Metadata

/-! # Runner sets

A runner set is the pool whose size the listener decides.

* `RunnerSetSpec.record`     size and decision number as JSON
* `RunnerSetSpec.patch`      the merge patch that sets both -/

namespace RunnerPool

open Json

/-- What a runner set is asked to be. -/
structure RunnerSetSpec where
  replicas : Int32
  /-- The number of the decision that chose the size. -/
  patchId : Int32
deriving Repr, DecidableEq

namespace RunnerSetSpec

/-- The specification as a record. -/
def record : Record RunnerSetSpec where
  name := "EphemeralRunnerSetSpec"
  blank := ⟨0, 0⟩
  fields := [
    .int32 "replicas" .defaulted (·.replicas) fun n s => { s with replicas := n },
    .int32 "patchID" .defaulted (·.patchId) fun n s => { s with patchId := n }]

/-- The baseline of a patch, which no decision equals in either field. -/
def unset : RunnerSetSpec := ⟨-1, -1⟩

/-- A specification as a value whose keys are ascending. -/
def sortedValue (s : RunnerSetSpec) : Value :=
  .object (Members.ofList (record.members s))

/-- The merge patch that sets size and decision number; a field that equals the baseline is left
    out. -/
def patch (replicas patchId : Int32) : Value :=
  .object [("spec", MergePatch.diff unset.sortedValue (sortedValue ⟨replicas, patchId⟩))]

end RunnerSetSpec

/-- A runner set, as far as the listener looks at it. -/
structure RunnerSet where
  metadata : Resource.Metadata
  spec : RunnerSetSpec

namespace RunnerSet

/-- A runner set as a record. -/
def record : Record RunnerSet where
  name := "EphemeralRunnerSet"
  blank := ⟨{}, ⟨0, 0⟩⟩
  fields := [
    ⟨"metadata", .required,
      fun n => (Resource.Metadata.record.ofNode n).map fun m s => { s with metadata := m },
      fun s => some (Resource.Metadata.record.toValue s.metadata)⟩,
    ⟨"spec", .required,
      fun n => (RunnerSetSpec.record.ofNode n).map fun x s => { s with spec := x },
      fun s => some (RunnerSetSpec.record.toValue s.spec)⟩]

/-- A runner set as an object, with the names of its kind first. -/
def toValue (s : RunnerSet) : Value :=
  .object (("apiVersion", .text Resource.apiVersion) ::
    ("kind", .text Resource.Kind.runnerSet.name) :: record.members s)

end RunnerSet

end RunnerPool
