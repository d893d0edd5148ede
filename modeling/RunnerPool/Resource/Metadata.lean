import RunnerPool.Json.LooseRecord

/-! # Resource metadata

What every resource carries about itself.  All of it is optional, and `null` counts as absent.

* `OwnerReference`   another resource that a resource belongs to
* `FieldManager`     who wrote which of its fields, and when
* `Metadata`         the metadata itself; `Metadata.record` reads and writes it -/

namespace RunnerPool

open Json

namespace Resource

/-- A resource that another one belongs to. -/
structure OwnerReference where
  apiVersion : String := ""
  blocksDeletion : Option Bool := none
  isController : Option Bool := none
  kind : String := ""
  name : String := ""
  uid : String := ""

/-- An owner as a record. -/
def OwnerReference.record : LooseRecord OwnerReference where
  name := "OwnerReference"
  blank := {}
  fields := [
    .textOrEmpty "apiVersion" (·.apiVersion) fun x o => { o with apiVersion := x },
    .optionalBool "blockOwnerDeletion" (·.blocksDeletion) fun x o =>
      { o with blocksDeletion := x },
    .optionalBool "controller" (·.isController) fun x o => { o with isController := x },
    .textOrEmpty "kind" (·.kind) fun x o => { o with kind := x },
    .textOrEmpty "name" (·.name) fun x o => { o with name := x },
    .textOrEmpty "uid" (·.uid) fun x o => { o with uid := x }]

/-- Who wrote which fields of a resource. -/
structure FieldManager where
  apiVersion : Option String := none
  fieldsType : Option String := none
  writtenFields : Option Value := none
  manager : Option String := none
  operation : Option String := none
  subresource : Option String := none
  time : Option Timestamp := none

/-- A field manager as a record.  The resource, its metadata, the list of managers and the
    manager itself are open around the set of fields. -/
def FieldManager.record : LooseRecord FieldManager where
  name := "ManagedFieldsEntry"
  blank := {}
  fields := [
    .optionalText "apiVersion" (·.apiVersion) fun x m => { m with apiVersion := x },
    .optionalText "fieldsType" (·.fieldsType) fun x m => { m with fieldsType := x },
    .optional "fieldsV1" (Reader.anyWithin 4) id (·.writtenFields) fun x m =>
      { m with writtenFields := x },
    .optionalText "manager" (·.manager) fun x m => { m with manager := x },
    .optionalText "operation" (·.operation) fun x m => { m with operation := x },
    .optionalText "subresource" (·.subresource) fun x m => { m with subresource := x },
    .optionalTimestamp "time" (·.time) fun x m => { m with time := x }]

/-- Metadata of a resource. -/
structure Metadata where
  annotations : Option (List (String × String)) := none
  creationTimestamp : Option Timestamp := none
  deletionGracePeriodSeconds : Option Int64 := none
  deletionTimestamp : Option Timestamp := none
  finalizers : Option (List String) := none
  generateName : Option String := none
  generation : Option Int64 := none
  labels : Option (List (String × String)) := none
  managedFields : Option (List FieldManager) := none
  name : Option String := none
  ns : Option String := none
  ownerReferences : Option (List OwnerReference) := none
  resourceVersion : Option String := none
  selfLink : Option String := none
  uid : Option String := none

namespace Metadata

/-- A field of texts by key. -/
def textsField (key : String) (get : Metadata → Option (List (String × String)))
    (set : Option (List (String × String)) → Metadata → Metadata) : RecordField Metadata :=
  .optional key Reader.texts (fun kvs => .object (kvs.map fun (k, v) => (k, .text v))) get set

/-- A field of a list. -/
def listField (key : String) (read : Reader β) (write : β → Value)
    (get : Metadata → Option (List β)) (set : Option (List β) → Metadata → Metadata) :
    RecordField Metadata :=
  .optional key (Reader.list read) (fun xs => .array (xs.map write)) get set

/-- Metadata as a record; the fields stand in the order of their names. -/
def record : LooseRecord Metadata where
  name := "ObjectMeta"
  blank := {}
  fields := [
    textsField "annotations" (·.annotations) fun x m => { m with annotations := x },
    .optionalTimestamp "creationTimestamp" (·.creationTimestamp) fun x m =>
      { m with creationTimestamp := x },
    .optionalInt64 "deletionGracePeriodSeconds" (·.deletionGracePeriodSeconds) fun x m =>
      { m with deletionGracePeriodSeconds := x },
    .optionalTimestamp "deletionTimestamp" (·.deletionTimestamp) fun x m =>
      { m with deletionTimestamp := x },
    listField "finalizers" Reader.text .text (·.finalizers) fun x m => { m with finalizers := x },
    .optionalText "generateName" (·.generateName) fun x m => { m with generateName := x },
    .optionalInt64 "generation" (·.generation) fun x m => { m with generation := x },
    textsField "labels" (·.labels) fun x m => { m with labels := x },
    listField "managedFields" FieldManager.record.ofNode FieldManager.record.toValue
      (·.managedFields) fun x m => { m with managedFields := x },
    .optionalText "name" (·.name) fun x m => { m with name := x },
    .optionalText "namespace" (·.ns) fun x m => { m with ns := x },
    listField "ownerReferences" OwnerReference.record.ofNode OwnerReference.record.toValue
      (·.ownerReferences) fun x m => { m with ownerReferences := x },
    .optionalText "resourceVersion" (·.resourceVersion) fun x m => { m with resourceVersion := x },
    .optionalText "selfLink" (·.selfLink) fun x m => { m with selfLink := x },
    .optionalText "uid" (·.uid) fun x m => { m with uid := x }]

end Metadata

end Resource

end RunnerPool
