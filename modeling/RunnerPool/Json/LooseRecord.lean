import RunnerPool.Json.Record

/-! # Records that are read loosely

A loose record differs from a record in what its reader admits: a member given twice counts the
last time, every field has a default, and there is no array form.

* `LooseRecord.ofNode r n`     the record that a tree holds, or the first fault on the way
* `LooseRecord.toValue r a`    the fields as an object, in order -/

namespace RunnerPool.Json

namespace Reader

/-- Reads the items of an array one by one. -/
def items (read : Reader α) : List Node → Except (Fault Cause) (List α)
  | [] => .ok []
  | n :: ns => do
    let a ← read n
    let as ← items read ns
    return a :: as

/-- Reads an array. -/
def list (read : Reader α) : Reader (List α)
  | .array _ ns e => do
    let as ← items read ns
    e.check.mapError Fault.ofFlaw
    return as
  | n => wrongKind "a sequence" n

/-- Texts by key with one more; a key has one text. -/
def insertText (key value : String) : List (String × String) → List (String × String)
  | [] => [(key, value)]
  | (k, v) :: r =>
    if key < k then (key, value) :: (k, v) :: r
    else if key = k then (key, value) :: r
    else (k, v) :: insertText key value r

/-- Reads the members of an object of texts. -/
def textMembers : List (String × String) → List (Key × Node) →
    Except (Fault Cause) (List (String × String))
  | acc, [] => .ok acc
  | acc, (k, n) :: ms => do
    let key ← k.value.mapError Fault.ofFlaw
    let value ← text n
    textMembers (insertText key value acc) ms

/-- Reads an object of texts. -/
def texts : Reader (List (String × String))
  | .object _ ms e => do
    let kvs ← textMembers [] ms
    e.check.mapError Fault.ofFlaw
    return kvs
  | n => wrongKind "a map" n

/-- Reads a moment. -/
def timestamp : Reader Timestamp
  | .scalar _ rest (.ok (.text s)) =>
    (Timestamp.read s.toList).mapError fun why => .behind (.mismatch (.timestamp why)) rest
  | n => wrongKind "an RFC 3339 formatted date and time string" n

/-- Reads any value around which so many containers are open. -/
def anyWithin (opened : Nat) : Reader Value := fun n =>
  (n.valueWithin (Node.depthLimit - opened)).mapError Fault.ofFlaw

end Reader

namespace RecordField

/-- A field that may be absent or `null` and is left out by the writer then. -/
def optional (key : String) (read : Reader β) (write : β → Value) (get : α → Option β)
    (set : Option β → α → α) : RecordField α :=
  ⟨key, .defaulted, fun n => (Reader.optional read n).map set, fun a => (get a).map write⟩

/-- A text that may be absent or `null`. -/
def optionalText (key : String) (get : α → Option String) (set : Option String → α → α) :
    RecordField α :=
  optional key Reader.text .text get set

/-- A truth value that may be absent or `null`. -/
def optionalBool (key : String) (get : α → Option Bool) (set : Option Bool → α → α) :
    RecordField α :=
  optional key Reader.bool .bool get set

/-- A number of 64 bits that may be absent or `null`. -/
def optionalInt64 (key : String) (get : α → Option Int64) (set : Option Int64 → α → α) :
    RecordField α :=
  optional key (fun n => (Reader.int .int64 n).map Int64.ofInt) (fun n => .int n.toInt) get set

/-- A moment that may be absent or `null`. -/
def optionalTimestamp (key : String) (get : α → Option Timestamp)
    (set : Option Timestamp → α → α) : RecordField α :=
  optional key Reader.timestamp (fun t => .text t.shown) get set

/-- A text that is empty if it is absent or `null`, and always written. -/
def textOrEmpty (key : String) (get : α → String) (set : String → α → α) : RecordField α :=
  ⟨key, .defaulted, fun n => (Reader.optional Reader.text n).map fun s => set (s.getD ""),
    fun a => some (.text (get a))⟩

end RecordField

/-- The description of a record that is read loosely. -/
structure LooseRecord (α : Type) where
  name : String
  /-- The record with every field at its default. -/
  blank : α
  fields : List (RecordField α)

namespace LooseRecord

/-- The field with the key. -/
def field? (r : LooseRecord α) (key : String) : Option (RecordField α) :=
  r.fields.find? (·.key == key)

/-- Reads members one after the other. -/
def readMembers (r : LooseRecord α) : α → List (Key × Node) → Except (Fault Cause) α
  | a, [] => .ok a
  | a, (k, n) :: ms => do
    let key ← k.value.mapError Fault.ofFlaw
    match r.field? key with
    | none =>
      n.skip.mapError Fault.ofFlaw
      readMembers r a ms
    | some f =>
      let change ← f.read n
      readMembers r (change a) ms

/-- The place at which an array is refused: before its first item, or after the array if it has
    none. -/
def arrayPlace (ns : List Node) (e : Ending) : Nat :=
  match ns, e with
  | n :: _, _ => Utf8.size (Node.afterComma n.start)
  | [], .closed rest => Utf8.size rest
  | [], .broken why => why.reading.left

/-- Reads a record from a tree. -/
def ofNode (r : LooseRecord α) : Reader α
  | .object _ ms e => do
    let a ← r.readMembers r.blank ms
    e.check.mapError Fault.ofFlaw
    return a
  | .array _ ns e => .error ⟨.mismatch (.kind .sequence r.name), arrayPlace ns e⟩
  | n => Reader.wrongKind r.name n

/-- The fields that are written, as an object. -/
def toValue (r : LooseRecord α) (a : α) : Value :=
  .object (r.fields.filterMap fun f => (f.write a).map (f.key, ·))

end LooseRecord

end RunnerPool.Json
