import RunnerPool.Json.Node

/-! # Records as JSON

A record is described once, as a list of fields; the description gives both the reader and the
writer.  An object may leave fields out, may hold members that are no fields, and may not hold
one field twice; an array gives the fields in order.

* `Record.ofNode r n`    the record that a tree holds, or the first fault on the way through it
* `Record.ofText r s`    the same from a whole text
* `Record.ofValue r v`   the same from a generic value, where faults have no place
* `Record.members r a`   the fields as members, in order -/

namespace RunnerPool.Json

/-- A reader of one value of a tree. -/
abbrev Reader (α : Type) := Node → Except (Fault Cause) α

namespace Reader

/-- The fault of a value that is not of the wanted kind.  A scalar is blamed at its last byte, a
    container just before its bracket. -/
def wrongKind (expected : String) : Reader α
  | .scalar _ rest v => do
    let found ← v.mapError Fault.ofFlaw
    let found : Found :=
      match found with
      | .null => .null
      | .bool b => .bool b
      | .number (.int n) => .int n
      | .number (.float x) => .float x
      | .text s => .text s
    .error (.behind (.mismatch (.kind found expected)) rest)
  | .array start _ _ => .error (.behind (.mismatch (.kind .sequence expected)) start)
  | .object start _ _ => .error (.behind (.mismatch (.kind .map expected)) start)
  | .missing _ why => .error (.ofFlaw why.reading)

/-- Reads a text. -/
def text : Reader String
  | .scalar _ _ (.ok (.text s)) => .ok s
  | n => wrongKind "a string" n

/-- Reads a truth value. -/
def bool : Reader Bool
  | .scalar _ _ (.ok (.bool b)) => .ok b
  | n => wrongKind "a boolean" n

/-- A range of integers and its name. -/
structure IntRange where
  name : String
  low : Int
  high : Int

/-- Reads an integer of a range. -/
def int (r : IntRange) : Reader Int
  | .scalar _ rest (.ok (.number (.int n))) =>
    if r.low ≤ n ∧ n ≤ r.high then .ok n
    else .error (.behind (.mismatch (.range n r.name)) rest)
  | n => wrongKind r.name n

/-- Reads `null` as nothing. -/
def optional (r : Reader α) : Reader (Option α)
  | .scalar _ _ (.ok .null) => .ok none
  | n => (r n).map some

end Reader

namespace Reader.IntRange

/-- Integers of 64 bits with a sign. -/
def int64 : Reader.IntRange := ⟨"i64", Int64.minValue.toInt, Int64.maxValue.toInt⟩

/-- Integers of 32 bits with a sign. -/
def int32 : Reader.IntRange := ⟨"i32", Int32.minValue.toInt, Int32.maxValue.toInt⟩

/-- Integers of 32 bits without a sign. -/
def nat32 : Reader.IntRange := ⟨"u32", 0, UInt32.size - 1⟩

/-- Integers of 16 bits without a sign. -/
def nat16 : Reader.IntRange := ⟨"u16", 0, UInt16.size - 1⟩

end Reader.IntRange

/-- When a field may be absent. -/
inductive Presence
  /-- It must be given. -/
  | required
  /-- It has a default. -/
  | defaulted
  /-- An object may leave it out, an array may not. -/
  | member
deriving Repr, DecidableEq

/-- A field of a record. -/
structure RecordField (α : Type) where
  key : String
  presence : Presence
  /-- How a value of the field changes the record. -/
  read : Reader (α → α)
  /-- The value of the field, none if it is left out. -/
  write : α → Option Value

namespace RecordField

/-- A field that holds a text and is always written. -/
def text (key : String) (presence : Presence) (get : α → String) (set : String → α → α) :
    RecordField α :=
  ⟨key, presence, fun n => (Reader.text n).map set, fun a => some (.text (get a))⟩

/-- A field that holds an integer of a range and is always written. -/
def int (key : String) (range : Reader.IntRange) (presence : Presence) (get : α → Int)
    (set : Int → α → α) : RecordField α :=
  ⟨key, presence, fun n => (Reader.int range n).map set, fun a => some (.int (get a))⟩

/-- A field of 64 bits with a sign. -/
def int64 (key : String) (presence : Presence) (get : α → Int64) (set : Int64 → α → α) :
    RecordField α :=
  int key .int64 presence (fun a => (get a).toInt) fun n => set (Int64.ofInt n)

/-- A field of 32 bits with a sign. -/
def int32 (key : String) (presence : Presence) (get : α → Int32) (set : Int32 → α → α) :
    RecordField α :=
  int key .int32 presence (fun a => (get a).toInt) fun n => set (Int32.ofInt n)

/-- The field, left out by the writer where it holds the given value. -/
def omitting (f : RecordField α) (omitted : α → Bool) : RecordField α :=
  { f with write := fun a => if omitted a then none else f.write a }

end RecordField

/-- The description of a record. -/
structure Record (α : Type) where
  name : String
  /-- The record with every field at its default. -/
  blank : α
  fields : List (RecordField α)

namespace Record

/-- The field with the key. -/
def field? (r : Record α) (key : String) : Option (RecordField α) :=
  r.fields.find? (·.key == key)

/-- Reads members one after the other: the record so far and the fields that were given. -/
def readMembers (r : Record α) : α → (given : List String) → List (Key × Node) →
    Except (Fault Cause) (α × List String)
  | a, given, [] => .ok (a, given)
  | a, given, (k, n) :: ms => do
    let key ← k.value.mapError Fault.ofFlaw
    match r.field? key with
    | none =>
      n.skip.mapError Fault.ofFlaw
      readMembers r a given ms
    | some f =>
      if key ∈ given then
        -- the place is behind the key, and behind the brace if the object ends there
        let place := if k.after.head? = some '}' then k.after.drop 1 else k.after
        .error (.behind (.mismatch (.duplicate key)) place)
      else
        let change ← f.read n
        readMembers r (change a) (key :: given) ms

/-- The first field that must be given and was not. -/
def missing? (r : Record α) (given : List String) : Option String :=
  (r.fields.find? fun f => f.presence == .required && !given.contains f.key).map (·.key)

/-- Reads the members of an object and its end. -/
def readObject (r : Record α) (ms : List (Key × Node)) : Ending → Except (Fault Cause) α
  | .broken why => do
    let _ ← readMembers r r.blank [] ms
    .error (.ofFlaw why.reading)
  | .closed rest => do
    let (a, given) ← readMembers r r.blank [] ms
    match r.missing? given with
    | some key => .error (.behind (.mismatch (.missing key)) rest)
    | none => .ok a

/-- The end of an array after so many fields.  Where there are none, a comma may come at once. -/
def surplus (given : Nat) : List Node → Ending → Except (Fault Cause) Unit
  | n :: _, _ =>
    if given = 0 ∧ n.start.head? = some ',' then
      let rest := Node.afterComma n.start
      let flaw := if rest.head? = some ']' then Flaw.trailingComma else .trailingCharacters
      .error (.ahead (.flaw flaw) rest)
    else .error (.ahead (.flaw .trailingCharacters) n.start)
  | [], .closed _ => .ok ()
  -- the array goes on without a comma, which the end of the fields words in its own way
  | [], .broken ⟨⟨.expectedCommaOrBracket, left⟩, _⟩ =>
    .error ⟨.flaw .trailingCharacters, left⟩
  | [], .broken why => .error (.ofFlaw why.reading)

/-- Reads the items of an array as the fields in order. -/
def readItems (r : Record α) :
    (given : Nat) → α → List (RecordField α) → List Node → Ending → Except (Fault Cause) α
  | given, a, [], ns, e => do
    surplus given ns e
    return a
  | given, a, f :: fs, n :: ns, e => do
    let change ← f.read n
    readItems r (given + 1) (change a) fs ns e
  | given, a, f :: fs, [], .closed rest =>
    if f.presence = .defaulted then readItems r (given + 1) a fs [] (.closed rest)
    else .error (.behind (.mismatch (.count given r.name r.fields.length)) rest)
  | _, _, _ :: _, [], .broken why => .error (.ofFlaw why.reading)

/-- Reads a record from a tree. -/
def ofNode (r : Record α) : Reader α
  | .object _ ms e => r.readObject ms e
  | .array _ ns e => r.readItems 0 r.blank r.fields ns e
  | n => Reader.wrongKind ("struct " ++ r.name) n

/-- Reads a record from a whole text. -/
def ofText (r : Record α) (cs : List Char) : Except (Fault Cause) α :=
  (Document.read cs).decode r.ofNode

/-- Reads a record from a generic value. -/
def ofValue (r : Record α) (v : Value) : Except Cause α :=
  (r.ofNode (.ofValue v)).mapError (·.cause)

/-- The fields that are written, as members in order. -/
def members (r : Record α) (a : α) : Members :=
  r.fields.filterMap fun f => (f.write a).map (f.key, ·)

/-- A record as an object. -/
def toValue (r : Record α) (a : α) : Value :=
  .object (r.members a)

end Record

end RunnerPool.Json
