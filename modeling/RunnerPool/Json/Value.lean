import RunnerPool.Number.Binary64

/-! # JSON values

A JSON value as a program holds it.  Numbers are integers of any size or finite floating point
numbers, and the two never equal one another.  An object is a list of members; the readers
deliver it with its keys in ascending order and each key once.

* `Value.Canonical`        objects at every depth have ascending keys
* `Members.get?`, `insert` look-up and replacement by key
* `==`                     numerical on numbers, so that the two zeros are equal -/

namespace RunnerPool.Json

/-- A number: the form in which it was written decides which kind it is. -/
inductive Number
  | int (n : Int)
  | float (x : Binary64)
deriving DecidableEq

/-- Equality of numbers: of one kind, and of one amount. -/
protected def Number.beq : Number → Number → Bool
  | .int m, .int n => m == n
  | .float x, .float y => x == y
  | _, _ => false

instance : BEq Number := ⟨Number.beq⟩

/-- A JSON value. -/
inductive Value
  | null
  | bool (b : Bool)
  | number (n : Number)
  | text (s : String)
  | array (items : List Value)
  | object (members : List (String × Value))
deriving Inhabited

/-- The members of an object. -/
abbrev Members := List (String × Value)

namespace Value

mutual

/-- Equality of values, member by member. -/
protected def beq : Value → Value → Bool
  | .null, .null => true
  | .bool a, .bool b => a == b
  | .number m, .number n => m == n
  | .text s, .text t => s == t
  | .array xs, .array ys => itemsBeq xs ys
  | .object ms, .object ns => membersBeq ms ns
  | _, _ => false
termination_by structural v => v

/-- Equality of lists of values. -/
def itemsBeq : List Value → List Value → Bool
  | [], [] => true
  | x :: xs, y :: ys => Value.beq x y && itemsBeq xs ys
  | _, _ => false
termination_by structural xs => xs

/-- Equality of lists of members. -/
def membersBeq : List (String × Value) → List (String × Value) → Bool
  | [], [] => true
  | (k, x) :: ms, (l, y) :: ns => k == l && Value.beq x y && membersBeq ms ns
  | _, _ => false
termination_by structural ms => ms

end

instance : BEq Value := ⟨Value.beq⟩

/-- An integer as a value. -/
def int (n : Int) : Value := .number (.int n)

/-- The text of a value that is a text. -/
def text? : Value → Option String
  | .text s => some s
  | _ => none

end Value

namespace Members

/-- The value of the first member with the key. -/
def get? (key : String) : Members → Option Value
  | [] => none
  | (k, v) :: ms => if k = key then some v else get? key ms

/-- Whether a member has the key. -/
def hasKey (key : String) (ms : Members) : Bool :=
  (get? key ms).isSome

/-- The keys in order. -/
def keys (ms : Members) : List String :=
  ms.map (·.1)

/-- The members with the key's value replaced, or with a new member at its place in the order. -/
def insert (key : String) (v : Value) : Members → Members
  | [] => [(key, v)]
  | (k, w) :: ms =>
    if key < k then (key, v) :: (k, w) :: ms
    else if key = k then (key, v) :: ms
    else (k, w) :: insert key v ms

/-- The members without those of the key. -/
def erase (key : String) (ms : Members) : Members :=
  ms.filter (·.1 != key)

/-- Members in any order, the last of each key kept. -/
def ofList (ms : List (String × Value)) : Members :=
  ms.foldl (fun acc m => insert m.1 m.2 acc) []

/-- The keys are ascending, so each occurs once. -/
def Ascending (ms : Members) : Prop :=
  (keys ms).Pairwise (· < ·)

end Members

namespace Value

mutual

/-- Every object in the value has ascending keys. -/
def Canonical : Value → Prop
  | .array xs => ItemsCanonical xs
  | .object ms => Members.Ascending ms ∧ MembersCanonical ms
  | _ => True
termination_by structural v => v

/-- Every item is canonical. -/
def ItemsCanonical : List Value → Prop
  | [] => True
  | x :: xs => Canonical x ∧ ItemsCanonical xs
termination_by structural xs => xs

/-- The value of every member is canonical. -/
def MembersCanonical : List (String × Value) → Prop
  | [] => True
  | (_, x) :: ms => Canonical x ∧ MembersCanonical ms
termination_by structural ms => ms

end

/-- The value of a member, if the value is an object that has it. -/
def member? (key : String) : Value → Option Value
  | .object ms => Members.get? key ms
  | _ => none

end Value

end RunnerPool.Json
