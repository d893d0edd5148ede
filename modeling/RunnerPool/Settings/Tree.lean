import RunnerPool.Json.Node
import RunnerPool.Number.Floating

/-! # Settings as a tree

Settings before they are given their types: values with the place that they come from, merged
from several sources.  A key may be a path into the tree.

* `KeyPath.parse? s`      the path that a key is
* `Setting.assign v w`    a value set over another; tables are merged
* `Setting.put key v t`   a value set under a key -/

namespace RunnerPool

/-- A value that holds no other. -/
inductive Setting.Plain
  | nothing
  | bool (b : Bool)
  /-- An integer; one beyond 64 bits with a sign has 64 bits without. -/
  | int (n : Int)
  | float (x : Floating)
  | text (s : String)
deriving DecidableEq

/-- A value of the tree and where it comes from.  A table comes from nowhere. -/
inductive Setting
  | plain (origin : Option String) (value : Setting.Plain)
  | list (origin : Option String) (items : List Setting)
  | table (members : List (String × Setting))

namespace Setting

/-- The value of something that was never set. -/
def nothing : Setting := .plain none .nothing

/-! ### Paths -/

/-- One step into the tree. -/
inductive Step
  | key (k : String)
  /-- An item of a list, counted from its end if negative. -/
  | index (i : Int)
deriving Repr, DecidableEq

/-- Whether a character may stand in the name of a step. -/
def isNameChar (c : Char) : Bool :=
  c.isAlphanum || c == '_' || c == '-'

/-- A name at the start of a text. -/
def name? (cs : List Char) : Option (String × List Char) :=
  match cs.takeWhile isNameChar with
  | [] => none
  | n => some (String.ofList n, cs.dropWhile isNameChar)

/-- A number between brackets, the first of which was read; blanks around it are let pass. -/
def index? (cs : List Char) : Option (Int × List Char) :=
  let isGap (c : Char) : Bool := c == ' ' || c == '\t'
  let cs := cs.dropWhile isGap
  let (negative, ds) :=
    match cs with
    | '-' :: r => (true, r)
    | _ => (false, cs)
  let n : Int := Digits.value (ds.takeWhile Char.isDigit)
  let n := if negative then -n else n
  if (ds.takeWhile Char.isDigit).isEmpty || !isInt64 n then none
  else
    match (ds.dropWhile Char.isDigit).dropWhile isGap with
    | ']' :: r => some (n, r)
    | _ => none

/-- The steps after the first. -/
def steps? : (fuel : Nat) → List Char → Option (List Step)
  | _, [] => some []
  | 0, _ => none
  | fuel + 1, '.' :: cs => do
    let (k, cs) ← name? cs
    return .key k :: (← steps? fuel cs)
  | fuel + 1, '[' :: cs => do
    let (i, cs) ← index? cs
    return .index i :: (← steps? fuel cs)
  | _, _ => none

/-- The path that a key is, none if it is none. -/
def path? (key : String) : Option (List Step) := do
  let (k, cs) ← name? key.toList
  return .key k :: (← steps? cs.length cs)

/-! ### Setting a value -/

/-- The value with a key's value changed; what is no table becomes one. -/
def modifyKey (k : String) (f : Setting → Setting) (v : Setting) : Setting :=
  let ms :=
    match v with
    | .table ms => ms
    | _ => []
  match ms.lookup k with
  | none => .table (ms ++ [(k, f nothing)])
  | some w => .table (ms.map fun m => if m.1 = k then (k, f w) else m)

/-- The list with an item changed; it is made long enough, at its end or, for an index from the
    end, at its start. -/
def modifyItem (i : Int) (f : Setting → Setting) (items : List Setting) : List Setting :=
  if 0 ≤ i then
    let items := items ++ List.replicate (i.toNat + 1 - items.length) nothing
    items.modify i.toNat f
  else
    let items := List.replicate ((-i).toNat - items.length) nothing ++ items
    items.modify (items.length - (-i).toNat) f

/-- The value with an item changed; what is no list becomes one. -/
def modifyIndex (i : Int) (f : Setting → Setting) : Setting → Setting
  | .list origin items => .list origin (modifyItem i f items)
  | _ => .list none (modifyItem i f [])

/-- The value with what lies at a path changed. -/
def modifyAt (f : Setting → Setting) : List Step → Setting → Setting
  | [] => f
  | .key k :: path => modifyKey k (modifyAt f path)
  | .index i :: path => modifyIndex i (modifyAt f path)

/-- A value as a table to be merged into: nothing becomes an empty one. -/
def asTable : Setting → Setting
  | .plain _ .nothing => .table []
  | v => v

mutual

/-- A value set over another: the members of a table are set one by one, anything else takes the
    place of what was there. -/
def assign : (value old : Setting) → Setting
  | .table ms, v => assignMembers ms (asTable v)
  | value, _ => value
termination_by structural value => value

/-- Members set into a value. -/
def assignMembers : List (String × Setting) → Setting → Setting
  | [], v => v
  | (k, x) :: ms, v => assignMembers ms (modifyKey k (assign x) v)
termination_by structural ms => ms

end

/-- A value set under a key, which is a path or else a plain name. -/
def put (key : String) (value root : Setting) : Setting :=
  modifyAt (assign value) ((path? key).getD [.key key]) root

/-- Values set under their keys, one after the other. -/
def putAll (members : List (String × Setting)) (root : Setting) : Setting :=
  members.foldl (fun root m => put m.1 m.2 root) root

/-! ### Sources -/

mutual

/-- A JSON value that comes from somewhere. -/
def ofJson (origin : Option String) : Json.Value → Setting
  | .null => .plain origin .nothing
  | .bool b => .plain origin (.bool b)
  | .number (.int n) => .plain origin (.int n)
  | .number (.float x) => .plain origin (.float (.finite x))
  | .text s => .plain origin (.text s)
  | .array xs => .list origin (ofItems origin xs)
  | .object ms => .table (ofMembers origin ms)
termination_by structural v => v

/-- JSON items that come from somewhere. -/
def ofItems (origin : Option String) : List Json.Value → List Setting
  | [] => []
  | x :: xs => ofJson origin x :: ofItems origin xs
termination_by structural xs => xs

/-- JSON members that come from somewhere. -/
def ofMembers (origin : Option String) : List (String × Json.Value) → List (String × Setting)
  | [] => []
  | (k, x) :: ms => (k, ofJson origin x) :: ofMembers origin ms
termination_by structural ms => ms

end

/-- What a text from the environment stands for: a truth value, an integer or a number if it can
    be read as one, else itself. -/
def Plain.ofText (s : String) : Plain :=
  let low := String.ofList (s.toList.map Char.toLower)
  if low = "true" then .bool true
  else if low = "false" then .bool false
  else
    match parseInt64? s.toList with
    | some n => .int n
    | none =>
      match Floating.parse? s.toList with
      | some x => .float x
      | none => .text s

end Setting

end RunnerPool
