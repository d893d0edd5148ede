import RunnerPool.Json.Value

/-! # Merge patches

A merge patch is a JSON value that says how another is to change: members of an object are set,
changed in turn if both sides are objects, or removed where the patch holds `null`; any patch that
is no object replaces the whole value.

* `MergePatch.diff old new`       the patch from one value to another
* `MergePatch.apply target p`     the value with the patch applied
* `Value.lookup path v`           the value at a path of keys -/

namespace RunnerPool.Json

namespace MergePatch

/-- The patch with a `null` for each old key that is not among the new ones. -/
def withRemovals (old new patch : Members) : Members :=
  ((Members.keys old).filter fun k => !Members.hasKey k new).foldl
    (fun p k => Members.insert k .null p) patch

/-- Whether a value is an object. -/
def isObject : Value → Bool
  | .object _ => true
  | _ => false

/-- Whether a value is the object without members. -/
def isEmpty : Value → Bool
  | .object [] => true
  | _ => false

mutual

/-- The patch that turns one value into another. -/
def diff : (old new : Value) → Value
  | .object old, .object new => .object (withRemovals old new (changes old new))
  | _, new => new
termination_by structural _ new => new

/-- What the new members add or change.  An equal member is left out, and so is an object whose
    own changes are none. -/
def changes : (old : Members) → (new : List (String × Value)) → Members
  | _, [] => []
  | old, (k, v) :: new =>
    match Members.get? k old with
    | none => (k, v) :: changes old new
    | some w =>
      if w == v then changes old new
      else
        let p := diff w v
        if isObject w && isObject v && isEmpty p then changes old new
        else (k, p) :: changes old new
termination_by structural _ new => new

end

mutual

/-- The target with the patch applied; a target that is no object counts as an empty one. -/
def apply : (target patch : Value) → Value
  | .object ms, .object ps => .object (applyMembers ms ps)
  | _, .object ps => .object (applyMembers [] ps)
  | _, patch => patch
termination_by structural _ patch => patch

/-- The members with each member of the patch applied. -/
def applyMembers : Members → (patch : List (String × Value)) → Members
  | ms, [] => ms
  | ms, (k, .null) :: ps => applyMembers (Members.erase k ms) ps
  | ms, (k, v) :: ps =>
    applyMembers (Members.insert k (apply ((Members.get? k ms).getD .null) v) ms) ps
termination_by structural _ patch => patch

end

end MergePatch

/-- The value at a path of keys that leads through objects. -/
def Value.lookup : (path : List String) → Value → Option Value
  | [], v => some v
  | k :: path, v => (v.member? k).bind (Value.lookup path)

end RunnerPool.Json
