import RunnerPool.Json.Printer
import RunnerPool.Resource.Kind
import RunnerPool.Text.Utf8

/-! # Requests to the cluster

The only requests are merge patches of one named resource.  Names are put into the request's
target as they are, so a name can make the target unfit, or mean something else.

* `Uri.target? s`       the path and query of a target, or why it is none
* `Request.patch`       the request that patches a resource or a part of it -/

namespace RunnerPool.Cluster

open Json

/-- Why a request cannot be built. -/
inductive Unbuildable
  | emptyName
  | badCharacter
  | tooLong
deriving Repr, DecidableEq

namespace Unbuildable

/-- The innermost wording. -/
def reason : Unbuildable → String
  | .emptyName => "A non-empty name is required"
  | .badCharacter => "invalid uri character"
  | .tooLong => "uri too long"

/-- What was being done. -/
def message (u : Unbuildable) : String :=
  match u with
  | .emptyName => "failed to validate request: " ++ u.reason
  | _ => "failed to build request: " ++ u.reason

/-- The wordings from the outermost on. -/
def chain (u : Unbuildable) : List String :=
  match u with
  | .emptyName => [u.message]
  | _ => [u.message, u.reason]

end Unbuildable

namespace Uri

/-- The longest text that can be a target, in bytes. -/
def maxLength : Nat := 65534

/-- Whether a character may stand in a path. -/
def inPath (c : Char) : Bool :=
  '\x20' < c && c != '<' && c != '>' && c != '\x60' && c != '\x7f'

/-- Whether a character may stand in a query. -/
def inQuery (c : Char) : Bool :=
  '\x20' < c && c != '<' && c != '>' && c != '"' && c != '\x7f'

/-- A query up to the fragment mark, which ends it. -/
def query? : List Char → Option (List Char)
  | [] => some []
  | '#' :: _ => some []
  | c :: cs => if inQuery c then (query? cs).map (c :: ·) else none

/-- A path with its query up to the fragment mark, which ends it. -/
def path? : List Char → Option (List Char)
  | [] => some []
  | '?' :: cs => (query? cs).map ('?' :: ·)
  | '#' :: _ => some []
  | c :: cs => if inPath c then (path? cs).map (c :: ·) else none

/-- What is sent of a text that is to be a target. -/
def target? (s : String) : Except Unbuildable String :=
  if maxLength < Utf8.size s.toList then .error .tooLong
  else
    match path? s.toList with
    | some cs => .ok (String.ofList cs)
    | none => .error .badCharacter

end Uri

/-- A request to patch a resource. -/
structure Request where
  /-- Path and query. -/
  target : String
  patch : Value

namespace Request

/-- The method of every request. -/
def method : String := "PATCH"

/-- The kind of body that is sent. -/
def contentType : String := "application/merge-patch+json"

/-- The kind of answer that is wanted. -/
def accept : String := "application/json"

/-- The text that is sent. -/
def body (r : Request) : String := r.patch.compact

/-- The request that patches a named resource, or the given part of it. -/
def build (kind : Resource.Kind) (ns name : String) (part : Option String) (patch : Value) :
    Except Unbuildable Request :=
  if name = "" then .error .emptyName
  else do
    let tail :=
      match part with
      | some p => "/" ++ p
      | none => ""
    let target ← Uri.target? (kind.path (some ns) ++ "/" ++ name ++ tail ++ "?")
    return ⟨target, patch⟩

end Request

end RunnerPool.Cluster
