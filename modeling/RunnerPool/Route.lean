import RunnerPool.Text.Pieces

/-! # Routes

A route is the path under which something is served.  It may capture a segment, or everything
that is left; a route without captures serves the one path that it names.

* `Route.isStatic s`       an absolute path without captures
* `Route.parse? s`         the route of a text, none if it is malformed
* `Route.accepts r path`   whether a route serves a path -/

namespace RunnerPool.Route

/-- The segments of a path between its slashes. -/
def segments (path : List Char) : List (List Char) :=
  Text.pieces '/' path

/-- Whether a segment begins with a mark that once meant a capture. -/
def isMarked : List Char → Bool
  | ':' :: _ => true
  | '*' :: _ => true
  | _ => false

/-- Whether a text is an absolute path without captures. -/
def isStatic (s : String) : Bool :=
  let cs := s.toList
  cs.head? == some '/' && !cs.contains '{' && !cs.contains '}' && !(segments cs).any isMarked

/-- A part of a route. -/
inductive Part
  /-- A character that stands for itself. -/
  | literal (c : Char)
  /-- One segment, or what is left of it; at the end of a route it cannot be empty. -/
  | segment
  /-- Everything that is left. -/
  | rest
deriving Repr, DecidableEq

/-- A route as its parts. -/
abbrev Parts := List Part

/-- A character of a route, and whether it was escaped by being written twice. -/
def unescape : List Char → List (Char × Bool)
  | '{' :: '{' :: cs => ('{', true) :: unescape cs
  | '}' :: '}' :: cs => ('}', true) :: unescape cs
  | c :: cs => (c, false) :: unescape cs
  | [] => []

/-- Reads a route; within a capture, the characters of its name so far. -/
def parts : Option (List Char) → List (Char × Bool) → Option Parts
  | none, [] => some []
  | some _, [] => none
  | none, ('{', false) :: cs => parts (some []) cs
  | none, ('}', false) :: _ => none
  | none, (c, _) :: cs => (parts none cs).map (.literal c :: ·)
  | some name, ('}', false) :: cs =>
    match name.reverse with
    | [] => none
    -- a capture of the rest must have a name and be the last part
    | '*' :: name =>
      if name.isEmpty ∨ !cs.isEmpty then none else some [.rest]
    | _ =>
      match cs with
      -- a captured segment ends with the route or at a slash
      | [] => some [.segment]
      | ('/', _) :: _ => (parts none cs).map (.segment :: ·)
      | _ => none
  | some [], ('}', true) :: _ => none
  | some name, (c, _) :: cs =>
    if !name.isEmpty && (c == '*' || c == '/') then none else parts (some (c :: name)) cs

/-- How many segments a route may capture. -/
def maxSegments : Nat := 25

/-- The parts of a route; none if it does not begin with a slash, has a marked segment or a
    malformed capture, or captures too many segments. -/
def parse? (s : String) : Option Parts :=
  let cs := s.toList
  if cs.head? == some '/' && !(segments cs).any isMarked then
    (parts none (unescape cs)).filter fun r => r.count .segment ≤ maxSegments
  else none

/-- Whether a route serves a path. -/
def accepts : Parts → List Char → Bool
  | [], path => path.isEmpty
  | .literal c :: r, d :: path => c == d && accepts r path
  | .literal _ :: _, [] => false
  | .segment :: r, path => !path.isEmpty && accepts r (path.dropWhile (· != '/'))
  | .rest :: _, path => !path.isEmpty

end RunnerPool.Route
