/-! # Cancellation scopes

A scope is cancelled by itself or with any of the scopes around it, and remembers why.  Scopes
are handles; what happened to them is recorded in one ledger.

* `Scopes.root`, `child`               new scopes
* `Scopes.cancel`, `cancelBecause`     cancelling, the second with a cause
* `Scopes.isCancelled`, `cause`        what a scope reports -/

namespace RunnerPool

/-- A scope and the scopes around it, the nearest first. -/
structure Scope where
  id : Nat
  ancestors : List Nat
deriving Repr, DecidableEq

/-- The scope itself and those around it, the nearest first. -/
def Scope.lineage (s : Scope) : List Nat := s.id :: s.ancestors

/-- What happened to the scopes so far. -/
structure Scopes where
  /-- How many scopes were made. -/
  count : Nat
  /-- The scopes that were cancelled themselves. -/
  cancelled : List Nat
  /-- The cause that each scope was given, if any. -/
  causes : List (Nat × String)
deriving Repr, DecidableEq

namespace Scopes

/-- No scope yet. -/
def empty : Scopes := ⟨0, [], []⟩

/-- A new scope outside all others. -/
def root (w : Scopes) : Scope × Scopes :=
  (⟨w.count, []⟩, { w with count := w.count + 1 })

/-- A new scope inside another. -/
def child (w : Scopes) (s : Scope) : Scope × Scopes :=
  (⟨w.count, s.lineage⟩, { w with count := w.count + 1 })

/-- Whether the scope, or one around it, was cancelled. -/
def isCancelled (w : Scopes) (s : Scope) : Bool :=
  s.lineage.any w.cancelled.contains

/-- The cause that a scope itself was given. -/
def ownCause (w : Scopes) (id : Nat) : Option String :=
  w.causes.lookup id

/-- Why the scope was cancelled: the cause of the nearest scope that was given one. -/
def cause (w : Scopes) (s : Scope) : Option String :=
  s.lineage.findSome? w.ownCause

/-- Cancels a scope without a cause. -/
def cancel (w : Scopes) (s : Scope) : Scopes :=
  { w with cancelled := s.id :: w.cancelled }

/-- Gives a scope a cause, unless it has one. -/
def giveCause (w : Scopes) (s : Scope) (why : String) : Scopes :=
  if (w.ownCause s.id).isSome then w else { w with causes := (s.id, why) :: w.causes }

/-- Cancels a scope for a cause; one that is cancelled already keeps the cause it has. -/
def cancelBecause (w : Scopes) (s : Scope) (why : String) : Scopes :=
  -- the check, the gift of the cause and the cancellation, in this order
  (if w.isCancelled s then w else w.giveCause s why).cancel s

/-- Cancels a scope, for a cause if there is one. -/
def cancelFor (w : Scopes) (s : Scope) : Option String → Scopes
  | some why => w.cancelBecause s why
  | none => w.cancel s

end Scopes

end RunnerPool
