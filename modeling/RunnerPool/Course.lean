import RunnerPool.Log
import RunnerPool.Scope

/-! # Operations that take time

An operation as it looks to whoever waits for it: what happens without a break, where it pauses,
and what the world does in the meantime.  Others can act at any time, beside the operation as well
as in its pauses, but who waits looks at his scope only where the operation pauses.  The
description is data, so that one run can be compared with another.

* `Course.race own c w`   waits for an operation or for the cancellation of a scope, whichever
  comes first; a cancellation that is already there wins -/

namespace RunnerPool

/-- Something that happens without taking time. -/
inductive Happening
  | note (entry : Log.Entry)
  | cancel (scope : Scope) (cause : Option String)
deriving Repr, DecidableEq

namespace Happening

/-- The scopes after a happening. -/
def effect (w : Scopes) : Happening → Scopes
  | .note _ => w
  | .cancel s cause => w.cancelFor s cause

/-- The entries of a happening. -/
def entries : Happening → List Log.Entry
  | .note e => [e]
  | .cancel _ _ => []

/-- The scopes after all of the happenings. -/
def effects (w : Scopes) (hs : List Happening) : Scopes :=
  hs.foldl effect w

/-- The entries of all of the happenings. -/
def allEntries (hs : List Happening) : List Log.Entry :=
  hs.flatMap entries

end Happening

/-- How an operation goes on. -/
inductive Course (α : Type)
  | done (a : α)
  /-- Something happens, and the operation goes on at once: it does this itself, or others do it
      beside it. -/
  | act (h : Happening) (next : Course α)
  /-- Pauses; before it goes on, others do these things. -/
  | pause (meanwhile : List Happening) (next : Course α)
  /-- Never ends, and nothing else happens. -/
  | stall

/-- How waiting ends. -/
inductive Wait (α : Type)
  | finished (a : α)
  | cancelled
  | stalled
deriving Repr, DecidableEq

/-- The end of a wait, with the scopes and the entries written by then. -/
structure Waited (α : Type) where
  wait : Wait α
  scopes : Scopes
  entries : List Log.Entry

namespace Course

/-- The operation with a function applied to its result. -/
def map (f : α → β) : Course α → Course β
  | .done a => .done (f a)
  | .act h next => .act h (map f next)
  | .pause hs next => .pause hs (map f next)
  | .stall => .stall

/-- One operation after another, which depends on the result of the first. -/
def bind (c : Course α) (f : α → Course β) : Course β :=
  match c with
  | .done a => f a
  | .act h next => .act h (bind next f)
  | .pause hs next => .pause hs (bind next f)
  | .stall => .stall

/-- Entries written before an operation goes on. -/
def noting (entries : List Log.Entry) (c : Course α) : Course α :=
  entries.foldr (fun e c => .act (.note e) c) c

/-- Happenings before an operation goes on, with no pause in between. -/
def acting (hs : List Happening) (c : Course α) : Course α :=
  hs.foldr .act c

/-- Goes on with an operation until it ends or the scope is found cancelled at a pause. -/
def poll (own : Scope) : Course α → Scopes → Waited α
  | .done a, w => ⟨.finished a, w, []⟩
  | .act h next, w =>
    let r := poll own next (h.effect w)
    { r with entries := h.entries ++ r.entries }
  | .pause hs next, w =>
    let w := Happening.effects w hs
    if w.isCancelled own then ⟨.cancelled, w, Happening.allEntries hs⟩
    else
      let r := poll own next w
      { r with entries := Happening.allEntries hs ++ r.entries }
  | .stall, w => ⟨if w.isCancelled own then .cancelled else .stalled, w, []⟩

/-- Waits for an operation or for the cancellation of a scope.  An operation that is not begun
    when the scope is cancelled is never begun. -/
def race (own : Scope) (c : Course α) (w : Scopes) : Waited α :=
  if w.isCancelled own then ⟨.cancelled, w, []⟩ else poll own c w

end Course

end RunnerPool
