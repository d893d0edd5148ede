import RunnerPool.Course
import RunnerPool.Event.Basic
import RunnerPool.Metrics
import RunnerPool.Scaler

/-! # The listener

Hands the events of a session to a handler, one after the other: the next event is read only
when the handler is done with the last one.  It ends with the stream, with the first failure, or
when its scope is cancelled.

* `Handler`            what is done for each kind of event
* `Listener.run`       a whole run
* `Report`             how a run ended and what it left behind -/

namespace RunnerPool

/-- An error as the wordings from the outermost on. -/
abbrev Failure := List String

/-- What one read of a source gives: an event, or nothing at the end. -/
abbrev Read := Course (Except Failure (Option Event))

/-- What is done for each kind of event.  A handler gives its next state at once; how long it
    takes and how it ends is in its course. -/
structure Handler (σ : Type) where
  jobStarted : σ → JobStarted → σ × Course (Except HandlerError Unit)
  jobCompleted : σ → JobCompleted → σ × Course (Except HandlerError Unit)
  desiredCount : σ → UInt32 → σ × Course (Except HandlerError Int32)
  /-- What others do after the listener has looked at its scope and before it calls the handler. -/
  meanwhile : σ → Event → List Happening := fun _ _ => []

namespace Listener

/-- How a run ends. -/
inductive Ending
  | ok
  | failed (failure : Failure)
  /-- It does not: it waits for something that never comes. -/
  | stalled
deriving Repr, DecidableEq

/-- What a run leaves behind. -/
structure Report (σ : Type) where
  ending : Ending
  handler : σ
  scopes : Scopes
  metrics : Option Metrics
  entries : List Log.Entry

/-- An entry of the listener. -/
private def entry (message : String) (fields : List (String × Log.Datum)) : Log.Entry :=
  ⟨.info, .listener, message, fields⟩

/-- The entry before the first event. -/
def listening : Log.Entry := entry "Listening for session events" []

/-- The entry at the end of the stream. -/
def closed : Log.Entry := entry "Event stream closed" []

/-- The entry when the scope is cancelled. -/
def shuttingDown (own : Scope) (w : Scopes) : Log.Entry :=
  entry "Listener shutting down" [("cause", .plain ((w.cause own).getD "canceled"))]

/-- The entry before an event is handled. -/
def handling (e : Event) : Log.Entry where
  level := .debug
  source := .listener
  message := "Handling event"
  fields := [("event_type", .quoted e.tag.name)]

/-- What was being done when a handler failed. -/
def context : Event → String
  | .jobStarted job => "handling job started on runner " ++ job.runner
  | .jobCompleted job => "handling job completed on runner " ++ job.runner
  | .desiredCount _ => "handling desired runner count"

/-- What a handled event adds to the metrics. -/
inductive Recording
  | started
  | completed
  | desired (count : UInt32) (target : Int32)
deriving Repr, DecidableEq

/-- The metrics with a recording added. -/
def Recording.apply (m : Metrics) : Recording → Metrics
  | .started => m.recordStarted
  | .completed => m.recordCompleted
  | .desired count target => m.recordDesired count target

/-- The handler's work on an event: its next state, and the course to what is to be recorded. -/
def dispatch (h : Handler σ) (s : σ) (e : Event) : σ × Course (Except HandlerError Recording) :=
  match e with
  | .jobStarted job =>
    let (s, c) := h.jobStarted s job
    (s, c.map fun r => r.map fun _ => .started)
  | .jobCompleted job =>
    let (s, c) := h.jobCompleted s job
    (s, c.map fun r => r.map fun _ => .completed)
  | .desiredCount count =>
    let (s, c) := h.desiredCount s count
    (s, c.map fun r => r.map (.desired count))

/-- A report that begins with more entries. -/
def Report.prepend (entries : List Log.Entry) (r : Report σ) : Report σ :=
  { r with entries := entries ++ r.entries }

/-- Reads and handles events until the run ends. -/
def loop (own : Scope) (h : Handler σ) : List Read → σ → Scopes → Option Metrics → Report σ
  -- nothing is left to read; a scope that is cancelled is looked at before the source is
  | [], s, w, m =>
    if w.isCancelled own then ⟨.ok, s, w, m, [shuttingDown own w]⟩ else ⟨.ok, s, w, m, [closed]⟩
  | r :: reads, s, w, m =>
    let got := r.race own w
    match got.wait with
    | .cancelled => ⟨.ok, s, got.scopes, m, got.entries ++ [shuttingDown own got.scopes]⟩
    | .stalled => ⟨.stalled, s, got.scopes, m, got.entries⟩
    | .finished (.error failure) => ⟨.failed failure, s, got.scopes, m, got.entries⟩
    | .finished (.ok none) => ⟨.ok, s, got.scopes, m, got.entries ++ [closed]⟩
    | .finished (.ok (some e)) =>
      -- the scope is looked at once more before the handler is called
      if got.scopes.isCancelled own then
        ⟨.ok, s, got.scopes, m, got.entries ++ [shuttingDown own got.scopes]⟩
      else
        -- what others do before the handler's first wait happens after that look
        let others := h.meanwhile s e
        let (s, course) := dispatch h s e
        let did :=
          (Course.acting others (.act (.note (handling e)) course)).poll own got.scopes
        let entries := got.entries ++ did.entries
        match did.wait with
        | .cancelled => ⟨.ok, s, did.scopes, m, entries ++ [shuttingDown own did.scopes]⟩
        | .stalled => ⟨.stalled, s, did.scopes, m, entries⟩
        | .finished (.error e') => ⟨.failed (context e :: e'.chain), s, did.scopes, m, entries⟩
        | .finished (.ok recording) =>
          (loop own h reads s did.scopes (m.map recording.apply)).prepend entries

/-- A run over a source given by what each read of it gives, under a scope. -/
def run (own : Scope) (h : Handler σ) (reads : List Read) (s : σ) (w : Scopes)
    (m : Option Metrics) : Report σ :=
  (loop own h reads s w m).prepend [listening]

end Listener

end RunnerPool
