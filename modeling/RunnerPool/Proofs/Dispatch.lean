import RunnerPool.Proofs.Listener

/-!
# What a run hands to its handler

The events of a run, as its handler sees them.  A run leaves the handler in the state that these
events lead to, whatever ends it, and each event but the last was handled without a failure.

* `Handler.after`         the state that some events lead to
* `Handler.recording`     the handler that also keeps the events
* `Listener.dispatched`   the events that a run hands to its handler

## Main statements

- `handler_run`: a run leaves the state that its events lead to
- `acknowledges_dispatched`: each event but the last was handled without a failure
-/

namespace RunnerPool

open Listener (dispatch)

namespace Handler

/-- The state that events lead to, one after the other. -/
def after (h : Handler σ) (s : σ) (es : List Event) : σ :=
  es.foldl (fun s e => (dispatch h s e).1) s

@[simp] theorem after_nil (h : Handler σ) (s : σ) : h.after s [] = s := rfl

@[simp] theorem after_cons (h : Handler σ) (s : σ) (e : Event) (es : List Event) :
    h.after s (e :: es) = h.after (dispatch h s e).1 es := rfl

theorem after_append (h : Handler σ) (s : σ) (es more : List Event) :
    h.after s (es ++ more) = h.after (h.after s es) more :=
  List.foldl_append

/-- The handler that also keeps the events that it is handed. -/
def recording (h : Handler σ) : Handler (σ × List Event) where
  jobStarted s job :=
    let (s', c) := h.jobStarted s.1 job
    ((s', s.2 ++ [.jobStarted job]), c)
  jobCompleted s job :=
    let (s', c) := h.jobCompleted s.1 job
    ((s', s.2 ++ [.jobCompleted job]), c)
  desiredCount s count :=
    let (s', c) := h.desiredCount s.1 count
    ((s', s.2 ++ [.desiredCount count]), c)
  meanwhile s e := h.meanwhile s.1 e

theorem dispatch_recording (h : Handler σ) (s : σ) (es : List Event) (e : Event) :
    dispatch h.recording (s, es) e = (((dispatch h s e).1, es ++ [e]), (dispatch h s e).2) := by
  cases e <;> rfl

theorem meanwhile_recording (h : Handler σ) (s : σ) (es : List Event) (e : Event) :
    h.recording.meanwhile (s, es) e = h.meanwhile s e := rfl

/-- Each of the events but the last is handled without a failure. -/
def Acknowledges (h : Handler σ) (s : σ) (es : List Event) : Prop :=
  ∀ before e after, es = before ++ e :: after → after ≠ [] →
    ∃ recording, (dispatch h (h.after s before) e).2.result? = some (.ok recording)

theorem acknowledges_nil (h : Handler σ) (s : σ) : h.Acknowledges s [] := by
  intro before e after hNil
  simp at hNil

theorem acknowledges_singleton (h : Handler σ) (s : σ) (e : Event) : h.Acknowledges s [e] := by
  intro before d after hOne hMore
  cases before with
  | nil => exact (hMore (List.cons.inj hOne).2.symm).elim
  | cons c before => simp at hOne

theorem Acknowledges.cons {h : Handler σ} {s : σ} {e : Event} {es : List Event}
    {r : Listener.Recording} (hFirst : (dispatch h s e).2.result? = some (.ok r))
    (hMore : h.Acknowledges (dispatch h s e).1 es) : h.Acknowledges s (e :: es) := by
  intro before d after hSplit hLast
  cases before with
  | nil =>
    cases hSplit
    exact ⟨r, hFirst⟩
  | cons c before =>
    cases hSplit
    exact hMore before d after rfl hLast

end Handler

namespace Listener

/-- A report with a function applied to the handler's state. -/
def Report.map (f : σ → τ) (r : Report σ) : Report τ where
  ending := r.ending
  handler := f r.handler
  scopes := r.scopes
  metrics := r.metrics
  entries := r.entries

/-- A report `kept` is the report `plain` with the events that were handled since `es` beside the
    state: they lead to that state, and each but the last was handled without a failure. -/
def Keeps (h : Handler σ) (s : σ) (es : List Event) (kept : Report (σ × List Event))
    (plain : Report σ) : Prop :=
  ∃ new, kept = plain.map (·, es ++ new) ∧ plain.handler = h.after s new ∧ h.Acknowledges s new

section

variable {h : Handler σ} {s : σ} {es : List Event} {kept : Report (σ × List Event)}
  {plain : Report σ}

theorem keeps_nothing (hKept : kept = plain.map (·, es)) (hState : plain.handler = s) :
    Keeps h s es kept plain :=
  ⟨[], by rw [List.append_nil, hKept], hState, h.acknowledges_nil s⟩

theorem keeps_last {e : Event} (hKept : kept = plain.map (·, es ++ [e]))
    (hState : plain.handler = (dispatch h s e).1) : Keeps h s es kept plain :=
  ⟨[e], hKept, hState, h.acknowledges_singleton s e⟩

theorem Keeps.cons {e : Event} {r : Recording}
    (hMore : Keeps h (dispatch h s e).1 (es ++ [e]) kept plain)
    (hFirst : (dispatch h s e).2.result? = some (.ok r)) (entries : List Log.Entry) :
    Keeps h s es (kept.prepend entries) (plain.prepend entries) := by
  obtain ⟨new, rfl, hState, hAcknowledged⟩ := hMore
  refine ⟨e :: new, ?_, hState, .cons hFirst hAcknowledged⟩
  rw [List.append_assoc]
  rfl

end

variable (own : Scope) (h : Handler σ)

/-- Keeping the events makes no difference to what is left of a run, by induction on its reads. -/
theorem keeps_loop (reads : List Read) (s : σ) (es : List Event) (w : Scopes)
    (m : Option Metrics) :
    Keeps h s es (loop own h.recording reads (s, es) w m) (loop own h reads s w m) := by
  induction reads generalizing s es w m with
  | nil =>
    simp only [loop]
    split <;> exact keeps_nothing rfl rfl
  | cons r reads ih =>
    simp only [loop, Handler.dispatch_recording, Handler.meanwhile_recording]
    obtain ⟨wait, scopes, entries⟩ := r.race own w
    cases wait with
    | cancelled => exact keeps_nothing rfl rfl
    | stalled => exact keeps_nothing rfl rfl
    | finished read =>
      cases read with
      | error failure => exact keeps_nothing rfl rfl
      | ok event? =>
        cases event? with
        | none => exact keeps_nothing rfl rfl
        | some e =>
          simp only
          split
          · exact keeps_nothing rfl rfl
          · -- the event is handed to the handler, and the run goes on if that ends well
            rcases hDid : (Course.acting (h.meanwhile s e)
              (.act (.note (handling e)) (dispatch h s e).2)).poll own scopes
              with ⟨wait, scopes', entries'⟩
            cases wait with
            | cancelled => exact keeps_last rfl rfl
            | stalled => exact keeps_last rfl rfl
            | finished result =>
              cases result with
              | error err => exact keeps_last rfl rfl
              | ok recording =>
                have hResult := Course.result?_of_poll own _ scopes _ (congrArg Waited.wait hDid)
                rw [Course.result?_acting] at hResult
                exact (ih _ (es ++ [e]) scopes' _).cons hResult _

/-- The events that a run hands to its handler, in order. -/
def dispatched (reads : List Read) (s : σ) (w : Scopes) (m : Option Metrics) : List Event :=
  (run own h.recording reads (s, []) w m).handler.2

section

variable (reads : List Read) (s : σ) (w : Scopes) (m : Option Metrics)

theorem keeps_run :
    Keeps h s [] (run own h.recording reads (s, []) w m) (run own h reads s w m) := by
  obtain ⟨new, hKept, hState, hAcknowledged⟩ := keeps_loop own h reads s [] w m
  exact ⟨new, by rw [run, hKept]; rfl, hState, hAcknowledged⟩

/-- A run leaves its handler in the state that its events lead to. -/
theorem handler_run :
    (run own h reads s w m).handler = h.after s (dispatched own h reads s w m) := by
  obtain ⟨new, hKept, hState, -⟩ := keeps_run own h reads s w m
  rw [dispatched, hKept, hState]
  rfl

/-- A run goes on to its next event only if the last was handled without a failure. -/
theorem acknowledges_dispatched : h.Acknowledges s (dispatched own h reads s w m) := by
  obtain ⟨new, hKept, -, hAcknowledged⟩ := keeps_run own h reads s w m
  rw [dispatched, hKept]
  exact hAcknowledged

end

end Listener

end RunnerPool
