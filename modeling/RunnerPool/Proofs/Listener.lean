import RunnerPool.Listener.Source
import RunnerPool.Proofs.Course

/-!
# The listener's loop, one read at a time

What the loop does on each thing that a source can give at once, while its scope is not
cancelled; and that it does nothing at all once the scope is.
-/

namespace RunnerPool

namespace Listener

@[simp] theorem ending_prepend (entries : List Log.Entry) (r : Report σ) :
    (r.prepend entries).ending = r.ending := rfl

@[simp] theorem handler_prepend (entries : List Log.Entry) (r : Report σ) :
    (r.prepend entries).handler = r.handler := rfl

@[simp] theorem scopes_prepend (entries : List Log.Entry) (r : Report σ) :
    (r.prepend entries).scopes = r.scopes := rfl

variable (own : Scope) (h : Handler σ) (reads : List Read) (s : σ) (w : Scopes)
  (m : Option Metrics)

/-- In a cancelled scope nothing is read and nothing happens. -/
theorem scopes_loop_of_cancelled (hw : w.isCancelled own = true) :
    (loop own h reads s w m).scopes = w := by
  cases reads with
  | nil =>
    rw [loop, if_pos hw]
  | cons r reads =>
    rw [loop, Course.race_of_cancelled own r w hw]

/-- A run that ends in a scope that is not cancelled began in one. -/
theorem isCancelled_of_loop
    (hQuiet : (loop own h reads s w m).scopes.isCancelled own = false) :
    w.isCancelled own = false := by
  cases hw : w.isCancelled own with
  | false => rfl
  | true =>
    rw [scopes_loop_of_cancelled own h reads s w m hw, hw] at hQuiet
    exact nomatch hQuiet

/-- The loop ends well at the end of the source. -/
theorem loop_closed (hw : w.isCancelled own = false) :
    loop own h (Read.closed :: reads) s w m = ⟨.ok, s, w, m, [closed]⟩ := by
  rw [loop, Read.closed, Course.race_done own _ w hw]
  rfl

/-- The loop fails where a read does. -/
theorem loop_fault (fault : LineFault) (hw : w.isCancelled own = false) :
    loop own h (Read.ofResult (.error fault) :: reads) s w m =
      ⟨.failed fault.chain, s, w, m, []⟩ := by
  rw [loop, Read.ofResult, Course.race_done own _ w hw]
  rfl

/-- The wait for the handler of an event. -/
def waited (e : Event) : Waited (Except HandlerError Recording) :=
  (Course.acting (h.meanwhile s e) (.act (.note (handling e)) (dispatch h s e).2)).poll own w

/-- What the loop does after it has waited for the handler of an event. -/
def resume (e : Event) (did : Waited (Except HandlerError Recording)) : Report σ :=
  match did.wait with
  | .cancelled =>
    ⟨.ok, (dispatch h s e).1, did.scopes, m, did.entries ++ [shuttingDown own did.scopes]⟩
  | .stalled => ⟨.stalled, (dispatch h s e).1, did.scopes, m, did.entries⟩
  | .finished (.error err) =>
    ⟨.failed (context e :: err.chain), (dispatch h s e).1, did.scopes, m, did.entries⟩
  | .finished (.ok recording) =>
    (loop own h reads (dispatch h s e).1 did.scopes (m.map recording.apply)).prepend did.entries

/-- The loop hands an event to its handler and waits. -/
theorem loop_event (e : Event) (hw : w.isCancelled own = false) :
    loop own h (Read.ofResult (.ok e) :: reads) s w m =
      resume own h reads s m e (waited own h s w e) := by
  have hRead : Read.ofResult (.ok e) = .done (.ok (some e)) := rfl
  rw [loop, hRead]
  simp only [Course.race_done own _ w hw, hw, List.nil_append, Bool.false_eq_true, ↓reduceIte]
  rfl

/-- The handler's wait leaves the scope alone if the run does. -/
theorem scopes_resume_of_cancelled (e : Event) (did : Waited (Except HandlerError Recording))
    (hDid : did.scopes.isCancelled own = true) :
    (resume own h reads s m e did).scopes = did.scopes := by
  rw [resume]
  split
  · rfl
  · rfl
  · rfl
  · exact scopes_loop_of_cancelled own h reads _ _ _ hDid

/-- In a run that nothing cancels, the wait for a handler ends with the handler's result. -/
theorem waited_of_result (e : Event) (r : Except HandlerError Recording)
    (hResult : (dispatch h s e).2.result? = some r)
    (hQuiet : (resume own h reads s m e (waited own h s w e)).scopes.isCancelled own = false) :
    (waited own h s w e).wait = .finished r ∧
      (waited own h s w e).scopes.isCancelled own = false := by
  -- had the scope been cancelled while waiting, the run could not have left it open
  have hScopes : (waited own h s w e).scopes.isCancelled own = false := by
    cases hDid : (waited own h s w e).scopes.isCancelled own with
    | false => rfl
    | true =>
      rw [scopes_resume_of_cancelled own h reads s m e _ hDid, hDid] at hQuiet
      exact nomatch hQuiet
  refine ⟨Course.poll_of_result own _ w r ?_ hScopes, hScopes⟩
  rw [Course.result?_acting]
  exact hResult

end Listener

end RunnerPool
