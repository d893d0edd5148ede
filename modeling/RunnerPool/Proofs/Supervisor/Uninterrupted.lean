import RunnerPool.Proofs.Supervisor.Run

/-!
# Calls that nobody interrupts

Where no other call is under way, the steps of a call that cancels a scope for a cause can follow
one another at once.  Together they do what `Scopes.cancelBecause` does: the scope gets the cause
if it was open, and is cancelled.

* `State.Idle`      no call is under way
* `State.Reaches`   steps lead from one state to another in which no call is under way
* `Closes`          the step with which a call is over

## Main statements

- `exists_runs_call`: the steps of such a call are possible, and cancel its scope for its cause
- `Reaches.call`: such a call leads on
-/

namespace RunnerPool.Supervisor

/-- The step with which a call is over. -/
inductive Closes : Caller → Step → Prop
  | tell : Closes .listener .tell
  | join (s : Service) : Closes (.supervisor s) (.join s)
  | cancel (scope : Scope) (why : String) : Closes (.other scope why) (.cancel scope (some why))

namespace State

/-- No call is under way. -/
structure Idle (st : State) : Prop where
  giving : st.giving = []
  cancelling : st.cancelling = []

/-- Steps lead from one state to another in which no call is under way. -/
def Reaches (st st' : State) : Prop :=
  ∃ steps, st.runs steps = some st' ∧ st'.Idle

variable {st : State} {c : Caller} {s : Service} {outcome : Outcome} {why : String}

/-! ### One call -/

/-- A scope that is open is given the cause, and the call is left with its last step. -/
theorem runs_lookAndGive (h : st.Idle) (hWhy : st.why? c = some why) :
    st.runs (st.lookAndGive c) = some { st with
      scopes := if st.scopes.isCancelled (st.target c) then st.scopes
        else st.scopes.giveCause (st.target c) why
      cancelling := [c] } := by
  -- the look is possible, since nobody else is calling
  have hLook : st.step (.look c) = some (st.look c) := by
    simp [step, hWhy, isCalling, h.giving, h.cancelling]
  -- an open scope is given its cause next, and one that is over is not
  cases hOver : st.scopes.isCancelled (st.target c) with
  | true => simp [lookAndGive, hWhy, hOver, runs, hLook, look, h.cancelling]
  | false =>
    have hGiving : (st.look c).giving = [c] := by simp [look, hOver, h.giving]
    have hGive : (st.look c).step (.give c) = some ((st.look c).give c why) := by
      rw [step, why?_look, hWhy]
      simp [hGiving]
    have hGiven : (st.look c).give c why = { st with
        scopes := st.scopes.giveCause (st.target c) why
        cancelling := [c] } := by
      have hTarget : (st.look c).target c = st.target c := by
        rw [look]
        split <;> cases c <;> rfl
      rw [give, hTarget, scopes_look, hGiving]
      simp [look, hOver, h.giving, h.cancelling]
    simp [lookAndGive, hWhy, hOver, runs, hLook, hGive, hGiven]

/-- The listener's task tells the telemetry server of the listener's end. -/
theorem runs_tell (h : st.Idle) (hReturned : st.listener = .returned outcome) :
    st.runs (st.lookAndGive .listener ++ [.tell]) = some { st with
      scopes := st.scopes.cancelBecause st.telemetryScope (farewell outcome)
      listener := .told outcome } := by
  have hWhy : st.why? .listener = some (farewell outcome) := by rw [why?, hReturned]
  rw [runs_append, runs_lookAndGive h hWhy]
  simp [runs, step, hReturned, State.cancel, target, h.cancelling]
  rfl

/-- Someone else cancels a scope for a cause. -/
theorem runs_cancel (h : st.Idle) (scope : Scope) (why : String) :
    st.runs (st.lookAndGive (.other scope why) ++ [.cancel scope (some why)]) =
      some { st with scopes := st.scopes.cancelBecause scope why } := by
  have hWhy : st.why? (.other scope why) = some why := rfl
  rw [runs_append, runs_lookAndGive h hWhy]
  simp [runs, step, State.cancel, target, h.cancelling]
  rfl

/-- The supervisor is done with a task that reports no failure, or none that is the first. -/
theorem runs_join_of_none (hTaken : st.taskOf s = .taken outcome)
    (hNone : st.firstFailure? s outcome = none) :
    st.runs (st.lookAndGive (.supervisor s) ++ [.join s]) =
      some (st.setTask s (.joined outcome)) := by
  have hWhy : st.why? (.supervisor s) = none := by
    rw [why?_supervisor hTaken, hNone]
    rfl
  simp [lookAndGive, hWhy, runs, step, hTaken, join, hNone]

/-- The supervisor is done with the task that reports the first failure. -/
theorem runs_join_of_some {name : String} {failure : Failure} (h : st.Idle)
    (hTaken : st.taskOf s = .taken outcome)
    (hFirst : st.firstFailure? s outcome = some (name, failure)) :
    st.runs (st.lookAndGive (.supervisor s) ++ [.join s]) =
      some { st.setTask s (.joined outcome) with
        scopes := st.scopes.cancelBecause st.group (name ++ " failed: " ++ chainText failure)
        firstError := some failure } := by
  have hWhy : st.why? (.supervisor s) = some (name ++ " failed: " ++ chainText failure) := by
    rw [why?_supervisor hTaken, hFirst]
    rfl
  rw [runs_append, runs_lookAndGive h hWhy, Option.bind_some, runs]
  -- the task and its failure are what they were when the call began
  generalize hMid : { st with scopes := _, cancelling := _ } = mid
  have hTask : mid.taskOf s = .taken outcome := by
    rw [← hMid, ← hTaken]
    cases s <;> rfl
  have hSame : mid.firstFailure? s outcome = some (name, failure) := by
    rw [← hMid, ← hFirst]
    cases s <;> cases outcome <;> rfl
  have hReady : .supervisor s ∈ mid.cancelling := by
    rw [← hMid]
    exact List.mem_singleton_self _
  have hJoin : mid.step (.join s) = some (mid.join s outcome) := by
    simp [step, hTask, hReady]
  rw [hJoin, join, hSame, ← hMid]
  cases s <;> simp [runs, State.cancel, setTask, target, h.cancelling] <;> rfl

theorem Idle.setTask (h : st.Idle) (s : Service) (x : Task) : (st.setTask s x).Idle := by
  cases s <;> exact ⟨h.giving, h.cancelling⟩

/-- The supervisor, done with a task, has joined it, and keeps its failure if it is the first. -/
theorem exists_runs_join (h : st.Idle) (hTaken : st.taskOf s = .taken outcome) :
    ∃ st', st.runs (st.lookAndGive (.supervisor s) ++ [.join s]) = some st' ∧ st'.Idle ∧
      (∀ t, st'.taskOf t = if t = s then .joined outcome else st.taskOf t) ∧
      st'.firstError = st.firstError.or ((st.failure? s outcome).map Prod.snd) := by
  have hIdle := h.setTask s (.joined outcome)
  -- a failure after the first cancels nothing, and the first one cancels the group
  cases hFirst : st.firstFailure? s outcome with
  | none =>
    refine ⟨_, runs_join_of_none hTaken hFirst, hIdle, fun t => taskOf_setTask .., ?_⟩
    rw [firstError_setTask]
    rw [firstFailure?] at hFirst
    split at hFirst
    · rename_i hKept
      rw [hKept, Option.some_or]
    · rename_i hNone
      rw [hNone, hFirst]
      rfl
  | some found =>
    obtain ⟨name, failure⟩ := found
    refine ⟨_, runs_join_of_some h hTaken hFirst, ⟨hIdle.giving, hIdle.cancelling⟩,
      fun t => ?_, ?_⟩
    · rw [← taskOf_setTask]
      cases t <;> rfl
    · rw [firstFailure?] at hFirst
      split at hFirst
      · cases hFirst
      · rename_i hNone
        rw [hNone, hFirst]
        rfl

/-- A call that nobody interrupts is made to its end, and cancels its scope for its cause. -/
theorem exists_runs_call {last : Step} (h : st.Idle) (hLast : Closes c last)
    (hWhy : st.why? c = some why) :
    ∃ st', st.runs (st.lookAndGive c ++ [last]) = some st' ∧ st'.Idle ∧
      st'.scopes = st.scopes.cancelBecause (st.target c) why := by
  -- each caller has something to say in one state of its task only
  cases hLast with
  | tell =>
    rw [why?] at hWhy
    split at hWhy
    · rename_i hReturned
      cases hWhy
      exact ⟨_, runs_tell h hReturned, ⟨h.giving, h.cancelling⟩, rfl⟩
    · cases hWhy
  | join s =>
    rw [why?] at hWhy
    split at hWhy
    · rename_i outcome hTaken
      obtain ⟨⟨name, failure⟩, hFirst, rfl⟩ := Option.map_eq_some_iff.mp hWhy
      have hIdle := h.setTask s (.joined outcome)
      exact ⟨_, runs_join_of_some h hTaken hFirst, ⟨hIdle.giving, hIdle.cancelling⟩, rfl⟩
    · cases hWhy
  | cancel scope cause =>
    cases hWhy
    exact ⟨_, runs_cancel h scope why, ⟨h.giving, h.cancelling⟩, rfl⟩

/-! ### One thing after the other -/

variable {start st' : State} {a : Step}

/-- Without a look no call gets under way. -/
theorem Idle.move (h : st.Idle) (hMove : Move st a st') (hNone : ∀ c, a ≠ .look c) : st'.Idle := by
  -- no call is under way, so the steps that need one are impossible
  cases hMove with
  | look => exact (hNone _ rfl).elim
  | give _ hGiving => exact absurd (h.giving ▸ hGiving) List.not_mem_nil
  | tell _ hReady => exact absurd (h.cancelling ▸ hReady) List.not_mem_nil
  | cancelFor hReady => exact absurd (h.cancelling ▸ hReady) List.not_mem_nil
  | join hTaken hReady =>
    rw [join]
    split
    · exact h.setTask ..
    · rename_i hFirst
      have hIn := hReady (by rw [hFirst]; exact Option.some_ne_none _)
      exact absurd (h.cancelling ▸ hIn) List.not_mem_nil
  | begin | take =>
    rw [note]
    exact ⟨(h.setTask ..).giving, (h.setTask ..).cancelling⟩
  | panic | finish => exact h.setTask ..
  | write | leaveListener | leaveTelemetry | cancel => exact ⟨h.giving, h.cancelling⟩

theorem Reaches.refl (h : st.Idle) : Reaches st st := ⟨[], rfl, h⟩

theorem Reaches.trans (h : Reaches start st) (hMore : Reaches st st') : Reaches start st' := by
  obtain ⟨steps, hSteps, -⟩ := h
  obtain ⟨more, hRuns, hIdle⟩ := hMore
  refine ⟨steps ++ more, ?_, hIdle⟩
  rw [runs_append, hSteps]
  exact hRuns

/-- A step leads on if it is possible, and without it all stays as it was. -/
theorem Reaches.step (h : Reaches start st) (hNone : ∀ c, a ≠ .look c) :
    Reaches start ((st.step a).getD st) := by
  cases hStep : st.step a with
  | none => exact h
  | some st' =>
    obtain ⟨-, -, hIdle⟩ := id h
    refine h.trans ⟨[a], ?_, hIdle.move (move_of_step hStep) hNone⟩
    rw [runs, hStep]
    rfl

/-- A call leads on if there is one to make, and otherwise its last step if that is possible. -/
theorem Reaches.call {last : Step} (h : Reaches start st) (hLast : Closes c last) :
    Reaches start ((st.runs (st.lookAndGive c ++ [last])).getD st) := by
  obtain ⟨-, -, hIdle⟩ := id h
  cases hWhy : st.why? c with
  | some why =>
    obtain ⟨st', hRuns, hIdle', -⟩ := exists_runs_call hIdle hLast hWhy
    rw [hRuns]
    exact h.trans ⟨_, hRuns, hIdle'⟩
  | none =>
    have hOne : st.runs (st.lookAndGive c ++ [last]) = st.step last := by
      simp [lookAndGive, hWhy, runs]
    rw [hOne]
    exact h.step (by cases hLast <;> simp)

end State

end RunnerPool.Supervisor
