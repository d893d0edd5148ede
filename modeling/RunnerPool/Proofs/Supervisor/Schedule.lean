import RunnerPool.Proofs.Supervisor.Uninterrupted
import RunnerPool.Supervisor.Schedule

/-!
# Schedules are runs

A schedule decides when the scripted services go on and which task is taken in next; what happens
to the supervisor are possible steps of it and nothing else.  So what holds of all runs of the
supervisor holds of every schedule.

## Main statements

- `reaches_turn`: a turn of a schedule takes possible steps of the supervisor
- `reaches_run`: so does a schedule as a whole, and no call is left under way
-/

namespace RunnerPool.Supervisor.Schedule

open Supervisor.State (Reaches)

namespace State

variable {start : Supervisor.State} {st : State} {last : Step}

/-! ### The services -/

section

variable (st : State) (a : Actor)

@[simp] theorem supervisor_setActor : (st.setActor a).supervisor = st.supervisor := rfl

@[simp] theorem supervisor_resume : (st.resume a).supervisor = st.supervisor := rfl

@[simp] theorem supervisor_setTimer (ms : Nat) :
    (st.setTimer a ms).supervisor = st.supervisor := rfl

/-- To wake services is nothing that the supervisor notices. -/
@[simp] theorem supervisor_wake : st.wake.supervisor = st.supervisor := by
  rw [wake]
  generalize st.actors = actors
  induction actors generalizing st with
  | nil => rfl
  | cons a actors ih =>
    rw [List.foldl_cons, ih]
    split
    · split <;> rfl
    · split <;> rfl
    · rfl

theorem supervisor_foldl_resume (due : List Actor) :
    (due.foldl resume st).supervisor = st.supervisor := by
  induction due generalizing st with
  | nil => rfl
  | cons a due ih => rw [List.foldl_cons, ih, supervisor_resume]

end

/-! ### The supervisor -/

/-- Steps that are possible are taken one after the other. -/
theorem supervisor_foldl_take {steps : List Step} {sup : Supervisor.State}
    (h : st.supervisor.runs steps = some sup) : (steps.foldl take st).supervisor = sup := by
  induction steps generalizing st with
  | nil => exact Option.some.inj h
  | cons a steps ih =>
    rw [Supervisor.State.runs, Option.bind_eq_some_iff] at h
    obtain ⟨mid, hStep, hMore⟩ := h
    refine ih ?_
    rw [take, hStep]
    exact hMore

theorem reaches_take {a : Step} (h : Reaches start st.supervisor) (hNone : ∀ c, a ≠ .look c) :
    Reaches start (st.take a).supervisor :=
  h.step hNone

theorem reaches_call {c : Caller} (h : Reaches start st.supervisor) (hLast : Closes c last) :
    Reaches start (st.call c last).supervisor := by
  obtain ⟨-, -, hIdle⟩ := id h
  -- with something to say the whole call is made, and with nothing only its last step
  cases hWhy : st.supervisor.why? c with
  | some why =>
    obtain ⟨sup, hRuns, hIdle', -⟩ := Supervisor.State.exists_runs_call hIdle hLast hWhy
    have hCall : (st.call c last).supervisor = sup := by
      have hAll := supervisor_foldl_take hRuns
      rwa [List.foldl_append] at hAll
    rw [hCall]
    exact h.trans ⟨_, hRuns, hIdle'⟩
  | none =>
    rw [call, Supervisor.State.lookAndGive, hWhy]
    exact reaches_take h (by cases hLast <;> simp)

theorem reaches_cancel (h : Reaches start st.supervisor) (scope : Scope) (cause : Option String) :
    Reaches start (st.cancel scope cause).supervisor := by
  cases cause with
  | none => exact reaches_take h nofun
  | some why => exact reaches_call h (.cancel scope why)

/-! ### Turns -/

theorem reaches_finish (h : Reaches start st.supervisor) (a : Actor) (outcome : Outcome) :
    Reaches start (st.finish a outcome).supervisor := by
  obtain ⟨service, actions, result, waiting, observed⟩ := a
  -- only the listener's task has someone to tell before it ends
  cases service with
  | listener =>
    refine reaches_take ?_ nofun
    rw [supervisor_wake]
    exact reaches_call (reaches_take h nofun) .tell
  | telemetry => exact reaches_take (reaches_take h nofun) nofun

/-- A service that goes on takes the supervisor along; the induction is on what is left of its
    script. -/
theorem reaches_goOn (h : Reaches start st.supervisor) (a : Actor) (actions : List Action) :
    Reaches start (st.goOn a actions).supervisor := by
  induction actions generalizing st a with
  | nil => exact reaches_finish h a a.outcome
  | cons action actions ih =>
    have hWait {p : Prop} [Decidable p] {waiting : State}
        (hSame : waiting.supervisor = st.supervisor) :
        Reaches start (if p then st.goOn a actions else waiting).supervisor := by
      split
      · exact ih h a
      · rw [hSame]
        exact h
    -- an end or a wait stops here, and every other action goes on with the script
    cases action with
    | panic message => exact reaches_finish h a _
    | sleep ms =>
      rw [goOn]
      exact hWait rfl
    | wait =>
      rw [goOn]
      exact hWait rfl
    | sleepOrWait ms =>
      rw [goOn]
      exact hWait rfl
    | cancel cause =>
      refine ih ?_ a
      rw [supervisor_wake]
      exact reaches_cancel h _ cause
    | observe => exact ih h _

theorem reaches_advance (h : Reaches start st.supervisor) (now : Nat) :
    Reaches start (st.advance now).supervisor := by
  rw [advance]
  split
  -- the clock moves on, and if the alarm has come the signal's call is made
  · split
    · rw [supervisor_wake]
      refine reaches_cancel ?_ _ _
      rw [supervisor_foldl_resume]
      exact h
    · rw [supervisor_foldl_resume]
      exact h
  · rw [supervisor_foldl_resume]
    exact h

/-- A turn takes possible steps of the supervisor. -/
theorem reaches_turn {deadline : Nat} {st' : State} (h : Reaches start st.supervisor)
    (hTurn : st.turn deadline = some st') : Reaches start st'.supervisor := by
  rw [turn] at hTurn
  split at hTurn
  · -- a service goes on
    dsimp only at hTurn
    split at hTurn
    · cases hTurn
      refine reaches_goOn ?_ _ _
      exact h
    · cases hTurn
      exact h
  · -- no service can, so that a task is taken in or the clock moves on
    split at hTurn
    · cases hTurn
      rw [supervisor_wake]
      exact reaches_call (reaches_take h nofun) (.join _)
    · split at hTurn
      · cases hTurn
      · split at hTurn
        · split at hTurn
          · cases hTurn
            exact reaches_advance h _
          · cases hTurn
        · cases hTurn

theorem reaches_exhaust (h : Reaches start st.supervisor) (deadline fuel : Nat) :
    Reaches start (st.exhaust deadline fuel).supervisor := by
  induction fuel generalizing st with
  | zero => exact h
  | succ fuel ih =>
    rw [exhaust]
    cases hTurn : st.turn deadline with
    | some st' => exact ih (reaches_turn h hTurn)
    | none => exact h

end State

/-- Whatever the scripts are and whenever the root is cancelled, a schedule is a run of the
    supervisor: possible steps lead from its start to where the schedule ends, and no call is left
    under way. -/
theorem reaches_run (scopes : Scopes) (root : Scope) (listener : Script)
    (telemetry : Option Script) (alarm : Option (Nat × Option String)) (deadline : Nat) :
    Reaches (Supervisor.State.start scopes root listener.name (telemetry.map (·.name)) taskId)
      (run scopes root listener telemetry alarm deadline).supervisor := by
  -- each service begins without a call
  have hBegin (services : List Service) {start : Supervisor.State} {st : State}
      (h : Reaches start st.supervisor) :
      Reaches start (services.foldl (fun st s => st.take (.begin s)) st).supervisor := by
    induction services generalizing st with
    | nil => exact h
    | cons s services ih => exact ih (State.reaches_take h nofun)
  have hIdle : (Supervisor.State.start scopes root listener.name (telemetry.map (·.name))
      taskId).Idle := ⟨rfl, rfl⟩
  rw [run]
  refine State.reaches_exhaust (hBegin _ ?_) _ _
  exact .refl hIdle

end RunnerPool.Supervisor.Schedule
