import RunnerPool.Daemon.Console
import RunnerPool.Proofs.Supervisor.Calls
import RunnerPool.Proofs.Supervisor.Uninterrupted

/-!
# The services of a process

What happens to the two services of a process, from their beginning to their end, are possible steps
of the supervisor.  A process ends if its listener does, and then with the failure of a telemetry
server that did not get its address, or else as the listener ended.

* `Daemon.Stands`    where the tasks stand after possible steps
* `Daemon.unbound?`  the failure of a telemetry server that does not get its address

## Main statements

- `reaches_run`: the services of a process are a run of the supervisor
- `result?_run`: how the services end
- `exitCode_settled`: the exit code of a process
-/

namespace RunnerPool

theorem Scopes.isCancelled_cancelBecause (w : Scopes) (s : Scope) (why : String) :
    (w.cancelBecause s why).isCancelled s = true := by
  simp [cancelBecause, cancel, isCancelled, Scope.lineage]

namespace Daemon

open Supervisor (Service Step Task)
open Supervisor.State (Idle Reaches)

variable {st₀ st st' : Supervisor.State} {steps : List Step} {outcome : Supervisor.Outcome}
  {s : Service} {x : Task} {failed : Option Failure}

/-! ### One task after the other -/

theorem after_of_runs (h : st.runs steps = some st') : after st steps = st' := by
  rw [after, h]
  rfl

/-- A task that ended is taken in and joined, and its failure is kept if it is the first. -/
theorem reaches_afterJoin (hIdle : st.Idle) (hEnded : st.taskOf s = .ended outcome)
    (hFree : ∀ t, (st.taskOf t).isTaken = false) :
    Reaches st (afterJoin st s) ∧
      (∀ t, (afterJoin st s).taskOf t = if t = s then .joined outcome else st.taskOf t) ∧
      (afterJoin st s).firstError = st.firstError.or ((st.failure? s outcome).map Prod.snd) := by
  -- what the task came to is taken in first, then the loop's own calls are made without a pause
  generalize hMid : (st.setTask s (.taken outcome)).note (st.endEntry s outcome) = mid
  have hTake : st.runs [.take s] = some mid := by
    have hListener : st.listener.isTaken = false := hFree .listener
    have hTelemetry : st.telemetry.isTaken = false := hFree .telemetry
    simp [Supervisor.State.runs, Supervisor.State.step, hEnded, hListener, hTelemetry, hMid]
  have hTaken : mid.taskOf s = .taken outcome := by simp [← hMid]
  have hMidIdle : mid.Idle := by
    rw [← hMid]
    have hSet := hIdle.setTask s (.taken outcome)
    exact ⟨hSet.giving, hSet.cancelling⟩
  -- taking it in changes no name and no id, so what the join reports is fixed by now
  have hFailure : mid.failure? s outcome = st.failure? s outcome := by
    rw [← hMid]
    cases s <;> cases outcome <;> rfl
  obtain ⟨st', hJoin, hIdle', hTasks, hError⟩ :=
    Supervisor.State.exists_runs_join hMidIdle hTaken
  rw [afterJoin, after_of_runs hTake, afterCall, after_of_runs hJoin]
  refine ⟨Reaches.trans ⟨_, hTake, hMidIdle⟩ ⟨_, hJoin, hIdle'⟩, fun t => ?_, ?_⟩
  · rw [hTasks, ← hMid]
    split
    · rfl
    · rename_i hOther
      simp [hOther]
  · rw [hError, hFailure, ← hMid]
    exact congrArg (Option.or · _) (Supervisor.State.firstError_setTask ..)

/-! ### Where the tasks stand -/

/-- After possible steps, and with no call under way, the tasks stand there and this failure was
    joined first. -/
structure Stands (st₀ st : Supervisor.State) (listener telemetry : Task)
    (failed : Option Failure) : Prop where
  reached : Reaches st₀ st
  listener : st.listener = listener
  telemetry : st.telemetry = telemetry
  firstError : st.firstError = failed

section

variable {listener telemetry : Task}

theorem Stands.idle (h : Stands st₀ st listener telemetry failed) : st.Idle := by
  obtain ⟨-, -, hIdle⟩ := h.reached
  exact hIdle

/-- The task of the listener is joined. -/
theorem Stands.joinListener (h : Stands st₀ st (.ended outcome) telemetry failed)
    (hFree : telemetry.isTaken = false) :
    Stands st₀ (afterJoin st .listener) (.joined outcome) telemetry
      (failed.or ((st.failure? .listener outcome).map Prod.snd)) := by
  obtain ⟨hReaches, hTasks, hError⟩ := reaches_afterJoin (s := .listener) h.idle h.listener (by
    rintro (_ | _)
    · exact congrArg Task.isTaken h.listener
    · exact (congrArg Task.isTaken h.telemetry).trans hFree)
  exact ⟨h.reached.trans hReaches, hTasks .listener, (hTasks .telemetry).trans h.telemetry,
    by rw [hError, h.firstError]⟩

/-- The task of the telemetry server is joined. -/
theorem Stands.joinTelemetry (h : Stands st₀ st listener (.ended outcome) failed)
    (hFree : listener.isTaken = false) :
    Stands st₀ (afterJoin st .telemetry) listener (.joined outcome)
      (failed.or ((st.failure? .telemetry outcome).map Prod.snd)) := by
  obtain ⟨hReaches, hTasks, hError⟩ := reaches_afterJoin (s := .telemetry) h.idle h.telemetry (by
    rintro (_ | _)
    · exact (congrArg Task.isTaken h.listener).trans hFree
    · exact congrArg Task.isTaken h.telemetry)
  exact ⟨h.reached.trans hReaches, (hTasks .listener).trans h.listener, hTasks .telemetry,
    by rw [hError, h.firstError]⟩

end

/-! ### The beginning -/

/-- The failure of a telemetry server that does not get its address. -/
def unbound? (address : Option SocketAddress) (e : Surroundings) : Option Failure :=
  address.bind fun a => (e.refusal a).map (Telemetry.bindFailure a)

/-- Once the listener is about to read, telemetry is served, or there is nothing left of it. -/
theorem exists_stands_opened (settings : Settings) (address : Option SocketAddress)
    (e : Surroundings) :
    ∃ x : Task, (x = .running ∨ x.isOver = true) ∧
      Stands (start address.isSome) (opened settings address e) .running x
        (unbound? address e) := by
  -- three cases: telemetry off, its address bound, its address refused
  simp only [opened, unbound?]
  cases address with
  | none => exact ⟨.absent, Or.inr rfl, ⟨[.begin .listener], rfl, rfl, rfl⟩, rfl, rfl, rfl⟩
  | some a =>
    cases hRefusal : e.refusal a with
    | none =>
      simp only [Option.bind_some, hRefusal]
      let steps : List Step := [.begin .listener, .begin .telemetry,
        .write [Telemetry.listening a settings.metricsEndpoint]]
      exact ⟨.running, Or.inl rfl, ⟨steps, rfl, rfl, rfl⟩, rfl, rfl, rfl⟩
    | some why =>
      simp only [Option.bind_some, hRefusal]
      let failure := Telemetry.bindFailure a why
      let steps : List Step := [.begin .listener, .begin .telemetry,
        .finish .telemetry (.failed failure), .leave .telemetry]
      have hEnded : Stands (start true) (after (start true) steps) .running
          (.ended (.failed failure)) none :=
        ⟨⟨steps, rfl, rfl, rfl⟩, rfl, rfl, rfl⟩
      -- the refused listener's task has ended before the supervisor looks, and is joined at once
      exact ⟨_, Or.inr rfl, hEnded.joinTelemetry rfl⟩

/-! ### The end -/

section

variable {telemetry : Task}

theorem failure?_ok (s : Service) : st.failure? s .ok = none := rfl

theorem failure?_failed (s : Service) (failure : Failure) :
    (st.failure? s (.failed failure)).map Prod.snd = some failure := rfl

/-- The scope that the listener's task cancels stays cancelled. -/
theorem isCancelled_of_reaches (h : Reaches st st')
    (hOver : st.scopes.isCancelled st.telemetryScope = true) :
    st'.scopes.isCancelled st'.telemetryScope = true := by
  obtain ⟨steps, hRuns, -⟩ := h
  rw [(Supervisor.State.sameParties_of_runs hRuns).telemetryScope]
  exact Scopes.isCancelled_mono (Supervisor.State.cancelled_subset_of_runs hRuns) hOver

/-- The listener returns, and its task cancels the telemetry scope before it ends. -/
theorem exists_closeListener_eq (hIdle : st.Idle) (hRunning : st.listener = .running)
    (hReturned : ∀ message, outcome ≠ .panicked message) :
    ∃ left, closeListener st outcome = afterJoin left .listener ∧ Reaches st left ∧
      left = { st with
        scopes := st.scopes.cancelBecause st.telemetryScope (Supervisor.State.farewell outcome)
        listener := .ended outcome } := by
  -- the task returns, tells the telemetry scope, and only then leaves
  have hFinish : st.runs [.finish .listener outcome] =
      some (st.setTask .listener (.returned outcome)) := by
    have hTask : st.taskOf .listener = .running := hRunning
    cases outcome with
    | panicked message => exact (hReturned message rfl).elim
    | ok => simp [Supervisor.State.runs, Supervisor.State.step, hTask]
    | failed failure => simp [Supervisor.State.runs, Supervisor.State.step, hTask]
  have hSet := hIdle.setTask .listener (.returned outcome)
  have hSetListener : (st.setTask .listener (.returned outcome)).listener = .returned outcome := rfl
  have hTell := Supervisor.State.runs_tell hSet hSetListener
  have hLeave : Supervisor.State.runs { st with
      scopes := st.scopes.cancelBecause st.telemetryScope (Supervisor.State.farewell outcome)
      listener := .told outcome } [.leave .listener] = some { st with
        scopes := st.scopes.cancelBecause st.telemetryScope (Supervisor.State.farewell outcome)
        listener := .ended outcome } := rfl
  -- the witness is the state after those three steps, which `closeListener` starts from
  refine ⟨_, ?_, ?_, rfl⟩
  · rw [closeListener, after_of_runs hFinish, afterCall, after_of_runs hTell]
    exact congrArg (afterJoin · .listener) (after_of_runs hLeave)
  · exact Reaches.trans ⟨_, hFinish, hSet⟩ (Reaches.trans ⟨_, hTell, hSet.giving, hSet.cancelling⟩
      ⟨_, hLeave, hIdle.giving, hIdle.cancelling⟩)

/-- The listener that returned tells the telemetry server, and its task is joined. -/
theorem Stands.closeListener (h : Stands st₀ st .running telemetry failed)
    (hReturned : ∀ message, outcome ≠ .panicked message) (hFree : telemetry.isTaken = false) :
    Stands st₀ (closeListener st outcome) (.joined outcome) telemetry
        (failed.or ((st.failure? .listener outcome).map Prod.snd)) ∧
      (closeListener st outcome).scopes.isCancelled (closeListener st outcome).telemetryScope =
        true := by
  obtain ⟨left, hEq, hReached, hLeft⟩ := exists_closeListener_eq h.idle h.listener hReturned
  -- `id` keeps `hReached`, which is needed whole below
  obtain ⟨steps, hRuns, hIdle⟩ := id hReached
  have hFailure : left.failure? .listener outcome = st.failure? .listener outcome :=
    (Supervisor.State.sameParties_of_runs hRuns).failure?
  -- the farewell has cancelled the telemetry scope, whatever it was before
  have hOver : left.scopes.isCancelled left.telemetryScope = true := by
    rw [hLeft]
    exact Scopes.isCancelled_cancelBecause ..
  have hStands (st₁ : Supervisor.State) (hFrom : Reaches st₁ left) :
      Stands st₁ left (.ended outcome) telemetry failed := by
    refine ⟨hFrom, ?_, ?_, ?_⟩ <;> rw [hLeft]
    · exact h.telemetry
    · exact h.firstError
  -- the state stands against `st₀` for the run, and against `left` for the cancellation
  rw [hEq, ← hFailure]
  exact ⟨(hStands st₀ (h.reached.trans hReached)).joinListener hFree,
    isCancelled_of_reaches ((hStands left (.refl hIdle)).joinListener hFree).reached hOver⟩

/-- The telemetry server shuts down, and its task is joined. -/
theorem Stands.closeTelemetry {listener : Task} (h : Stands st₀ st listener .running failed)
    (hFree : listener.isTaken = false) :
    Stands st₀ (closeTelemetry st) listener (.joined .ok) failed := by
  rw [Daemon.closeTelemetry]
  generalize Telemetry.shuttingDown _ = last
  -- the endpoint writes its last line, returns and leaves
  have hRuns : st.runs [.write [last], .finish .telemetry .ok, .leave .telemetry] = some { st with
      telemetry := .ended .ok
      entries := st.entries ++ [last] } := by
    simp [Supervisor.State.runs, Supervisor.State.step, Supervisor.State.taskOf,
      Supervisor.State.setTask, h.telemetry]
  have hReached := h.reached.trans ⟨_, hRuns, h.idle.giving, h.idle.cancelling⟩
  have hEnded : Stands st₀ _ listener (.ended .ok) failed :=
    ⟨hReached, h.listener, rfl, h.firstError⟩
  have hJoined := hEnded.joinTelemetry hFree
  rw [failure?_ok, Option.map_none, Option.or_none] at hJoined
  rw [after_of_runs hRuns]
  exact hJoined

/-- What the listener reads moves no task. -/
theorem Stands.afterReading {listener : Task} (h : Stands st₀ st listener telemetry failed)
    (r : Listener.Report Pool) : Stands st₀ (afterReading st r) listener telemetry failed := by
  have hWritten : Stands st₀ (after st [.write r.entries]) listener telemetry failed :=
    ⟨h.reached.trans ⟨[.write r.entries], rfl, h.idle.giving, h.idle.cancelling⟩, h.listener,
      h.telemetry, h.firstError⟩
  rw [Daemon.afterReading]
  -- the root was cancelled while the listener read: with a cause, without one, or not at all
  split
  · rename_i why _ _
    have hCancel := Supervisor.State.runs_cancel hWritten.idle root why
    rw [afterCall, after_of_runs hCancel]
    exact ⟨hWritten.reached.trans ⟨_, hCancel, hWritten.idle.giving, hWritten.idle.cancelling⟩,
      hWritten.listener, hWritten.telemetry, hWritten.firstError⟩
  · exact ⟨hWritten.reached.trans ⟨[.cancel root none], rfl, hWritten.idle.giving,
      hWritten.idle.cancelling⟩, hWritten.listener, hWritten.telemetry, hWritten.firstError⟩
  · exact hWritten

/-- A telemetry server that is running ends if its scope is cancelled. -/
theorem Stands.exists_closed {listener : Task} (h : Stands st₀ st listener telemetry failed)
    (hFree : listener.isTaken = false) :
    ∃ x : Task, Stands st₀ (if st.telemetry = .running ∧ st.scopes.isCancelled st.telemetryScope
        then Daemon.closeTelemetry st else st) listener x failed ∧
      (telemetry = .running ∨ telemetry.isOver = true →
        st.scopes.isCancelled st.telemetryScope = true → x.isOver = true) := by
  split
  · rename_i hClosing
    obtain rfl := h.telemetry.symm.trans hClosing.1
    exact ⟨_, h.closeTelemetry hFree, fun _ _ => rfl⟩
  · rename_i hOpen
    refine ⟨telemetry, h, ?_⟩
    rintro (rfl | hOver) hCancelled
    · exact (hOpen ⟨h.telemetry, hCancelled⟩).elim
    · exact hOver

/-- Once the listener has come to an end, both tasks are over: before it leaves it tells the
    telemetry server, which then closes too. -/
theorem Stands.exists_over (h : Stands st₀ st .running telemetry failed)
    (hStarted : telemetry = .running ∨ telemetry.isOver = true)
    (hReturned : ∀ message, outcome ≠ .panicked message) :
    let ended := Daemon.closeListener st outcome
    ∃ x : Task, Stands st₀ (if ended.telemetry = .running ∧
        ended.scopes.isCancelled ended.telemetryScope then Daemon.closeTelemetry ended else ended)
        (.joined outcome) x (failed.or ((st.failure? .listener outcome).map Prod.snd)) ∧
      x.isOver = true := by
  intro ended
  have hFree : telemetry.isTaken = false := by
    rcases hStarted with rfl | hOver
    · rfl
    · cases telemetry <;> first | rfl | cases hOver
  obtain ⟨hClosed, hTold⟩ := h.closeListener hReturned hFree
  obtain ⟨x, hStands, hOver⟩ := hClosed.exists_closed rfl
  exact ⟨x, hStands, hOver hStarted hTold⟩

end

/-! ### A process -/

variable (settings : Settings) (address : Option SocketAddress) (e : Surroundings)

/-- Where the tasks of a process stand in the end.  Without an end of the listener its task is
    still running; with one both tasks are over, as the listener has told the telemetry server. -/
theorem exists_stands_run :
    ∃ listener telemetry failed,
      Stands (start address.isSome) (run settings address e).supervisor listener telemetry failed ∧
        match (report settings address e).ending with
        | .ok => listener.isOver = true ∧ telemetry.isOver = true ∧ failed = unbound? address e
        | .failed failure => listener.isOver = true ∧ telemetry.isOver = true ∧
          failed = (unbound? address e).or (some failure)
        | .stalled => listener = .running := by
  obtain ⟨x, hX, hOpened⟩ := exists_stands_opened settings address e
  have hRead := hOpened.afterReading (report settings address e)
  -- the three endings of the listener's run decide what is closed after it
  rw [run]
  cases hEnding : (report settings address e).ending with
  | ok =>
    have hReturned : ∀ message, Supervisor.Outcome.ok ≠ .panicked message := by simp
    obtain ⟨y, hStands, hOver⟩ := hRead.exists_over hX hReturned
    rw [failure?_ok, Option.map_none, Option.or_none] at hStands
    simp only [endListener, hEnding]
    exact ⟨_, y, _, hStands, rfl, hOver, rfl⟩
  | failed failure =>
    have hReturned : ∀ message, Supervisor.Outcome.failed failure ≠ .panicked message := by simp
    obtain ⟨y, hStands, hOver⟩ := hRead.exists_over hX hReturned
    rw [failure?_failed] at hStands
    simp only [endListener, hEnding]
    exact ⟨_, y, _, hStands, rfl, hOver, rfl⟩
  -- the listener still waits, so its task stays open whatever the endpoint does
  | stalled =>
    obtain ⟨y, hStands, -⟩ := hRead.exists_closed rfl
    simp only [endListener, hEnding]
    exact ⟨_, y, _, hStands, rfl⟩

/-- The services are a run of the supervisor: possible steps lead from their start to their end. -/
theorem reaches_run :
    Reaches (start address.isSome) (run settings address e).supervisor := by
  obtain ⟨_, _, _, hStands, -⟩ := exists_stands_run settings address e
  exact hStands.reached

/-- The services end if and only if the listener does.  They end with the failure of a telemetry
    server that did not get its address, or else as the listener ended. -/
theorem result?_run :
    (run settings address e).supervisor.result? =
      match (report settings address e).ending with
      | .ok => some ((unbound? address e).elim (.ok ()) .error)
      | .failed failure => some (.error ((unbound? address e).getD failure))
      | .stalled => none := by
  obtain ⟨listener, telemetry, failed, hStands, hEnding⟩ := exists_stands_run settings address e
  rw [Supervisor.State.result?, Supervisor.State.isOver, hStands.listener, hStands.telemetry,
    hStands.firstError]
  -- both tasks are over in the first two cases, and the first error is the result
  cases hReport : (report settings address e).ending with
  | ok =>
    rw [hReport] at hEnding
    obtain ⟨hListener, hTelemetry, rfl⟩ := hEnding
    rw [hListener, hTelemetry]
    cases unbound? address e <;> rfl
  | failed failure =>
    rw [hReport] at hEnding
    obtain ⟨hListener, hTelemetry, rfl⟩ := hEnding
    rw [hListener, hTelemetry]
    cases unbound? address e <;> rfl
  | stalled =>
    rw [hReport] at hEnding
    rw [hEnding]
    rfl

/-- A process whose settings have an address for telemetry, or none, exits with zero if and only if
    its listener ends well and the telemetry server got its address. -/
theorem exitCode_settled {settings : Settings} {address : Option SocketAddress}
    (hAddress : settings.address? = .ok address) (env : List (String × String))
    (e : Surroundings) :
    (settled env settings e).exitCode =
      match (report settings address e).ending with
      | .ok => some (if unbound? address e = none then 0 else 1)
      | .failed _ => some 1
      | .stalled => none := by
  have hResult := result?_run settings address e
  simp only [settled, hAddress, Transcript.exitCode, hResult]
  cases (report settings address e).ending with
  | ok => cases unbound? address e <;> rfl
  | failed failure => rfl
  | stalled => rfl

end Daemon

end RunnerPool
