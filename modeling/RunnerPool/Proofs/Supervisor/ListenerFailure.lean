import RunnerPool.Proofs.Supervisor.Calls
import RunnerPool.Proofs.Supervisor.Turns

/-!
# A listener that fails

The listener fails while the group is open, and its task tells telemetry before it ends itself.
Telemetry comes to its end only when its scope is cancelled.  The run returns the listener's
failure, whatever telemetry makes of it, unless the task of telemetry is the first to end and with
a failure of its own: a service that cancels its own scope can bring that about at any time, and
else it can only happen between the listener's return and the end of the listener's task.

* `TelemetryWaits`   telemetry comes to its end only when its scope is cancelled

## Main statements

- `listener_failure_masked`: two runs in which telemetry's failure takes the listener's place
- `listener_failure_returned`: the listener's failure is returned in all other runs
-/

namespace RunnerPool

namespace Supervisor

/-- Telemetry comes to its end only when its scope is cancelled. -/
def TelemetryWaits (st₀ : State) (steps : List Step) : Prop :=
  Throughout steps fun earlier a => ∀ outcome, a = .finish .telemetry outcome →
    ∀ mid, st₀.runs earlier = some mid → mid.scopes.isCancelled mid.telemetryScope = true

/-- What stands before an element of a list that none before it equals. -/
theorem exists_append_of_notMem {α : Type} {before after earlier later : List α} {x : α}
    (h : before ++ x :: after = earlier ++ later) (hNot : x ∉ earlier) :
    ∃ rest, before = earlier ++ rest := by
  rcases List.append_eq_append_iff.mp h with ⟨mid, rfl, hMid⟩ | ⟨mid, rfl, -⟩
  · cases mid with
    | nil => exact ⟨[], by simp⟩
    | cons y mid =>
      obtain ⟨rfl, -⟩ := List.cons.inj hMid
      exact (hNot (List.mem_append_right _ List.mem_cons_self)).elim
  · exact ⟨mid, rfl⟩

namespace State

/-! ### What the listener's failure leads to -/

section

variable {w : Scopes} {root : Scope} {listenerName : String} {telemetryName : Option String}
  {ids : Service → TaskId} {calls : List Tokens.Call} {steps before after : List Step}
  {st opened : State} {s : Service}
  {failure : Failure} {outcome : Outcome}

/-- A task is joined once. -/
theorem join_notMem_of_runs
    (h : (start w root listenerName telemetryName ids).runs (before ++ .join s :: after) =
      some st) :
    .join s ∉ before := by
  obtain ⟨mid, next, hMid, hMove⟩ := move_of_runs h
  have hFollows := follows_of_runs hMid s
  cases hMove with
  | join hTask =>
    rw [hTask] at hFollows
    exact hFollows.2

/-- Where a task is joined, its service has come to the end that the run tells of. -/
theorem finish_mem_of_join
    (h : (start w root listenerName telemetryName ids).runs (before ++ .join s :: after) = some st)
    (hFinished : .finish s outcome ∈ before ++ .join s :: after) :
    .finish s outcome ∈ before := by
  obtain ⟨o, hEarlier, -⟩ := ended_of_join h
  have hIn := (hEarlier o).mpr rfl
  obtain ⟨-, o', hCame⟩ := came_of_join h (List.mem_append_right _ List.mem_cons_self)
  rw [(hCame outcome).mp hFinished, ← (hCame o).mp (List.mem_append_left _ hIn)]
  exact hIn

/-- The failure of the listener is the first that is joined, unless telemetry's task ended first
    with another one. -/
theorem first_reports_of_listener_failed
    (h : (start w root listenerName telemetryName ids).runs steps = some st) (hTurn : InTurn steps)
    (hFailed : .finish .listener (.failed failure) ∈ steps) (hJoined : .join .listener ∈ steps)
    (hFirst : (endedIn steps).head? = some .telemetry → .finish .telemetry .ok ∈ steps) :
    First steps (Reports (start w root listenerName telemetryName ids).Tells) failure := by
  obtain ⟨before, after, rfl⟩ := List.append_of_mem hJoined
  refine ⟨before, .join .listener, after, rfl, ?_, ?_⟩
  · exact ⟨.listener, .failed failure, rfl, finish_mem_of_join h hFailed, rfl⟩
  · rintro earlier _ later rfl f ⟨s, o, rfl, hFinished, hFailure⟩
    have hNotYet := join_notMem_of_runs h
    have hOnly (t : Service) (ht : .join t ∈ earlier ++ .join s :: later) : t = .telemetry := by
      cases t with
      | listener => exact (hNotYet ht).elim
      | telemetry => rfl
    have hHere : .join s ∈ earlier ++ .join s :: later :=
      List.mem_append_right _ List.mem_cons_self
    obtain rfl := hOnly s hHere
    -- telemetry's task was joined before, so it ended first, and well
    have hOk := hFirst (head?_endedIn_of_join ((prefix_takenIn h).trans hTurn) hHere hOnly)
    obtain ⟨-, o', hCame⟩ := came_of_join h (List.mem_append_left _ hHere)
    have hSame := (hCame o).mp (List.mem_append_left _ (List.mem_append_left _ hFinished))
    rw [hSame, ← (hCame .ok).mp hOk] at hFailure
    exact nomatch hFailure

/-- As long as telemetry has not come to its end, only the task of the listener can have been
    joined, and if the listener has failed then that task has told telemetry. -/
theorem tell_mem_of_join
    (h : (start w root listenerName telemetryName ids).runs
      (before ++ .finish .telemetry outcome :: after) = some st)
    (hFailed : .finish .listener (.failed failure) ∈ before ++ .finish .telemetry outcome :: after)
    (hJoined : .join s ∈ before) : .tell ∈ before := by
  obtain ⟨earlier, later, rfl⟩ := List.append_of_mem hJoined
  -- telemetry cannot have been joined before it ended, so the listener was
  cases s with
  | telemetry =>
    obtain ⟨mid, next, hMid, hMove⟩ := move_of_runs h
    have hFollows := follows_of_runs hMid .telemetry
    cases hMove with
    | panic hTask | finish hTask =>
      rw [hTask] at hFollows
      exact (hFollows.2 hJoined).elim
  | listener =>
    rw [List.append_assoc, List.cons_append] at h hFailed
    have hEarlier := finish_mem_of_join h hFailed
    obtain ⟨o, hCame, hPanic | ⟨-, hTold⟩⟩ := ended_of_join h
    -- a listener that failed did not panic, so it told the telemetry scope first
    · obtain ⟨message, rfl⟩ := hPanic
      exact nomatch (hCame _).mp hEarlier
    · exact List.mem_append_left _ (hTold rfl)

/-- Once all tasks were joined, the run fails with the listener's failure, unless telemetry's task
    ended first with another one. -/
theorem result?_of_listener_failed
    (h : (start w root listenerName telemetryName ids).runs steps = some st) (hTurn : InTurn steps)
    (hFailed : .finish .listener (.failed failure) ∈ steps) (hOver : st.isOver = true)
    (hFirst : (endedIn steps).head? = some .telemetry → .finish .telemetry .ok ∈ steps) :
    st.result? = some (.error failure) := by
  rw [result?_eq_error_iff, firstError_iff h]
  have hJoined := (isOver_iff h).mp hOver .listener List.mem_cons_self
  exact ⟨hOver, first_reports_of_listener_failed h hTurn hFailed hJoined hFirst⟩

/-- Telemetry comes to its end once it was told, once its own scope was cancelled from outside, or
    once the group was, which is open until the listener has failed. -/
theorem told_or_cancelled_of_finished
    (h : (start (Tokens.after calls).scopes root listenerName telemetryName ids).runs steps =
      some st)
    (hSplit : steps = before ++ .finish .listener (.failed failure) :: after)
    (hOpened : (start (Tokens.after calls).scopes root listenerName telemetryName ids).runs before =
      some opened)
    (hOpen : opened.scopes.isCancelled opened.group = false)
    (hWaits : TelemetryWaits (start (Tokens.after calls).scopes root listenerName telemetryName ids)
      steps) {earlier later : List Step}
    (hHere : steps = earlier ++ .finish .telemetry outcome :: later) :
    .tell ∈ earlier ∨ ∃ scope cause, .cancel scope cause ∈ earlier ∧
      (scope.id =
          (start (Tokens.after calls).scopes root listenerName telemetryName ids).telemetryScope.id ∨
        scope.id ∈
            (start (Tokens.after calls).scopes root listenerName telemetryName ids).group.lineage ∧
          .finish .listener (.failed failure) ∈ earlier) := by
  let st₀ := start (Tokens.after calls).scopes root listenerName telemetryName ids
  obtain ⟨mid, next, hMid, -⟩ := move_of_runs (hHere ▸ h)
  have hFailed : .finish .listener (.failed failure) ∈ steps :=
    hSplit ▸ List.mem_append_right _ List.mem_cons_self
  have hCancelled := hWaits earlier _ later hHere outcome rfl mid hMid
  rw [Scopes.isCancelled, List.any_eq_true, (sameParties_of_runs hMid).telemetryScope] at hCancelled
  obtain ⟨i, hAround, hContains⟩ := hCancelled
  have hIn : i ∈ mid.scopes.cancelled := List.contains_iff_mem.mp hContains
  have hAround' : i = st₀.telemetryScope.id ∨ i ∈ st₀.group.lineage := List.mem_cons.mp hAround
  rw [(sameParties_of_runs hOpened).group] at hOpen
  rcases mem_cancelled_of_runs hMid hIn with hStart | ⟨a, ha, hHits⟩
  · -- telemetry's scope is new, and the group is open when the run starts
    rcases hAround' with rfl | hGroup
    · exact absurd hStart (Tokens.untouched_of_count_le (Nat.le_succ _)).1
    · exact absurd hStart (notMem_cancelled_of_runs hOpened hOpen hGroup)
  · cases hHits with
    | told => exact Or.inl ha
    | joined s => exact Or.inl (tell_mem_of_join (hHere ▸ h) (hHere ▸ hFailed) ha)
    | outside scope cause =>
      refine Or.inr ⟨scope, cause, ha, hAround'.imp_right fun hGroup => ⟨hGroup, ?_⟩⟩
      -- else the group would be cancelled when the listener fails
      by_contra hNotYet
      obtain ⟨rest, rfl⟩ := exists_append_of_notMem (hSplit.symm.trans hHere) hNotYet
      rw [runs_append, hMid] at hOpened
      exact notMem_cancelled_of_runs hOpened hOpen hGroup hIn

end

end State

/-! ### Runs in which the failure is masked -/

/-- Telemetry waits in a run in which it comes to its end once, with its scope cancelled. -/
theorem telemetryWaits_of_once {st₀ : State} {earlier later : List Step} {outcome : Outcome}
    (hBefore : ∀ o, .finish .telemetry o ∉ earlier) (hAfter : ∀ o, .finish .telemetry o ∉ later)
    (hHere : ∃ mid, st₀.runs earlier = some mid ∧
      mid.scopes.isCancelled mid.telemetryScope = true) :
    TelemetryWaits st₀ (earlier ++ .finish .telemetry outcome :: later) := by
  obtain ⟨mid, hMid, hCancelled⟩ := hHere
  -- telemetry finishes once, so the condition is asked at this place only
  refine throughout_append.mpr ⟨?_, throughout_cons.mpr ⟨?_, ?_⟩⟩
  · exact throughout_of_forall fun a ha _ o hSame => (hBefore o (hSame ▸ ha)).elim
  · intro o _ mid' hMid'
    rw [List.append_nil, hMid] at hMid'
    exact Option.some.inj hMid' ▸ hCancelled
  · exact throughout_of_forall fun a ha _ o hSame => (hAfter o (hSame ▸ ha)).elim

/-- A run that starts on its own. -/
private def lone : State :=
  .start (Tokens.after [.root]).scopes ⟨0, []⟩ "listener" (some "telemetry") fun
    | .listener => ⟨7, "7"⟩
    | .telemetry => ⟨8, "8"⟩

/-- Telemetry cancels its own scope and fails, and after that the listener fails. -/
private def stoppedItself : List Step :=
  [.begin .listener, .begin .telemetry, .look (.other ⟨2, [1, 0]⟩ "done"),
    .give (.other ⟨2, [1, 0]⟩ "done"), .cancel ⟨2, [1, 0]⟩ (some "done")] ++
    .finish .telemetry (.failed ["flush failed"]) ::
  [.leave .telemetry, .finish .listener (.failed ["session closed"]), .look .listener, .tell,
    .leave .listener, .take .telemetry, .look (.supervisor .telemetry),
    .give (.supervisor .telemetry), .join .telemetry, .take .listener, .join .listener]

/-- Telemetry is told that the listener failed, and fails before the listener's task ends. -/
private def overtaken : List Step :=
  [.begin .listener, .begin .telemetry, .finish .listener (.failed ["session closed"]),
    .look .listener, .give .listener, .tell] ++
    .finish .telemetry (.failed ["flush failed"]) ::
  [.leave .telemetry, .leave .listener, .take .telemetry, .look (.supervisor .telemetry),
    .give (.supervisor .telemetry), .join .telemetry, .take .listener, .join .listener]

/-- Telemetry waits in the run, the group is open when the listener fails, and the tasks are joined
    in turn; yet telemetry's failure is returned. -/
private def Masks (steps : List Step) : Prop :=
  TelemetryWaits lone steps ∧ InTurn steps ∧
    (∃ before after opened,
      steps = before ++ .finish .listener (.failed ["session closed"]) :: after ∧
      lone.runs before = some opened ∧ opened.scopes.isCancelled opened.group = false) ∧
    ∃ st, lone.runs steps = some st ∧ st.result? = some (.error ["flush failed"])

/-- Telemetry's failure can take the place of the listener's, whether telemetry stopped itself or
    was told to stop. -/
theorem listener_failure_masked : Masks stoppedItself ∧ Masks overtaken := by
  have hOpened (before : List Step) (h : (lone.runs before).any
      (fun st => st.scopes.isCancelled st.group = false) = true) :
      ∃ opened, lone.runs before = some opened ∧
        opened.scopes.isCancelled opened.group = false := by
    simpa [Option.any_eq_true] using h
  have hWaits (earlier later : List Step)
      (hBefore : ∀ o, .finish .telemetry o ∉ earlier) (hAfter : ∀ o, .finish .telemetry o ∉ later)
      (h : (lone.runs earlier).any (fun st => st.scopes.isCancelled st.telemetryScope) = true) :
      TelemetryWaits lone
        (earlier ++ .finish .telemetry (.failed ["flush failed"]) :: later) := by
    refine telemetryWaits_of_once hBefore hAfter ?_
    simpa [Option.any_eq_true] using h
  have hMasked (steps : List Step) (h : (lone.runs steps).any
      (fun st => st.result? = some (.error ["flush failed"])) = true) :
      ∃ st, lone.runs steps = some st ∧ st.result? = some (.error ["flush failed"]) := by
    simpa [Option.any_eq_true] using h
  -- in the one run telemetry is stopped from outside, in the other it ends first
  constructor
  · obtain ⟨opened, hBefore, hOpen⟩ := hOpened (stoppedItself.take 7) (by decide)
    exact ⟨hWaits _ _ (by simp) (by simp) (by decide), by decide,
      ⟨_, _, opened, rfl, hBefore, hOpen⟩, hMasked _ (by decide)⟩
  · obtain ⟨opened, hBefore, hOpen⟩ := hOpened (overtaken.take 2) (by decide)
    exact ⟨hWaits _ _ (by simp) (by simp) (by decide), by decide,
      ⟨_, _, opened, rfl, hBefore, hOpen⟩, hMasked _ (by decide)⟩

/-! ### The failure that is returned -/

/-- A supervised run, with or without telemetry, in which the listener fails while the group is
    open, telemetry waits and the tasks are joined in turn, however the steps of the tasks
    interleave and whoever cancels what in between.

    Once all tasks were joined, the result is the listener's failure, unless telemetry's task was
    the first to end and telemetry did not end well; and once the services have come to their
    ends, what follows of itself leads there.  Telemetry does not come to its end before the
    listener's task told it, unless someone else cancelled telemetry's own scope, or the group or
    what lies around it after the listener had failed. -/
theorem listener_failure_returned (calls : List Tokens.Call) (root : Scope)
    (listenerName : String) (telemetryName : Option String) (ids : Service → TaskId)
    (before after : List Step) (failure : Failure) (opened st : State)
    (hOpened : (State.start (Tokens.after calls).scopes root listenerName telemetryName ids).runs
      before = some opened)
    (hOpen : opened.scopes.isCancelled opened.group = false)
    (hRuns : (State.start (Tokens.after calls).scopes root listenerName telemetryName ids).runs
      (before ++ .finish .listener (.failed failure) :: after) = some st)
    (hWaits : TelemetryWaits
      (State.start (Tokens.after calls).scopes root listenerName telemetryName ids)
      (before ++ .finish .listener (.failed failure) :: after))
    (hTurn : InTurn (before ++ .finish .listener (.failed failure) :: after)) :
    let st₀ := State.start (Tokens.after calls).scopes root listenerName telemetryName ids
    let steps := before ++ .finish .listener (.failed failure) :: after
    ((∀ s ∈ services telemetryName, .join s ∈ steps) →
        ((endedIn steps).head? = some .telemetry → .finish .telemetry .ok ∈ steps) →
        st.result? = some (.error failure)) ∧
      ((∀ s ∈ services telemetryName, ∃ outcome, .finish s outcome ∈ steps) →
        ∃ more st' r, (∀ a ∈ more, a.isOwn = true) ∧ InTurn (steps ++ more) ∧
          st.runs more = some st' ∧ st'.result? = some r ∧
          (((endedIn (steps ++ more)).head? = some .telemetry → .finish .telemetry .ok ∈ steps) →
            r = .error failure)) ∧
      ∀ earlier outcome later, steps = earlier ++ .finish .telemetry outcome :: later →
        .tell ∈ earlier ∨ ∃ scope cause, .cancel scope cause ∈ earlier ∧
          (scope.id = st₀.telemetryScope.id ∨
            scope.id ∈ st₀.group.lineage ∧ .finish .listener (.failed failure) ∈ earlier) := by
  intro st₀ steps
  have hFailed : .finish .listener (.failed failure) ∈ steps :=
    List.mem_append_right _ List.mem_cons_self
  refine ⟨fun hJoined => ?_, fun hFinished => ?_, ?_⟩
  -- the join order is the order of the ends, so the listener's failure comes first
  · have hOver := (State.isOver_iff hRuns).mpr hJoined
    exact State.result?_of_listener_failed hRuns hTurn hFailed hOver
  · obtain ⟨more, st', r, hOwn, hInTurn, hMore, hResult⟩ :=
      State.exists_result_in_turn hRuns hTurn hFinished
    -- the steps that follow of themselves make one run with those before
    have hAll : st₀.runs (steps ++ more) = some st' := by
      rw [State.runs_append, hRuns]
      exact hMore
    refine ⟨more, st', r, hOwn, hInTurn, hMore, hResult, fun hFirst => ?_⟩
    have hError := State.result?_of_listener_failed hAll hInTurn (List.mem_append_left _ hFailed)
      (State.exists_result_iff.mp ⟨r, hResult⟩) fun hHead => List.mem_append_left _ (hFirst hHead)
    exact Option.some.inj (hResult.symm.trans hError)
  · intro earlier outcome later hHere
    exact State.told_or_cancelled_of_finished hRuns rfl hOpened hOpen hWaits hHere

/-! Telemetry fails as well, but the listener's task has ended before. -/

private def inTime : List Step :=
  [.begin .listener, .begin .telemetry, .finish .listener (.failed ["session closed"]),
    .look .listener, .give .listener, .tell] ++
    .finish .telemetry (.failed ["flush failed"]) ::
  [.leave .listener, .leave .telemetry, .take .listener, .look (.supervisor .listener),
    .give (.supervisor .listener), .join .listener, .take .telemetry, .join .telemetry]

theorem listener_failure_returned_in_time : ∃ st, lone.runs inTime = some st ∧
    TelemetryWaits lone inTime ∧ InTurn inTime ∧ st.result? = some (.error ["session closed"]) ∧
      .tell ∈ inTime.take 6 := by
  -- telemetry ends after the listener has told it, and both are joined
  cases h : lone.runs inTime with
  | none => exact absurd h (by decide)
  | some st =>
    cases hOpened : lone.runs (inTime.take 2) with
    | none => exact absurd hOpened (by decide)
    | some opened =>
      have hOpen : opened.scopes.isCancelled opened.group = false := by
        rw [← Option.some.inj hOpened]
        decide
      have hMid : ∃ mid, lone.runs (inTime.take 6) = some mid ∧
          mid.scopes.isCancelled mid.telemetryScope = true := by
        rw [← Option.any_eq_true]
        decide
      have hWaits : TelemetryWaits lone inTime :=
        telemetryWaits_of_once (by simp) (by simp) hMid
      have hTurn : InTurn inTime := by decide
      obtain ⟨hResult, -, hTold⟩ := listener_failure_returned [.root] ⟨0, []⟩ "listener"
        (some "telemetry") _ (inTime.take 2) (inTime.drop 3) ["session closed"] opened st hOpened
        hOpen h hWaits hTurn
      refine ⟨st, rfl, hWaits, hTurn, hResult (by decide) (by decide), ?_⟩
      rcases hTold (inTime.take 6) _ _ rfl with hIn | ⟨scope, cause, hIn, -⟩
      · exact hIn
      · simp [inTime] at hIn

end Supervisor

end RunnerPool
