import RunnerPool.Proofs.Occurrence
import RunnerPool.Proofs.Supervisor.Run

/-!
# The result of a supervised run

A run has a result once the tasks of all of its services were joined, and not before.  The result
is the failure of the first task that was joined with one, whatever is joined later, and a run
without failures ends well.  When the services have come to their ends, what is left to do leads
to a result.

* `services`       the services of a run
* `Fails`          the failure that an end of a service is, and how it is worded
* `Reports`        a task is joined that reports a failure
* `Step.isOwn`     what follows of itself once the services have come to their ends
* `State.Leads`    what follows of itself can bring a task so far
* `State.rank`     how much is left to do of itself

## Main statement

- `result_of_runs`: when a run has a result, and which
-/

namespace RunnerPool

namespace Supervisor

/-- The services of a run. -/
def services (telemetryName : Option String) : List Service :=
  .listener :: (telemetryName.map fun _ => Service.telemetry).toList

/-- The failure that an end of a service is, of this name and with this id of its task.  What a
    service fails with is told as it is, and a panic is worded with the name and the id. -/
inductive Fails (name : String) (id : TaskId) : Outcome → Failure → Prop
  | returned (failure : Failure) : Fails name id (.failed failure) failure
  | panicked (message : String) :
    Fails name id (.panicked (some message))
      [name ++ " task aborted: task " ++ id.text ++ " panicked with message " ++
        Text.quoted message]
  | panickedSilently :
    Fails name id (.panicked none) [name ++ " task aborted: task " ++ id.text ++ " panicked"]

/-- The step joins a task, and the end to which its service came is this failure. -/
def Reports (fails : Service → Outcome → Failure → Prop) (before : List Step) (a : Step)
    (failure : Failure) : Prop :=
  ∃ s outcome, a = .join s ∧ .finish s outcome ∈ before ∧ fails s outcome failure

/-- Whether the step follows of itself once the services have come to their ends. -/
def Step.isOwn : Step → Bool
  | .look c | .give c => !c.isOther
  | .tell | .leave _ | .take _ | .join _ => true
  | _ => false

/-- The service whose task the supervisor takes in. -/
def Step.takes? : Step → Option Service
  | .take s => some s
  | _ => none

/-- The wording of a panic is what an id alone tells, with the name before it. -/
theorem fails_panicked_iff {name : String} {id : TaskId} {message : Option String}
    {failure : Failure} : Fails name id (.panicked message) failure ↔
      [name ++ " task aborted: " ++ panicText id message] = failure := by
  have hTask : " task aborted: task " = " task aborted: " ++ "task " := rfl
  constructor
  · rintro (_ | _) <;> simp only [panicText, hTask, String.append_assoc]
  · rintro rfl
    cases message with
    | none => simpa only [panicText, hTask, String.append_assoc] using Fails.panickedSilently
    | some m => simpa only [panicText, hTask, String.append_assoc] using Fails.panicked m

theorem Task.Follows.isOver_iff {x : Task} {steps : List Step} {s : Service}
    (h : x.Follows steps s) : x.isOver = true ↔ x = .absent ∨ .join s ∈ steps := by
  cases x with
  | absent => simp [isOver]
  | waiting | running => simp [isOver, h.2]
  | returned o => simp [isOver, h.2.2]
  | told o => simp [isOver, h.2.2.2]
  | ended o | taken o => simp [isOver, h.2]
  | joined o => simp [isOver, h.2]

namespace State

/-- What the task of a service reports that ends so. -/
def Tells (st : State) (s : Service) (outcome : Outcome) (failure : Failure) : Prop :=
  (st.failure? s outcome).map Prod.snd = some failure

/-- How the failures of a service are to be worded. -/
def FailsAs (st : State) (s : Service) : Outcome → Failure → Prop :=
  Fails (st.nameOf s) (st.idOf s)

theorem failure?_eq_none_iff (st : State) (s : Service) {outcome : Outcome} :
    st.failure? s outcome = none ↔ outcome = .ok := by
  cases outcome <;> simp [failure?, verdict, remains]

/-- A name is found for each task of a run, also by its id, if no other task has the same. -/
theorem failure?_start_iff {w : Scopes} {root : Scope} {listenerName : String}
    {telemetryName : Option String} {ids : Service → TaskId}
    (hIds : ids .listener ≠ ids .telemetry) {s : Service} (hs : s ∈ services telemetryName)
    {outcome : Outcome} {name : String} {failure : Failure} :
    (start w root listenerName telemetryName ids).failure? s outcome = some (name, failure) ↔
      name = (start w root listenerName telemetryName ids).nameOf s ∧
        (start w root listenerName telemetryName ids).FailsAs s outcome failure := by
  -- two tasks have two ids, so the id finds its own name
  have hName : (start w root listenerName telemetryName ids).names.lookup
      ((start w root listenerName telemetryName ids).idOf s) =
        some ((start w root listenerName telemetryName ids).nameOf s) := by
    cases s with
    | listener =>
      have hApart : (ids .listener == ids .telemetry) = false := beq_eq_false_iff_ne.mpr hIds
      cases telemetryName with
      | none => simp [start, idOf, nameOf]
      | some name => simp [start, idOf, nameOf, List.lookup_cons, hApart]
    | telemetry =>
      cases telemetryName with
      | none => simp [services] at hs
      | some name => simp [start, idOf, nameOf]
  -- only a panic's text has the name in it
  cases outcome with
  | ok =>
    refine iff_of_false ?_ ?_
    · simp [failure?, remains, verdict]
    · rintro ⟨-, ⟨⟩⟩
  | failed f =>
    simp only [failure?, remains, verdict, Option.some.injEq, Prod.mk.injEq]
    constructor
    · rintro ⟨rfl, rfl⟩
      exact ⟨rfl, .returned _⟩
    · rintro ⟨rfl, ⟨⟩⟩
      exact ⟨rfl, rfl⟩
  | panicked message =>
    rw [FailsAs, fails_panicked_iff]
    simp only [failure?, remains, verdict, hName, Option.getD_some, Option.some.injEq,
      Prod.mk.injEq]
    exact and_congr_left' eq_comm

/-! ### The tasks of a run -/

section

variable {st st' mid : State} {a : Step} {s : Service} {outcome : Outcome}

theorem Move.absent_iff (h : Move st a st') (s : Service) :
    st'.taskOf s = .absent ↔ st.taskOf s = .absent := by
  have hMoved (t : Service) (x : Task) (hBefore : st.taskOf t ≠ .absent) (hAfter : x ≠ .absent) :
      (if s = t then x else st.taskOf s) = .absent ↔ st.taskOf s = .absent := by
    split
    · rename_i hSame
      exact iff_of_false hAfter (hSame ▸ hBefore)
    · exact Iff.rfl
  -- a step that moves a task does not move it to or from there, and the others move none
  cases h with
  | begin h =>
    rw [taskOf_note, taskOf_setTask]
    exact hMoved _ _ (by simp [h]) (by simp)
  | panic h =>
    rw [taskOf_setTask]
    exact hMoved _ _ (by simp [h]) (by simp)
  | finish h hReturned =>
    rw [taskOf_setTask]
    exact hMoved _ _ (by simp [h]) (by simp)
  | tell h =>
    cases s with
    | listener => exact iff_of_false (by simp [taskOf]) (by simp [taskOf, h])
    | telemetry => exact Iff.rfl
  | leaveListener h =>
    rw [taskOf_setTask]
    exact hMoved _ _ (by simp [taskOf, h]) (by simp)
  | leaveTelemetry h =>
    rw [taskOf_setTask]
    exact hMoved _ _ (by simp [taskOf, h]) (by simp)
  | take h =>
    rw [taskOf_note, taskOf_setTask]
    exact hMoved _ _ (by simp [h]) (by simp)
  | join h =>
    rw [taskOf_join]
    exact hMoved _ _ (by simp [h]) (by simp)
  | look => rw [taskOf_look]
  | give => rw [taskOf_give]
  | write | cancel => exact Iff.rfl
  | cancelFor => rw [taskOf_cancel]

end

/-! ### What follows of itself -/

/-- What follows of itself can bring the task of a service so far; on the way the supervisor takes
    in these tasks, and no other task moves. -/
def Leads (st : State) (s : Service) (x : Task) (taken : List Service) : Prop :=
  ∃ more st', (∀ a ∈ more, a.isOwn = true) ∧ more.filterMap Step.takes? = taken ∧
    st.runs more = some st' ∧ ∀ t, st'.taskOf t = if t = s then x else st.taskOf t

section

variable {st st' : State} {a : Step} {c : Caller} {s : Service} {outcome : Outcome} {x : Task}

/-- One step of its own is enough. -/
theorem leads_of_step (hOwn : a.isOwn = true) (hStep : st.step a = some st')
    (hMoved : ∀ t, st'.taskOf t = if t = s then x else st.taskOf t) :
    Leads st s x a.takes?.toList := by
  refine ⟨[a], st', by simpa using hOwn, ?_, ?_, hMoved⟩
  · rw [List.filterMap_cons]
    cases a.takes? <;> rfl
  · rw [runs, hStep]
    rfl

/-- Wherever a call of its own stands, what follows of itself brings it to its last step and moves
    no task. -/
theorem exists_ready (hOwn : c.isOther = false) (hWhy : st.why? c ≠ none) :
    ∃ more st', (∀ a ∈ more, a.isOwn = true) ∧ more.filterMap Step.takes? = [] ∧
      st.runs more = some st' ∧ c ∈ st'.cancelling ∧ (∀ t, st'.taskOf t = st.taskOf t) ∧
      st'.firstError = st.firstError := by
  obtain ⟨why, hWhy⟩ := Option.ne_none_iff_exists'.mp hWhy
  have hOwnCall : (!c.isOther) = true := by rw [hOwn, Bool.not_false]
  have hGive (mid : State) (hMidWhy : mid.why? c = some why) (hGiving : c ∈ mid.giving) :
      mid.step (.give c) = some (mid.give c why) := by
    simp [step, hMidWhy, hGiving]
  by_cases hReady : c ∈ st.cancelling
  · exact ⟨[], st, List.forall_mem_nil _, rfl, rfl, hReady, fun _ => rfl, rfl⟩
  by_cases hGiving : c ∈ st.giving
  · refine ⟨[.give c], st.give c why, by simpa [Step.isOwn] using hOwn, rfl, ?_,
      List.mem_cons_self, fun t => taskOf_give st t c why, rfl⟩
    rw [runs, hGive st hWhy hGiving]
    rfl
  -- the call has not begun, and its look decides whether it gives its cause
  have hLook : st.step (.look c) = some (st.look c) := by
    simp [step, hWhy, isCalling, hReady, hGiving]
  cases hOpen : st.scopes.isCancelled (st.target c) with
  | true =>
    refine ⟨[.look c], st.look c, by simpa [Step.isOwn] using hOwn, rfl, ?_, ?_,
      fun t => taskOf_look st t c, firstError_look st c⟩
    · rw [runs, hLook]
      rfl
    · rw [look, if_pos hOpen]
      exact List.mem_cons_self
  | false =>
    have hNext : c ∈ (st.look c).giving := by
      rw [look, if_neg (by rw [hOpen]; exact Bool.false_ne_true)]
      exact List.mem_cons_self
    refine ⟨[.look c, .give c], (st.look c).give c why, by simpa [Step.isOwn] using hOwn, rfl, ?_,
      List.mem_cons_self, fun t => ?_, firstError_look st c⟩
    · rw [runs, hLook, Option.bind_some, runs, hGive _ ((why?_look st c).trans hWhy) hNext]
      rfl
    · rw [taskOf_give, taskOf_look]

/-- A call of its own is made, and then the step follows that ends it. -/
theorem leads_of_call (hOwn : c.isOther = false) (hWhy : st.why? c ≠ none)
    (hLast : a.isOwn = true) (hNone : a.takes? = none)
    (hStep : ∀ mid : State, (∀ t, mid.taskOf t = st.taskOf t) → c ∈ mid.cancelling →
      ∃ st', mid.step a = some st' ∧ ∀ t, st'.taskOf t = if t = s then x else st.taskOf t) :
    Leads st s x [] := by
  -- the call is brought to its last step first, and then that step is made
  obtain ⟨more, mid, hMore, hTaken, hRuns, hReady, hSame, -⟩ := exists_ready hOwn hWhy
  obtain ⟨st', hEnds, hMoved⟩ := hStep mid hSame hReady
  refine ⟨more ++ [a], st', ?_, ?_, ?_, hMoved⟩
  · exact List.forall_mem_append.mpr ⟨hMore, by simpa using hLast⟩
  · simp [List.filterMap_append, hTaken, hNone]
  · rw [runs_append, hRuns, Option.bind_some, runs, hEnds]
    rfl

theorem leads_of_returned (h : st.listener = .returned outcome) :
    Leads st .listener (.told outcome) [] := by
  have hWhy : st.why? .listener ≠ none := by simp [why?, h]
  refine leads_of_call (c := .listener) (a := .tell) rfl hWhy rfl rfl fun mid hSame hReady => ?_
  have hTask : mid.listener = .returned outcome := (hSame .listener).trans h
  refine ⟨{ mid.cancel .listener with listener := .told outcome }, ?_, fun t => ?_⟩
  · simp [step, hTask, hReady]
  · cases t with
    | listener => rfl
    | telemetry => exact hSame .telemetry

theorem leads_of_told (h : st.listener = .told outcome) :
    Leads st .listener (.ended outcome) [] := by
  have hTask : st.taskOf .listener = .told outcome := h
  refine leads_of_step (a := .leave .listener) rfl ?_ (taskOf_setTask st .listener · _)
  simp only [step, hTask]

theorem leads_of_telemetry_returned (h : st.telemetry = .returned outcome) :
    Leads st .telemetry (.ended outcome) [] := by
  have hTask : st.taskOf .telemetry = .returned outcome := h
  refine leads_of_step (a := .leave .telemetry) rfl ?_ (taskOf_setTask st .telemetry · _)
  simp only [step, hTask]

theorem leads_of_ended (h : st.taskOf s = .ended outcome)
    (hFree : ∀ t, (st.taskOf t).isTaken = false) : Leads st s (.taken outcome) [s] := by
  have hListener : st.listener.isTaken = false := hFree .listener
  have hTelemetry : st.telemetry.isTaken = false := hFree .telemetry
  have hTake : st.step (.take s) =
      some ((st.setTask s (.taken outcome)).note (st.endEntry s outcome)) := by
    simp [step, h, hListener, hTelemetry]
  refine leads_of_step (a := .take s) rfl hTake fun t => ?_
  rw [taskOf_note, taskOf_setTask]

theorem leads_of_taken (h : st.taskOf s = .taken outcome) :
    Leads st s (.joined outcome) [] := by
  have hJoin (mid : State) (hTask : mid.taskOf s = .taken outcome)
      (hReady : mid.why? (.supervisor s) = none ∨ .supervisor s ∈ mid.cancelling) :
      mid.step (.join s) = some (mid.join s outcome) := by
    have hReady : ¬ ((mid.why? (.supervisor s)).isSome &&
        !mid.cancelling.contains (.supervisor s)) = true := by
      rcases hReady with hNone | hIn
      · simp [hNone]
      · simp [hIn]
    simp only [step, hTask, if_neg hReady]
  by_cases hWhy : st.why? (.supervisor s) = none
  · -- there is no call to make
    exact leads_of_step (a := .join s) rfl (hJoin st h (Or.inl hWhy)) (taskOf_join st s · outcome)
  · refine leads_of_call (c := .supervisor s) (a := .join s) rfl hWhy rfl rfl
      fun mid hSame hReady => ?_
    refine ⟨_, hJoin mid ((hSame s).trans h) (Or.inr hReady), fun t => ?_⟩
    rw [taskOf_join, hSame]

/-- How far a task whose service has come to its end is from being joined. -/
def taskRank : Task → Nat
  | .returned _ => 4
  | .told _ => 3
  | .ended _ => 2
  | .taken _ => 1
  | _ => 0

/-- How much is left to do of itself. -/
def rank (st : State) : Nat := taskRank (st.taskOf .listener) + taskRank (st.taskOf .telemetry)

/-- There is less to do once a task was brought further. -/
theorem rank_lt (hMoved : ∀ t, st'.taskOf t = if t = s then x else st.taskOf t)
    (hLess : taskRank x < taskRank (st.taskOf s)) : st'.rank < st.rank := by
  rw [rank, rank, hMoved, hMoved]
  cases s with
  | listener => simpa using hLess
  | telemetry => simpa using hLess

/-- A task whose service has come to its end, and that has not ended, is brought on. -/
theorem exists_leads_of_open {steps : List Step} (hFollows : (st.taskOf s).Follows steps s)
    (hCame : .finish s outcome ∈ steps)
    (hOpen : ∀ o, st.taskOf s ≠ .ended o ∧ st.taskOf s ≠ .taken o ∧ st.taskOf s ≠ .joined o) :
    ∃ x, Leads st s x [] ∧ taskRank x < taskRank (st.taskOf s) := by
  -- a task that came to its end is past running, and each later state has one step to take
  cases hTask : st.taskOf s with
  | absent | waiting | running =>
    rw [hTask] at hFollows
    exact (hFollows.1 outcome hCame).elim
  | returned o =>
    cases s with
    | listener => exact ⟨_, leads_of_returned hTask, by simp [taskRank]⟩
    | telemetry => exact ⟨_, leads_of_telemetry_returned hTask, by simp [taskRank]⟩
  | told o =>
    rw [hTask] at hFollows
    obtain ⟨-, rfl, -⟩ := hFollows
    exact ⟨_, leads_of_told hTask, by simp [taskRank]⟩
  | ended o => exact ((hOpen o).1 hTask).elim
  | taken o => exact ((hOpen o).2.1 hTask).elim
  | joined o => exact ((hOpen o).2.2 hTask).elim

end

/-! ### Runs from the start -/

section

variable {w : Scopes} {root : Scope} {listenerName : String} {telemetryName : Option String}
  {ids : Service → TaskId} {steps : List Step} {st : State} {s : Service} {failure : Failure}

theorem absent_iff (h : (start w root listenerName telemetryName ids).runs steps = some st)
    (s : Service) : st.taskOf s = .absent ↔ s ∉ services telemetryName := by
  refine runs_induction
    (P := fun _ st => ∀ s, st.taskOf s = .absent ↔ s ∉ services telemetryName) ?_
    (fun _ _ _ _ _ hBefore hMove s => (hMove.absent_iff s).trans (hBefore s)) h s
  intro s
  cases s <;> cases telemetryName <;> simp [start, taskOf, services]

theorem isOver_iff (h : (start w root listenerName telemetryName ids).runs steps = some st) :
    st.isOver = true ↔ ∀ s ∈ services telemetryName, .join s ∈ steps := by
  -- a task is over if it is none of the run's or was joined
  have hTask (s : Service) : (st.taskOf s).isOver = true ↔
      (s ∈ services telemetryName → .join s ∈ steps) := by
    rw [(follows_of_runs h s).isOver_iff, absent_iff h s, ← imp_iff_not_or]
  rw [isOver, Bool.and_eq_true]
  constructor
  · rintro ⟨hListener, hTelemetry⟩ s
    cases s with
    | listener => exact (hTask .listener).mp hListener
    | telemetry => exact (hTask .telemetry).mp hTelemetry
  · exact fun hAll => ⟨(hTask .listener).mpr (hAll _), (hTask .telemetry).mpr (hAll _)⟩

/-- Where a task is joined, its service has come to its end, and the task has ended. -/
theorem ended_of_join {before after : List Step}
    (h : (start w root listenerName telemetryName ids).runs (before ++ .join s :: after) =
      some st) : ∃ outcome, Ended before s outcome := by
  obtain ⟨mid, next, hMid, hMove⟩ := move_of_runs h
  have hFollows := follows_of_runs hMid s
  cases hMove with
  | @join _ outcome hTask =>
    rw [hTask] at hFollows
    exact ⟨outcome, hFollows.1⟩

/-- A service whose task was joined is one of the run's, and it came to one end only. -/
theorem came_of_join (h : (start w root listenerName telemetryName ids).runs steps = some st)
    (hJoined : .join s ∈ steps) : s ∈ services telemetryName ∧ ∃ outcome, Came steps s outcome := by
  have hFollows := follows_of_runs h s
  have hAbsent := absent_iff h s
  cases hTask : st.taskOf s with
  | joined outcome =>
    rw [hTask] at hFollows hAbsent
    refine ⟨Decidable.byContradiction fun hNot => ?_, outcome, hFollows.1.1⟩
    cases hAbsent.mpr hNot
  -- anywhere else the task was not joined yet
  | absent | waiting | running | ended | taken =>
    rw [hTask] at hFollows
    exact (hFollows.2 hJoined).elim
  | returned =>
    rw [hTask] at hFollows
    exact (hFollows.2.2 hJoined).elim
  | told =>
    rw [hTask] at hFollows
    exact (hFollows.2.2.2 hJoined).elim

/-- What a step reports that joins a task is the end to which its service came. -/
theorem reports_join_iff {outcome : Outcome} {fails : Service → Outcome → Failure → Prop}
    (h : (start w root listenerName telemetryName ids).runs steps = some st)
    (hTask : st.taskOf s = .taken outcome) :
    -- what a taken task ended with is what it finished with
    Reports fails steps (.join s) failure ↔ fails s outcome failure := by
  have hEnded := follows_of_runs h s
  rw [hTask] at hEnded
  obtain ⟨⟨hCame, -⟩, -⟩ := hEnded
  constructor
  · rintro ⟨t, o, hJoin, hFinished, hFailure⟩
    cases hJoin
    rwa [← (hCame o).mp hFinished]
  · exact fun hFailure => ⟨s, outcome, rfl, (hCame outcome).mpr rfl, hFailure⟩

/-- The failure that is kept is that of the first task that was joined with one, by induction on
    the steps. -/
theorem firstError_iff (h : (start w root listenerName telemetryName ids).runs steps = some st)
    (failure : Failure) :
    st.firstError = some failure ↔
      First steps (Reports (start w root listenerName telemetryName ids).Tells) failure := by
  let st₀ := start w root listenerName telemetryName ids
  refine runs_induction (P := fun steps st => ∀ failure, st.firstError = some failure ↔
    First steps (Reports st₀.Tells) failure) ?_ ?_ h failure
  · rintro failure
    refine iff_of_false nofun ?_
    rintro ⟨before, x, after, hSplit, -⟩
    simp at hSplit
  · intro steps st a st' hRuns ih hMove failure
    have hOther (hNot : ∀ s, a ≠ .join s) (hSame : st'.firstError = st.firstError) :
        st'.firstError = some failure ↔ First (steps ++ [a]) (Reports st₀.Tells) failure := by
      rw [hSame, ih, first_concat, or_iff_left]
      rintro ⟨-, s, outcome, hJoin, -⟩
      exact hNot s hJoin
    cases hMove with
    | @join s outcome hTask =>
      have hTells : st₀.Tells s outcome failure ↔
          (st.failure? s outcome).map Prod.snd = some failure := by
        rw [(sameParties_of_runs hRuns).failure?]
        rfl
      rw [firstError_join, first_concat, reports_join_iff hRuns hTask, hTells]
      cases hError : st.firstError with
      | none =>
        have hNone : ∀ f, ¬ First steps (Reports st₀.Tells) f :=
          fun f hf => nomatch hError.symm.trans ((ih f).mpr hf)
        rw [Option.none_or, or_iff_right (hNone failure),
          and_iff_right (throughout_of_not_first hNone)]
      | some kept =>
        -- a failure was joined before, so this step does not count
        obtain ⟨before, x, after, hSplit, hx, -⟩ := (ih kept).mp hError
        rw [Option.some_or, ← hError, ih, or_iff_left]
        exact fun hNone => hNone.1 before x after hSplit kept hx
    | @begin s => exact hOther nofun (by cases s <;> rfl)
    | panic => exact hOther nofun (firstError_setTask ..)
    | finish => exact hOther nofun (firstError_setTask ..)
    | look => exact hOther nofun (firstError_look ..)
    | take => exact hOther nofun (firstError_setTask ..)
    | write | give | tell | leaveListener | leaveTelemetry | cancel | cancelFor =>
      exact hOther nofun rfl

/-- What a task reports is worded as it should be, if each task has an id of its own. -/
theorem reports_iff (hIds : ids .listener ≠ ids .telemetry) {before after : List Step} {a : Step}
    (h : (start w root listenerName telemetryName ids).runs (before ++ a :: after) = some st) :
    Reports (start w root listenerName telemetryName ids).Tells before a failure ↔
      Reports (start w root listenerName telemetryName ids).FailsAs before a failure := by
  -- the step that reports joins a task of the run, whose name is found
  have hEqual (s : Service) (outcome : Outcome) (hJoin : a = .join s) :
      (start w root listenerName telemetryName ids).Tells s outcome failure ↔
        (start w root listenerName telemetryName ids).FailsAs s outcome failure := by
    have hService : s ∈ services telemetryName :=
      (came_of_join h (List.mem_append_right _ (by simp [hJoin]))).1
    rw [Tells, Option.map_eq_some_iff]
    constructor
    · rintro ⟨⟨name, f⟩, hFailure, rfl⟩
      exact ((failure?_start_iff hIds hService).mp hFailure).2
    · exact fun hFails => ⟨(_, failure), (failure?_start_iff hIds hService).mpr ⟨rfl, hFails⟩, rfl⟩
  constructor
  · rintro ⟨s, outcome, hJoin, hFinished, hTells⟩
    exact ⟨s, outcome, hJoin, hFinished, (hEqual s outcome hJoin).mp hTells⟩
  · rintro ⟨s, outcome, hJoin, hFinished, hFails⟩
    exact ⟨s, outcome, hJoin, hFinished, (hEqual s outcome hJoin).mpr hFails⟩

theorem exists_result_iff : (∃ r, st.result? = some r) ↔ st.isOver = true := by
  rw [result?]
  cases st.isOver <;> simp

theorem result?_eq_ok_iff :
    st.result? = some (.ok ()) ↔ st.isOver = true ∧ st.firstError = none := by
  rw [result?]
  cases st.isOver <;> cases st.firstError <;> simp

theorem result?_eq_error_iff :
    st.result? = some (.error failure) ↔ st.isOver = true ∧ st.firstError = some failure := by
  rw [result?]
  cases st.isOver <;> cases st.firstError <;> simp

/-- No failure is kept of tasks that were all joined if and only if every service returned well. -/
theorem firstError_eq_none_iff
    (h : (start w root listenerName telemetryName ids).runs steps = some st)
    (hJoined : ∀ s ∈ services telemetryName, .join s ∈ steps) :
    st.firstError = none ↔ ∀ s ∈ services telemetryName, .finish s .ok ∈ steps := by
  rw [Option.eq_none_iff_forall_ne_some]
  simp only [ne_eq, firstError_iff h]
  constructor
  · intro hNone s hs
    obtain ⟨before, after, hSplit⟩ := List.append_of_mem (hJoined s hs)
    subst hSplit
    obtain ⟨outcome, hCame, -⟩ := ended_of_join h
    have hFinished := (hCame outcome).mpr rfl
    -- else the failure would be reported where the task is joined
    have hOk : outcome = .ok := by
      rw [← failure?_eq_none_iff (start w root listenerName telemetryName ids) s,
        Option.eq_none_iff_forall_ne_some]
      intro failure hFailure
      exact throughout_of_not_first hNone before _ after rfl failure.2
        ⟨s, outcome, rfl, hFinished, by rw [Tells, hFailure, Option.map_some]⟩
    rw [← hOk]
    exact List.mem_append_left _ hFinished
  · rintro hAll failure ⟨before, a, after, rfl, ⟨s, outcome, rfl, hFinished, hFailure⟩, -⟩
    obtain ⟨hService, o, hCame⟩ := came_of_join h (List.mem_append_right _ List.mem_cons_self)
    have hOutcome := (hCame outcome).mp (List.mem_append_left _ hFinished)
    have hOk := (hCame .ok).mp (hAll s hService)
    rw [hOutcome, ← hOk] at hFailure
    cases hFailure

/-- If some task can always be brought further, then what follows of itself leads to a result, by
    induction on what is left to do.  `P` is what the steps are to be like on the way. -/
theorem exists_result_of_progress {P : List Step → Prop}
    (hProgress : ∀ steps st,
      (start w root listenerName telemetryName ids).runs steps = some st → P steps →
      (∀ s ∈ services telemetryName, ∃ outcome, .finish s outcome ∈ steps) → st.isOver = false →
      ∃ s x taken, Leads st s x taken ∧ taskRank x < taskRank (st.taskOf s) ∧
        ∀ more, more.filterMap Step.takes? = taken → P (steps ++ more))
    (h : (start w root listenerName telemetryName ids).runs steps = some st) (hP : P steps)
    (hFinished : ∀ s ∈ services telemetryName, ∃ outcome, .finish s outcome ∈ steps) :
    ∃ more st' r, (∀ a ∈ more, a.isOwn = true) ∧ P (steps ++ more) ∧ st.runs more = some st' ∧
      st'.result? = some r := by
  -- on the rank, which each of the leads lowers
  induction hRank : st.rank using Nat.strongRecOn generalizing steps st with
  | _ n ih =>
    cases hOver : st.isOver with
    | true =>
      obtain ⟨r, hResult⟩ := exists_result_iff.mpr hOver
      exact ⟨[], st, r, List.forall_mem_nil _, by rwa [List.append_nil], rfl, hResult⟩
    | false =>
      obtain ⟨s, x, taken, ⟨first, mid, hOwn, hTaken, hFirst, hMoved⟩, hLess, hKept⟩ :=
        hProgress steps st h hP hFinished hOver
      -- the run so far and its first lead are a run again, of a lower rank
      have hMid : (start w root listenerName telemetryName ids).runs (steps ++ first) =
          some mid := by
        rw [runs_append, h]
        exact hFirst
      obtain ⟨more, st', r, hMore, hAll, hRuns, hResult⟩ :=
        ih mid.rank (hRank ▸ rank_lt hMoved hLess) hMid (hKept first hTaken)
          (fun s hs => (hFinished s hs).imp fun _ => List.mem_append_left _) rfl
      refine ⟨first ++ more, st', r, List.forall_mem_append.mpr ⟨hOwn, hMore⟩, ?_, ?_, hResult⟩
      · rwa [List.append_assoc] at hAll
      · rw [runs_append, hFirst]
        exact hRuns

/-- A task that is taken in comes first, and else any task that was not joined is brought on. -/
theorem exists_leads (h : (start w root listenerName telemetryName ids).runs steps = some st)
    (hFinished : ∀ s ∈ services telemetryName, ∃ outcome, .finish s outcome ∈ steps)
    (hOpen : st.isOver = false) :
    ∃ s x taken, Leads st s x taken ∧ taskRank x < taskRank (st.taskOf s) := by
  have hNotAll : ¬ ∀ s ∈ services telemetryName, .join s ∈ steps := by
    rw [← isOver_iff h, hOpen]
    exact Bool.false_ne_true
  push Not at hNotAll
  obtain ⟨s, hs, hNotJoined⟩ := hNotAll
  -- if no task is taken in, one that is not joined can be, and otherwise the taken one is next
  by_cases hFree : ∀ t, (st.taskOf t).isTaken = false
  · cases hTask : st.taskOf s with
    | ended o => exact ⟨s, _, _, leads_of_ended hTask hFree, by simp [hTask, taskRank]⟩
    | joined o =>
      have hFollows := follows_of_runs h s
      rw [hTask] at hFollows
      exact (hNotJoined hFollows.2).elim
    -- not ended yet, but it came to its end, so its own steps lead on
    | absent | waiting | running | returned | told | taken =>
      obtain ⟨outcome, hCame⟩ := hFinished s hs
      have hStands (o : Outcome) : st.taskOf s ≠ .ended o ∧ st.taskOf s ≠ .taken o ∧
          st.taskOf s ≠ .joined o := by
        refine ⟨by simp [hTask], fun hTaken => ?_, by simp [hTask]⟩
        exact absurd (hFree s) (by simp [hTaken, Task.isTaken])
      obtain ⟨x, hLeads, hLess⟩ := exists_leads_of_open (follows_of_runs h s) hCame hStands
      exact ⟨s, x, [], hLeads, hLess⟩
  · push Not at hFree
    obtain ⟨t, hTaken⟩ := hFree
    cases hTask : st.taskOf t with
    | taken o => exact ⟨t, _, _, leads_of_taken hTask, by simp [hTask, taskRank]⟩
    | absent | waiting | running | returned | told | ended | joined =>
      simp [hTask, Task.isTaken] at hTaken

/-- From where all services have come to their ends, what follows of itself leads to a result. -/
theorem exists_result_of_finished
    (h : (start w root listenerName telemetryName ids).runs steps = some st)
    (hFinished : ∀ s ∈ services telemetryName, ∃ outcome, .finish s outcome ∈ steps) :
    ∃ more st' r, (∀ a ∈ more, a.isOwn = true) ∧ st.runs more = some st' ∧
      st'.result? = some r := by
  obtain ⟨more, st', r, hOwn, -, hRuns, hResult⟩ :=
    exists_result_of_progress (P := fun _ => True) (fun steps st h _ hFinished hOpen => by
      obtain ⟨s, x, taken, hLeads, hLess⟩ := exists_leads h hFinished hOpen
      exact ⟨s, x, taken, hLeads, hLess, fun _ _ => trivial⟩) h trivial hFinished
  exact ⟨more, st', r, hOwn, hRuns, hResult⟩

/-- A failure that is kept stays. -/
theorem firstError_of_runs {st' : State} {more : List Step} (hKept : st.firstError = some failure)
    (h : st.runs more = some st') : st'.firstError = some failure := by
  refine runs_induction (P := fun _ st => st.firstError = some failure) hKept ?_ h
  intro _ mid a next _ hMid hMove
  -- only a join writes the first error, and only where there was none
  cases hMove with
  | join => rw [firstError_join, hMid, Option.some_or]
  | @begin s => cases s <;> exact hMid
  | panic => rwa [firstError_setTask]
  | finish => rwa [firstError_setTask]
  | look => rwa [firstError_look]
  | take => exact (firstError_setTask ..).trans hMid
  | write | give | tell | leaveListener | leaveTelemetry | cancel | cancelFor => exact hMid

end

end State

/-! ### The result -/

/-- The result of a supervised run, with or without telemetry, however the services end, in
    whatever order the tasks are joined, and whoever cancels what in between.  The tasks have
    different ids.

    There is a result if and only if the task of each service was joined, and a task is joined
    only after it ended.  The run succeeds if and only if each service returned well.  It fails
    with a failure if and only if that is the failure of the first task that was joined with one;
    one that is kept is kept for good.  Once all services have come to their ends, what follows
    of itself leads to a result. -/
theorem result_of_runs (w : Scopes) (root : Scope) (listenerName : String)
    (telemetryName : Option String) (ids : Service → TaskId) (steps : List Step) (st : State)
    (hIds : ids .listener ≠ ids .telemetry)
    (h : (State.start w root listenerName telemetryName ids).runs steps = some st) :
    let names := (State.start w root listenerName telemetryName ids).nameOf
    ((∃ r, st.result? = some r) ↔ ∀ s ∈ services telemetryName, .join s ∈ steps) ∧
      (∀ before s after, steps = before ++ .join s :: after →
        ∃ outcome, Ended before s outcome) ∧
      (st.result? = some (.ok ()) ↔
        ∀ s ∈ services telemetryName, .join s ∈ steps ∧ .finish s .ok ∈ steps) ∧
      (∀ failure, st.result? = some (.error failure) ↔
        (∀ s ∈ services telemetryName, .join s ∈ steps) ∧
          First steps (Reports fun s => Fails (names s) (ids s)) failure) ∧
      (∀ failure more st', st.firstError = some failure → st.runs more = some st' →
        st'.firstError = some failure) ∧
      ((∀ s ∈ services telemetryName, ∃ outcome, .finish s outcome ∈ steps) →
        ∃ more st' r, (∀ a ∈ more, a.isOwn = true) ∧ st.runs more = some st' ∧
          st'.result? = some r) := by
  intro names
  -- the six parts are each a lemma about runs, about the same steps
  have hOver := State.isOver_iff h
  refine ⟨State.exists_result_iff.trans hOver, ?_, ?_, ?_, ?_, ?_⟩
  · rintro before s after rfl
    exact State.ended_of_join h
  · rw [State.result?_eq_ok_iff, hOver]
    constructor
    · rintro ⟨hJoined, hNone⟩ s hs
      exact ⟨hJoined s hs, (State.firstError_eq_none_iff h hJoined).mp hNone s hs⟩
    · intro hAll
      have hJoined : ∀ s ∈ services telemetryName, .join s ∈ steps := fun s hs => (hAll s hs).1
      exact ⟨hJoined, (State.firstError_eq_none_iff h hJoined).mpr fun s hs => (hAll s hs).2⟩
  · intro failure
    -- the words of a failure depend on the names and ids only
    have hWorded : (State.start w root listenerName telemetryName ids).FailsAs =
        fun s => Fails (names s) (ids s) := by
      funext s
      cases s <;> rfl
    rw [State.result?_eq_error_iff, hOver, State.firstError_iff h, ← hWorded]
    refine and_congr_right' (first_congr ?_)
    rintro before a after f rfl
    exact State.reports_iff hIds h
  · exact fun failure more st' => State.firstError_of_runs
  · exact State.exists_result_of_finished h

/-! Telemetry panics, and after that the listener fails, but its task is joined first. -/

private def taskIds : Service → TaskId
  | .listener => ⟨7, "7"⟩
  | .telemetry => ⟨8, "8"⟩

private def lateJoin : List Step :=
  [.begin .listener, .begin .telemetry, .finish .telemetry (.panicked (some "poisoned")),
    .look (.other ⟨0, []⟩ "received SIGTERM"), .give (.other ⟨0, []⟩ "received SIGTERM"),
    .cancel ⟨0, []⟩ (some "received SIGTERM"), .finish .listener (.failed ["session closed"]),
    .look .listener, .tell, .leave .listener, .take .listener, .look (.supervisor .listener),
    .join .listener, .take .telemetry, .join .telemetry]

theorem result_of_runs_late_join :
    ∃ st, (State.start Scopes.empty.root.2 Scopes.empty.root.1 "listener"
        (some "telemetry") taskIds).runs lateJoin = some st ∧
      st.result? = some (.error ["session closed"]) ∧
      First lateJoin (Reports fun s => Fails ((State.start Scopes.empty.root.2 Scopes.empty.root.1
        "listener" (some "telemetry") taskIds).nameOf s) (taskIds s)) ["session closed"] ∧
      ∀ more st', st.runs more = some st' → st'.firstError = some ["session closed"] := by
  cases h : (State.start Scopes.empty.root.2 Scopes.empty.root.1 "listener"
      (some "telemetry") taskIds).runs lateJoin with
  | none => exact absurd h (by decide)
  | some st =>
    have hResult : st.result? = some (.error ["session closed"]) := by
      rw [← Option.some.inj h]
      decide
    obtain ⟨-, -, -, hFailed, hKept, -⟩ := result_of_runs _ _ _ _ _ lateJoin st (by decide) h
    refine ⟨st, rfl, hResult, ((hFailed _).mp hResult).2, fun more st' => hKept _ more st' ?_⟩
    exact (State.result?_eq_error_iff.mp hResult).2

end Supervisor

end RunnerPool
