import RunnerPool.Proofs.Scope.History
import RunnerPool.Proofs.Supervisor.Result

/-!
# Calls that cancel a scope for a cause

Such a call looks at its scope, gives it the cause if it found it open, and cancels it, and others
can come in between.  What the scopes are given and which of them are cancelled can be read off the
steps of a run.

* `Hits`                a step can cancel the scope of this number
* `Says`                the scope that a caller cancels, and the cause
* `Stops`               a step cancels a scope, for a cause if there is one
* `Gives`               a step gives a scope its cause
* `Step.outside?`       the scope on which someone else acts

## Main statements

- `mem_cancelled_iff`: which scopes are cancelled after a run
- `ownCause_eq_some_iff`: which cause a scope has after a run
- `ownCause_of_over`: a scope that is over keeps its cause as long as no call is late
- `cancelling_iff`: before anything is cancelled, a call that has looked and given is under way
-/

namespace RunnerPool

/-- A scope takes a cause if it has none. -/
theorem Scopes.ownCause_giveCause (w : Scopes) (s : Scope) (why : String) (i : Nat) :
    (w.giveCause s why).ownCause i =
      if i = s.id then (w.ownCause i).or (some why) else w.ownCause i := by
  rw [giveCause]
  -- a scope that has a cause keeps it, so `or` is right for both branches
  split
  · rename_i hHas
    obtain ⟨kept, hKept⟩ := Option.isSome_iff_exists.mp hHas
    split
    · rename_i hSame
      rw [hSame, hKept, Option.some_or]
    · rfl
  · rename_i hNone
    rw [Option.not_isSome_iff_eq_none] at hNone
    rw [ownCause, List.lookup_cons]
    by_cases hSame : i = s.id
    · rw [if_pos hSame, hSame, hNone]
      simp
    · have hOther : (i == s.id) = false := beq_eq_false_iff_ne.mpr hSame
      rw [if_neg hSame, hOther]
      rfl

theorem Scopes.cancelled_giveCause (w : Scopes) (s : Scope) (why : String) :
    (w.giveCause s why).cancelled = w.cancelled := by
  rw [giveCause]
  split <;> rfl

theorem Scopes.isCancelled_mono {w w' : Scopes} {x : Scope} (h : w.cancelled ⊆ w'.cancelled)
    (hOver : w.isCancelled x = true) : w'.isCancelled x = true := by
  obtain ⟨i, hAround, hIn⟩ := (isCancelled_iff w x).mp hOver
  exact (isCancelled_iff w' x).mpr ⟨i, hAround, h hIn⟩

namespace Supervisor

/-! ### What callers say -/

/-- In a run from this start, what a caller says after these steps: the scope that it cancels, and
    the cause. -/
inductive Says (st₀ : State) (before : List Step) : Caller → Scope → String → Prop
  /-- Someone else can cancel any scope for any cause. -/
  | outside (scope : Scope) (why : String) : Says st₀ before (.other scope why) scope why
  /-- The supervisor cancels the group for a failure. -/
  | failed {s : Service} {outcome : Outcome} {failure : Failure}
    (hCame : .finish s outcome ∈ before)
    (hFails : Fails (st₀.nameOf s) (st₀.idOf s) outcome failure) :
    Says st₀ before (.supervisor s) st₀.group
      (st₀.nameOf s ++ " failed: " ++ String.intercalate ": " failure)
  /-- The listener's task cancels the scope of telemetry when the listener has returned. -/
  | exitedWell (hCame : .finish .listener .ok ∈ before) :
    Says st₀ before .listener st₀.telemetryScope "listener exited: ok"
  | exited {failure : Failure} (hCame : .finish .listener (.failed failure) ∈ before) :
    Says st₀ before .listener st₀.telemetryScope
      ("listener exited: " ++ String.intercalate ": " failure)

/-- The caller whose call the step ends. -/
def Step.caller? : Step → Option Caller
  | .tell => some .listener
  | .join s => some (.supervisor s)
  | .cancel scope (some why) => some (.other scope why)
  | _ => none

/-- The step cancels the scope, for the cause if there is one. -/
inductive Stops (st₀ : State) (before : List Step) : Step → Scope → Option String → Prop
  /-- Someone else cancels a scope without a cause. -/
  | quietly (scope : Scope) : Stops st₀ before (.cancel scope none) scope none
  /-- A call comes to its end. -/
  | call {a : Step} {c : Caller} {scope : Scope} {why : String} (hEnds : a.caller? = some c)
    (hSays : Says st₀ before c scope why) : Stops st₀ before a scope (some why)

/-- The step gives the scope this cause, unless the scope has one. -/
def Gives (st₀ : State) (before : List Step) (a : Step) (scope : Scope) (why : String) : Prop :=
  ∃ c, a = .give c ∧ Says st₀ before c scope why

/-- The scope on which someone else acts. -/
def Step.outside? : Step → Option Scope
  | .look (.other scope _) | .give (.other scope _) | .cancel scope _ => some scope
  | _ => none

theorem Says.target {st₀ : State} {before : List Step} {c : Caller} {y : Scope} {why : String}
    (h : Says st₀ before c y why) : y = st₀.target c := by
  cases h <;> rfl

namespace State

/-! ### Who cancels what -/

/-- The step can cancel the scope of this number. -/
inductive Hits (st : State) : Step → Nat → Prop
  | told : Hits st .tell st.telemetryScope.id
  | joined (s : Service) : Hits st (.join s) st.group.id
  | outside (scope : Scope) (cause : Option String) : Hits st (.cancel scope cause) scope.id

section

variable {st st' : State} {a : Step} {steps : List Step} {i : Nat}

theorem SameParties.hits (h : SameParties st st') (hHits : Hits st' a i) : Hits st a i := by
  cases hHits with
  | told => exact h.telemetryScope ▸ .told
  | joined s => exact h.group ▸ .joined s
  | outside scope cause => exact .outside scope cause

/-- A step cancels one scope at most, and leaves cancelled what is. -/
theorem Move.cancelled (h : Move st a st') : st'.scopes.cancelled = st.scopes.cancelled ∨
    ∃ i, Hits st a i ∧ st'.scopes.cancelled = i :: st.scopes.cancelled := by
  cases h with
  | begin => exact Or.inl (congrArg Scopes.cancelled (scopes_setTask ..))
  | panic => exact Or.inl (congrArg Scopes.cancelled (scopes_setTask ..))
  | finish => exact Or.inl (congrArg Scopes.cancelled (scopes_setTask ..))
  | look => exact Or.inl (congrArg Scopes.cancelled (scopes_look ..))
  | give => exact Or.inl (Scopes.cancelled_giveCause ..)
  | take => exact Or.inl (congrArg Scopes.cancelled (scopes_setTask ..))
  | write | leaveListener | leaveTelemetry => exact Or.inl rfl
  | tell => exact Or.inr ⟨_, .told, rfl⟩
  -- the supervisor cancels the group at a first failure only
  | join =>
    rw [scopes_join]
    split
    · exact Or.inl rfl
    · exact Or.inr ⟨_, .joined _, rfl⟩
  | cancel scope => exact Or.inr ⟨_, .outside scope none, rfl⟩
  | @cancelFor scope why => exact Or.inr ⟨_, .outside scope (some why), rfl⟩

/-- What is cancelled stays cancelled over a step. -/
theorem Move.cancelled_subset (h : Move st a st') : st.scopes.cancelled ⊆ st'.scopes.cancelled := by
  rcases h.cancelled with hSame | ⟨i, -, hMore⟩
  · rw [hSame]
    exact List.Subset.refl _
  · rw [hMore]
    exact List.subset_cons_self i _

/-- What is cancelled stays cancelled. -/
theorem cancelled_subset_of_runs (h : st.runs steps = some st') :
    st.scopes.cancelled ⊆ st'.scopes.cancelled :=
  runs_induction (P := fun _ mid => st.scopes.cancelled ⊆ mid.scopes.cancelled)
    (List.Subset.refl _)
    (fun _ _ _ _ _ hMid hMove => List.Subset.trans hMid hMove.cancelled_subset) h

/-- What is cancelled after a run was so before it, or a step of the run has cancelled it. -/
theorem mem_cancelled_of_runs (h : st.runs steps = some st') (hIn : i ∈ st'.scopes.cancelled) :
    i ∈ st.scopes.cancelled ∨ ∃ a ∈ steps, Hits st a i := by
  refine runs_induction (P := fun steps mid => i ∈ mid.scopes.cancelled →
    i ∈ st.scopes.cancelled ∨ ∃ a ∈ steps, Hits st a i) Or.inl ?_ h hIn
  intro steps mid a next hRuns ih hMove hNext
  have hEarlier (hMid : i ∈ mid.scopes.cancelled) :
      i ∈ st.scopes.cancelled ∨ ∃ b ∈ steps ++ [a], Hits st b i :=
    (ih hMid).imp_right fun ⟨b, hb, hHits⟩ => ⟨b, List.mem_append_left _ hb, hHits⟩
  -- the step cancels nothing, or one scope that it hits
  rcases hMove.cancelled with hSame | ⟨j, hHits, hMore⟩
  · exact hEarlier (hSame ▸ hNext)
  · rcases List.mem_cons.mp (hMore ▸ hNext) with rfl | hMid
    · exact Or.inr ⟨a, List.mem_append_right _ List.mem_cons_self,
        (sameParties_of_runs hRuns).hits hHits⟩
    · exact hEarlier hMid

/-- A scope that is open after a run was so in its course. -/
theorem notMem_cancelled_of_runs {x : Scope} (h : st.runs steps = some st')
    (hOpen : st'.scopes.isCancelled x = false) (hAround : i ∈ x.lineage) :
    i ∉ st.scopes.cancelled := by
  intro hIn
  have hCancelled : st'.scopes.isCancelled x = true :=
    (Scopes.isCancelled_iff _ _).mpr ⟨i, hAround, cancelled_subset_of_runs h hIn⟩
  exact Bool.false_ne_true (hOpen.symm.trans hCancelled)

/-- A step that gives no cause leaves the causes as they are. -/
theorem Move.causes (h : Move st a st') (hNot : ∀ c, a ≠ .give c) :
    st'.scopes.causes = st.scopes.causes := by
  cases h with
  | begin => exact congrArg Scopes.causes (scopes_setTask ..)
  | panic => exact congrArg Scopes.causes (scopes_setTask ..)
  | finish => exact congrArg Scopes.causes (scopes_setTask ..)
  | look => exact congrArg Scopes.causes (scopes_look ..)
  | give => exact (hNot _ rfl).elim
  | take => exact congrArg Scopes.causes (scopes_setTask ..)
  | write | tell | leaveListener | leaveTelemetry | cancel | cancelFor => rfl
  | join =>
    rw [scopes_join]
    split <;> rfl

/-- A step that is no look and gives no cause leaves alone the calls that are to give theirs. -/
theorem Move.giving (h : Move st a st') (hNot : ∀ c, a ≠ .look c ∧ a ≠ .give c) :
    st'.giving = st.giving := by
  cases h with
  | @begin s => cases s <;> rfl
  | @panic s => cases s <;> rfl
  | @finish s => cases s <;> rfl
  | look => exact ((hNot _).1 rfl).elim
  | give => exact ((hNot _).2 rfl).elim
  | @take s => cases s <;> rfl
  | write | tell | leaveListener | leaveTelemetry | cancel | cancelFor => rfl
  | @join s =>
    rw [State.join]
    split <;> cases s <;> rfl

end

/-! ### Runs from the start -/

section

variable {w : Scopes} {root : Scope} {listenerName : String} {telemetryName : Option String}
  {ids : Service → TaskId} {steps : List Step} {st st' : State} {a : Step} {c : Caller}
  {y z : Scope} {why other : String} {i : Nat}

/-- What the supervisor says of a task is what the task reports. -/
theorem says_supervisor_iff (hIds : ids .listener ≠ ids .telemetry)
    (hRuns : (start w root listenerName telemetryName ids).runs steps = some st) {s : Service}
    {outcome : Outcome} (hTask : st.taskOf s = .taken outcome) :
    Says (start w root listenerName telemetryName ids) steps (.supervisor s) y why ↔
      y = (start w root listenerName telemetryName ids).group ∧
        (st.failure? s outcome).map (fun (name, failure) =>
          name ++ " failed: " ++ chainText failure) = some why := by
  -- the task is one of the run's, so its name is found by its id
  have hService : s ∈ services telemetryName := by
    by_contra hNot
    have hAbsent := (absent_iff hRuns s).mpr hNot
    rw [hTask] at hAbsent
    cases hAbsent
  have hFollows := follows_of_runs hRuns s
  rw [hTask] at hFollows
  -- what the task ended with is the one outcome it came to
  obtain ⟨⟨hCame, -⟩, -⟩ := hFollows
  rw [(sameParties_of_runs hRuns).failure?]
  constructor
  · rintro (_ | ⟨hFinished, hFails⟩)
    rw [(hCame _).mp hFinished] at hFails
    rw [(failure?_start_iff hIds hService).mpr ⟨rfl, hFails⟩]
    exact ⟨rfl, rfl⟩
  · rintro ⟨rfl, hSame⟩
    obtain ⟨⟨name, failure⟩, hFailure, rfl⟩ := Option.map_eq_some_iff.mp hSame
    obtain ⟨rfl, hFails⟩ := (failure?_start_iff hIds hService).mp hFailure
    exact .failed ((hCame outcome).mpr rfl) hFails

/-- What a caller says that is about to cancel its scope. -/
theorem says_iff (hIds : ids .listener ≠ ids .telemetry)
    (hRuns : (start w root listenerName telemetryName ids).runs steps = some st)
    (hWhy : st.why? c = some why) :
    Says (start w root listenerName telemetryName ids) steps c y other ↔
      y = (start w root listenerName telemetryName ids).target c ∧ other = why := by
  -- what a caller says is fixed by what its task came to, or by the call itself
  cases c with
  | listener =>
    rw [why?] at hWhy
    split at hWhy
    · rename_i outcome hTask
      cases hWhy
      have hFollows := follows_of_runs hRuns .listener
      rw [taskOf, hTask] at hFollows
      -- the listener came to one outcome, and each of the ways to word it names that one
      obtain ⟨hCame, hReturned, -⟩ := hFollows
      constructor
      · rintro (_ | _ | hFinished | hFinished)
        · rw [← (hCame _).mp hFinished]
          exact ⟨rfl, rfl⟩
        · rw [← (hCame _).mp hFinished]
          exact ⟨rfl, rfl⟩
      · rintro ⟨rfl, rfl⟩
        have hFinished := (hCame outcome).mpr rfl
        cases outcome with
        | ok => exact .exitedWell hFinished
        | failed failure => exact .exited hFinished
        | panicked message => exact (hReturned message rfl).elim
    · cases hWhy
  | supervisor s =>
    rw [why?] at hWhy
    split at hWhy
    · rename_i outcome hTask
      -- the supervisor has something to say at the first failure only
      have hNone : st.firstError = none := by
        rw [firstFailure?] at hWhy
        split at hWhy
        · cases hWhy
        · rename_i hNone
          exact hNone
      rw [says_supervisor_iff hIds hRuns hTask, ← firstFailure?_eq s outcome hNone, hWhy,
        Option.some.injEq, eq_comm (a := why)]
      rfl
    · cases hWhy
  | other scope cause =>
    cases hWhy
    constructor
    · rintro ⟨⟩
      exact ⟨rfl, rfl⟩
    · rintro ⟨rfl, rfl⟩
      exact .outside _ _

/-- Once a failure is kept, the group is cancelled. -/
theorem mem_cancelled_of_firstError
    (h : (start w root listenerName telemetryName ids).runs steps = some st)
    (hError : st.firstError ≠ none) : st.group.id ∈ st.scopes.cancelled := by
  refine runs_induction (P := fun _ st => st.firstError ≠ none →
    st.group.id ∈ st.scopes.cancelled) (fun hNot => (hNot rfl).elim) ?_ h hError
  intro _ mid a next _ ih hMove hNext
  rw [hMove.sameParties.group]
  by_cases hBefore : mid.firstError = none
  · cases hMove with
    | @join s outcome hTask =>
      -- the failure that is kept now is the first one
      have hFirst : mid.firstFailure? s outcome ≠ none := by
        rw [firstError_join, hBefore, Option.none_or, ne_eq, Option.map_eq_none_iff] at hNext
        rwa [firstFailure?_eq s outcome hBefore]
      rw [scopes_join, if_neg hFirst]
      exact List.mem_cons_self
    | @begin s => exact (hNext (by cases s <;> exact hBefore)).elim
    | panic => exact (hNext ((firstError_setTask ..).trans hBefore)).elim
    | finish => exact (hNext ((firstError_setTask ..).trans hBefore)).elim
    | look => exact (hNext ((firstError_look ..).trans hBefore)).elim
    | take => exact (hNext ((firstError_setTask ..).trans hBefore)).elim
    | write | give | tell | leaveListener | leaveTelemetry | cancel | cancelFor =>
      exact (hNext hBefore).elim
  · exact hMove.cancelled_subset (ih hBefore)

/-- A step cancels a scope as `Stops` says, and no other one, or what it would cancel is cancelled
    already. -/
theorem Move.stops (hIds : ids .listener ≠ ids .telemetry)
    (hRuns : (start w root listenerName telemetryName ids).runs steps = some st)
    (hMove : Move st a st') :
    let st₀ := start w root listenerName telemetryName ids
    (∃ y cause, st'.scopes.cancelled = y.id :: st.scopes.cancelled ∧
      ∀ z other, Stops st₀ steps a z other ↔ z = y ∧ other = cause) ∨
    st'.scopes.cancelled = st.scopes.cancelled ∧
      ∀ z other, Stops st₀ steps a z other → z.id ∈ st.scopes.cancelled := by
  intro st₀
  have hParties := sameParties_of_runs hRuns
  have hSame (hCaller : a.caller? = none) (hQuiet : ∀ scope, a ≠ .cancel scope none)
      (hScopes : st'.scopes.cancelled = st.scopes.cancelled) :
      st'.scopes.cancelled = st.scopes.cancelled ∧
        ∀ z other, Stops st₀ steps a z other → z.id ∈ st.scopes.cancelled := by
    refine ⟨hScopes, ?_⟩
    rintro z other (_ | ⟨hEnds, -⟩)
    · exact (hQuiet _ rfl).elim
    · cases hCaller.symm.trans hEnds
  -- a call that comes to its end stops its own scope, for what its caller says
  have hCall {c : Caller} {cause : String} (hCaller : a.caller? = some c)
      (hQuiet : ∀ scope, a ≠ .cancel scope none) (hWhy : st.why? c = some cause) (z : Scope)
      (other : Option String) :
      Stops st₀ steps a z other ↔ z = st₀.target c ∧ other = some cause := by
    constructor
    · rintro (_ | ⟨hEnds, hSays⟩)
      · exact (hQuiet _ rfl).elim
      · cases hCaller.symm.trans hEnds
        obtain ⟨rfl, rfl⟩ := (says_iff hIds hRuns hWhy).mp hSays
        exact ⟨rfl, rfl⟩
    · rintro ⟨rfl, rfl⟩
      exact .call hCaller ((says_iff hIds hRuns hWhy).mpr ⟨rfl, rfl⟩)
  cases hMove with
  | begin => exact Or.inr (hSame rfl (by simp) (congrArg Scopes.cancelled (scopes_setTask ..)))
  | panic => exact Or.inr (hSame rfl (by simp) (congrArg Scopes.cancelled (scopes_setTask ..)))
  | finish => exact Or.inr (hSame rfl (by simp) (congrArg Scopes.cancelled (scopes_setTask ..)))
  | look => exact Or.inr (hSame rfl (by simp) (congrArg Scopes.cancelled (scopes_look ..)))
  | give => exact Or.inr (hSame rfl (by simp) (Scopes.cancelled_giveCause ..))
  | take => exact Or.inr (hSame rfl (by simp) (congrArg Scopes.cancelled (scopes_setTask ..)))
  | write => exact Or.inr (hSame rfl (by simp) rfl)
  | leaveListener => exact Or.inr (hSame rfl (by simp) rfl)
  | leaveTelemetry => exact Or.inr (hSame rfl (by simp) rfl)
  | @tell outcome hTask =>
    refine Or.inl ⟨st₀.telemetryScope, some (farewell outcome), ?_,
      hCall (c := .listener) rfl (by simp) (by simp only [why?, hTask])⟩
    rw [← hParties.telemetryScope]
    rfl
  | @join s outcome hTask =>
    rw [scopes_join]
    cases hFirst : st.firstFailure? s outcome with
    | some failure =>
      refine Or.inl ⟨st₀.group, some (failure.1 ++ " failed: " ++ chainText failure.2), ?_,
        hCall (c := .supervisor s) rfl (by simp) ?_⟩
      · rw [if_neg (Option.some_ne_none _), hParties.group]
        rfl
      · rw [why?_supervisor hTask, hFirst]
        rfl
    | none =>
      refine Or.inr ⟨rfl, ?_⟩
      rintro z other (_ | ⟨hEnds, hSays⟩)
      cases hEnds
      obtain ⟨rfl, hFailure⟩ := (says_supervisor_iff hIds hRuns hTask).mp hSays
      -- there is a failure, so it is not the first one
      have hError : st.firstError ≠ none := by
        intro hNone
        rw [← firstFailure?_eq s outcome hNone, hFirst] at hFailure
        cases hFailure
      rw [← hParties.group]
      exact mem_cancelled_of_firstError hRuns hError
  | cancel scope =>
    refine Or.inl ⟨scope, none, rfl, fun z other => ⟨?_, ?_⟩⟩
    · rintro (_ | ⟨hEnds, -⟩)
      · exact ⟨rfl, rfl⟩
      · cases hEnds
    · rintro ⟨rfl, rfl⟩
      exact .quietly z
  | @cancelFor scope why =>
    exact Or.inl ⟨scope, some why, rfl, hCall (c := .other scope why) rfl (by simp) rfl⟩

/-- After a run those scopes are cancelled that were so at the start or that a step has cancelled,
    by induction on the steps. -/
theorem mem_cancelled_iff (hIds : ids .listener ≠ ids .telemetry)
    (hRuns : (start w root listenerName telemetryName ids).runs steps = some st) :
    i ∈ st.scopes.cancelled ↔ i ∈ w.cancelled ∨ ∃ cause, First steps (fun before a cause =>
      ∃ y, Stops (start w root listenerName telemetryName ids) before a y cause ∧ y.id = i)
      cause := by
  let st₀ := start w root listenerName telemetryName ids
  refine runs_induction (P := fun steps st => i ∈ st.scopes.cancelled ↔ i ∈ w.cancelled ∨
    ∃ cause, First steps (fun before a cause => ∃ y, Stops st₀ before a y cause ∧ y.id = i) cause)
    ?_ ?_ hRuns
  -- at the start no step was taken, so what is cancelled was so before
  · refine (or_iff_left ?_).symm
    rintro ⟨cause, before, x, after, hSplit, -⟩
    simp at hSplit
  · intro steps st a st' hRuns ih hMove
    rw [exists_first_concat, ← or_assoc, ← ih]
    -- a step adds the one scope it stops, or all it would stop is cancelled already
    rcases hMove.stops hIds hRuns with ⟨y, cause, hMore, hStops⟩ | ⟨hSame, hEarlier⟩
    · rw [hMore, List.mem_cons, or_comm]
      refine or_congr_right ⟨?_, ?_⟩
      · rintro rfl
        exact ⟨cause, y, (hStops y cause).mpr ⟨rfl, rfl⟩, rfl⟩
      · rintro ⟨other, z, hz, rfl⟩
        rw [((hStops z other).mp hz).1]
    · rw [hSame]
      refine (or_iff_left_of_imp ?_).symm
      rintro ⟨other, z, hz, rfl⟩
      exact hEarlier z other hz

/-- A step gives a cause as `Gives` says, or it leaves the causes as they are. -/
theorem Move.gives (hIds : ids .listener ≠ ids .telemetry)
    (hRuns : (start w root listenerName telemetryName ids).runs steps = some st)
    (hMove : Move st a st') :
    let st₀ := start w root listenerName telemetryName ids
    (∃ y why, st'.scopes = st.scopes.giveCause y why ∧
      ∀ z other, Gives st₀ steps a z other ↔ z = y ∧ other = why) ∨
    st'.scopes.causes = st.scopes.causes ∧ ∀ z other, ¬ Gives st₀ steps a z other := by
  intro st₀
  -- `give` is the one step that hands over a cause
  by_cases hGive : ∃ c, a = .give c
  · obtain ⟨c, rfl⟩ := hGive
    cases hMove with
    | @give _ why hWhy =>
      refine Or.inl ⟨st₀.target c, why, ?_, fun z other => ?_⟩
      · rw [← (sameParties_of_runs hRuns).target]
        rfl
      · rw [← says_iff hIds hRuns hWhy, Gives]
        constructor
        · rintro ⟨c', ⟨⟩, hSays⟩
          exact hSays
        · exact fun hSays => ⟨c, rfl, hSays⟩
  · refine Or.inr ⟨hMove.causes fun c hc => hGive ⟨c, hc⟩, ?_⟩
    rintro z other ⟨c, hc, -⟩
    exact hGive ⟨c, hc⟩

/-- After a run a scope has the cause that it had at the start, or else the first that a step has
    given it, by induction on the steps. -/
theorem ownCause_eq_some_iff (hIds : ids .listener ≠ ids .telemetry)
    (hRuns : (start w root listenerName telemetryName ids).runs steps = some st) :
    st.scopes.ownCause i = some why ↔ w.ownCause i = some why ∨ w.ownCause i = none ∧
      First steps (fun before a why =>
        ∃ y, Gives (start w root listenerName telemetryName ids) before a y why ∧ y.id = i)
        why := by
  let st₀ := start w root listenerName telemetryName ids
  refine runs_induction (P := fun steps st => ∀ why, st.scopes.ownCause i = some why ↔
    w.ownCause i = some why ∨ w.ownCause i = none ∧ First steps (fun before a why =>
      ∃ y, Gives st₀ before a y why ∧ y.id = i) why) ?_ ?_ hRuns why
  · refine fun why => (or_iff_left ?_).symm
    rintro ⟨-, before, x, after, hSplit, -⟩
    simp at hSplit
  · intro steps st a st' hRuns ih hMove why
    rw [first_concat, and_or_left, ← or_assoc, ← ih]
    rcases hMove.gives hIds hRuns with ⟨y, given, hScopes, hGives⟩ | ⟨hCauses, hNone⟩
    · rw [hScopes, Scopes.ownCause_giveCause]
      by_cases hHere : i = y.id
      · have hGivenHere (other : String) : (∃ z, Gives st₀ steps a z other ∧ z.id = i) ↔
            other = given := by
          constructor
          · rintro ⟨z, hz, -⟩
            exact ((hGives z other).mp hz).2
          · rintro rfl
            exact ⟨y, (hGives y _).mpr ⟨rfl, rfl⟩, hHere.symm⟩
        rw [if_pos hHere, hGivenHere]
        cases hOwn : st.scopes.ownCause i with
        | some kept =>
          -- a scope that has a cause does not take another one
          have hHad := (ih kept).mp hOwn
          rw [Option.some_or, or_iff_left]
          rintro ⟨hFresh, hThroughout, -⟩
          rcases hHad with hStart | ⟨-, hFirst⟩
          · cases hFresh.symm.trans hStart
          · exact hFirst.not_throughout hThroughout
        | none =>
          have hNot (other : String) : ¬ (w.ownCause i = some other ∨ w.ownCause i = none ∧
              First steps (fun before a why => ∃ y, Gives st₀ before a y why ∧ y.id = i) other) :=
            fun h => nomatch hOwn.symm.trans ((ih other).mpr h)
          have hFresh : w.ownCause i = none := Option.eq_none_iff_forall_ne_some.mpr
            fun other hOther => hNot other (Or.inl hOther)
          have hThroughout := throughout_of_not_first fun other hFirst =>
            hNot other (Or.inr ⟨hFresh, hFirst⟩)
          rw [Option.none_or, Option.some.injEq, or_iff_right nofun, and_iff_right hFresh,
            and_iff_right hThroughout, eq_comm]
      · rw [if_neg hHere, or_iff_left]
        rintro ⟨-, -, z, hz, rfl⟩
        exact hHere (congrArg Scope.id ((hGives z _).mp hz).1)
    · have hSame : st'.scopes.ownCause i = st.scopes.ownCause i := by
        rw [Scopes.ownCause, Scopes.ownCause, hCauses]
      rw [hSame, or_iff_left]
      rintro ⟨-, -, z, hz, -⟩
      exact hNone z _ hz

/-! ### Calls that come too late -/

/-- A scope that is over keeps its cause, or keeps being without one, if no call is under way that
    found it open: who looks at it from now on finds it over. -/
theorem ownCause_of_over (hOver : st.scopes.isCancelled z = true) (hIdle : st.giving = [])
    (hApart : ∀ c, .look c ∈ steps → (st.target c).id = z.id → st.target c = z)
    (hRuns : st.runs steps = some st') : st'.scopes.ownCause z.id = st.scopes.ownCause z.id := by
  have hKept : st'.scopes.ownCause z.id = st.scopes.ownCause z.id ∧
      ∀ c ∈ st'.giving, (st.target c).id ≠ z.id := by
    refine runs_induction (P := fun steps mid =>
      (∀ c, .look c ∈ steps → (st.target c).id = z.id → st.target c = z) →
        mid.scopes.ownCause z.id = st.scopes.ownCause z.id ∧
          ∀ c ∈ mid.giving, (st.target c).id ≠ z.id)
      (fun _ => ⟨rfl, by simp [hIdle]⟩) ?_ hRuns hApart
    intro steps mid a next hMid ih hMove hApart
    obtain ⟨hCause, hGiving⟩ := ih fun c hc => hApart c (List.mem_append_left _ hc)
    have hParties := sameParties_of_runs hMid
    have hOverNow := Scopes.isCancelled_mono (cancelled_subset_of_runs hMid) hOver
    by_cases hCall : ∃ c, a = .look c ∨ a = .give c
    · obtain ⟨c, rfl | rfl⟩ := hCall
      · cases hMove with
        | look =>
          refine ⟨by rw [scopes_look, hCause], fun d hd => ?_⟩
          rw [State.look] at hd
          split at hd
          · exact hGiving d hd
          · rename_i hOpen
            rcases List.mem_cons.mp hd with rfl | hIn
            · -- this scope was found open, so it is another one
              intro hSame
              rw [hParties.target, hApart d (by simp) hSame] at hOpen
              exact hOpen hOverNow
            · exact hGiving d hIn
      · cases hMove with
        | give hWhy hIn =>
          refine ⟨?_, fun d hd => hGiving d (List.mem_of_mem_erase hd)⟩
          rw [State.give, Scopes.ownCause_giveCause, hParties.target, if_neg, hCause]
          exact fun hSame => hGiving c hIn hSame.symm
    · push Not at hCall
      have hCauses := hMove.causes fun c => (hCall c).2
      rw [hMove.giving hCall, Scopes.ownCause, hCauses]
      exact ⟨hCause, hGiving⟩
  exact hKept.1

/-- As long as nothing was cancelled, the calls that are to cancel their scope are those that have
    given it their cause. -/
theorem cancelling_iff (hIds : ids .listener ≠ ids .telemetry)
    (hRuns : (start w root listenerName telemetryName ids).runs steps = some st)
    (hQuiet : Throughout steps fun before a => ∀ y cause,
      ¬ Stops (start w root listenerName telemetryName ids) before a y cause)
    (hOpen : ∀ before c after mid, steps = before ++ .look c :: after →
      (start w root listenerName telemetryName ids).runs before = some mid →
      mid.scopes.isCancelled (mid.target c) = false) :
    c ∈ st.cancelling ↔ .give c ∈ steps := by
  let st₀ := start w root listenerName telemetryName ids
  refine runs_induction (P := fun steps st =>
    (Throughout steps fun before a => ∀ y cause, ¬ Stops st₀ before a y cause) →
    (∀ before c after mid, steps = before ++ .look c :: after → st₀.runs before = some mid →
      mid.scopes.isCancelled (mid.target c) = false) →
    (c ∈ st.cancelling ↔ .give c ∈ steps)) ?_ ?_ hRuns hQuiet hOpen
  · intro _ _
    exact iff_of_false List.not_mem_nil List.not_mem_nil
  · intro steps st a st' hRuns ih hMove hQuiet hOpen
    obtain ⟨hBefore, hHere⟩ := throughout_concat.mp hQuiet
    have hSoFar := ih hBefore fun before d after mid hSplit =>
      hOpen before d (after ++ [a]) mid (by simp [hSplit])
    have hSame (hNot : ∀ d, a ≠ .give d) (hCancelling : st'.cancelling = st.cancelling) :
        c ∈ st'.cancelling ↔ .give c ∈ steps ++ [a] := by
      rw [hCancelling, hSoFar, List.mem_append, List.mem_singleton, or_iff_left]
      exact fun hGive => hNot c hGive.symm
    cases hMove with
    | @begin s => exact hSame (by simp) (by cases s <;> rfl)
    | @panic s => exact hSame (by simp) (by cases s <;> rfl)
    | @finish s => exact hSame (by simp) (by cases s <;> rfl)
    | @look d =>
      have hFound := hOpen steps d [] st rfl hRuns
      refine hSame (by simp) ?_
      rw [State.look, if_neg (by rw [hFound]; exact Bool.false_ne_true)]
    | @give d =>
      rw [State.give, List.mem_cons, hSoFar, List.mem_append, List.mem_singleton, Step.give.injEq,
        or_comm]
    | @take s => exact hSame (by simp) (by cases s <;> rfl)
    | write | leaveListener | leaveTelemetry => exact hSame (by simp) rfl
    | @join s outcome hTask =>
      refine hSame (by simp) ?_
      rw [State.join]
      cases hFirst : st.firstFailure? s outcome with
      | none => cases s <;> rfl
      | some failure =>
        -- the supervisor would cancel the group
        have hWhy : st.why? (.supervisor s) = some (failure.1 ++ " failed: " ++
            chainText failure.2) := by
          rw [why?_supervisor hTask, hFirst]
          rfl
        exact (hHere _ _ (.call rfl ((says_iff hIds hRuns hWhy).mpr ⟨rfl, rfl⟩))).elim
    | @tell outcome hTask =>
      have hWhy : st.why? .listener = some (farewell outcome) := by simp only [why?, hTask]
      exact (hHere _ _ (.call rfl ((says_iff hIds hRuns hWhy).mpr ⟨rfl, rfl⟩))).elim
    | cancel scope => exact (hHere _ _ (.quietly scope)).elim
    | @cancelFor scope why => exact (hHere _ _ (.call rfl (.outside scope why))).elim

end

end State

end Supervisor

end RunnerPool
