import RunnerPool.Proofs.Supervisor.Result

/-!
# Taking in tasks in turn

A set of tasks gives them back in the order in which they ended.  A run that takes them in so is
one in which the tasks that were taken in are the first of those that have ended.  Such a run never
gets stuck once its services have come to their ends: what follows of itself ends the tasks that
have not ended yet, and then joins them in turn.

* `endedIn`, `takenIn`, `joinedIn`   the tasks that the steps end, take in and join, in this order
* `InTurn`                           the tasks are taken in in the order in which they ended

## Main statements

- `mem_endedIn_iff`, `nodup_endedIn`: a task ends once, and stands there
- `prefix_takenIn`: the tasks are joined in the order in which they were taken in
- `exists_result_in_turn`: taking in in turn leads to a result
-/

namespace RunnerPool

namespace Supervisor

/-! ### The order of ends and joins -/

/-- The service whose task the step ends: at once if it panics, and else when it leaves. -/
def Step.ends? : Step → Option Service
  | .finish s (.panicked _) | .leave s => some s
  | _ => none

/-- The service whose task the step joins. -/
def Step.joins? : Step → Option Service
  | .join s => some s
  | _ => none

/-- The services whose tasks the steps end, in the order in which they do. -/
def endedIn (steps : List Step) : List Service := steps.filterMap Step.ends?

/-- The services whose tasks are taken in, in the order in which they are. -/
def takenIn (steps : List Step) : List Service := steps.filterMap Step.takes?

/-- The services whose tasks the steps join, in the order in which they do. -/
def joinedIn (steps : List Step) : List Service := steps.filterMap Step.joins?

/-- The tasks are taken in in the order in which they ended. -/
def InTurn (steps : List Step) : Prop := takenIn steps <+: endedIn steps

instance (steps : List Step) : Decidable (InTurn steps) :=
  inferInstanceAs (Decidable (takenIn steps <+: endedIn steps))

/-- Whether the task has ended. -/
def Task.hasEnded : Task → Bool
  | .ended _ | .taken _ | .joined _ => true
  | _ => false

section

variable {steps before after : List Step} {a : Step} {s : Service}

theorem filterMap_concat {α : Type} (f : Step → Option α) :
    (steps ++ [a]).filterMap f = steps.filterMap f ++ (f a).toList := by
  rw [List.filterMap_append]
  cases h : f a <;> simp [h]

theorem mem_joinedIn_iff : s ∈ joinedIn steps ↔ .join s ∈ steps := by
  rw [joinedIn, List.mem_filterMap]
  constructor
  · rintro ⟨a, hIn, hJoins⟩
    cases a with
    | join t =>
      cases hJoins
      exact hIn
    | begin | write | finish | look | give | tell | leave | take | cancel => cases hJoins
  · exact fun hIn => ⟨.join s, hIn, rfl⟩

/-- If a task is joined before that of `s` is, then in turn it ended first. -/
theorem head?_endedIn_of_join {t : Service}
    (hTurn : joinedIn (before ++ after) <+: endedIn (before ++ after))
    (hJoined : .join t ∈ before) (hOnly : ∀ s, .join s ∈ before → s = t) :
    (endedIn (before ++ after)).head? = some t := by
  obtain ⟨rest, hRest⟩ := hTurn
  rw [← hRest, joinedIn, List.filterMap_append]
  cases hFirst : before.filterMap Step.joins? with
  | nil => exact absurd (mem_joinedIn_iff.mpr hJoined) (by simp [joinedIn, hFirst])
  | cons s others =>
    have hIn : s ∈ joinedIn before := by rw [joinedIn, hFirst]; exact List.mem_cons_self
    rw [hOnly s (mem_joinedIn_iff.mp hIn), List.cons_append, List.cons_append, List.head?_cons]

/-- Steps that take in these tasks leave the tasks taken in in turn if they are the next. -/
theorem InTurn.append {more : List Step} {taken : List Service}
    (h : takenIn steps ++ taken <+: endedIn steps) (hTaken : more.filterMap Step.takes? = taken) :
    InTurn (steps ++ more) := by
  rw [InTurn, takenIn, List.filterMap_append, hTaken, endedIn, List.filterMap_append]
  exact h.trans (List.prefix_append _ _)

end

namespace State

/-! ### Tasks that have ended -/

section

variable {st st' : State} {a : Step}

/-- A step ends a task that had not ended, or none. -/
theorem Move.hasEnded (h : Move st a st') (s : Service) :
    ((st'.taskOf s).hasEnded = true ↔ (st.taskOf s).hasEnded = true ∨ a.ends? = some s) ∧
      (a.ends? = some s → (st.taskOf s).hasEnded = false) := by
  -- most steps end no task: the task they set has ended afterwards just if it had before
  have hSet {t : Service} {x : Task} (hNone : a.ends? = none)
      (hMoved : st'.taskOf s = if s = t then x else st.taskOf s)
      (hAlike : x.hasEnded = (st.taskOf t).hasEnded) :
      ((st'.taskOf s).hasEnded = true ↔ (st.taskOf s).hasEnded = true ∨ a.ends? = some s) ∧
        (a.ends? = some s → (st.taskOf s).hasEnded = false) := by
    have hKept : (st'.taskOf s).hasEnded = (st.taskOf s).hasEnded := by
      rw [hMoved]
      split
      · rename_i hSame
        rw [hAlike, hSame]
      · rfl
    simp [hKept, hNone]
  cases h with
  | @begin t hTask =>
    exact hSet rfl (by rw [taskOf_note, taskOf_setTask]) (by simp [hTask, Task.hasEnded])
  | write | cancel => simp [taskOf, Step.ends?]
  | look => simp [Step.ends?]
  | give => simp [Step.ends?]
  | cancelFor => simp [Step.ends?]
  | @panic t message hTask =>
    rw [taskOf_setTask]
    split
    · rename_i hSame
      simp [hSame, hTask, Task.hasEnded, Step.ends?]
    · rename_i hOther
      simp [Step.ends?, Ne.symm hOther]
  | @finish t outcome hTask hReturned =>
    have hNone : (Step.finish t outcome).ends? = none := by
      cases outcome with
      | panicked message => exact (hReturned message rfl).elim
      | ok | failed => rfl
    exact hSet hNone (taskOf_setTask ..) (by simp [hTask, Task.hasEnded])
  -- to tell and to leave are steps of one task, and the other one stays as it is
  | tell hTask => cases s <;> simp [taskOf, State.cancel, hTask, Task.hasEnded, Step.ends?]
  | leaveListener hTask =>
    cases s <;> simp [taskOf, setTask, hTask, Task.hasEnded, Step.ends?]
  | leaveTelemetry hTask =>
    cases s <;> simp [taskOf, setTask, hTask, Task.hasEnded, Step.ends?]
  | @take t outcome hTask =>
    exact hSet rfl (by rw [taskOf_note, taskOf_setTask]) (by simp [hTask, Task.hasEnded])
  | @join t outcome hTask =>
    exact hSet rfl (taskOf_join ..) (by simp [hTask, Task.hasEnded])

/-- A step other than those that take in and join tasks leaves a task outside of the supervisor's
    hands if it was there. -/
theorem Move.isTaken (h : Move st a st') (hTakes : a.takes? = none) (hJoins : a.joins? = none)
    (s : Service) : (st'.taskOf s).isTaken = (st.taskOf s).isTaken := by
  -- neither state is a taken one, so it makes no difference whose task is set
  have hMoved (t : Service) (x : Task) (hBefore : (st.taskOf t).isTaken = false)
      (hAfter : x.isTaken = false) :
      (if s = t then x else st.taskOf s).isTaken = (st.taskOf s).isTaken := by
    split
    · rename_i hSame
      rw [hSame, hBefore, hAfter]
    · rfl
  cases h with
  | begin hTask =>
    rw [taskOf_note, taskOf_setTask]
    exact hMoved _ _ (by simp [hTask, Task.isTaken]) rfl
  | panic hTask =>
    rw [taskOf_setTask]
    exact hMoved _ _ (by simp [hTask, Task.isTaken]) rfl
  | finish hTask =>
    rw [taskOf_setTask]
    exact hMoved _ _ (by simp [hTask, Task.isTaken]) rfl
  | tell hTask => cases s <;> simp [taskOf, State.cancel, hTask, Task.isTaken]
  | leaveListener hTask =>
    rw [taskOf_setTask]
    exact hMoved _ _ (by simp [taskOf, hTask, Task.isTaken]) rfl
  | leaveTelemetry hTask =>
    rw [taskOf_setTask]
    exact hMoved _ _ (by simp [taskOf, hTask, Task.isTaken]) rfl
  | take => cases hTakes
  | join => cases hJoins
  | look => rw [taskOf_look]
  | give => rw [taskOf_give]
  | write | cancel => rfl
  | cancelFor => rw [taskOf_cancel]

end

section

variable {w : Scopes} {root : Scope} {listenerName : String} {telemetryName : Option String}
  {ids : Service → TaskId} {steps : List Step} {st : State}

/-- The tasks that the steps end are those that have ended, each once, by induction on the
    steps. -/
theorem endedIn_of_runs (h : (start w root listenerName telemetryName ids).runs steps = some st) :
    (∀ s, s ∈ endedIn steps ↔ (st.taskOf s).hasEnded = true) ∧ (endedIn steps).Nodup := by
  refine runs_induction (P := fun steps st =>
    (∀ s, s ∈ endedIn steps ↔ (st.taskOf s).hasEnded = true) ∧ (endedIn steps).Nodup) ⟨?_, ?_⟩ ?_ h
  -- nothing has ended at the start
  · intro s
    cases s <;> cases telemetryName <;> simp [endedIn, start, taskOf, Task.hasEnded]
  · exact List.nodup_nil
  · rintro steps st a st' - ⟨hEnded, hOnce⟩ hMove
    have hConcat : endedIn (steps ++ [a]) = endedIn steps ++ a.ends?.toList := filterMap_concat _
    refine ⟨fun s => ?_, ?_⟩
    · rw [hConcat, List.mem_append, hEnded, (hMove.hasEnded s).1, Option.mem_toList]
    · rw [hConcat, List.nodup_append]
      refine ⟨hOnce, by cases a.ends? <;> simp, ?_⟩
      -- a task ends once: it had not ended before the step that ends it
      rintro s hs _ hHere rfl
      rw [Option.mem_toList] at hHere
      exact absurd ((hEnded s).mp hs) (by simp [(hMove.hasEnded s).2 hHere])

theorem mem_endedIn_iff (h : (start w root listenerName telemetryName ids).runs steps = some st)
    (s : Service) : s ∈ endedIn steps ↔ (st.taskOf s).hasEnded = true :=
  (endedIn_of_runs h).1 s

theorem nodup_endedIn (h : (start w root listenerName telemetryName ids).runs steps = some st) :
    (endedIn steps).Nodup :=
  (endedIn_of_runs h).2

/-- The tasks that were taken in are those that were joined, and after them the one that the
    supervisor is busy with, by induction on the steps. -/
theorem exists_takenIn_eq
    (h : (start w root listenerName telemetryName ids).runs steps = some st) :
    ∃ busy : Option Service, takenIn steps = joinedIn steps ++ busy.toList ∧
      ∀ s, (st.taskOf s).isTaken = true ↔ busy = some s := by
  refine runs_induction (P := fun steps st => ∃ busy : Option Service,
    takenIn steps = joinedIn steps ++ busy.toList ∧
      ∀ s, (st.taskOf s).isTaken = true ↔ busy = some s) ⟨none, rfl, ?_⟩ ?_ h
  · intro s
    cases s <;> cases telemetryName <;> simp [start, taskOf, Task.isTaken]
  · rintro steps st a st' - ⟨busy, hSplit, hBusy⟩ hMove
    have hTaken : takenIn (steps ++ [a]) = takenIn steps ++ a.takes?.toList := filterMap_concat _
    have hJoined : joinedIn (steps ++ [a]) = joinedIn steps ++ a.joins?.toList := filterMap_concat _
    cases hTakes : a.takes? with
    | some t =>
      cases hMove with
      | @take s outcome hTask hFree =>
        -- the supervisor was free
        have hNone : busy = none := Option.eq_none_iff_forall_ne_some.mpr fun s hs =>
          absurd ((hBusy s).mpr hs) (by simp [hFree s])
        refine ⟨some s, ?_, fun t => ?_⟩
        · rw [hTaken, hJoined, hSplit, hNone]
          simp [Step.takes?, Step.joins?]
        · rw [taskOf_note, taskOf_setTask]
          split
          · rename_i hSame
            simp [hSame, Task.isTaken]
          · rename_i hOther
            simp [hFree t, Ne.symm hOther]
      | begin | write | panic | finish | look | give | tell | leaveListener | leaveTelemetry | join
        | cancel | cancelFor => cases hTakes
    | none =>
      cases hJoins : a.joins? with
      | some t =>
        cases hMove with
        | @join s outcome hTask =>
          have hHere : busy = some s := (hBusy s).mp (by simp [hTask, Task.isTaken])
          refine ⟨none, ?_, fun t => ?_⟩
          · rw [hTaken, hJoined, hSplit, hHere]
            simp [Step.takes?, Step.joins?]
          · rw [taskOf_join]
            split
            · simp [Task.isTaken]
            · rename_i hOther
              rw [hBusy t, hHere, Option.some.injEq]
              exact iff_of_false (Ne.symm hOther) (Option.some_ne_none t).symm
        | begin | write | panic | finish | look | give | tell | leaveListener | leaveTelemetry
          | take | cancel | cancelFor => cases hJoins
      | none =>
        refine ⟨busy, ?_, fun s => ?_⟩
        · rw [hTaken, hJoined, hSplit, hTakes, hJoins]
          simp
        · rw [hMove.isTaken hTakes hJoins, hBusy]

/-- The tasks are joined in the order in which they were taken in. -/
theorem prefix_takenIn (h : (start w root listenerName telemetryName ids).runs steps = some st) :
    joinedIn steps <+: takenIn steps := by
  obtain ⟨busy, hSplit, -⟩ := exists_takenIn_eq h
  exact ⟨busy.toList, hSplit.symm⟩

/-- In turn there is always a task that can be brought further: the one that the supervisor is busy
    with, or else the next one that has ended, or else one that has not ended yet. -/
theorem exists_leads_in_turn
    (h : (start w root listenerName telemetryName ids).runs steps = some st) (hTurn : InTurn steps)
    (hFinished : ∀ s ∈ services telemetryName, ∃ outcome, .finish s outcome ∈ steps)
    (hOpen : st.isOver = false) :
    ∃ s x taken, Leads st s x taken ∧ taskRank x < taskRank (st.taskOf s) ∧
      takenIn steps ++ taken <+: endedIn steps := by
  obtain ⟨busy, hSplit, hBusy⟩ := exists_takenIn_eq h
  cases busy with
  | some s =>
    cases hTask : st.taskOf s with
    | taken o =>
      refine ⟨s, _, [], leads_of_taken hTask, by simp [hTask, taskRank], ?_⟩
      rw [List.append_nil]
      exact hTurn
    | absent | waiting | running | returned | told | ended | joined =>
      exact absurd ((hBusy s).mpr rfl) (by simp [hTask, Task.isTaken])
  | none =>
    have hFree (t : Service) : (st.taskOf t).isTaken = false := by
      rw [← Bool.not_eq_true, hBusy]
      exact (Option.some_ne_none t).symm
    have hJoined : takenIn steps = joinedIn steps := by rw [hSplit]; simp
    obtain ⟨rest, hRest⟩ := hTurn
    cases rest with
    | cons s rest =>
      -- this task has ended, and is not among those that were taken in before
      have hNext : takenIn steps ++ [s] <+: endedIn steps := ⟨rest, by simp [← hRest]⟩
      have hIn : s ∈ endedIn steps := hRest ▸ List.mem_append_right _ List.mem_cons_self
      have hNotJoined : .join s ∉ steps := by
        have hOnce := nodup_endedIn h
        rw [← hRest, List.nodup_append, hJoined] at hOnce
        rw [← mem_joinedIn_iff]
        exact fun hs => hOnce.2.2 s hs s List.mem_cons_self rfl
      have hEnded := (mem_endedIn_iff h s).mp hIn
      have hFollows := follows_of_runs h s
      cases hTask : st.taskOf s with
      | ended o =>
        exact ⟨s, _, [s], leads_of_ended hTask hFree, by simp [hTask, taskRank], hNext⟩
      | taken o => exact absurd (hFree s) (by simp [hTask, Task.isTaken])
      | joined o =>
        rw [hTask] at hFollows
        exact (hNotJoined hFollows.2).elim
      | absent | waiting | running | returned | told => simp [hTask, Task.hasEnded] at hEnded
    | nil =>
      rw [List.append_nil] at hRest
      -- the tasks that ended are joined, so another one is still to end
      have hNotAll : ¬ ∀ s ∈ services telemetryName, .join s ∈ steps := by
        rw [← isOver_iff h, hOpen]
        exact Bool.false_ne_true
      push Not at hNotAll
      obtain ⟨s, hs, hNotJoined⟩ := hNotAll
      have hNotEnded : (st.taskOf s).hasEnded = false := by
        rwa [← mem_joinedIn_iff, ← hJoined, hRest, mem_endedIn_iff h, Bool.not_eq_true]
          at hNotJoined
      obtain ⟨outcome, hCame⟩ := hFinished s hs
      obtain ⟨x, hLeads, hLess⟩ := exists_leads_of_open (follows_of_runs h s) hCame fun o =>
        ⟨fun hTask => by simp [hTask, Task.hasEnded] at hNotEnded,
          fun hTask => by simp [hTask, Task.hasEnded] at hNotEnded,
          fun hTask => by simp [hTask, Task.hasEnded] at hNotEnded⟩
      refine ⟨s, x, [], hLeads, hLess, ?_⟩
      rw [List.append_nil]
      exact hRest ▸ List.prefix_rfl

/-- From where all services have come to their ends, what follows of itself leads to a result
    while the tasks are taken in in turn. -/
theorem exists_result_in_turn
    (h : (start w root listenerName telemetryName ids).runs steps = some st) (hTurn : InTurn steps)
    (hFinished : ∀ s ∈ services telemetryName, ∃ outcome, .finish s outcome ∈ steps) :
    ∃ more st' r, (∀ a ∈ more, a.isOwn = true) ∧ InTurn (steps ++ more) ∧
      st.runs more = some st' ∧ st'.result? = some r := by
  refine exists_result_of_progress (fun steps st h hTurn hFinished hOpen => ?_) h hTurn hFinished
  obtain ⟨s, x, taken, hLeads, hLess, hNext⟩ := exists_leads_in_turn h hTurn hFinished hOpen
  exact ⟨s, x, taken, hLeads, hLess, fun more hTaken => .append hNext hTaken⟩

end

end State

end Supervisor

end RunnerPool
