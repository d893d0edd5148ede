import Mathlib.Data.List.Induction
import RunnerPool.Supervisor.Basic

/-!
# Runs of the supervisor

The steps of a supervised run as rules, and what a run tells of its tasks: where a task stands
says how its service came to its end and whether its task was joined, and the other way round.

* `State.Move`      the steps, one rule for each thing that can happen
* `Came`            the end that a service came to
* `Ended`           the end of a service's task
* `Task.Follows`    what the steps so far tell of a task, by where it stands

## Main statements

- `move_of_step`: a step follows one of the rules
- `runs_induction`: what holds at the start and is kept by every step holds after every run
- `follows_of_runs`: the tasks stand where the steps have brought them
- `came_of_finish`: a service comes to one end only
-/

namespace RunnerPool

namespace Supervisor

namespace State

/-! ### Rules -/

/-- The steps of a run, one rule for each thing that can happen. -/
inductive Move (st : State) : Step → State → Prop
  | begin {s : Service} (h : st.taskOf s = .waiting) :
    Move st (.begin s) ((st.setTask s .running).note (st.startEntry s))
  | write (entries : List Log.Entry) :
    Move st (.write entries) { st with entries := st.entries ++ entries }
  | panic {s : Service} {message : Option String} (h : st.taskOf s = .running) :
    Move st (.finish s (.panicked message)) (st.setTask s (.ended (.panicked message)))
  | finish {s : Service} {outcome : Outcome} (h : st.taskOf s = .running)
    (hReturned : ∀ message, outcome ≠ .panicked message) :
    Move st (.finish s outcome) (st.setTask s (.returned outcome))
  | look {c : Caller} {why : String} (h : st.why? c = some why)
    (hOnce : c.isOther = true ∨ st.isCalling c = false) : Move st (.look c) (st.look c)
  | give {c : Caller} {why : String} (h : st.why? c = some why) (hGiving : c ∈ st.giving) :
    Move st (.give c) (st.give c why)
  | tell {outcome : Outcome} (h : st.listener = .returned outcome)
    (hReady : .listener ∈ st.cancelling) :
    Move st .tell { st.cancel .listener with listener := .told outcome }
  | leaveListener {outcome : Outcome} (h : st.listener = .told outcome) :
    Move st (.leave .listener) (st.setTask .listener (.ended outcome))
  | leaveTelemetry {outcome : Outcome} (h : st.telemetry = .returned outcome) :
    Move st (.leave .telemetry) (st.setTask .telemetry (.ended outcome))
  | take {s : Service} {outcome : Outcome} (h : st.taskOf s = .ended outcome)
    (hFree : ∀ t, (st.taskOf t).isTaken = false) :
    Move st (.take s) ((st.setTask s (.taken outcome)).note (st.endEntry s outcome))
  | join {s : Service} {outcome : Outcome} (h : st.taskOf s = .taken outcome)
    (hReady : st.firstFailure? s outcome ≠ none → .supervisor s ∈ st.cancelling) :
    Move st (.join s) (st.join s outcome)
  | cancel (scope : Scope) :
    Move st (.cancel scope none) { st with scopes := st.scopes.cancel scope }
  | cancelFor {scope : Scope} {why : String} (hReady : .other scope why ∈ st.cancelling) :
    Move st (.cancel scope (some why)) (st.cancel (.other scope why))

variable {st st' : State} {a : Step}

theorem why?_supervisor {s : Service} {outcome : Outcome} (h : st.taskOf s = .taken outcome) :
    st.why? (.supervisor s) = (st.firstFailure? s outcome).map fun (name, failure) =>
      name ++ " failed: " ++ chainText failure := by
  rw [why?, h]

theorem firstFailure?_eq (s : Service) (outcome : Outcome) (h : st.firstError = none) :
    st.firstFailure? s outcome = st.failure? s outcome := by
  rw [firstFailure?, h]

/-- A step follows one of the rules. -/
theorem move_of_step (h : st.step a = some st') : Move st a st' := by
  -- in each case the step is possible in one branch only, and that is the rule
  cases a with
  | begin s =>
    simp only [step] at h
    split at h
    · rename_i hTask
      cases h
      exact .begin hTask
    · cases h
  | write entries =>
    cases h
    exact .write entries
  | finish s outcome =>
    simp only [step] at h
    split at h
    · rename_i hTask
      cases h
      exact .panic hTask
    · rename_i hTask hReturned
      cases h
      exact .finish hTask hReturned
    · cases h
  | look c =>
    simp only [step] at h
    split at h
    · rename_i hWhy
      rw [Option.ite_none_right_eq_some, Bool.or_eq_true, Bool.not_eq_true'] at h
      obtain ⟨hOnce, ⟨⟩⟩ := h
      exact .look hWhy hOnce
    · cases h
  | give c =>
    simp only [step] at h
    split at h
    · rename_i hWhy
      rw [Option.ite_none_right_eq_some, List.contains_iff_mem] at h
      obtain ⟨hGiving, ⟨⟩⟩ := h
      exact .give hWhy hGiving
    · cases h
  | tell =>
    simp only [step] at h
    split at h
    · rename_i hTask
      rw [Option.ite_none_right_eq_some, List.contains_iff_mem] at h
      obtain ⟨hReady, ⟨⟩⟩ := h
      exact .tell hTask hReady
    · cases h
  | leave s =>
    simp only [step] at h
    split at h
    · rename_i hTask
      cases h
      exact .leaveListener hTask
    · rename_i hTask
      cases h
      exact .leaveTelemetry hTask
    · cases h
  | take s =>
    simp only [step] at h
    split at h
    · rename_i hTask
      rw [Option.ite_none_left_eq_some, Bool.or_eq_true, not_or, Bool.not_eq_true,
        Bool.not_eq_true] at h
      obtain ⟨⟨hListener, hTelemetry⟩, ⟨⟩⟩ := h
      refine .take hTask fun t => ?_
      cases t with
      | listener => exact hListener
      | telemetry => exact hTelemetry
    · cases h
  | join s =>
    simp only [step] at h
    split at h
    · rename_i outcome hTask
      rw [Option.ite_none_left_eq_some, why?_supervisor hTask, Option.isSome_map] at h
      obtain ⟨hReady, ⟨⟩⟩ := h
      refine .join hTask fun hFailure => ?_
      by_contra hNot
      exact hReady (by simp [Option.isSome_iff_ne_none, hFailure, hNot])
    · cases h
  | cancel scope cause =>
    cases cause with
    | none =>
      cases h
      exact .cancel scope
    | some why =>
      simp only [step] at h
      rw [Option.ite_none_right_eq_some, List.contains_iff_mem] at h
      obtain ⟨hReady, ⟨⟩⟩ := h
      exact .cancelFor hReady

/-! ### Runs -/

theorem runs_append (st : State) (as bs : List Step) :
    st.runs (as ++ bs) = (st.runs as).bind fun mid => mid.runs bs := by
  induction as generalizing st with
  | nil => rfl
  | cons a as ih =>
    simp only [List.cons_append, runs]
    cases st.step a with
    | none => rfl
    | some mid => exact ih mid

/-- The last step of a run is taken where the steps before it lead to. -/
theorem runs_concat {as : List Step} (h : st.runs (as ++ [a]) = some st') :
    ∃ mid, st.runs as = some mid ∧ mid.step a = some st' := by
  rw [runs_append, Option.bind_eq_some_iff] at h
  obtain ⟨mid, hMid, hLast⟩ := h
  simp only [runs, Option.bind_fun_some] at hLast
  exact ⟨mid, hMid, hLast⟩

/-- What holds at the start and is kept by every step holds after every run. -/
theorem runs_induction {start : State} {P : List Step → State → Prop} (hStart : P [] start)
    (hStep : ∀ steps st a st', start.runs steps = some st → P steps st → Move st a st' →
      P (steps ++ [a]) st')
    {steps : List Step} {st : State} (h : start.runs steps = some st) : P steps st := by
  induction steps using List.reverseRecOn generalizing st with
  | nil =>
    cases h
    exact hStart
  | append_singleton steps a ih =>
    obtain ⟨mid, hMid, hLast⟩ := runs_concat h
    exact hStep steps mid a st hMid (ih hMid) (move_of_step hLast)

/-- A run up to one of its steps, and that step. -/
theorem move_of_runs {before after : List Step} (h : st.runs (before ++ a :: after) = some st') :
    ∃ mid next, st.runs before = some mid ∧ Move mid a next := by
  rw [runs_append, Option.bind_eq_some_iff] at h
  obtain ⟨mid, hMid, hRest⟩ := h
  rw [runs, Option.bind_eq_some_iff] at hRest
  obtain ⟨next, hNext, -⟩ := hRest
  exact ⟨mid, next, hMid, move_of_step hNext⟩

/-! ### The parts of a state -/

section

variable (st : State) (s t : Service) (x : Task) (e : Log.Entry) (outcome : Outcome) (c : Caller)
  (why : String)

@[simp] theorem taskOf_setTask :
    (st.setTask s x).taskOf t = if t = s then x else st.taskOf t := by
  cases s <;> cases t <;> rfl

@[simp] theorem taskOf_note : (st.note e).taskOf t = st.taskOf t := by
  cases t <;> rfl

@[simp] theorem taskOf_look : (st.look c).taskOf t = st.taskOf t := by
  rw [look]
  split <;> cases t <;> rfl

@[simp] theorem taskOf_give : (st.give c why).taskOf t = st.taskOf t := by
  cases t <;> rfl

@[simp] theorem taskOf_cancel : (st.cancel c).taskOf t = st.taskOf t := by
  cases t <;> rfl

@[simp] theorem scopes_look : (st.look c).scopes = st.scopes := by
  rw [look]
  split <;> rfl

@[simp] theorem firstError_look : (st.look c).firstError = st.firstError := by
  rw [look]
  split <;> rfl

/-- A look leaves it to be done what the call is about. -/
@[simp] theorem why?_look : (st.look c).why? c = st.why? c := by
  rw [look]
  split <;> cases c <;> rfl

@[simp] theorem taskOf_join :
    (st.join s outcome).taskOf t = if t = s then .joined outcome else st.taskOf t := by
  rw [join]
  split
  · exact taskOf_setTask ..
  · rw [← taskOf_cancel st t (.supervisor s), ← taskOf_setTask]
    cases t <;> rfl

@[simp] theorem scopes_setTask : (st.setTask s x).scopes = st.scopes := by
  cases s <;> rfl

@[simp] theorem firstError_setTask : (st.setTask s x).firstError = st.firstError := by
  cases s <;> rfl

/-- The first failure that is joined is kept. -/
@[simp] theorem firstError_join :
    (st.join s outcome).firstError =
      st.firstError.or ((st.failure? s outcome).map Prod.snd) := by
  rw [join, firstFailure?]
  cases hError : st.firstError with
  | some kept => exact (firstError_setTask ..).trans hError
  | none =>
    cases st.failure? s outcome with
    | none => exact (firstError_setTask ..).trans hError
    | some failure => rfl

/-- The first failure that is joined cancels the group. -/
theorem scopes_join :
    (st.join s outcome).scopes =
      if st.firstFailure? s outcome = none then st.scopes else st.scopes.cancel st.group := by
  rw [join]
  cases st.firstFailure? s outcome with
  | none => exact scopes_setTask ..
  | some failure => exact scopes_setTask ..

end

/-- The parts of a state that no step changes. -/
structure SameParties (st st' : State) : Prop where
  root : st'.root = st.root
  group : st'.group = st.group
  telemetryScope : st'.telemetryScope = st.telemetryScope
  nameOf : st'.nameOf = st.nameOf
  idOf : st'.idOf = st.idOf
  names : st'.names = st.names

theorem sameParties_setTask (st : State) (s : Service) (x : Task) :
    SameParties st (st.setTask s x) := by
  cases s <;> exact ⟨rfl, rfl, rfl, rfl, rfl, rfl⟩

theorem sameParties_join (st : State) (s : Service) (outcome : Outcome) :
    SameParties st (st.join s outcome) := by
  rw [join]
  split
  · exact sameParties_setTask ..
  · cases s <;> exact ⟨rfl, rfl, rfl, rfl, rfl, rfl⟩

theorem Move.sameParties (h : Move st a st') : SameParties st st' := by
  cases h with
  | @begin s => cases s <;> exact ⟨rfl, rfl, rfl, rfl, rfl, rfl⟩
  | panic => exact sameParties_setTask ..
  | finish => exact sameParties_setTask ..
  | look =>
    rw [State.look]
    split <;> exact ⟨rfl, rfl, rfl, rfl, rfl, rfl⟩
  | @take s => cases s <;> exact ⟨rfl, rfl, rfl, rfl, rfl, rfl⟩
  | join => exact sameParties_join ..
  | write | give | tell | leaveListener | leaveTelemetry | cancel | cancelFor =>
    exact ⟨rfl, rfl, rfl, rfl, rfl, rfl⟩

theorem sameParties_of_runs {steps : List Step} (h : st.runs steps = some st') :
    SameParties st st' := by
  refine runs_induction (P := fun _ => SameParties st) ⟨rfl, rfl, rfl, rfl, rfl, rfl⟩ ?_ h
  intro steps mid a next _ hMid hMove
  have hNext := hMove.sameParties
  exact ⟨hNext.root.trans hMid.root, hNext.group.trans hMid.group,
    hNext.telemetryScope.trans hMid.telemetryScope, hNext.nameOf.trans hMid.nameOf,
    hNext.idOf.trans hMid.idOf, hNext.names.trans hMid.names⟩

section

variable {c : Caller} {s : Service} {outcome : Outcome}

/-- What a task reports does not depend on how far the run has come. -/
theorem SameParties.failure? (h : SameParties st st') :
    st'.failure? s outcome = st.failure? s outcome := by
  have hRemains : st'.remains s outcome = st.remains s outcome := by
    cases outcome <;> simp only [remains, h.nameOf, h.idOf]
  simp only [State.failure?, hRemains]
  cases st.remains s outcome <;> simp only [verdict, h.names]

/-- Whose call it is decides which scope it cancels. -/
theorem SameParties.target (h : SameParties st st') : st'.target c = st.target c := by
  cases c with
  | listener => exact h.telemetryScope
  | supervisor s => exact h.group
  | other scope why => rfl

end

end State

/-! ### The history of a task -/

/-- The service came to this end, and to no other. -/
def Came (steps : List Step) (s : Service) (outcome : Outcome) : Prop :=
  ∀ other, .finish s other ∈ steps ↔ other = outcome

/-- The task of the service ended, for this end of the service: at once if that was a panic, and
    else when it left, the listener's after it had told telemetry. -/
def Ended (steps : List Step) (s : Service) (outcome : Outcome) : Prop :=
  Came steps s outcome ∧
    ((∃ message, outcome = .panicked message) ∨
      .leave s ∈ steps ∧ (s = .listener → .tell ∈ steps))

/-- What the steps so far tell of the task of a service that stands here. -/
def Task.Follows (steps : List Step) (s : Service) : Task → Prop
  | .absent | .waiting | .running => (∀ outcome, .finish s outcome ∉ steps) ∧ .join s ∉ steps
  | .returned outcome =>
    Came steps s outcome ∧ (∀ message, outcome ≠ .panicked message) ∧ .join s ∉ steps
  | .told outcome =>
    Came steps s outcome ∧ s = .listener ∧ .tell ∈ steps ∧ .join s ∉ steps
  | .ended outcome | .taken outcome => Ended steps s outcome ∧ .join s ∉ steps
  | .joined outcome => Ended steps s outcome ∧ .join s ∈ steps

section

variable {steps : List Step} {s : Service} {outcome : Outcome} {x : Task} {a : Step}

theorem Came.concat (h : Came steps s outcome) (hOther : ∀ o, a ≠ .finish s o) :
    Came (steps ++ [a]) s outcome := by
  intro o
  rw [List.mem_append, List.mem_singleton, ← h o]
  exact or_iff_left fun hSame => hOther o hSame.symm

/-- The service comes to its end. -/
theorem came_concat (h : ∀ o, .finish s o ∉ steps) :
    Came (steps ++ [.finish s outcome]) s outcome := by
  intro o
  rw [List.mem_append, List.mem_singleton]
  simp [h o]

theorem Ended.concat (h : Ended steps s outcome) (hOther : ∀ o, a ≠ .finish s o) :
    Ended (steps ++ [a]) s outcome := by
  refine ⟨h.1.concat hOther, h.2.imp_right fun hLeft => ?_⟩
  exact ⟨List.mem_append_left _ hLeft.1, fun hs => List.mem_append_left _ (hLeft.2 hs)⟩

theorem join_notMem_concat (h : .join s ∉ steps) (hOther : a ≠ .join s) :
    .join s ∉ steps ++ [a] := by
  rw [List.mem_append, List.mem_singleton]
  exact fun hIn => hIn.elim h fun hSame => hOther hSame.symm

/-- What is told of a task stays as it is over a step that neither ends the service nor joins the
    task. -/
theorem Task.Follows.concat (h : x.Follows steps s) (hFinish : ∀ o, a ≠ .finish s o)
    (hJoin : a ≠ .join s) : x.Follows (steps ++ [a]) s := by
  -- a step that is no end of this task adds none
  have hNever (hNone : ∀ o, .finish s o ∉ steps) (o : Outcome) : .finish s o ∉ steps ++ [a] := by
    rw [List.mem_append, List.mem_singleton]
    exact fun hIn => hIn.elim (hNone o) fun hSame => hFinish o hSame.symm
  cases x with
  | absent | waiting | running => exact ⟨hNever h.1, join_notMem_concat h.2 hJoin⟩
  | returned o => exact ⟨h.1.concat hFinish, h.2.1, join_notMem_concat h.2.2 hJoin⟩
  | told o =>
    obtain ⟨hCame, hListener, hTold, hNot⟩ := h
    exact ⟨hCame.concat hFinish, hListener, List.mem_append_left _ hTold,
      join_notMem_concat hNot hJoin⟩
  | ended o | taken o => exact ⟨h.1.concat hFinish, join_notMem_concat h.2 hJoin⟩
  | joined o => exact ⟨h.1.concat hFinish, List.mem_append_left _ h.2⟩

end

namespace State

variable {st st' : State} {a : Step} {steps : List Step}

/-- A step that moves one task only leaves as it is what the steps tell of the other one. -/
theorem follows_of_moved {t : Service} {x : Task}
    (hMoved : ∀ s, st'.taskOf s = if s = t then x else st.taskOf s)
    (hApart : ∀ s, s ≠ t → (∀ o, a ≠ .finish s o) ∧ a ≠ .join s)
    (hFollows : ∀ s, (st.taskOf s).Follows steps s) (hHere : x.Follows (steps ++ [a]) t)
    (s : Service) : (st'.taskOf s).Follows (steps ++ [a]) s := by
  rw [hMoved s]
  -- the task that moved is where the step has put it, and the others see no end or join of theirs
  split
  · rename_i hSame
    rw [hSame]
    exact hHere
  · rename_i hOther
    obtain ⟨hFinish, hJoin⟩ := hApart s hOther
    exact (hFollows s).concat hFinish hJoin

/-- A step moves the task of at most one service, and the steps tell of where it has moved. -/
theorem Move.follows (h : Move st a st') (hFollows : ∀ s, (st.taskOf s).Follows steps s) :
    ∀ s, (st'.taskOf s).Follows (steps ++ [a]) s := by
  have hFinishApart (t : Service) (outcome : Outcome) (s : Service) (hs : s ≠ t) :
      (∀ o, Step.finish t outcome ≠ .finish s o) ∧ Step.finish t outcome ≠ .join s :=
    ⟨fun o hSame => hs (Step.finish.inj hSame).1.symm, nofun⟩
  cases h with
  | @begin t hTask =>
    have hHere := hFollows t
    rw [hTask] at hHere
    refine follows_of_moved (x := .running) (fun s => ?_) (fun _ _ => ⟨nofun, nofun⟩) hFollows
      (hHere.concat nofun nofun)
    rw [taskOf_note, taskOf_setTask]
  | write => exact fun s => (hFollows s).concat nofun nofun
  | @panic t message hTask =>
    have hHere := hFollows t
    rw [hTask] at hHere
    refine follows_of_moved (taskOf_setTask st t · _) (hFinishApart t _) hFollows ⟨⟨?_, ?_⟩, ?_⟩
    · exact came_concat hHere.1
    · exact Or.inl ⟨message, rfl⟩
    · exact join_notMem_concat hHere.2 nofun
  | @finish t outcome hTask hReturned =>
    have hHere := hFollows t
    rw [hTask] at hHere
    refine follows_of_moved (taskOf_setTask st t · _) (hFinishApart t _) hFollows ⟨?_, ?_, ?_⟩
    · exact came_concat hHere.1
    · exact hReturned
    · exact join_notMem_concat hHere.2 nofun
  | look =>
    intro s
    rw [taskOf_look]
    exact (hFollows s).concat nofun nofun
  | give =>
    intro s
    rw [taskOf_give]
    exact (hFollows s).concat nofun nofun
  | @tell outcome hTask =>
    have hHere := hFollows .listener
    rw [taskOf, hTask] at hHere
    obtain ⟨hCame, -, hNot⟩ := hHere
    refine follows_of_moved (t := .listener) (x := .told outcome) (fun s => ?_)
      (fun _ _ => ⟨nofun, nofun⟩) hFollows ⟨hCame.concat nofun, rfl, ?_, ?_⟩
    · cases s <;> rfl
    · exact List.mem_append_right _ List.mem_cons_self
    · exact join_notMem_concat hNot nofun
  | @leaveListener outcome hTask =>
    have hHere := hFollows .listener
    rw [taskOf, hTask] at hHere
    obtain ⟨hCame, -, hTold, hNot⟩ := hHere
    refine follows_of_moved (taskOf_setTask st .listener · _) (fun _ _ => ⟨nofun, nofun⟩) hFollows
      ⟨⟨hCame.concat nofun, Or.inr ⟨?_, fun _ => ?_⟩⟩, ?_⟩
    · exact List.mem_append_right _ List.mem_cons_self
    · exact List.mem_append_left _ hTold
    · exact join_notMem_concat hNot nofun
  | @leaveTelemetry outcome hTask =>
    have hHere := hFollows .telemetry
    rw [taskOf, hTask] at hHere
    obtain ⟨hCame, -, hNot⟩ := hHere
    -- only the listener's task has to tell before it leaves
    refine follows_of_moved (taskOf_setTask st .telemetry · _) (fun _ _ => ⟨nofun, nofun⟩) hFollows
      ⟨⟨hCame.concat nofun, Or.inr ⟨?_, nofun⟩⟩, ?_⟩
    · exact List.mem_append_right _ List.mem_cons_self
    · exact join_notMem_concat hNot nofun
  | @take t outcome hTask =>
    have hHere := hFollows t
    rw [hTask] at hHere
    refine follows_of_moved (x := .taken outcome) (fun s => ?_) (fun _ _ => ⟨nofun, nofun⟩) hFollows
      ⟨hHere.1.concat nofun, join_notMem_concat hHere.2 nofun⟩
    rw [taskOf_note, taskOf_setTask]
  | @join t outcome hTask =>
    have hHere := hFollows t
    rw [hTask] at hHere
    refine follows_of_moved (taskOf_join st t · _) (fun s hs => ⟨nofun, fun hSame => ?_⟩) hFollows
      ⟨hHere.1.concat nofun, ?_⟩
    · exact hs (Step.join.inj hSame).symm
    · exact List.mem_append_right _ List.mem_cons_self
  | cancel => exact fun s => (hFollows s).concat nofun nofun
  | cancelFor =>
    intro s
    rw [taskOf_cancel]
    exact (hFollows s).concat nofun nofun

/-- The tasks stand where the steps have brought them. -/
theorem follows_of_runs {w : Scopes} {root : Scope} {listenerName : String}
    {telemetryName : Option String} {ids : Service → TaskId}
    (h : (start w root listenerName telemetryName ids).runs steps = some st) (s : Service) :
    (st.taskOf s).Follows steps s := by
  refine runs_induction (P := fun steps st => ∀ s, (st.taskOf s).Follows steps s) ?_
    (fun _ _ _ _ _ hFollows hMove => hMove.follows hFollows) h s
  intro s
  cases s with
  | listener => exact ⟨nofun, nofun⟩
  | telemetry => cases telemetryName <;> exact ⟨nofun, nofun⟩

/-- A service comes to one end only. -/
theorem came_of_finish {w : Scopes} {root : Scope} {listenerName : String}
    {telemetryName : Option String} {ids : Service → TaskId} {s : Service} {outcome : Outcome}
    (h : (start w root listenerName telemetryName ids).runs steps = some st)
    (hIn : .finish s outcome ∈ steps) : Came steps s outcome := by
  have hSame {o : Outcome} (hCame : Came steps s o) : Came steps s outcome :=
    (hCame outcome).mp hIn ▸ hCame
  have hFollows := follows_of_runs h s
  -- before its end a task came to no outcome, and after it to the one it keeps
  cases hTask : st.taskOf s with
  | absent | waiting | running =>
    rw [hTask] at hFollows
    exact (hFollows.1 outcome hIn).elim
  | returned | told =>
    rw [hTask] at hFollows
    exact hSame hFollows.1
  | ended | taken | joined =>
    rw [hTask] at hFollows
    exact hSame hFollows.1.1

end State

end Supervisor

end RunnerPool
