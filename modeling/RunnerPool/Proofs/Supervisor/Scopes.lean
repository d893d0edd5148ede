import RunnerPool.Proofs.Supervisor.Calls

/-!
# The scopes of a supervised run

The supervisor runs the listener under a group inside the root and telemetry under a scope inside
the group.  From outside the root is cancelled, for a joined failure the group, and for the
listener's return the scope of telemetry; no scope of a service stays open once its service has
nothing left to wait for.  Which cause telemetry sees is decided by the calls that give one: the
listener's before the supervisor's, and that before those on the root.  As long as calls do not
overlap, this is the cause of the one that cancelled first, for good; if they do, the cause can
change after telemetry has seen it.

* `State.family`      the three scopes of a run
* `Supervised`        a run under a root that others may cancel
* `StopsAlone`        the first step that cancels a scope, with no other call under way

## Main statements

- `scopes_of_runs`: which scopes of a run are cancelled, and for which cause
- `cause_changes_after_cancellation`: the listener's task is late, and telemetry sees two causes
-/

namespace RunnerPool

namespace Supervisor

/-- The scopes of a run. -/
def State.family (st : State) : List Scope := [st.root, st.group, st.telemetryScope]

/-- A run from its start, after some calls on tokens: the root is the scope of one of the tokens
    and lies in no other scope, each task has an id of its own, and others act on the root only. -/
structure Supervised (calls : List Tokens.Call) (st₀ : State) (steps : List Step) (st : State) :
    Prop where
  starts : ∃ root listenerName telemetryName ids, ids Service.listener ≠ ids Service.telemetry ∧
    st₀ = .start (Tokens.after calls).scopes root listenerName telemetryName ids
  made : st₀.root ∈ (Tokens.after calls).handles
  outermost : st₀.root.ancestors = []
  runs : st₀.runs steps = some st
  outside : ∀ a ∈ steps, ∀ scope, a.outside? = some scope → scope = st₀.root

/-- The first step that cancels a scope of the run does so for this cause, if there is one, and at
    that moment no other call is under way. -/
structure StopsAlone (st₀ : State) (before : List Step) (a : Step) (cause : Option String) :
    Prop where
  stops : ∃ y, Stops st₀ before a y cause
  first : Throughout before fun earlier b => ∀ y other, ¬ Stops st₀ earlier b y other
  alone : ∀ mid, st₀.runs before = some mid →
    mid.giving = [] ∧ mid.cancelling = a.caller?.toList

/-- The first cause that a step gives the scope. -/
def FirstGiven (st₀ : State) (steps : List Step) (scope : Scope) (why : String) : Prop :=
  First steps (fun before a why => Gives st₀ before a scope why) why

/-- What telemetry was told: the first cause that its own scope was given, or else the group, or
    else the root. -/
inductive Told (st₀ : State) (steps : List Step) (why : String) : Prop
  | exited (hFirst : FirstGiven st₀ steps st₀.telemetryScope why)
  | failed (hNot : ∀ other, ¬ FirstGiven st₀ steps st₀.telemetryScope other)
    (hFirst : FirstGiven st₀ steps st₀.group why)
  | outside (hNot : ∀ other, ¬ FirstGiven st₀ steps st₀.telemetryScope other)
    (hNotGroup : ∀ other, ¬ FirstGiven st₀ steps st₀.group other)
    (hFirst : FirstGiven st₀ steps st₀.root why)

section

variable {calls : List Tokens.Call} {st₀ st : State} {steps before after : List Step} {a : Step}
  {c : Caller} {x y z : Scope} {cause : Option String} {why other : String}

/-- What was said stays said. -/
theorem Says.append (h : Says st₀ before c y why) (more : List Step) :
    Says st₀ (before ++ more) c y why := by
  cases h with
  | outside => exact .outside _ _
  | failed hCame hFails => exact .failed (List.mem_append_left _ hCame) hFails
  | exitedWell hCame => exact .exitedWell (List.mem_append_left _ hCame)
  | exited hCame => exact .exited (List.mem_append_left _ hCame)

namespace Supervised

/-! ### The family of scopes -/

/-- A run up to one of its steps. -/
theorem exists_mid (h : Supervised calls st₀ (before ++ after) st) :
    ∃ mid, Supervised calls st₀ before mid ∧ mid.runs after = some st := by
  have hRuns := h.runs
  rw [State.runs_append, Option.bind_eq_some_iff] at hRuns
  obtain ⟨mid, hMid, hRest⟩ := hRuns
  exact ⟨mid, ⟨h.starts, h.made, h.outermost, hMid, fun b hb =>
    h.outside b (List.mem_append_left _ hb)⟩, hRest⟩

theorem older (h : Supervised calls st₀ steps st) :
    st₀.root.id < (Tokens.after calls).scopes.count := by
  obtain ⟨t, hOwn⟩ := List.mem_iff_getElem?.mp h.made
  rw [(Tokens.mirrors_after calls).count]
  refine (Tokens.forest calls).made _ (List.mem_of_getElem? (i := t) ?_)
  rw [Tokens.getElem?_tokens, hOwn, Option.map_some]

/-- The group and the scope of telemetry are new. -/
theorem mem_family_iff (h : Supervised calls st₀ steps st) :
    z ∈ st₀.family ↔ z = st₀.root ∨
      z = ⟨(Tokens.after calls).scopes.count, [st₀.root.id]⟩ ∨
      z = ⟨(Tokens.after calls).scopes.count + 1,
        [(Tokens.after calls).scopes.count, st₀.root.id]⟩ := by
  have hOutermost := h.outermost
  obtain ⟨root, listenerName, telemetryName, ids, -, rfl⟩ := h.starts
  have hRoot : root.ancestors = [] := hOutermost
  simp [State.family, State.start, Scopes.child, Scope.lineage, hRoot]

theorem root_mem_family : st₀.root ∈ st₀.family := List.mem_cons_self

theorem telemetryScope_mem_family : st₀.telemetryScope ∈ st₀.family := by
  simp [State.family]

/-- The scopes of a run are told apart by their numbers. -/
theorem eq_of_id_eq (h : Supervised calls st₀ steps st) (hx : x ∈ st₀.family)
    (hy : y ∈ st₀.family) (hSame : x.id = y.id) : x = y := by
  have hOlder := h.older
  rw [h.mem_family_iff] at hx hy
  rcases hx with rfl | rfl | rfl <;> rcases hy with rfl | rfl | rfl <;>
    first
    | rfl
    | (simp only at hSame; omega)

/-- Whoever acts, if others act on the root only, acts on a scope of the run. -/
theorem target_mem_family (hOther : ∀ scope why, c = .other scope why → scope = st₀.root) :
    st₀.target c ∈ st₀.family := by
  cases c with
  | listener => simp [State.family, State.target]
  | supervisor s => simp [State.family, State.target]
  | other scope why =>
    rw [State.target, hOther scope why rfl]
    exact root_mem_family

theorem target_mem_family_of_look (h : Supervised calls st₀ steps st) (hLook : .look c ∈ steps) :
    st₀.target c ∈ st₀.family := by
  refine target_mem_family fun scope why hOther => h.outside _ hLook scope ?_
  rw [hOther]
  rfl

/-- What a step of the run cancels is a scope of the run. -/
theorem mem_family_of_stops (h : Supervised calls st₀ steps st) (ha : a ∈ steps)
    (hStops : Stops st₀ before a y cause) : y ∈ st₀.family := by
  cases hStops with
  | quietly =>
    obtain rfl := h.outside _ ha y rfl
    exact root_mem_family
  | @call _ c _ why hEnds hSays =>
    rw [hSays.target]
    refine target_mem_family fun scope why hOther => h.outside _ ha scope ?_
    -- the call of someone else ends with a step of theirs
    subst hOther
    cases a with
    | cancel scope' cause =>
      cases cause with
      | none => cases hEnds
      | some why' =>
        cases hEnds
        rfl
    | tell | join => cases hEnds
    | begin | write | finish | look | give | leave | take => cases hEnds

/-- What a step of the run gives a cause to is a scope of the run. -/
theorem mem_family_of_gives (h : Supervised calls st₀ steps st) (ha : a ∈ steps)
    (hGives : Gives st₀ before a y why) : y ∈ st₀.family := by
  obtain ⟨c, rfl, hSays⟩ := hGives
  rw [hSays.target]
  refine target_mem_family fun scope why hOther => h.outside _ ha scope ?_
  rw [hOther]
  rfl

/-- All scopes of the run lie around the scope of telemetry. -/
theorem id_mem_lineage_telemetryScope (h : Supervised calls st₀ steps st) (hy : y ∈ st₀.family) :
    y.id ∈ st₀.telemetryScope.lineage := by
  rw [h.mem_family_iff] at hy
  have hOutermost := h.outermost
  obtain ⟨root, listenerName, telemetryName, ids, -, rfl⟩ := h.starts
  have hRoot : root.ancestors = [] := hOutermost
  rcases hy with rfl | rfl | rfl <;> simp [State.start, Scopes.child, Scope.lineage, hRoot]

theorem root_id_mem_lineage (h : Supervised calls st₀ steps st) (hz : z ∈ st₀.family) :
    st₀.root.id ∈ z.lineage := by
  rw [h.mem_family_iff] at hz
  rcases hz with rfl | rfl | rfl <;> simp [Scope.lineage]

/-- Only the root is cancelled without a cause. -/
theorem exists_cause_of_stops (h : Supervised calls st₀ steps st) (ha : a ∈ steps)
    (hStops : Stops st₀ before a y cause) (hNot : y ≠ st₀.root) : ∃ why, cause = some why := by
  cases hStops with
  | quietly => exact (hNot (h.outside _ ha y rfl)).elim
  | call => exact ⟨_, rfl⟩

/-! ### Who is cancelled -/

theorem mem_cancelled_iff (h : Supervised calls st₀ steps st) {i : Nat} :
    i ∈ st.scopes.cancelled ↔ i ∈ (Tokens.after calls).scopes.cancelled ∨ ∃ cause,
      First steps (fun before a cause => ∃ y, Stops st₀ before a y cause ∧ y.id = i) cause := by
  obtain ⟨root, listenerName, telemetryName, ids, hIds, rfl⟩ := h.starts
  exact State.mem_cancelled_iff hIds h.runs

/-- A scope of the run is cancelled if the root was at the start, or if a step has cancelled it or
    one around it. -/
theorem isCancelled_iff (h : Supervised calls st₀ steps st) (hz : z ∈ st₀.family) :
    st.scopes.isCancelled z = true ↔ (Tokens.after calls).scopes.isCancelled st₀.root = true ∨
      ∃ cause, First steps (fun before a cause =>
        ∃ y, Stops st₀ before a y cause ∧ y.id ∈ z.lineage) cause := by
  have hRoot : st₀.root.lineage = [st₀.root.id] := by rw [Scope.lineage, h.outermost]
  rw [Scopes.isCancelled_iff, Scopes.isCancelled_iff]
  constructor
  · rintro ⟨i, hAround, hIn⟩
    rcases h.mem_cancelled_iff.mp hIn with hStart | ⟨cause, before, a, after, hSplit,
      ⟨y, hStops, rfl⟩, -⟩
    · -- the other scopes around it are new
      refine Or.inl ⟨i, ?_, hStart⟩
      by_contra hNot
      rw [hRoot, List.mem_singleton] at hNot
      have hNew : (Tokens.after calls).scopes.count ≤ i := by
        rw [h.mem_family_iff] at hz
        rcases hz with rfl | rfl | rfl
        · exact (hNot (List.mem_singleton.mp (hRoot ▸ hAround))).elim
        · simp only [Scope.lineage, List.mem_cons, List.not_mem_nil, or_false] at hAround
          omega
        · simp only [Scope.lineage, List.mem_cons, List.not_mem_nil, or_false] at hAround
          omega
      exact (Tokens.untouched_of_count_le hNew).1 hStart
    · exact Or.inr (exists_first hSplit ⟨y, hStops, hAround⟩)
  · rintro (⟨i, hAround, hStart⟩ | ⟨cause, before, a, after, hSplit, ⟨y, hStops, hAround⟩, -⟩)
    · rw [hRoot, List.mem_singleton] at hAround
      exact ⟨i, hAround ▸ h.root_id_mem_lineage hz, h.mem_cancelled_iff.mpr (Or.inl hStart)⟩
    · exact ⟨y.id, hAround, h.mem_cancelled_iff.mpr
        (Or.inr (exists_first hSplit ⟨y, hStops, rfl⟩))⟩

/-- A step that cancels a scope leaves it cancelled, and those inside it. -/
theorem isCancelled_of_stops (h : Supervised calls st₀ (before ++ a :: after) st)
    (hz : z ∈ st₀.family) (hStops : Stops st₀ before a y cause) (hAround : y.id ∈ z.lineage) :
    st.scopes.isCancelled z = true :=
  (h.isCancelled_iff hz).mpr (Or.inr (exists_first rfl ⟨y, hStops, hAround⟩))

/-- Any step that cancels a scope of the run cancels that of telemetry. -/
theorem isCancelled_telemetryScope_iff (h : Supervised calls st₀ steps st) :
    st.scopes.isCancelled st₀.telemetryScope = true ↔
      (Tokens.after calls).scopes.isCancelled st₀.root = true ∨
        ∃ cause, First steps (fun before a cause => ∃ y, Stops st₀ before a y cause) cause := by
  rw [h.isCancelled_iff telemetryScope_mem_family]
  refine or_congr_right (exists_congr fun cause => first_congr ?_)
  rintro before a after other rfl
  refine exists_congr fun y => and_iff_left_of_imp fun hStops => ?_
  exact h.id_mem_lineage_telemetryScope
    (h.mem_family_of_stops (List.mem_append_right _ List.mem_cons_self) hStops)

/-- The root is cancelled from outside only, before the run or in it. -/
theorem isCancelled_root_iff (h : Supervised calls st₀ steps st) :
    st.scopes.isCancelled st₀.root = true ↔
      (Tokens.after calls).scopes.isCancelled st₀.root = true ∨
        ∃ cause, .cancel st₀.root cause ∈ steps := by
  rw [h.isCancelled_iff root_mem_family]
  refine or_congr_right ⟨?_, ?_⟩
  · rintro ⟨cause, before, a, after, rfl, ⟨y, hStops, hAround⟩, -⟩
    have ha : a ∈ before ++ a :: after := List.mem_append_right _ List.mem_cons_self
    rw [Scope.lineage, h.outermost, List.mem_singleton] at hAround
    obtain rfl := h.eq_of_id_eq (h.mem_family_of_stops ha hStops) root_mem_family hAround
    -- the other two scopes have other numbers
    cases hStops with
    | quietly => exact ⟨none, ha⟩
    | @call _ c _ why hEnds hSays =>
      have hTarget := hSays.target
      have hOlder := h.older
      obtain ⟨root, listenerName, telemetryName, ids, -, rfl⟩ := h.starts
      cases c with
      | listener =>
        have hId := congrArg Scope.id hTarget
        simp only [State.target, State.start, Scopes.child] at hId hOlder
        omega
      | supervisor s =>
        have hId := congrArg Scope.id hTarget
        simp only [State.target, State.start, Scopes.child] at hId hOlder
        omega
      | other scope cause =>
        cases a with
        | cancel scope' cause' =>
          cases cause' with
          | none => cases hEnds
          | some why' =>
            cases hEnds
            rw [State.target] at hTarget
            exact ⟨some cause, hTarget ▸ ha⟩
        | begin | write | finish | look | give | tell | leave | take | join => cases hEnds
  · rintro ⟨cause, hIn⟩
    obtain ⟨before, after, rfl⟩ := List.append_of_mem hIn
    have hStops : Stops st₀ before (.cancel st₀.root cause) st₀.root cause := by
      cases cause with
      | none => exact .quietly _
      | some why => exact .call rfl (.outside _ _)
    exact exists_first rfl ⟨st₀.root, hStops, List.mem_cons_self⟩

/-- A listener that was joined has told telemetry or has failed, and either cancels a scope. -/
theorem exists_stops_of_join (h : Supervised calls st₀ steps st)
    (hJoined : .join .listener ∈ steps) :
    ∃ before a after y cause, steps = before ++ a :: after ∧ Stops st₀ before a y cause := by
  have hRuns := h.runs
  obtain ⟨root, listenerName, telemetryName, ids, -, rfl⟩ := h.starts
  obtain ⟨before, after, rfl⟩ := List.append_of_mem hJoined
  obtain ⟨outcome, hCame, hPanic | ⟨-, hTold⟩⟩ := State.ended_of_join hRuns
  · -- a panic is reported where the task is joined
    obtain ⟨message, rfl⟩ := hPanic
    exact ⟨before, .join .listener, after, _, _, rfl,
      .call rfl (.failed ((hCame _).mpr rfl) (fails_panicked_iff.mpr rfl))⟩
  · obtain ⟨earlier, later, rfl⟩ := List.append_of_mem (hTold rfl)
    rw [List.append_assoc, List.cons_append] at hRuns ⊢
    obtain ⟨mid, next, hMid, hMove⟩ := State.move_of_runs hRuns
    have hFollows := State.follows_of_runs hMid .listener
    cases hMove with
    | @tell o hTask =>
      rw [State.taskOf, hTask] at hFollows
      obtain ⟨hReturned, hNoPanic, -⟩ := hFollows
      have hFinished := (hReturned o).mpr rfl
      cases o with
      | ok => exact ⟨earlier, _, _, _, _, rfl, .call rfl (.exitedWell hFinished)⟩
      | failed failure => exact ⟨earlier, _, _, _, _, rfl, .call rfl (.exited hFinished)⟩
      | panicked message => exact (hNoPanic message rfl).elim

/-- A joined failure leaves the scopes of both services cancelled. -/
theorem isCancelled_scopeOf_of_reports {failure : Failure}
    (h : Supervised calls st₀ (before ++ a :: after) st)
    (hReports : Reports (fun s => Fails (st₀.nameOf s) (st₀.idOf s)) before a failure)
    (s : Service) : st.scopes.isCancelled (st.scopeOf s) = true := by
  have hParties := State.sameParties_of_runs h.runs
  obtain ⟨t, outcome, rfl, hFinished, hFails⟩ := hReports
  -- the report is a join that cancels the group, which both services' scopes lie in
  have hStops : Stops st₀ before (.join t) st₀.group _ := .call rfl (.failed hFinished hFails)
  have hGroup : st₀.group ∈ st₀.family := by simp [State.family]
  cases s with
  | listener =>
    rw [State.scopeOf, hParties.group]
    exact h.isCancelled_of_stops hGroup hStops List.mem_cons_self
  | telemetry =>
    rw [State.scopeOf, hParties.telemetryScope]
    exact h.isCancelled_of_stops telemetryScope_mem_family hStops
      (h.id_mem_lineage_telemetryScope hGroup)

/-! ### Which cause is seen -/

/-- Telemetry sees the cause of its own scope, or else that of the group, or else that of the
    root. -/
theorem cause_telemetryScope (h : Supervised calls st₀ steps st) (w : Scopes) :
    w.cause st₀.telemetryScope =
      ((w.ownCause st₀.telemetryScope.id).or (w.ownCause st₀.group.id)).or
        (w.ownCause st₀.root.id) := by
  -- the root is outermost, so there are three scopes to ask
  have hLineage : st₀.telemetryScope.lineage =
      [st₀.telemetryScope.id, st₀.group.id, st₀.root.id] := by
    have hOutermost := h.outermost
    obtain ⟨root, listenerName, telemetryName, ids, -, rfl⟩ := h.starts
    have hRoot : root.ancestors = [] := hOutermost
    simp [State.start, Scopes.child, Scope.lineage, hRoot]
  rw [Scopes.cause, hLineage]
  simp only [List.findSome?_cons, List.findSome?_nil]
  cases w.ownCause st₀.telemetryScope.id <;> cases w.ownCause st₀.group.id <;>
    cases w.ownCause st₀.root.id <;> rfl

theorem cause_root (h : Supervised calls st₀ steps st) (w : Scopes) :
    w.cause st₀.root = w.ownCause st₀.root.id := by
  rw [Scopes.cause, Scope.lineage, h.outermost]
  simp only [List.findSome?_cons, List.findSome?_nil]
  cases w.ownCause st₀.root.id <;> rfl

/-- The group and the scope of telemetry have no cause at the start. -/
theorem ownCause_new (h : Supervised calls st₀ steps st) :
    (Tokens.after calls).scopes.ownCause st₀.group.id = none ∧
      (Tokens.after calls).scopes.ownCause st₀.telemetryScope.id = none := by
  obtain ⟨root, listenerName, telemetryName, ids, -, rfl⟩ := h.starts
  exact ⟨(Tokens.untouched_of_count_le le_rfl).2, (Tokens.untouched_of_count_le (Nat.le_succ _)).2⟩

/-- At the start of a run under an open root no scope of the run has a cause. -/
theorem ownCause_start (h : Supervised calls st₀ steps st)
    (hOpen : (Tokens.after calls).scopes.isCancelled st₀.root = false) (hz : z ∈ st₀.family) :
    (Tokens.after calls).scopes.ownCause z.id = none := by
  simp only [State.family, List.mem_cons, List.not_mem_nil, or_false] at hz
  rcases hz with rfl | rfl | rfl
  -- a cause of the root's would have come with its cancellation
  · rw [Tokens.ownCause_eq_none_iff]
    intro why hGiven
    have hIn := Tokens.mem_cancelled_iff.mpr hGiven.cancels
    have hOver := (Scopes.isCancelled_iff _ st₀.root).mpr ⟨_, List.mem_cons_self, hIn⟩
    exact Bool.false_ne_true (hOpen.symm.trans hOver)
  · exact h.ownCause_new.1
  · exact h.ownCause_new.2

/-- After a run under an open root a scope of the run has the first cause that a step gave it. -/
theorem ownCause_eq_some_iff (h : Supervised calls st₀ steps st)
    (hOpen : (Tokens.after calls).scopes.isCancelled st₀.root = false) (hz : z ∈ st₀.family) :
    st.scopes.ownCause z.id = some why ↔ FirstGiven st₀ steps z why := by
  have hFirst : FirstGiven st₀ steps z why ↔
      First steps (fun before a why => ∃ y, Gives st₀ before a y why ∧ y.id = z.id) why := by
    -- the scopes of the family have ids of their own, so a gift to the id is one to the scope
    refine first_congr ?_
    rintro before a after other rfl
    constructor
    · exact fun hGives => ⟨z, hGives, rfl⟩
    · rintro ⟨y, hGives, hSame⟩
      have hy := h.mem_family_of_gives (List.mem_append_right _ List.mem_cons_self) hGives
      rwa [← h.eq_of_id_eq hy hz hSame]
  have hNone := h.ownCause_start hOpen hz
  obtain ⟨root, listenerName, telemetryName, ids, hIds, rfl⟩ := h.starts
  rw [State.ownCause_eq_some_iff hIds h.runs, hNone, or_iff_right nofun, and_iff_right rfl, hFirst]

/-- A scope of the run that is over keeps its cause, if no call is under way that found a scope
    open. -/
theorem ownCause_of_over {mid : State} (h : Supervised calls st₀ (before ++ after) st)
    (hMid : st₀.runs before = some mid) (hIdle : mid.giving = []) (hz : z ∈ st₀.family)
    (hOver : mid.scopes.isCancelled z = true) :
    st.scopes.ownCause z.id = mid.scopes.ownCause z.id := by
  have hRest : mid.runs after = some st := by
    have hRuns := h.runs
    rwa [State.runs_append, hMid, Option.bind_some] at hRuns
  refine State.ownCause_of_over hOver hIdle (fun c hLook hSame => ?_) hRest
  rw [(State.sameParties_of_runs hMid).target] at hSame ⊢
  exact h.eq_of_id_eq (h.target_mem_family_of_look (List.mem_append_right _ hLook)) hz hSame

/-- Under a root that was cancelled before the run, telemetry sees the root's cause. -/
theorem cause_of_cancelled_before (h : Supervised calls st₀ steps st)
    (hStart : (Tokens.after calls).scopes.isCancelled st₀.root = true) :
    st.scopes.cause st₀.telemetryScope = (Tokens.after calls).scopes.cause st₀.root ∧
      st.scopes.cause st₀.root = (Tokens.after calls).scopes.cause st₀.root := by
  have hBegin : st₀.runs [] = some st₀ := rfl
  -- the state at the start is a run of no steps, where every scope of the family is over
  have hAtStart : Supervised calls st₀ [] st₀ :=
    ⟨h.starts, h.made, h.outermost, rfl, by simp⟩
  have hOwnStart : ∀ i, st₀.scopes.ownCause i = (Tokens.after calls).scopes.ownCause i := by
    obtain ⟨root, listenerName, telemetryName, ids, -, rfl⟩ := h.starts
    exact fun i => rfl
  have hIdle : st₀.giving = [] := by
    obtain ⟨root, listenerName, telemetryName, ids, -, rfl⟩ := h.starts
    rfl
  -- a scope that is over takes no cause any more
  have hKept (z : Scope) (hz : z ∈ st₀.family) :
      st.scopes.ownCause z.id = (Tokens.after calls).scopes.ownCause z.id := by
    have hOver : st₀.scopes.isCancelled z = true :=
      (hAtStart.isCancelled_iff hz).mpr (Or.inl hStart)
    have hAll : Supervised calls st₀ ([] ++ steps) st := h
    rw [hAll.ownCause_of_over hBegin hIdle hz hOver, hOwnStart]
  have hGroup : st₀.group ∈ st₀.family := by simp [State.family]
  rw [h.cause_telemetryScope, h.cause_root, h.cause_root, hKept _ telemetryScope_mem_family,
    hKept _ hGroup, hKept _ root_mem_family, h.ownCause_new.1, h.ownCause_new.2]
  exact ⟨rfl, rfl⟩

/-! ### Calls that do not overlap -/

/-- A caller says one thing in a run. -/
theorem says_unique (h : Supervised calls st₀ steps st) (hSays : Says st₀ steps c y why)
    (hOther : Says st₀ steps c z other) : y = z ∧ why = other := by
  have hRuns := h.runs
  obtain ⟨root, listenerName, telemetryName, ids, -, rfl⟩ := h.starts
  refine ⟨hSays.target.trans hOther.target.symm, ?_⟩
  -- a caller says one thing, since its task came to one outcome
  cases hSays with
  | outside =>
    cases hOther
    rfl
  | failed hCame hFails =>
    obtain _ | ⟨hCame', hFails'⟩ := hOther
    rw [(State.came_of_finish hRuns hCame _).mp hCame'] at hFails'
    cases hFails <;> cases hFails' <;> rfl
  | exitedWell hCame =>
    obtain _ | _ | _ | hCame' := hOther
    · rfl
    · cases (State.came_of_finish hRuns hCame _).mp hCame'
  | exited hCame =>
    obtain _ | _ | hCame' | hCame' := hOther
    · cases (State.came_of_finish hRuns hCame _).mp hCame'
    · cases (State.came_of_finish hRuns hCame _).mp hCame'
      rfl

/-- Until a step cancels a scope, all of them are open. -/
theorem isCancelled_eq_false (h : Supervised calls st₀ steps st)
    (hOpen : (Tokens.after calls).scopes.isCancelled st₀.root = false)
    (hFirst : Throughout steps fun before a => ∀ y cause, ¬ Stops st₀ before a y cause)
    (hz : z ∈ st₀.family) : st.scopes.isCancelled z = false := by
  rw [Bool.eq_false_iff, ne_eq, h.isCancelled_iff hz, hOpen, not_or]
  refine ⟨Bool.false_ne_true, ?_⟩
  rintro ⟨cause, before, a, after, rfl, ⟨y, hStops, -⟩, -⟩
  exact hFirst before a after rfl y cause hStops

/-- Where the first step that cancels does so alone, the only call that has given a cause is its
    own. -/
theorem give_mem_iff (h : Supervised calls st₀ before st)
    (hOpen : (Tokens.after calls).scopes.isCancelled st₀.root = false)
    (hAlone : StopsAlone st₀ before a cause) : .give c ∈ before ↔ a.caller? = some c := by
  have hRuns := h.runs
  -- no scope was stopped before, so every look has found its scope open
  have hOpenLooks (earlier : List Step) (d : Caller) (later : List Step) (mid : State)
      (hSplit : before = earlier ++ .look d :: later) (hMid : st₀.runs earlier = some mid) :
      mid.scopes.isCancelled (mid.target d) = false := by
    subst hSplit
    have hEarlier : Supervised calls st₀ earlier mid := ⟨h.starts, h.made, h.outermost, hMid,
      fun b hb => h.outside b (List.mem_append_left _ hb)⟩
    refine hEarlier.isCancelled_eq_false hOpen (throughout_append.mp hAlone.first).1 ?_
    rw [(State.sameParties_of_runs hMid).target]
    exact h.target_mem_family_of_look (List.mem_append_right _ List.mem_cons_self)
  have hFirst := hAlone.first
  have hCancelling := (hAlone.alone st hRuns).2
  obtain ⟨root, listenerName, telemetryName, ids, hIds, rfl⟩ := h.starts
  -- the one call under way has looked, given and not cancelled yet
  rw [← State.cancelling_iff hIds hRuns hFirst hOpenLooks, hCancelling, Option.mem_toList]

/-- Where the first step that cancels does so alone, the only cause that was given is that of its
    own scope. -/
theorem ownCause_of_stopsAlone (h : Supervised calls st₀ before st)
    (hOpen : (Tokens.after calls).scopes.isCancelled st₀.root = false)
    (hAlone : StopsAlone st₀ before a cause) (hStops : Stops st₀ before a y cause)
    (hz : z ∈ st₀.family) : st.scopes.ownCause z.id = if z = y then cause else none := by
  have hOnly {why : String} (hGives : FirstGiven st₀ before z why) : z = y ∧ cause = some why := by
    obtain ⟨earlier, _, later, rfl, ⟨c, rfl, hSays⟩, -⟩ := hGives
    have hCaller := (h.give_mem_iff hOpen hAlone).mp (List.mem_append_right _ List.mem_cons_self)
    cases hStops with
    | quietly => cases hCaller
    | call hEnds hSaysHere =>
      cases hCaller.symm.trans hEnds
      obtain ⟨rfl, rfl⟩ := h.says_unique (hSays.append _) hSaysHere
      exact ⟨rfl, rfl⟩
  have hOwn (why : String) : st.scopes.ownCause z.id = some why ↔ z = y ∧ cause = some why := by
    rw [h.ownCause_eq_some_iff hOpen hz]
    refine ⟨hOnly, ?_⟩
    rintro ⟨rfl, rfl⟩
    cases hStops with
    | @call _ c _ _ hEnds hSaysHere =>
      obtain ⟨earlier, later, rfl⟩ := List.append_of_mem ((h.give_mem_iff hOpen hAlone).mpr hEnds)
      -- it gave what it says now
      have hGives : Gives st₀ earlier (.give c) z why := by
        obtain ⟨mid, next, hMid, hMove⟩ := State.move_of_runs h.runs
        refine ⟨c, rfl, ?_⟩
        cases hMove with
        | @give _ given hWhy =>
          have hSays : Says st₀ earlier c (st₀.target c) given := by
            obtain ⟨root, listenerName, telemetryName, ids, hIds, rfl⟩ := h.starts
            exact (State.says_iff hIds hMid hWhy).mpr ⟨rfl, rfl⟩
          obtain ⟨rfl, rfl⟩ := h.says_unique (hSays.append _) hSaysHere
          exact hSays
      obtain ⟨other, hFirst⟩ := exists_first
        (Q := fun earlier b why => Gives st₀ earlier b z why) rfl hGives
      obtain ⟨-, hSame⟩ := hOnly hFirst
      cases hSame
      exact hFirst
  ext why
  rw [hOwn]
  split <;> simp_all

/-- The first step that cancels a scope decides for good which cause telemetry sees, if it does so
    alone. -/
theorem cause_of_stopsAlone (h : Supervised calls st₀ (before ++ a :: after) st)
    (hOpen : (Tokens.after calls).scopes.isCancelled st₀.root = false)
    (hAlone : StopsAlone st₀ before a cause) :
    st.scopes.cause st₀.telemetryScope = cause := by
  obtain ⟨y, hStops⟩ := hAlone.stops
  obtain ⟨mid, hMid, -⟩ := h.exists_mid
  have hSplit : before ++ a :: after = (before ++ [a]) ++ after := by simp
  rw [hSplit] at h
  obtain ⟨next, hNext, -⟩ := h.exists_mid
  have hy : y ∈ st₀.family := hNext.mem_family_of_stops (by simp) hStops
  have hMove : State.Move mid a next := by
    obtain ⟨mid', hMid', hStep⟩ := State.runs_concat hNext.runs
    cases hMid.runs.symm.trans hMid'
    exact State.move_of_step hStep
  have hNoCall (c : Caller) : a ≠ .look c ∧ a ≠ .give c := by
    cases hStops with
    | quietly => exact ⟨nofun, nofun⟩
    | call hEnds =>
      constructor
      · rintro rfl
        cases hEnds
      · rintro rfl
        cases hEnds
  -- what lies inside the scope that is cancelled is over now, and keeps what it has
  have hKept {z : Scope} (hz : z ∈ st₀.family) (hAround : y.id ∈ z.lineage) :
      st.scopes.ownCause z.id = if z = y then cause else none := by
    have hIdle : next.giving = [] := by
      rw [hMove.giving hNoCall]
      exact (hAlone.alone mid hMid.runs).1
    rw [h.ownCause_of_over hNext.runs hIdle hz (hNext.isCancelled_of_stops hz hStops hAround),
      ← hMid.ownCause_of_stopsAlone hOpen hAlone hStops hz, Scopes.ownCause, Scopes.ownCause,
      hMove.causes fun c => (hNoCall c).2]
  have hGroup : st₀.group ∈ st₀.family := by simp [State.family]
  have hOlder := h.older
  have hNew : st₀.group ≠ st₀.root ∧ st₀.telemetryScope ≠ st₀.root ∧
      st₀.telemetryScope ≠ st₀.group := by
    obtain ⟨root, listenerName, telemetryName, ids, -, rfl⟩ := h.starts
    refine ⟨?_, ?_, ?_⟩ <;>
    · intro hSame
      have hId := congrArg Scope.id hSame
      simp only [State.start, Scopes.child] at hId hOlder
      omega
  obtain ⟨hGroupNew, hTelemetryNew, hApart⟩ := hNew
  have hCause (hNot : y ≠ st₀.root) : ∃ why, cause = some why :=
    hNext.exists_cause_of_stops (List.mem_append_right _ List.mem_cons_self) hStops hNot
  rw [h.cause_telemetryScope,
    hKept telemetryScope_mem_family (h.id_mem_lineage_telemetryScope hy)]
  simp only [State.family, List.mem_cons, List.not_mem_nil, or_false] at hy
  -- the cause of the root does not matter unless it is the root that is cancelled
  rcases hy with rfl | rfl | rfl
  · rw [hKept hGroup (h.root_id_mem_lineage hGroup),
      hKept root_mem_family (h.root_id_mem_lineage root_mem_family), if_neg hTelemetryNew,
      if_neg hGroupNew, if_pos rfl]
    rfl
  · obtain ⟨why, rfl⟩ := hCause hGroupNew
    rw [hKept hGroup List.mem_cons_self, if_neg hApart, if_pos rfl]
    rfl
  · obtain ⟨why, rfl⟩ := hCause hTelemetryNew
    rw [if_pos rfl]
    rfl

/-- Under an open root telemetry sees what it was told. -/
theorem cause_iff_told (h : Supervised calls st₀ steps st)
    (hOpen : (Tokens.after calls).scopes.isCancelled st₀.root = false) :
    st.scopes.cause st₀.telemetryScope = some why ↔ Told st₀ steps why := by
  have hGroup : st₀.group ∈ st₀.family := by simp [State.family]
  have hNever {y : Scope} (hy : y ∈ st₀.family) : st.scopes.ownCause y.id = none ↔
      ∀ other, ¬ FirstGiven st₀ steps y other := by
    rw [Option.eq_none_iff_forall_ne_some]
    exact forall_congr' fun other => not_congr (h.ownCause_eq_some_iff hOpen hy)
  -- the nearest scope with a cause decides: telemetry's own, then the group's, then the root's
  rw [h.cause_telemetryScope, Option.or_eq_some_iff, Option.or_eq_some_iff, Option.or_eq_none_iff,
    hNever telemetryScope_mem_family, hNever hGroup,
    h.ownCause_eq_some_iff hOpen telemetryScope_mem_family, h.ownCause_eq_some_iff hOpen hGroup,
    h.ownCause_eq_some_iff hOpen root_mem_family]
  constructor
  · rintro ((hFirst | ⟨hNot, hFirst⟩) | ⟨⟨hNot, hNotGroup⟩, hFirst⟩)
    · exact .exited hFirst
    · exact .failed hNot hFirst
    · exact .outside hNot hNotGroup hFirst
  · rintro (hFirst | ⟨hNot, hFirst⟩ | ⟨hNot, hNotGroup, hFirst⟩)
    · exact Or.inl (Or.inl hFirst)
    · exact Or.inl (Or.inr ⟨hNot, hFirst⟩)
    · exact Or.inr ⟨⟨hNot, hNotGroup⟩, hFirst⟩

end Supervised

end

/-! ### The scopes of a run -/

/-- The scopes of a supervised run whose root lies in no other scope, however the services end, in
    whatever order the tasks are joined, and whenever the root is cancelled from outside.

    Once the listener was joined the scope of telemetry is cancelled, and once a failure was joined
    those of both services are.  The root is cancelled from outside only.  If that was before the
    run, telemetry sees the root's cause.  If not, it sees what it was told, and the first step
    that cancels a scope decides for good what that is, if no other call is under way then. -/
theorem scopes_of_runs (calls : List Tokens.Call) (root : Scope) (listenerName : String)
    (telemetryName : Option String) (ids : Service → TaskId) (steps : List Step) (st : State)
    (hIds : ids .listener ≠ ids .telemetry) (hRoot : root ∈ (Tokens.after calls).handles)
    (hOutermost : root.ancestors = [])
    (hRuns : (State.start (Tokens.after calls).scopes root listenerName telemetryName ids).runs
      steps = some st)
    (hOutside : ∀ a ∈ steps, ∀ scope, a.outside? = some scope → scope = root) :
    let w := (Tokens.after calls).scopes
    let st₀ := State.start w root listenerName telemetryName ids
    (.join .listener ∈ steps → st.scopes.isCancelled st.telemetryScope = true) ∧
      (∀ before a after failure, steps = before ++ a :: after →
        Reports (fun s => Fails (st₀.nameOf s) (st₀.idOf s)) before a failure →
        ∀ s, st.scopes.isCancelled (st.scopeOf s) = true) ∧
      (st.scopes.isCancelled root = true ↔
        w.isCancelled root = true ∨ ∃ cause, .cancel root cause ∈ steps) ∧
      (w.isCancelled root = true →
        st.scopes.isCancelled st.telemetryScope = true ∧
          st.scopes.cause st.telemetryScope = w.cause root ∧
          st.scopes.cause root = w.cause root) ∧
      (w.isCancelled root = false →
        (st.scopes.isCancelled st.telemetryScope = true ↔
          ∃ cause, First steps (fun before a c => ∃ y, Stops st₀ before a y c) cause) ∧
        (∀ why, st.scopes.cause root = some why ↔ FirstGiven st₀ steps root why) ∧
        (∀ why, st.scopes.cause st.telemetryScope = some why ↔ Told st₀ steps why) ∧
        ∀ before a after cause, steps = before ++ a :: after → StopsAlone st₀ before a cause →
          st.scopes.cause st.telemetryScope = cause) := by
  intro w st₀
  have h : Supervised calls st₀ steps st :=
    ⟨⟨root, listenerName, telemetryName, ids, hIds, rfl⟩, hRoot, hOutermost, hRuns, hOutside⟩
  rw [(State.sameParties_of_runs hRuns).telemetryScope]
  refine ⟨fun hJoined => ?_, ?_, h.isCancelled_root_iff, fun hStart => ?_, fun hStart => ?_⟩
  -- the listener was told or stopped before it was joined, by a call that reaches telemetry
  · obtain ⟨before, a, after, y, cause, rfl, hStops⟩ := h.exists_stops_of_join hJoined
    have hy := h.mem_family_of_stops (List.mem_append_right _ List.mem_cons_self) hStops
    exact h.isCancelled_of_stops Supervised.telemetryScope_mem_family hStops
      (h.id_mem_lineage_telemetryScope hy)
  · rintro before a after failure rfl hReports
    exact h.isCancelled_scopeOf_of_reports hReports
  · exact ⟨h.isCancelled_telemetryScope_iff.mpr (Or.inl hStart), h.cause_of_cancelled_before hStart⟩
  · refine ⟨?_, fun why => ?_, fun why => h.cause_iff_told hStart, ?_⟩
    -- the root was open at the start, so telemetry's scope was stopped by a call
    · rw [h.isCancelled_telemetryScope_iff]
      exact or_iff_right (hStart.symm ▸ Bool.false_ne_true)
    · exact (h.cause_root st.scopes).symm ▸ h.ownCause_eq_some_iff hStart Supervised.root_mem_family
    · rintro before a after cause rfl hAlone
      exact h.cause_of_stopsAlone hStart hAlone

private def scopeIds : Service → TaskId
  | .listener => ⟨7, "7"⟩
  | .telemetry => ⟨8, "8"⟩

/-! Telemetry fails and is joined, then the listener panics, and only then the root is cancelled. -/

private def telemetryFirst : List Step :=
  [.begin .listener, .begin .telemetry, .finish .telemetry (.failed ["bind"]), .leave .telemetry,
    .take .telemetry, .look (.supervisor .telemetry), .give (.supervisor .telemetry),
    .join .telemetry, .finish .listener (.panicked (some "poisoned")), .take .listener,
    .join .listener, .look (.other ⟨0, []⟩ "received SIGTERM"),
    .give (.other ⟨0, []⟩ "received SIGTERM"), .cancel ⟨0, []⟩ (some "received SIGTERM")]

/-- The scope of telemetry keeps the cause of the failure that was joined, and the root is
    cancelled too. -/
theorem scopes_of_runs_telemetry_first :
    ∃ st, (State.start (Tokens.after [.root]).scopes ⟨0, []⟩ "listener"
        (some "telemetry") scopeIds).runs telemetryFirst = some st ∧
      st.scopes.isCancelled st.telemetryScope = true ∧
      (∀ s, st.scopes.isCancelled (st.scopeOf s) = true) ∧
      st.scopes.cause st.telemetryScope = some "telemetry failed: bind" ∧
      st.scopes.isCancelled ⟨0, []⟩ = true := by
  cases h : (State.start (Tokens.after [.root]).scopes ⟨0, []⟩ "listener"
      (some "telemetry") scopeIds).runs telemetryFirst with
  | none => exact absurd h (by decide)
  | some st =>
    -- telemetry's failure is joined alone, before the signal's call has looked
    have hAlone : StopsAlone (State.start (Tokens.after [.root]).scopes ⟨0, []⟩ "listener"
        (some "telemetry") scopeIds) (telemetryFirst.take 7) (.join .telemetry)
        (some "telemetry failed: bind") := by
      have hCame : .finish .telemetry (.failed ["bind"]) ∈ telemetryFirst.take 7 := by decide
      refine ⟨⟨_, .call rfl (.failed hCame (.returned _))⟩, ?_, fun mid hMid => ?_⟩
      · rintro before a after hSplit y other hStops
        have hIn : a ∈ telemetryFirst.take 7 := hSplit ▸ List.mem_append_right _ List.mem_cons_self
        have hNone : ∀ b ∈ telemetryFirst.take 7, b.caller? = none := by decide
        cases hStops with
        | quietly => simp [telemetryFirst] at hIn
        | call hEnds => cases (hNone a hIn).symm.trans hEnds
      · have hAll : ((State.start (Tokens.after [.root]).scopes ⟨0, []⟩ "listener"
            (some "telemetry") scopeIds).runs (telemetryFirst.take 7)).all (fun mid =>
              mid.giving = [] ∧ mid.cancelling = [.supervisor .telemetry]) = true := by decide
        rw [hMid, Option.all_some, decide_eq_true_eq] at hAll
        exact hAll
    obtain ⟨hJoined, hFailed, hRootIff, -, hOpen⟩ :=
      scopes_of_runs [.root] ⟨0, []⟩ "listener" (some "telemetry") scopeIds telemetryFirst st
        (by decide) (by decide) rfl h (by decide)
    refine ⟨st, rfl, hJoined (by decide), ?_, ?_, ?_⟩
    · exact hFailed (telemetryFirst.take 7) _ _ _ rfl
        ⟨.telemetry, .failed ["bind"], rfl, by decide, .returned _⟩
    · exact (hOpen (by decide)).2.2.2 (telemetryFirst.take 7) _ _ _ rfl hAlone
    · exact hRootIff.mpr (Or.inr ⟨some "received SIGTERM", by decide⟩)

/-! The listener returns, and its task finds the scope of telemetry open.  Before it gives its
    cause, the root is cancelled for another one. -/

private def signalledBetween : List Step :=
  [.begin .listener, .begin .telemetry, .finish .listener .ok, .look .listener,
    .look (.other ⟨0, []⟩ "received SIGTERM"), .give (.other ⟨0, []⟩ "received SIGTERM"),
    .cancel ⟨0, []⟩ (some "received SIGTERM")]

/-- Telemetry sees one cause after the first cancellation, and another one when the listener's
    task goes on. -/
theorem cause_changes_after_cancellation :
    ∃ mid st, (State.start (Tokens.after [.root]).scopes ⟨0, []⟩ "listener"
        (some "telemetry") scopeIds).runs signalledBetween = some mid ∧
      mid.runs [.give .listener, .tell] = some st ∧
      mid.scopes.isCancelled mid.telemetryScope = true ∧
      mid.scopes.cause mid.telemetryScope = some "received SIGTERM" ∧
      st.scopes.cause st.telemetryScope = some "listener exited: ok" := by
  cases h : (State.start (Tokens.after [.root]).scopes ⟨0, []⟩ "listener"
      (some "telemetry") scopeIds).runs signalledBetween with
  | none => exact absurd h (by decide)
  | some mid =>
    have hMid := Option.some.inj h
    cases hNext : mid.runs [.give .listener, .tell] with
    | none =>
      subst hMid
      exact absurd hNext (by decide)
    | some st =>
      subst hMid
      obtain rfl := Option.some.inj hNext
      exact ⟨_, _, rfl, hNext, by decide, by decide, by decide⟩

end Supervisor

end RunnerPool
