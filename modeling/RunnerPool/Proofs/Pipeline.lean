import RunnerPool.Pool
import RunnerPool.Proofs.Listener
import RunnerPool.Settings.Basic

/-!
# A run as a fold over its lines

A whole run, from the bytes of its input to the requests at the cluster, without tasks, scopes
and log entries: the lines of the input are gone through one by one, each event moves the
sequencer on, asks for at most one request and succeeds or fails by the answer to it, and the
first failure ends it.

* `Pipeline.patchAt`    the request that patches what is kept at a path
* `Pipeline.demand`     the request that an event asks for
* `Pipeline.step`       one line
* `Pipeline.fold`       all lines

## Main statement

- `run_eq_fold`: a run that nothing cancels sends what the fold sends and ends as the fold ends,
  and the fold fails with the first line that fails
-/

namespace RunnerPool

namespace Pipeline

open Cluster

/-- How far a run has come. -/
structure Progress where
  sequencer : Sequencer
  /-- The requests so far, in the order in which they left. -/
  sent : List Request
  failure : Option Failure

/-- A run before its first line. -/
def start (s : Settings) : Progress := ⟨.new s.bounds, [], none⟩

/-- Where the cluster keeps the status of a runner. -/
def statusPath (ns runner : String) : String :=
  "/apis/actions.github.com/v1alpha1/namespaces/" ++ ns ++ "/ephemeralrunners/" ++ runner ++
    "/status"

/-- Where the cluster keeps a pool. -/
def poolPath (ns pool : String) : String :=
  "/apis/actions.github.com/v1alpha1/namespaces/" ++ ns ++ "/ephemeralrunnersets/" ++ pool

/-- The request that patches the resource of this name at this path, or why it cannot be built:
    the name is empty, or the path and an empty query are no target. -/
def patchAt (name path : String) (patch : Json.Value) : Except Unbuildable Request :=
  if name = "" then .error .emptyName
  else
    match Uri.target? (path ++ "?") with
    | .ok target => .ok ⟨target, patch⟩
    | .error why => .error why

/-- The request that an event asks for, if it asks for one, or why it cannot be built: a started
    job patches the status of its runner, a desired count sets size and number of the pool to what
    is decided. -/
def demand (s : Settings) (q : Sequencer) : Event → Option (Except Unbuildable Request)
  | .jobStarted job =>
    some (patchAt job.runner (statusPath s.ns job.runner) (RunnerStatus.patch job))
  | .jobCompleted _ => none
  | .desiredCount n =>
    let d := (q.evaluate n).1
    some (patchAt s.name (poolPath s.ns s.name) (RunnerSetSpec.patch d.target d.patchId))

/-- The request of an event, if it has one that can be sent. -/
def request? (s : Settings) (q : Sequencer) (e : Event) : Option Request :=
  (demand s q e).bind Except.toOption

/-- The sequencer after an event. -/
def advance (q : Sequencer) : Event → Sequencer
  | .jobStarted _ => q.markDirty
  | .jobCompleted _ => q.markDirty
  | .desiredCount n => (q.evaluate n).2

/-- The error that an answer is to the request of an event.  That a runner is gone is none. -/
def objection? (a : Answer) : Event → Option Cluster.Error
  | .jobStarted _ =>
    match a.decode Runner.record with
    | .ok _ => none
    | .error err => if err.isNotFound then none else some err
  | .jobCompleted _ => none
  | .desiredCount _ =>
    match a.decode RunnerSet.record with
    | .ok _ => none
    | .error err => some err

/-- Why the handling of an event fails, if it does; `answers` are those of the cluster, by the
    number of requests before. -/
def complaint? (s : Settings) (answers : Nat → Request → Answer) (p : Progress) (e : Event) :
    Option Cluster.Error :=
  match demand s p.sequencer e with
  | none => none
  | some (.error why) => some (.unbuildable why)
  | some (.ok r) => objection? (answers p.sent.length r) e

/-- Why a line ends the run, if it does. -/
def lineFailure? (s : Settings) (answers : Nat → Request → Answer) (p : Progress) :
    Except LineFault Event → Option Failure
  | .error fault => some fault.chain
  | .ok e => (complaint? s answers p e).map fun err => Listener.context e :: err.chain

/-- One line.  After a failure nothing is done any more. -/
def step (s : Settings) (answers : Nat → Request → Answer) (p : Progress)
    (line : Except LineFault Event) : Progress :=
  if p.failure.isSome then p
  else
    match line with
    | .error _ => { p with failure := lineFailure? s answers p line }
    | .ok e =>
      ⟨advance p.sequencer e, p.sent ++ (request? s p.sequencer e).toList,
        lineFailure? s answers p line⟩

/-- All lines, from the first state on. -/
def fold (s : Settings) (answers : Nat → Request → Answer)
    (lines : List (Except LineFault Event)) : Progress :=
  lines.foldl (step s answers) (start s)

/-- How a run ends that has come so far at its last line. -/
def Progress.ending (p : Progress) : Listener.Ending :=
  match p.failure with
  | none => .ok
  | some failure => .failed failure

theorem Progress.ending_eq_ok_iff (p : Progress) : p.ending = .ok ↔ p.failure = none := by
  rw [Progress.ending]
  cases p.failure <;> simp

theorem Progress.ending_eq_failed_iff (p : Progress) (f : Failure) :
    p.ending = .failed f ↔ p.failure = some f := by
  rw [Progress.ending]
  cases p.failure <;> simp

/-! ### The requests -/

theorem path_of_namespace (kind : Resource.Kind) (ns : String) :
    kind.path (some ns) =
      "/apis/actions.github.com/v1alpha1/namespaces/" ++ ns ++ "/" ++ kind.plural := by
  apply String.toList_inj.mp
  simp [Resource.Kind.path, Resource.apiVersion, Resource.group, Resource.version]

/-- A request is built for the path of its resource with an empty query. -/
theorem build_eq_patchAt (kind : Resource.Kind) (ns name : String) (part : Option String)
    (patch : Json.Value) :
    Request.build kind ns name part patch =
      patchAt name (kind.path (some ns) ++ "/" ++ name ++ part.elim "" ("/" ++ ·)) patch := by
  unfold Request.build patchAt
  -- the name is refused or passed on, and the part only lengthens the path
  split
  · rfl
  · cases part with
    | none =>
      simp only [Option.elim_none]
      cases Uri.target? (kind.path (some ns) ++ "/" ++ name ++ "" ++ "?") <;> rfl
    | some p =>
      simp only [Option.elim_some]
      cases Uri.target? (kind.path (some ns) ++ "/" ++ name ++ ("/" ++ p) ++ "?") <;> rfl

/-- What the scaler builds for a started job is the request for the status of its runner. -/
theorem build_runner_status (ns runner : String) (patch : Json.Value) :
    Request.build .runner ns runner (some "status") patch =
      patchAt runner (statusPath ns runner) patch := by
  have hRunners : "/ephemeralrunners/".toList =
      "/".toList ++ (Resource.Kind.runner.plural.toList ++ "/".toList) := by decide
  have hStatus : "/status".toList = "/".toList ++ "status".toList := by decide
  have hPath : Resource.Kind.runner.path (some ns) ++ "/" ++ runner ++ ("/" ++ "status") =
      statusPath ns runner := by
    -- both paths have the same pieces, only cut apart differently
    apply String.toList_inj.mp
    rw [path_of_namespace]
    unfold statusPath
    simp only [String.toList_append, List.append_assoc, hRunners, hStatus]
  rw [build_eq_patchAt, Option.elim_some, hPath]

/-- What the scaler builds for a desired count is the request for the pool. -/
theorem build_runnerSet (ns pool : String) (patch : Json.Value) :
    Request.build .runnerSet ns pool none patch = patchAt pool (poolPath ns pool) patch := by
  have hSets : "/ephemeralrunnersets/".toList =
      "/".toList ++ (Resource.Kind.runnerSet.plural.toList ++ "/".toList) := by decide
  have hPath : Resource.Kind.runnerSet.path (some ns) ++ "/" ++ pool ++ "" = poolPath ns pool := by
    apply String.toList_inj.mp
    rw [path_of_namespace, String.append_empty]
    unfold poolPath
    simp only [String.toList_append, List.append_assoc, hSets]
  rw [build_eq_patchAt, Option.elim_none, hPath]

/-! ### The first failure -/

section Fold

variable (s : Settings) (answers : Nat → Request → Answer)

theorem step_of_failed (p : Progress) (line : Except LineFault Event) (f : Failure)
    (h : p.failure = some f) : step s answers p line = p :=
  if_pos (by rw [h]; rfl)

/-- A line that is reached fails or not as `lineFailure?` says. -/
theorem failure_step (p : Progress) (line : Except LineFault Event) (h : p.failure = none) :
    (step s answers p line).failure = lineFailure? s answers p line := by
  cases line <;> simp [step, h]

theorem foldl_of_failed (p : Progress) (lines : List (Except LineFault Event)) (f : Failure)
    (h : p.failure = some f) : lines.foldl (step s answers) p = p := by
  induction lines with
  | nil => rfl
  | cons line lines ih => rw [List.foldl_cons, step_of_failed s answers p line f h, ih]

/-- A fold that failed has a first line that did. -/
private theorem exists_first_failure (p : Progress) (lines : List (Except LineFault Event))
    (f : Failure) (hStart : p.failure = none)
    (hFailed : (lines.foldl (step s answers) p).failure = some f) :
    ∃ before line after, lines = before ++ line :: after ∧
      (before.foldl (step s answers) p).failure = none ∧
      lineFailure? s answers (before.foldl (step s answers) p) line = some f := by
  induction lines generalizing p with
  | nil =>
    rw [List.foldl_nil, hStart] at hFailed
    exact nomatch hFailed
  | cons line lines ih =>
    rw [List.foldl_cons] at hFailed
    have hStep := failure_step s answers p line hStart
    cases hLine : lineFailure? s answers p line with
    | some f' =>
      -- the line fails, and the failure stays
      rw [hLine] at hStep
      rw [foldl_of_failed s answers _ lines f' hStep, hStep] at hFailed
      exact ⟨[], line, lines, rfl, hStart, hLine.trans hFailed⟩
    | none =>
      obtain ⟨before, l, after, rfl, hBefore, hFirst⟩ := ih _ (hStep.trans hLine) hFailed
      exact ⟨line :: before, l, after, rfl, hBefore, hFirst⟩

/-- What follows the first failure changes nothing. -/
private theorem fold_of_first_failure (before after : List (Except LineFault Event))
    (line : Except LineFault Event) (f : Failure)
    (hBefore : (fold s answers before).failure = none)
    (hFirst : lineFailure? s answers (fold s answers before) line = some f) :
    fold s answers (before ++ line :: after) = fold s answers (before ++ [line]) ∧
      (fold s answers (before ++ [line])).failure = some f := by
  have hStep := failure_step s answers (fold s answers before) line hBefore
  rw [hFirst] at hStep
  simp only [fold, List.foldl_append, List.foldl_cons, List.foldl_nil] at hStep ⊢
  exact ⟨foldl_of_failed s answers _ after f hStep, hStep⟩

/-- A fold fails with the first line that fails, and what follows that line changes nothing. -/
theorem failure_fold_iff (lines : List (Except LineFault Event)) (f : Failure) :
    (fold s answers lines).failure = some f ↔
      ∃ before line after, lines = before ++ line :: after ∧
        (fold s answers before).failure = none ∧
        lineFailure? s answers (fold s answers before) line = some f ∧
        fold s answers lines = fold s answers (before ++ [line]) := by
  -- the first line that fails is where the fold stops, and nothing after it counts
  constructor
  · intro hFailed
    obtain ⟨before, line, after, rfl, hBefore, hFirst⟩ :=
      exists_first_failure s answers (start s) lines f rfl hFailed
    exact ⟨before, line, after, rfl, hBefore, hFirst,
      (fold_of_first_failure s answers before after line f hBefore hFirst).1⟩
  · rintro ⟨before, line, after, rfl, hBefore, hFirst, hSame⟩
    rw [hSame]
    exact (fold_of_first_failure s answers before after line f hBefore hFirst).2

/-- A line that does not end the run holds an event whose handling does not fail. -/
theorem lineFailure?_eq_none_iff (p : Progress) (line : Except LineFault Event) :
    lineFailure? s answers p line = none ↔
      ∃ e, line = .ok e ∧ complaint? s answers p e = none := by
  cases line <;> simp [lineFailure?]

/-- A fold succeeds if and only if every line does in the state that the lines before it
    leave. -/
theorem failure_fold_eq_none_iff (lines : List (Except LineFault Event)) :
    (fold s answers lines).failure = none ↔
      ∀ before line after, lines = before ++ line :: after →
        lineFailure? s answers (fold s answers before) line = none := by
  constructor
  · rintro hNone before line after rfl
    cases hBefore : (fold s answers before).failure with
    | some f =>
      -- a failure before the line would have stayed
      have hSame : fold s answers (before ++ line :: after) = fold s answers before := by
        simp only [fold, List.foldl_append] at hBefore ⊢
        exact foldl_of_failed s answers _ (line :: after) f hBefore
      rw [hSame, hBefore] at hNone
      exact nomatch hNone
    | none =>
      cases hLine : lineFailure? s answers (fold s answers before) line with
      | none => rfl
      | some f =>
        have hFirst := fold_of_first_failure s answers before after line f hBefore hLine
        rw [hFirst.1, hFirst.2] at hNone
        exact nomatch hNone
  · intro hAll
    cases hFailed : (fold s answers lines).failure with
    | none => rfl
    | some f =>
      obtain ⟨before, line, after, hLines, -, hFirst, -⟩ :=
        (failure_fold_iff s answers lines f).mp hFailed
      rw [hAll before line after hLines] at hFirst
      exact nomatch hFirst

end Fold

/-! ### The handlers over a cluster -/

/-- The pool of a run that has come so far. -/
def Progress.pool (s : Settings) (p : Progress) : Pool := ⟨⟨s.ns, s.name, p.sequencer⟩, p.sent⟩

/-- What an event that is handled without a failure adds to the metrics. -/
def recording (q : Sequencer) : Event → Listener.Recording
  | .jobStarted _ => .started
  | .jobCompleted _ => .completed
  | .desiredCount n => .desired n (q.evaluate n).1.target

/-- How the handling of an event ends. -/
def handled (s : Settings) (answers : Nat → Request → Answer) (p : Progress) (e : Event) :
    Except HandlerError Listener.Recording :=
  match complaint? s answers p e with
  | none => .ok (recording p.sequencer e)
  | some err => .error (.cluster err)

@[simp] theorem result?_conclude (o : Outcome α) : (Pool.conclude o).result? = some o.result := by
  rw [Pool.conclude, Course.result?_noting, Course.result?_done]

section Handlers

variable (s : Settings) (cluster : Cluster.Script) (answers : Nat → Request → Answer)

/-- A handler's request is sent after all that were sent before. -/
theorem fst_carryOut (sent : List Request) (scaler : Scaler) (h : Handling α) :
    (Pool.carryOut cluster sent scaler h).1 = ⟨scaler, sent ++ h.request?.toList⟩ := by
  rw [Pool.carryOut, Handling.request?]
  cases h.exchange with
  | settled o => simp
  | ask r settle => rfl

/-- A handler ends as the answer to its request says, if it has one. -/
theorem result?_carryOut (hAnswers : ∀ n r, (cluster n r).result? = some (answers n r))
    (sent : List Request) (scaler : Scaler) (h : Handling α) :
    (Pool.carryOut cluster sent scaler h).2.result? =
      some (match h.exchange with
        | .settled o => o.result
        | .ask r settle => (settle (answers sent.length r)).result) := by
  rw [Pool.carryOut]
  cases h.exchange with
  | settled o => simp
  | ask r settle => simp [hAnswers]

/-- An event's handler leaves the pool of the next step. -/
theorem fst_dispatch (p : Progress) (e : Event) (hp : p.failure = none) :
    (Listener.dispatch (Pool.handler cluster) (p.pool s) e).1 =
      (step s answers p (.ok e)).pool s := by
  -- what is handed over is the sequencer advanced and the request sent, if one could be built
  cases e with
  | jobStarted job =>
    simp only [Listener.dispatch, Pool.handler, fst_carryOut, Scaler.jobStarted, Progress.pool,
      step, hp, advance, request?, demand, Handling.request?, build_runner_status]
    cases patchAt job.runner (statusPath s.ns job.runner) (RunnerStatus.patch job) <;> rfl
  | jobCompleted job =>
    simp only [Listener.dispatch, Pool.handler, fst_carryOut, Scaler.jobCompleted, Progress.pool,
      step, hp, advance, request?, demand, Handling.request?]
    rfl
  | desiredCount n =>
    simp only [Listener.dispatch, Pool.handler, fst_carryOut, Scaler.desiredCount, Progress.pool,
      step, hp, advance, request?, demand, Handling.request?, build_runnerSet]
    cases patchAt s.name (poolPath s.ns s.name)
      (RunnerSetSpec.patch (p.sequencer.evaluate n).1.target
        (p.sequencer.evaluate n).1.patchId) <;> rfl

/-- An event's handler ends as the answer to its request says. -/
theorem result?_dispatch (hAnswers : ∀ n r, (cluster n r).result? = some (answers n r))
    (p : Progress) (e : Event) :
    (Listener.dispatch (Pool.handler cluster) (p.pool s) e).2.result? =
      some (handled s answers p e) := by
  cases e with
  -- a start sends its annotation, and only an answer that is no absence fails it
  | jobStarted job =>
    simp only [Listener.dispatch, Pool.handler, Course.result?_map,
      result?_carryOut cluster answers hAnswers, Scaler.jobStarted, Progress.pool, handled,
      complaint?, demand, build_runner_status]
    cases patchAt job.runner (statusPath s.ns job.runner) (RunnerStatus.patch job) with
    | error why => rfl
    | ok r =>
      simp only [objection?]
      cases (answers p.sent.length r).decode Runner.record with
      | ok runner => rfl
      | error err =>
        simp only [Scaler.settleStarted]
        cases err.isNotFound <;> rfl
  -- a completion sends nothing and never fails
  | jobCompleted job =>
    simp only [Listener.dispatch, Pool.handler, Course.result?_map,
      result?_carryOut cluster answers hAnswers]
    rfl
  -- a count sends the pool's size, and any answer that is no runner set fails it
  | desiredCount n =>
    simp only [Listener.dispatch, Pool.handler, Course.result?_map,
      result?_carryOut cluster answers hAnswers, Scaler.desiredCount, Progress.pool, handled,
      complaint?, demand, build_runnerSet]
    cases patchAt s.name (poolPath s.ns s.name)
        (RunnerSetSpec.patch (p.sequencer.evaluate n).1.target
          (p.sequencer.evaluate n).1.patchId) with
    | error why => rfl
    | ok r =>
      simp only [objection?]
      cases (answers p.sent.length r).decode RunnerSet.record <;> rfl

end Handlers

/-! ### The loop over the lines -/

section Run

variable (s : Settings) (cluster : Cluster.Script) (answers : Nat → Request → Answer)
  (own : Scope)

/-- The loop over what is left of the lines goes on as the fold does. -/
theorem loop_eq_foldl (hAnswers : ∀ n r, (cluster n r).result? = some (answers n r))
    (lines : List (Except LineFault Event)) (p : Progress) (w : Scopes) (m : Option Metrics)
    (hp : p.failure = none)
    (hQuiet : (Listener.loop own (Pool.handler cluster)
      (lines.map Read.ofResult ++ [Read.closed]) (p.pool s) w m).scopes.isCancelled own = false) :
    let report := Listener.loop own (Pool.handler cluster)
      (lines.map Read.ofResult ++ [Read.closed]) (p.pool s) w m
    report.handler = (lines.foldl (step s answers) p).pool s ∧
      report.ending = (lines.foldl (step s answers) p).ending := by
  induction lines generalizing p w m with
  | nil =>
    have hw := Listener.isCancelled_of_loop own _ _ _ w m hQuiet
    simp only [List.map_nil, List.nil_append, List.foldl_nil]
    rw [Listener.loop_closed own _ _ _ w m hw]
    exact ⟨rfl, by rw [Progress.ending, hp]⟩
  | cons line lines ih =>
    have hw := Listener.isCancelled_of_loop own _ _ _ w m hQuiet
    have hStep := failure_step s answers p line hp
    rw [List.map_cons, List.cons_append] at hQuiet ⊢
    rw [List.foldl_cons]
    cases line with
    | error fault =>
      -- the line holds no event: the loop is over, and so is the fold
      rw [foldl_of_failed s answers _ lines fault.chain hStep,
        Listener.loop_fault own _ _ _ w m fault hw]
      refine ⟨?_, by rw [Progress.ending, hStep]; rfl⟩
      simp [step, hp, Progress.pool]
    | ok e =>
      -- the wait for the handler is not cut short, since the scope would stay cancelled
      rw [Listener.loop_event own _ _ _ w m e hw] at hQuiet ⊢
      have hWaited := Listener.waited_of_result own _ _ _ w m e _
        (result?_dispatch s cluster answers hAnswers p e) hQuiet
      rw [Listener.resume, hWaited.1, fst_dispatch s cluster answers p e hp] at hQuiet ⊢
      simp only [lineFailure?] at hStep
      cases hComplaint : complaint? s answers p e with
      | some err =>
        -- the handler fails: the loop is over, and so is the fold
        rw [hComplaint, Option.map_some] at hStep
        rw [foldl_of_failed s answers _ lines _ hStep, Progress.ending, hStep]
        simp [handled, hComplaint, HandlerError.chain]
      | none =>
        rw [hComplaint] at hStep
        simp only [handled, hComplaint, Listener.scopes_prepend, Listener.handler_prepend,
          Listener.ending_prepend] at hQuiet ⊢
        exact ih _ _ _ hStep hQuiet

/-- The pool and the ending of a run that nothing cancels. -/
theorem run_reaches_fold (bytes : List UInt8) (w : Scopes) (m : Option Metrics)
    (hAnswers : ∀ n r, (cluster n r).result? = some (answers n r))
    (hQuiet : (Listener.run own (Pool.handler cluster) (Read.ofLines bytes)
      (.new s.ns s.name s.bounds) w m).scopes.isCancelled own = false) :
    let report := Listener.run own (Pool.handler cluster) (Read.ofLines bytes)
      (.new s.ns s.name s.bounds) w m
    let lines := (EventLines.ofBytes bytes).toList
    report.handler = (fold s answers lines).pool s ∧
      report.ending = (fold s answers lines).ending :=
  loop_eq_foldl s cluster answers own hAnswers (EventLines.ofBytes bytes).toList (start s) w m
    rfl hQuiet

/-- A run that nothing cancels, over lines that are all there and at a cluster that answers every
    request, is the fold over its lines: it sends what the fold sends and ends as the fold ends.
    So it ends well if and only if each line holds an event and each event is handled without a
    failure, in the state that the lines before it leave; else it ends with the failure of the
    first line that has one, and nothing is sent after that line. -/
theorem run_eq_fold (bytes : List UInt8) (w : Scopes) (m : Option Metrics)
    (hAnswers : ∀ n r, (cluster n r).result? = some (answers n r))
    (hQuiet : (Listener.run own (Pool.handler cluster) (Read.ofLines bytes)
      (.new s.ns s.name s.bounds) w m).scopes.isCancelled own = false) :
    let report := Listener.run own (Pool.handler cluster) (Read.ofLines bytes)
      (.new s.ns s.name s.bounds) w m
    let lines := (EventLines.ofBytes bytes).toList
    report.handler.sent = (fold s answers lines).sent ∧
      report.ending = (fold s answers lines).ending ∧
      (report.ending = .ok ↔
        ∀ before line after, lines = before ++ line :: after →
          ∃ e, line = .ok e ∧ complaint? s answers (fold s answers before) e = none) ∧
      ∀ f, report.ending = .failed f ↔
        ∃ before line after, lines = before ++ line :: after ∧
          (fold s answers before).failure = none ∧
          lineFailure? s answers (fold s answers before) line = some f ∧
          report.handler.sent = (fold s answers (before ++ [line])).sent := by
  intro report lines
  -- handler and ending are the fold's, so both `iff`s are about its first failure
  obtain ⟨hHandler, hEnding⟩ := run_reaches_fold s cluster answers own bytes w m hAnswers hQuiet
  have hSent : report.handler.sent = (fold s answers lines).sent := congrArg Pool.sent hHandler
  refine ⟨hSent, hEnding, ?_, fun f => ?_⟩
  · rw [hEnding, Progress.ending_eq_ok_iff, failure_fold_eq_none_iff]
    simp only [lineFailure?_eq_none_iff, lines]
  · rw [hEnding, Progress.ending_eq_failed_iff, failure_fold_iff, hSent]
    constructor
    · rintro ⟨before, line, after, hLines, hBefore, hFirst, hSame⟩
      exact ⟨before, line, after, hLines, hBefore, hFirst, congrArg Progress.sent hSame⟩
    · rintro ⟨before, line, after, hLines, hBefore, hFirst, -⟩
      exact ⟨before, line, after, hLines, hBefore, hFirst,
        (congrArg (fold s answers) hLines).trans
          (fold_of_first_failure s answers before after line f hBefore hFirst).1⟩

/-! A run over four lines: a job starts on a runner that is gone, the second line is blank, and
    the request of the third one is lost. -/

private def sampleSettings : Settings := { ns := "ns", name := "pool", maxRunners := 5 }

private def sampleBytes : List UInt8 :=
  ["\x7b\"type\":\"job_started\",\"runner_name\":\"r\"\x7d\n", "\n",
    "\x7b\"type\":\"desired_count\",\"count\":3\x7d\n",
    "\x7b\"type\":\"desired_count\",\"count\":4\x7d\n"].flatMap
      fun line => line.toList.map fun c => UInt8.ofNat c.toNat

private def sampleAnswers (n : Nat) (_ : Request) : Answer :=
  if n = 0 then .response 404 [] else .lost ["connection refused"]

private def sampleCluster : Cluster.Script := fun n r => .pause [] (.done (sampleAnswers n r))

theorem run_eq_fold_lost_request :
    let own : Scope := ⟨0, []⟩
    let report := Listener.run own (Pool.handler sampleCluster) (Read.ofLines sampleBytes)
      (.new sampleSettings.ns sampleSettings.name sampleSettings.bounds) .empty none
    report.scopes.isCancelled own = false ∧
      report.handler.sent.map (fun r => (Request.method, r.target, r.body)) =
        [("PATCH", "/apis/actions.github.com/v1alpha1/namespaces/ns/ephemeralrunners/r/status?",
            (RunnerStatus.patch { JobStarted.blank with runner := "r" }).compact),
          ("PATCH", "/apis/actions.github.com/v1alpha1/namespaces/ns/ephemeralrunnersets/pool?",
            (RunnerSetSpec.patch 3 0).compact)] ∧
      report.ending = .failed ["handling desired runner count",
        "ServiceError: connection refused", "connection refused"] := by
  intro own report
  have hQuiet : report.scopes.isCancelled own = false := by decide +kernel
  obtain ⟨hSent, hEnding, -⟩ := run_eq_fold sampleSettings sampleCluster sampleAnswers own
    sampleBytes .empty none (fun _ _ => rfl) hQuiet
  rw [hSent, hEnding]
  exact ⟨hQuiet, by decide +kernel⟩

end Run

end Pipeline

end RunnerPool
