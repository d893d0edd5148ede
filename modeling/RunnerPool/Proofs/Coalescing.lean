import RunnerPool.Proofs.Listener.Cancellation
import RunnerPool.Proofs.PoolPatch
import RunnerPool.Proofs.SequencerTrace

/-!
# What job events are worth

Between two desired counts it makes a difference to a pool whether there was a job event, but not
how many there were, of which kind, of which runners and in which order; and those before the first
count or after the last make no difference at all.

* `Pool.asked`      the counts of some events, each with whether a job event came before it
* `Pool.Alike`      events that ask for the same counts, with job events between the same ones
* `Pool.decided`    what a sequencer decides on such counts
* `Pool.resizes`    the requests that a pool sends for its counts
* `Pool.targets`    the targets that the handler returned, with their counts

## Main statement

- `job_events_coalesce`: two runs over such events send the same requests and return the same
  targets
-/

namespace RunnerPool

open Cluster (Request)
open Listener (dispatch Recording Moment Completes GoesRound calls recordings journal)
open Sequencer (Evaluation)

/-! ### Runs without a failure -/

namespace Listener

/-- A run hands these events to its handler, and each of them is handled well. -/
structure Handles (own : Scope) (h : Handler σ) (reads : List Read) (s : σ) (w : Scopes)
    (es : List Event) : Prop where
  calls : calls (journal own h reads s w).moments = es
  recordings : (recordings (journal own h reads s w).moments).length = es.length

section

variable {own : Scope} {h : Handler σ} {reads : List Read} {s : σ} {w : Scopes} {es : List Event}

/-- The rounds of such a run are all of its events. -/
theorem Handles.exists_rounds (hHandles : Handles own h reads s w es) :
    ∃ rounds, GoesRound h s (journal own h reads s w).moments rounds ∧
      rounds.map Prod.fst = es := by
  obtain ⟨rounds, hRounds⟩ := Listener.exists_rounds own h reads s w
  obtain ⟨more, hCalls⟩ := hRounds.calls
  refine ⟨rounds, hRounds, ?_⟩
  -- as many calls were made as ended well, so the last one was not left undone
  have hLength := hHandles.recordings
  rw [hRounds.recordings, ← hHandles.calls, hCalls] at hLength
  have hNone : more = [] := by simpa using hLength
  rw [← hHandles.calls, hCalls, hNone, List.append_nil]

/-- A wait that is over without an end leaves the scope cancelled or the run without an end. -/
theorem StopsWaiting.not_ok {stop : Stop} (hStop : StopsWaiting own w stop)
    (hOk : stop.ending = .ok) (hOpen : w.isCancelled own = false) : False := by
  rcases hStop with ⟨-, hCancelled⟩ | ⟨rfl, -⟩
  · rw [hOpen] at hCancelled
    exact nomatch hCancelled
  · exact nomatch hOk

/-- What a source gives that comes to these events and then to its end. -/
def Gives (reads : List Read) (es : List Event) : Prop :=
  reads.map Course.result? = es.map (fun e => some (.ok (some e))) ++ [some (.ok none)]

/-- A run that stops well in an open scope has handled all the events that its source gives, by
    induction on the journal. -/
theorem calls_of_gives (hGives : Gives reads es)
    (hOk : (journal own h reads s w).stop.ending = .ok)
    (hOpen : (scopesAfter w (journal own h reads s w).moments).isCancelled own = false) :
    calls (journal own h reads s w).moments = es ∧
      (recordings (journal own h reads s w).moments).length = es.length := by
  refine journal_induction (P := fun reads _ w j => ∀ es, Gives reads es → j.stop.ending = .ok →
      (scopesAfter w j.moments).isCancelled own = false →
      calls j.moments = es ∧ (recordings j.moments).length = es.length)
    ?_ ?_ ?_ reads s w es hGives hOk hOpen
  · intro s w es hGives
    simp [Gives] at hGives
  · intro r reads s w ms stop hTurn es hGives hOk hOpen
    cases hTurn with
    | barred hw =>
      rw [scopesAfter_nil, hw] at hOpen
      exact nomatch hOpen
    | waits _ hStop =>
      rw [scopesAfter_cons] at hOpen
      exact (hStop.not_ok hOk hOpen).elim
    | drops _ _ _ _ hStop => exact (hStop.not_ok hOk hOpen).elim
    | fails => exact nomatch hOk
    | @answers reading read _ hReading _ hResult hStop =>
      -- the run stops well here in an open scope only because the source has come to its end
      rcases hStop with ⟨-, hCancelled⟩ | ⟨rfl, -⟩ | ⟨failure, -, rfl⟩
      · have hAfter : (scopesAfter w reading).isCancelled own = false := by simpa using hOpen
        rw [hAfter] at hCancelled
        exact nomatch hCancelled
      · cases es with
        | nil => simp [hReading.calls_eq_nil, hReading.recordings_eq_nil]
        | cons e es => simp [Gives, hResult] at hGives
      · exact nomatch hOk
  · intro r reads s w ms e recording j hTurn ih es hGives hOk hOpen
    rw [scopesAfter_append] at hOpen
    obtain ⟨hCall, hRecording⟩ := hTurn.of_ok
    cases hTurn with
    | handles _ hResult =>
      cases es with
      | nil => simp [Gives, hResult] at hGives
      | cons e' es =>
        simp only [Gives, List.map_cons, List.cons_append, List.cons.injEq, hResult,
          Option.some.injEq, Except.ok.injEq] at hGives
        obtain ⟨rfl, hRest⟩ := hGives
        obtain ⟨hCalls, hRecordings⟩ := ih es hRest hOk hOpen
        rw [calls_append, recordings_append, hCall, hRecording, hCalls, List.length_append,
          hRecordings]
        exact ⟨rfl, Nat.add_comm 1 es.length⟩

/-- A run that takes its source to the end, and is not cancelled, handles all of its events. -/
theorem handles_of_gives (m : Option Metrics) (hGives : Gives reads es)
    (hOk : (run own h reads s w m).ending = .ok)
    (hOpen : (run own h reads s w m).scopes.isCancelled own = false) :
    Handles own h reads s w es := by
  rw [run_eq_report] at hOk hOpen
  obtain ⟨hCalls, hRecordings⟩ := calls_of_gives hGives hOk hOpen
  exact ⟨hCalls, hRecordings⟩

end

end Listener

namespace Pool

/-! ### Counts and the job events between them -/

/-- The counts that events ask for, each with whether a job event came since the count before;
    `noted` tells whether one came already. -/
def asked : (noted : Bool) → List Event → List Evaluation
  | _, [] => []
  | noted, .desiredCount n :: es => ⟨noted, n⟩ :: asked false es
  | _, _ :: es => asked true es

/-- The events ask for the same counts, and between two counts that follow each other there is a
    job event here if and only if there is one there. -/
def Alike (es es' : List Event) : Prop :=
  (asked false es).map Evaluation.assigned = (asked false es').map Evaluation.assigned ∧
    ((asked false es).map Evaluation.noted).tail = ((asked false es').map Evaluation.noted).tail

instance (es es' : List Event) : Decidable (Alike es es') :=
  inferInstanceAs (Decidable (_ ∧ _))

/-- What a sequencer decides on counts, one after the other. -/
def decided (q : Sequencer) : List Evaluation → List (UInt32 × Decision)
  | [] => []
  | e :: es =>
    let (d, next) := { q with dirty := e.noted }.evaluate e.assigned
    (e.assigned, d) :: decided next es

/-- That a job event was noted is told by the counts and not by the sequencer. -/
theorem decided_markDirty (q : Sequencer) (es : List Evaluation) :
    decided q.markDirty es = decided q es := by
  cases es <;> rfl

/-- For the first decision it makes no difference whether there was a job event. -/
theorem evaluate_of_no_target {q : Sequencer} (h : q.target = none) (noted : Bool) (n : UInt32) :
    { q with dirty := noted }.evaluate n = q.evaluate n := by
  have hBusy (b : Bool) (target : Int32) : { q with dirty := b }.isIdle target = false := by
    simp [Sequencer.isIdle, h]
  simp only [Sequencer.evaluate, hBusy]

/-- Counts are told by how many jobs they are for and by what came before them. -/
theorem eq_of_maps_eq {xs ys : List Evaluation}
    (hCounts : xs.map Evaluation.assigned = ys.map Evaluation.assigned)
    (hNoted : xs.map Evaluation.noted = ys.map Evaluation.noted) : xs = ys := by
  induction xs generalizing ys with
  | nil => exact (List.map_eq_nil_iff.mp hCounts.symm).symm
  | cons x xs ih =>
    cases ys with
    | nil => exact nomatch hCounts
    | cons y ys =>
      obtain ⟨hCount, hCounts⟩ := List.cons.inj hCounts
      obtain ⟨hBefore, hNoted⟩ := List.cons.inj hNoted
      -- an evaluation has two fields, and each of the two lists holds one of them
      have hHead : x = y := by
        obtain ⟨noted, assigned⟩ := x
        cases hCount
        cases hBefore
        rfl
      rw [hHead, ih hCounts hNoted]

/-- Alike events lead to the same decisions. -/
theorem decided_of_alike {q : Sequencer} {es es' : List Event} (hNew : q.target = none)
    (h : Alike es es') : decided q (asked false es) = decided q (asked false es') := by
  obtain ⟨hCounts, hNoted⟩ := h
  cases hFirst : asked false es with
  | nil =>
    rw [hFirst] at hCounts
    rw [List.map_eq_nil_iff.mp hCounts.symm]
  | cons x xs =>
    rw [hFirst] at hCounts hNoted
    cases hFirst' : asked false es' with
    | nil =>
      rw [hFirst'] at hCounts
      exact nomatch hCounts
    | cons y ys =>
      rw [hFirst'] at hCounts hNoted
      obtain ⟨hCount, hCounts⟩ := List.cons.inj hCounts
      -- the first decision is the same on both sides, and the others are asked for alike
      simp only [decided, evaluate_of_no_target hNew, hCount, eq_of_maps_eq hCounts hNoted]

/-! ### What a pool does for its counts -/

/-- The requests that a pool sends for its counts, for each of them those that it adds. -/
def resizes (cluster : Cluster.Script) : Pool → List Event → List (List Request)
  | _, [] => []
  | p, .desiredCount n :: es =>
    let next := (dispatch (handler cluster) p (.desiredCount n)).1
    next.sent.drop p.sent.length :: resizes cluster next es
  | p, e :: es => resizes cluster (dispatch (handler cluster) p e).1 es

/-- The requests for the counts are those of what is decided, by induction on the events. -/
theorem resizes_eq (cluster : Cluster.Script) (p : Pool) (es : List Event) :
    resizes cluster p es =
      (decided p.scaler.sequencer (asked p.scaler.sequencer.dirty es)).map
        fun d => (demand p.scaler d.2).toOption.toList := by
  induction es generalizing p with
  | nil => rfl
  | cons e es ih =>
    -- either job event marks the sequencer and sends no resize
    have hJob (hAdvance : Pipeline.advance p.scaler.sequencer e = p.scaler.sequencer.markDirty) :
        resizes cluster (dispatch (handler cluster) p e).1 es =
          (decided p.scaler.sequencer (asked true es)).map
            fun d => (demand p.scaler d.2).toOption.toList := by
      rw [ih, scaler_dispatch, hAdvance, ← decided_markDirty p.scaler.sequencer]
      rfl
    cases e with
    | jobStarted job => exact hJob rfl
    | jobCompleted job => exact hJob rfl
    | desiredCount n =>
      -- a count sends its own resize and is decided by the sequencer as it stands
      rw [resizes, asked, decided, List.map_cons, ih, scaler_dispatch, sent_dispatch_desiredCount,
        List.drop_left]
      rfl

/-- The targets that the handler returned, each with its count. -/
def targets (ms : List Moment) : List (UInt32 × Int32) :=
  (recordings ms).filterMap Recording.desired?

/-- A decision that is carried out without a failure comes to its target. -/
theorem eq_of_settleDesired {s : Scaler} {d : Decision} {target : Int32}
    {answer : Except Cluster.Error RunnerSet}
    (h : (s.settleDesired d answer).result = .ok target) : target = d.target := by
  cases answer with
  | ok set => exact (Except.ok.inj h).symm
  | error err => exact nomatch h

/-- The handler returns the target that was decided. -/
theorem target_of_completes {cluster : Cluster.Script} {p : Pool} {n count : UInt32}
    {target : Int32}
    (h : Completes (handler cluster) p (.desiredCount n) (.desired count target)) :
    count = n ∧ target = (p.scaler.sequencer.evaluate n).1.target := by
  obtain ⟨hCount, hResult⟩ := h
  refine ⟨hCount, ?_⟩
  -- the target recorded was computed before the patch was sent, so the answer has no part in it
  simp only [handler, Scaler.desiredCount, carryOut] at hResult
  cases hBuild : Request.build .runnerSet p.scaler.ns p.scaler.name none
      (RunnerSetSpec.patch (p.scaler.sequencer.evaluate n).1.target
        (p.scaler.sequencer.evaluate n).1.patchId) with
  | error why =>
    simp only [hBuild, Course.result?_noting, Pipeline.result?_conclude, Option.some.injEq]
      at hResult
    exact eq_of_settleDesired hResult
  | ok request =>
    simp only [hBuild, Course.result?_noting, Course.result?_bind, Pipeline.result?_conclude,
      Option.bind_eq_some_iff, Option.some.injEq] at hResult
    obtain ⟨answer, -, hResult⟩ := hResult
    exact eq_of_settleDesired hResult

/-- The targets of rounds are those that were decided, by induction on the rounds. -/
theorem targets_of_rounds {cluster : Cluster.Script} {p : Pool} {rounds : List (Event × Recording)}
    (h : Throughout rounds fun before x =>
      Completes (handler cluster) ((handler cluster).after p (before.map Prod.fst)) x.1 x.2) :
    (rounds.map Prod.snd).filterMap Recording.desired? =
      (decided p.scaler.sequencer
        (asked p.scaler.sequencer.dirty (rounds.map Prod.fst))).map fun d => (d.1, d.2.target) := by
  -- by induction on the rounds, with the pool the first round leaves
  induction rounds generalizing p with
  | nil => rfl
  | cons x rounds ih =>
    obtain ⟨hFirst, hMore⟩ := throughout_cons.mp h
    have hRest := ih (p := (dispatch (handler cluster) p x.1).1) hMore
    obtain ⟨e, recording⟩ := x
    rw [scaler_dispatch] at hRest
    cases e with
    | jobStarted job =>
      -- a recording belongs to the event of its round, so the two other kinds are impossible
      cases recording with
      | started => exact hRest.trans (congrArg _ (decided_markDirty _ _))
      | completed | desired => exact hFirst.elim
    | jobCompleted job =>
      cases recording with
      | completed => exact hRest.trans (congrArg _ (decided_markDirty _ _))
      | started | desired => exact hFirst.elim
    | desiredCount n =>
      cases recording with
      | started | completed => exact hFirst.elim
      | desired count target =>
        obtain ⟨rfl, rfl⟩ := target_of_completes hFirst
        -- the target of a round is what the sequencer decided for its count
        exact congrArg (_ :: ·) hRest

/-! ### Two runs -/

/-- The targets of such a run are those that were decided. -/
theorem targets_of_handles {own : Scope} {cluster : Cluster.Script} {reads : List Read} {p : Pool}
    {w : Scopes} {es : List Event} (h : Listener.Handles own (handler cluster) reads p w es) :
    targets (journal own (handler cluster) reads p w).moments =
      (decided p.scaler.sequencer (asked p.scaler.sequencer.dirty es)).map
        fun d => (d.1, d.2.target) := by
  obtain ⟨rounds, hRounds, rfl⟩ := h.exists_rounds
  rw [targets, hRounds.recordings, targets_of_rounds hRounds.completes]

/-- Two runs of the same settings, each at a cluster of its own, that hand alike events to their
    handler, all of which are handled well: the handler is left with these events handled, sends
    the same requests for the counts, and returns the same targets. -/
theorem job_events_coalesce (ns name : String) (bounds : Bounds) (own own' : Scope)
    (cluster cluster' : Cluster.Script) (reads reads' : List Read) (w w' : Scopes)
    (m m' : Option Metrics) (es es' : List Event) (hAlike : Alike es es')
    (h : Listener.Handles own (handler cluster) reads (.new ns name bounds) w es)
    (h' : Listener.Handles own' (handler cluster') reads' (.new ns name bounds) w' es') :
    let start := Pool.new ns name bounds
    (Listener.run own (handler cluster) reads start w m).handler =
        (handler cluster).after start es ∧
      (Listener.run own' (handler cluster') reads' start w' m').handler =
        (handler cluster').after start es' ∧
      resizes cluster start es = resizes cluster' start es' ∧
      targets (journal own (handler cluster) reads start w).moments =
        targets (journal own' (handler cluster') reads' start w').moments := by
  intro start
  -- both streams ask the sequencer for the same counts, with the same marks before them
  have hDecided : decided start.scaler.sequencer (asked false es) =
      decided start.scaler.sequencer (asked false es') := decided_of_alike rfl hAlike
  refine ⟨?_, ?_, ?_, ?_⟩
  · rw [Listener.run_eq_report, ← h.calls]
    rfl
  · rw [Listener.run_eq_report, ← h'.calls]
    rfl
  -- resizes and targets are both functions of what was decided
  · rw [resizes_eq, resizes_eq]
    exact congrArg _ hDecided
  · rw [targets_of_handles h, targets_of_handles h']
    exact congrArg _ hDecided

/-! Two sources that give alike events, at a cluster that confirms what it is asked. -/

private def sampleCoalescing : Cluster.Script := fun _ _ =>
  .pause [] (.done (.response 200 (Utf8.encode
    "\x7b\"metadata\":\x7b\x7d,\"spec\":\x7b\x7d\x7d".toList)))

private def sampleEvents : List Event :=
  [.desiredCount 0, .jobCompleted .blank, .desiredCount 0]

private def sampleAlike : List Event :=
  [.jobCompleted .blank, .desiredCount 0, .jobCompleted .blank, .jobCompleted .blank,
    .desiredCount 0, .jobCompleted .blank]

theorem job_events_coalesce_sample :
    let start := Pool.new "ns" "pool" ⟨0, 5⟩
    Alike sampleEvents sampleAlike ∧
      Listener.Handles ⟨0, []⟩ (handler sampleCoalescing) (Read.ofEvents sampleEvents .closed) start
        .empty sampleEvents ∧
      Listener.Handles ⟨0, []⟩ (handler sampleCoalescing) (Read.ofEvents sampleAlike .closed) start
        .empty sampleAlike ∧
      (resizes sampleCoalescing start sampleEvents).map (List.map Request.body) =
        [[RunnerSetSpec.patchText 0 0], [RunnerSetSpec.patchText 0 1]] ∧
      resizes sampleCoalescing start sampleEvents = resizes sampleCoalescing start sampleAlike ∧
      targets (journal ⟨0, []⟩ (handler sampleCoalescing) (Read.ofEvents sampleEvents .closed) start
        .empty).moments =
      targets (journal ⟨0, []⟩ (handler sampleCoalescing) (Read.ofEvents sampleAlike .closed) start
        .empty).moments := by
  intro start
  have hAlike : Alike sampleEvents sampleAlike := by decide
  let ends (es : List Event) : Prop :=
    let report := Listener.run ⟨0, []⟩ (handler sampleCoalescing) (Read.ofEvents es .closed) start
      .empty none
    report.ending = .ok ∧ report.scopes.isCancelled ⟨0, []⟩ = false
  have hEnds : ends sampleEvents ∧ ends sampleAlike := by decide +kernel
  have h : Listener.Handles ⟨0, []⟩ (handler sampleCoalescing)
      (Read.ofEvents sampleEvents .closed) start .empty sampleEvents :=
    Listener.handles_of_gives none rfl hEnds.1.1 hEnds.1.2
  have h' : Listener.Handles ⟨0, []⟩ (handler sampleCoalescing)
      (Read.ofEvents sampleAlike .closed) start .empty sampleAlike :=
    Listener.handles_of_gives none rfl hEnds.2.1 hEnds.2.2
  obtain ⟨-, -, hResizes, hTargets⟩ := job_events_coalesce "ns" "pool" ⟨0, 5⟩ ⟨0, []⟩ ⟨0, []⟩
    sampleCoalescing sampleCoalescing _ _ .empty .empty none none _ _ hAlike h h'
  exact ⟨hAlike, h, h', by decide +kernel, hResizes, hTargets⟩

end Pool

end RunnerPool
