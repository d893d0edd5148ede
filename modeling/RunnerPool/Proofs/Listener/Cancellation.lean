import RunnerPool.Proofs.Listener.Journal

/-!
# Calls, cancellation and metrics

A run goes round by round: the source is asked and answers with an event, the handler is called
for it and is done.  The last round may break off at any of these points.  The listener looks at
its scope before it asks the source, before it calls the handler and wherever either of them
pauses, and stops if it finds the scope cancelled.  What happens after such a look does not count
before the next one: a call can begin, and a read or a call can fail, in a scope that was cancelled
just then.  The metrics tell of the calls that ended well.

* `turn`                the marks of a whole round
* `Unfinished`          the marks of a round that breaks off
* `Completes`           the handler is done with an event, and this is to be recorded
* `GoesRound`           the whole rounds of a run
* `CallsAtOnce`         each call follows at once on a look at the scope
* `FailsAtOnce`         a run fails by what followed at once on a look at its scope
* `Metrics.recorded`    the metrics after some recordings

## Main statement

- `run_under_cancellation`: the calls, the end and the metrics of a run
-/

namespace RunnerPool

namespace Listener

/-! ### Recordings -/

/-- The count and the target, if they are what is to be recorded. -/
def Recording.desired? : Recording → Option (UInt32 × Int32)
  | .desired count target => some (count, target)
  | _ => none

/-- The last count and target that were recorded. -/
def lastDesired? (rs : List Recording) : Option (UInt32 × Int32) :=
  rs.reverse.findSome? Recording.desired?

end Listener

open Listener (Recording lastDesired?)

/-- The metrics after some recordings: each job event counts once, and the gauges show the last
    count and its target. -/
def Metrics.recorded (m : Metrics) (rs : List Recording) : Metrics where
  labels := m.labels
  minRunners := m.minRunners
  maxRunners := m.maxRunners
  assignedJobs := ((lastDesired? rs).map fun d => (d.1.toNat : Int)).getD m.assignedJobs
  desiredRunners := ((lastDesired? rs).map fun d => d.2.toInt).getD m.desiredRunners
  startedJobs := m.startedJobs + .ofNat (rs.count .started)
  completedJobs := m.completedJobs + .ofNat (rs.count .completed)

namespace Listener

theorem lastDesired?_concat (rs : List Recording) (r : Recording) :
    lastDesired? (rs ++ [r]) = r.desired?.or (lastDesired? rs) := by
  rw [lastDesired?, List.reverse_concat, List.findSome?_cons]
  cases r.desired? <;> rfl

/-- Recording one after the other comes to that, by induction from the last one. -/
theorem foldl_apply (rs : List Recording) (m : Metrics) :
    rs.foldl Recording.apply m = m.recorded rs := by
  induction rs using List.reverseRecOn with
  | nil => simp [Metrics.recorded, lastDesired?]
  | append_singleton rs r ih =>
    rw [List.foldl_append, ih]
    cases r <;>
      simp [Recording.apply, Metrics.recordStarted, Metrics.recordCompleted, Metrics.recordDesired,
        Metrics.recorded, lastDesired?_concat, Recording.desired?, List.count_append,
        UInt64.add_assoc]

/-! ### What is done -/

/-- The handler is done with the event, and this is to be recorded. -/
def Completes (h : Handler σ) (s : σ) : Event → Recording → Prop
  | .jobStarted job, .started => (h.jobStarted s job).2.result? = some (.ok ())
  | .jobCompleted job, .completed => (h.jobCompleted s job).2.result? = some (.ok ())
  | .desiredCount count, .desired c target =>
    c = count ∧ (h.desiredCount s count).2.result? = some (.ok target)
  | _, _ => False

theorem completes_of_result {h : Handler σ} {s : σ} {e : Event} {r : Recording}
    (hResult : (dispatch h s e).2.result? = some (.ok r)) : Completes h s e r := by
  -- each handler's result is mapped to its recording, so that of the handler can be read off
  have hMapped {α : Type} {x : Option (Except HandlerError α)} {f : α → Recording}
      (hx : x.map (fun y => y.map f) = some (.ok r)) : ∃ a, x = some (.ok a) ∧ f a = r := by
    obtain ⟨y, rfl, hy⟩ := Option.map_eq_some_iff.mp hx
    cases y with
    | error err => exact nomatch hy
    | ok a => exact ⟨a, rfl, Except.ok.inj hy⟩
  cases e with
  | jobStarted job =>
    simp only [dispatch, Course.result?_map] at hResult
    obtain ⟨⟨⟩, hDone, rfl⟩ := hMapped hResult
    exact hDone
  | jobCompleted job =>
    simp only [dispatch, Course.result?_map] at hResult
    obtain ⟨⟨⟩, hDone, rfl⟩ := hMapped hResult
    exact hDone
  | desiredCount count =>
    simp only [dispatch, Course.result?_map] at hResult
    obtain ⟨target, hDone, rfl⟩ := hMapped hResult
    exact ⟨rfl, hDone⟩

/-! ### The order of a run -/

/-- The marks of a whole round: the source is asked and answers, the handler is called and is
    done. -/
def turn (x : Event × Recording) : List Moment :=
  [.asked, .got (.ok (some x.1)), .called x.1, .returned (.ok x.2)]

/-- The marks of a round that breaks off. -/
inductive Unfinished : List Moment → Prop
  | nothing : Unfinished []
  | asked : Unfinished [.asked]
  | got (read : Except Failure (Option Event)) : Unfinished [.asked, .got read]
  | called (e : Event) : Unfinished [.asked, .got (.ok (some e)), .called e]
  | failed (e : Event) (err : HandlerError) :
    Unfinished [.asked, .got (.ok (some e)), .called e, .returned (.error err)]

/-- A run fails by what followed at once on a moment at which its scope was open. -/
def FailsAtOnce (own : Scope) (w : Scopes) (ms : List Moment) : Prop :=
  ∃ soFar last, ms = soFar ++ [last] ∧ last.isFailure = true ∧ EndsOpen own w soFar

/-- The handler is called only for the event that the source gave last and if the scope was open
    then; between that and the call there is nothing but what others do meanwhile. -/
def CallsAtOnce (own : Scope) (h : Handler σ) (s : σ) (w : Scopes) (ms : List Moment) : Prop :=
  Throughout ms fun before x => ∀ e, x = .called e → ∃ earlier,
    before = earlier ++ .got (.ok (some e)) ::
      (h.meanwhile (h.after s (calls earlier)) e).map .did ∧
    (scopesAfter w earlier).isCancelled own = false

/-- A run over these rounds: its marks are theirs and those of one that breaks off, the handler was
    done with each of them and may have been called once more, and they are what is recorded. -/
structure GoesRound (h : Handler σ) (s : σ) (ms : List Moment) (rounds : List (Event × Recording)) :
    Prop where
  marks : ∃ last, ms.filter Moment.isMark = rounds.flatMap turn ++ last ∧ Unfinished last
  completes : Throughout rounds fun before x =>
    Completes h (h.after s (before.map Prod.fst)) x.1 x.2
  calls : ∃ more, calls ms = rounds.map Prod.fst ++ more
  recordings : recordings ms = rounds.map Prod.snd

section

variable {own : Scope} {h : Handler σ} {r : Read} {s : σ} {w : Scopes} {ms : List Moment}
  {stop : Stop} {e : Event} {recording : Recording} {result : Except Stop (Event × Recording)}

theorem Turn.unfinished (hTurn : Turn own h r s w ms (.error stop)) :
    Unfinished (ms.filter Moment.isMark) := by
  -- what the listener marks of a turn: nothing, a question, an answer, a call, or a failed call
  cases hTurn with
  | barred => exact .nothing
  | waits hReading =>
    rw [List.filter_cons_of_pos rfl, hReading.filter_isMark]
    exact .asked
  | @answers _ read _ hReading =>
    have hMarks : ([.got read] : List Moment).filter Moment.isMark = [.got read] := rfl
    rw [List.filter_cons_of_pos rfl, List.filter_append, hReading.filter_isMark, hMarks]
    exact .got read
  | drops hReading _ _ hWorking =>
    rw [filter_isMark_handing hReading hWorking]
    exact .called _
  | fails hReading _ _ hWorking =>
    rw [List.filter_append, filter_isMark_handing hReading hWorking]
    exact .failed _ _

theorem Turn.marks_eq_turn (hTurn : Turn own h r s w ms (.ok (e, recording))) :
    ms.filter Moment.isMark = turn (e, recording) := by
  cases hTurn with
  | handles hReading _ _ hWorking =>
    rw [List.filter_append, filter_isMark_handing hReading hWorking]
    rfl

/-- The event of a call is what the read comes to. -/
theorem Turn.calls_eq (hTurn : Turn own h r s w ms result) :
    calls ms = [] ∨ ∃ e, calls ms = [e] ∧ r.result? = some (.ok (some e)) := by
  -- a call is made in the last three of the six ways, and only for an event that was read
  cases hTurn with
  | barred => exact Or.inl rfl
  | waits hReading => simp [hReading.calls_eq_nil]
  | answers hReading => simp [hReading.calls_eq_nil]
  | drops hReading hResult _ hWorking =>
    simp [handing, hReading.calls_eq_nil, hWorking.calls_eq_nil, hResult]
  | fails hReading hResult _ hWorking =>
    simp [handing, hReading.calls_eq_nil, hWorking.calls_eq_nil, hResult]
  | handles hReading hResult _ hWorking =>
    simp [handing, hReading.calls_eq_nil, hWorking.calls_eq_nil, hResult]

/-! ### Calls and failures -/

theorem throughout_of_calls_eq_nil {P : List Moment → Event → Prop} (hNone : calls ms = []) :
    Throughout ms fun before x => ∀ e, x = .called e → P before e := by
  refine throughout_of_forall ?_
  rintro _ hIn before e rfl
  have hCall : e ∈ calls ms := List.mem_filterMap.mpr ⟨.called e, hIn, rfl⟩
  rw [hNone] at hCall
  exact nomatch hCall

theorem CallsAtOnce.append {more : List Moment} (hFirst : CallsAtOnce own h s w ms)
    (hMore : CallsAtOnce own h (h.after s (calls ms)) (scopesAfter w ms) more) :
    CallsAtOnce own h s w (ms ++ more) := by
  refine throughout_append.mpr ⟨hFirst, fun before x after hSplit e hCall => ?_⟩
  obtain ⟨earlier, rfl, hOpen⟩ := hMore before x after hSplit e hCall
  refine ⟨ms ++ earlier, ?_, by rwa [scopesAfter_append]⟩
  rw [calls_append, Handler.after_append, List.append_assoc]

theorem callsAtOnce_of_calls_eq_nil (hNone : calls ms = []) : CallsAtOnce own h s w ms :=
  throughout_of_calls_eq_nil hNone

theorem callsAtOnce_handing {reading working more : List Moment} (hReading : Silent reading)
    (hOpen : (scopesAfter w reading).isCancelled own = false) (hWorking : Silent working)
    (hMore : calls more = []) :
    CallsAtOnce own h s w (handing reading (h.meanwhile s e) e working ++ more) := by
  have hSplit : handing reading (h.meanwhile s e) e working ++ more =
      (.asked :: reading ++ .got (.ok (some e)) :: (h.meanwhile s e).map .did) ++
        .called e :: (working ++ more) := by
    simp [handing]
  -- there is one call in it, and none before or after it
  rw [hSplit]
  refine throughout_append.mpr ⟨throughout_of_calls_eq_nil ?_, throughout_cons.mpr ⟨?_, ?_⟩⟩
  · simp [hReading.calls_eq_nil]
  · intro e' hCall
    cases hCall
    exact ⟨.asked :: reading, by simp [hReading.calls_eq_nil], by simpa using hOpen⟩
  · exact throughout_of_calls_eq_nil (by simp [hWorking.calls_eq_nil, hMore])

theorem Turn.callsAtOnce (hTurn : Turn own h r s w ms result) : CallsAtOnce own h s w ms := by
  -- without a call there is nothing to show, and each call follows its read at once
  cases hTurn with
  | barred => exact throughout_nil
  | waits hReading => exact callsAtOnce_of_calls_eq_nil (by simp [hReading.calls_eq_nil])
  | answers hReading => exact callsAtOnce_of_calls_eq_nil (by simp [hReading.calls_eq_nil])
  | drops hReading _ hOpen hWorking =>
    rw [← List.append_nil (handing ..)]
    exact callsAtOnce_handing hReading hOpen hWorking rfl
  | fails hReading _ hOpen hWorking =>
    exact callsAtOnce_handing hReading hOpen hWorking rfl
  | handles hReading _ hOpen hWorking =>
    exact callsAtOnce_handing hReading hOpen hWorking rfl

theorem FailsAtOnce.append_left {more : List Moment}
    (hFails : FailsAtOnce own (scopesAfter w ms) more) : FailsAtOnce own w (ms ++ more) := by
  obtain ⟨soFar, x, rfl, hx, hEnds⟩ := hFails
  exact ⟨ms ++ soFar, x, by simp, hx, hEnds.append_left⟩

theorem Turn.failsAtOnce {failure : Failure}
    (hTurn : Turn own h r s w ms (.error (.failed failure))) : FailsAtOnce own w ms := by
  cases hTurn with
  | waits _ hStop => simp [StopsWaiting] at hStop
  | drops _ _ _ _ hStop => simp [StopsWaiting] at hStop
  | @answers reading _ _ _ hEnds _ hStop =>
    -- of the three ways to stop here, only a failure of the source is one
    obtain ⟨⟨⟩, -⟩ | ⟨-, ⟨⟩⟩ | ⟨f, rfl, -⟩ := hStop
    have hAsked : EndsOpen own (scopesAfter w [.asked]) reading := hEnds
    exact ⟨.asked :: reading, .got (.error f), rfl, rfl, hAsked.append_left⟩
  | fails _ _ _ _ hEnds => exact ⟨_, _, rfl, rfl, hEnds⟩

theorem Turn.open_of_stalled (hTurn : Turn own h r s w ms (.error .stalled)) :
    (scopesAfter w ms).isCancelled own = false := by
  cases hTurn with
  | waits _ hStop => exact (hStop.resolve_left (nomatch ·.1)).2
  | drops _ _ _ _ hStop => exact (hStop.resolve_left (nomatch ·.1)).2
  | answers _ _ _ hStop => simp at hStop

end

/-! ### Whole runs -/

section

variable (own : Scope) (h : Handler σ) (reads : List Read) (s : σ) (w : Scopes)

theorem exists_rounds : ∃ rounds, GoesRound h s (journal own h reads s w).moments rounds := by
  refine journal_induction (P := fun _ s _ j => ∃ rounds, GoesRound h s j.moments rounds)
    (fun s w => ⟨[], ⟨[], rfl, .nothing⟩, throughout_nil, ⟨[], rfl⟩, rfl⟩) ?_ ?_ reads s w
  -- a turn that stops begins no round
  · intro r reads s w ms stop hTurn
    exact ⟨[], ⟨_, rfl, hTurn.unfinished⟩, throughout_nil, ⟨_, rfl⟩, hTurn.of_error⟩
  -- a turn that goes on is a round of its own, before the rounds of the rest
  · rintro r reads s w ms e recording j hTurn ⟨rounds, hRounds⟩
    obtain ⟨last, hMarks, hLast⟩ := hRounds.marks
    obtain ⟨more, hCalls⟩ := hRounds.calls
    obtain ⟨hCall, hRecording⟩ := hTurn.of_ok
    refine ⟨(e, recording) :: rounds, ⟨last, ?_, hLast⟩, ?_, ⟨more, ?_⟩, ?_⟩
    · rw [List.filter_append, hTurn.marks_eq_turn, hMarks, List.flatMap_cons, List.append_assoc]
    · refine throughout_cons.mpr ⟨?_, hRounds.completes⟩
      cases hTurn with
      | handles _ _ _ _ hHandled => exact completes_of_result hHandled
    · rw [calls_append, hCall, hCalls]
      rfl
    · rw [recordings_append, hRecording, hRounds.recordings]
      rfl

/-- The events of the calls are what the reads come to, from the first read on. -/
theorem calls_eq_reads :
    (calls (journal own h reads s w).moments).map (fun e => some (.ok (some e))) =
      (reads.take (calls (journal own h reads s w).moments).length).map Course.result? := by
  refine journal_induction
    (P := fun reads _ _ j => (calls j.moments).map (fun e => some (.ok (some e))) =
      (reads.take (calls j.moments).length).map Course.result?)
    (fun s w => rfl) ?_ ?_ reads s w
  -- the turn that stops may have made a call, for which an event was read
  · intro r reads s w ms stop hTurn
    rcases hTurn.calls_eq with hNone | ⟨e, hCall, hResult⟩
    · simp [hNone]
    · simp [hCall, hResult]
  · intro r reads s w ms e recording j hTurn ih
    rcases hTurn.calls_eq with hNone | ⟨e', hCall, hResult⟩
    · rw [hTurn.of_ok.1] at hNone
      exact nomatch hNone
    · simp [hCall, hResult, ih]

theorem callsAtOnce_journal : CallsAtOnce own h s w (journal own h reads s w).moments := by
  refine journal_induction (P := fun _ s w j => CallsAtOnce own h s w j.moments)
    (fun s w => throughout_nil) ?_ ?_ reads s w
  · exact fun r reads s w ms stop hTurn => hTurn.callsAtOnce
  · intro r reads s w ms e recording j hTurn ih
    refine hTurn.callsAtOnce.append ?_
    rw [hTurn.of_ok.1]
    exact ih

/-- A run whose scope is cancelled in the end ends well, or it fails at once. -/
theorem ending_of_cancelled
    (hCancelled : (scopesAfter w (journal own h reads s w).moments).isCancelled own = true) :
    (journal own h reads s w).stop.ending = .ok ∨
      (∃ failure, (journal own h reads s w).stop.ending = .failed failure) ∧
        FailsAtOnce own w (journal own h reads s w).moments := by
  revert hCancelled
  refine journal_induction
    (P := fun _ _ w j => (scopesAfter w j.moments).isCancelled own = true →
      j.stop.ending = .ok ∨
        (∃ failure, j.stop.ending = .failed failure) ∧ FailsAtOnce own w j.moments)
    ?_ ?_ ?_ reads s w
  · intro s w _
    rw [journal]
    split <;> exact Or.inl rfl
  · intro r reads s w ms stop hTurn hCancelled
    cases stop with
    | cancelled | closed => exact Or.inl rfl
    | stalled =>
      -- nothing happens any more, so nobody cancels the scope
      rw [hTurn.open_of_stalled] at hCancelled
      cases hCancelled
    | failed failure => exact Or.inr ⟨⟨failure, rfl⟩, hTurn.failsAtOnce⟩
  · intro r reads s w ms e recording j hTurn ih hCancelled
    rw [scopesAfter_append] at hCancelled
    exact (ih hCancelled).imp_right fun hFails => ⟨hFails.1, hFails.2.append_left⟩

/-- The calls, the end and the metrics of a run, for every source and every handler and whenever
    the scope is cancelled.

    The run reports what its journal tells.  The handler is called for the events that the reads
    come to, from the first read on, and each call is done before the source is asked again.  None
    is made unless the scope was open when the source had given the event; a cancellation that is
    there by then is not followed by a call.  If the scope is cancelled by the end then the run ends
    well, unless the read or the call that it waited for failed at once, with no look at the scope
    since it was open.  The metrics are those of the calls that ended well: they tell how many job
    events these were, and the last count with its target. -/
theorem run_under_cancellation (own : Scope) (h : Handler σ) (reads : List Read) (s : σ)
    (w : Scopes) (m : Option Metrics) :
    let j := journal own h reads s w
    run own h reads s w m = (j.report own h s w m).prepend [listening] ∧
      (calls j.moments).map (fun e => some (.ok (some e))) =
        (reads.take (calls j.moments).length).map Course.result? ∧
      CallsAtOnce own h s w j.moments ∧
      ((run own h reads s w m).scopes.isCancelled own = true →
        (run own h reads s w m).ending = .ok ∨
          (∃ failure, (run own h reads s w m).ending = .failed failure) ∧
            FailsAtOnce own w j.moments) ∧
      ∃ rounds, GoesRound h s j.moments rounds ∧
        (run own h reads s w m).metrics = m.map (Metrics.recorded · (rounds.map Prod.snd)) := by
  -- what the run leaves is the report of its journal, so each part is proved of the journal
  intro j
  have hReport := run_eq_report own h reads s w m
  refine ⟨hReport, calls_eq_reads own h reads s w, callsAtOnce_journal own h reads s w, ?_, ?_⟩
  · rw [hReport]
    exact ending_of_cancelled own h reads s w
  · obtain ⟨rounds, hRounds⟩ := exists_rounds own h reads s w
    refine ⟨rounds, hRounds, ?_⟩
    rw [hReport, ← hRounds.recordings]
    simp only [Report.prepend, Journal.report, foldl_apply]

/-! A call in which the scope is cancelled and the handler fails in one go, and a call before which
    someone cancels the scope after the listener has looked at it. -/

private def cancelledAndFails (own : Scope) : Handler Unit where
  jobStarted _ _ := ((), .done (.ok ()))
  jobCompleted _ _ := ((), .done (.ok ()))
  desiredCount _ _ :=
    ((), .act (.cancel own (some "stop"))
      (.done (.error (.unencodable "EOF while parsing a list at line 1 column 1"))))

private def cancelledBefore (own : Scope) : Handler Unit where
  jobStarted _ _ := ((), .done (.ok ()))
  jobCompleted _ _ := ((), .done (.ok ()))
  desiredCount _ _ := ((), .done (.ok 3))
  meanwhile _ _ := [.cancel own (some "stop")]

/-- The one run fails, though the scope is cancelled before it returns, and in the other one a call
    begins in a scope that is cancelled. -/
theorem run_fails_in_cancelled_scope :
    ¬ ((run ⟨0, []⟩ (cancelledAndFails ⟨0, []⟩) (Read.ofEvents [.desiredCount 3] .closed) ()
          ⟨1, [], []⟩ none).scopes.isCancelled ⟨0, []⟩ = true →
        (run ⟨0, []⟩ (cancelledAndFails ⟨0, []⟩) (Read.ofEvents [.desiredCount 3] .closed) ()
          ⟨1, [], []⟩ none).ending = .ok) ∧
      ∃ before after,
        (journal ⟨0, []⟩ (cancelledBefore ⟨0, []⟩) (Read.ofEvents [.desiredCount 3] .closed) ()
          ⟨1, [], []⟩).moments = before ++ .called (.desiredCount 3) :: after ∧
        (scopesAfter ⟨1, [], []⟩ before).isCancelled ⟨0, []⟩ = true := by
  exact ⟨by decide, [.asked, .got (.ok (some (.desiredCount 3))),
    .did (.cancel ⟨0, []⟩ (some "stop"))], _, rfl, by decide⟩

end

end Listener

end RunnerPool
