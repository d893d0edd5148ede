import RunnerPool.Proofs.Dispatch
import RunnerPool.Proofs.Occurrence

/-!
# The journal of a run

What happens in a run of the listener, moment by moment: when its source is asked, when its
handler is called, what each of them does, where it pauses and how it ends.  The journal tells
all that the run reports.

* `Moment`              what can happen in a run
* `Listener.story`      what happens while an operation is waited for
* `Listener.round`      what happens from one read to the next, and how it ends
* `Listener.journal`    what happens in a whole run, and how it ends
* `Journal.report`      what is left of a run in which this happens
* `Turn`                the ways of a round

## Main statements

- `turn_round`: every round goes one of these ways
- `run_eq_report`: a run reports what its journal tells
-/

namespace RunnerPool

namespace Listener

/-- What can happen in a run. -/
inductive Moment
  /-- The source is asked for the next event. -/
  | asked
  /-- The source answers. -/
  | got (read : Except Failure (Option Event))
  /-- The handler is called. -/
  | called (e : Event)
  /-- The call comes to its end. -/
  | returned (result : Except HandlerError Recording)
  /-- Something happens, and nobody has paused for it. -/
  | did (happening : Happening)
  /-- The operation pauses, and others do these things. -/
  | paused (meanwhile : List Happening)

namespace Moment

/-- What happens at a moment. -/
@[simp] def happenings : Moment → List Happening
  | .did happening => [happening]
  | .paused meanwhile => meanwhile
  | _ => []

/-- Whether the moment belongs to the listener itself, and not to an operation. -/
@[simp] def isMark : Moment → Bool
  | .did _ | .paused _ => false
  | _ => true

/-- Whether the moment follows at once on what was before: the listener does not look at its scope
    in between. -/
@[simp] def isPrompt : Moment → Bool
  | .did _ | .called _ => true
  | _ => false

/-- The event that the handler is called for. -/
@[simp] def call? : Moment → Option Event
  | .called e => some e
  | _ => none

/-- What is to be recorded of a call that ends well. -/
@[simp] def recording? : Moment → Option Recording
  | .returned (.ok recording) => some recording
  | _ => none

/-- Whether the source or the handler fails. -/
@[simp] def isFailure : Moment → Bool
  | .got (.error _) | .returned (.error _) => true
  | _ => false

end Moment

/-- The events that the handler is called for. -/
def calls (ms : List Moment) : List Event := ms.filterMap Moment.call?

/-- What is to be recorded of the calls that end well. -/
def recordings (ms : List Moment) : List Recording := ms.filterMap Moment.recording?

/-- The scopes after some moments. -/
def scopesAfter (w : Scopes) (ms : List Moment) : Scopes :=
  Happening.effects w (ms.flatMap Moment.happenings)

/-- The entries of some moments. -/
def entriesOf (ms : List Moment) : List Log.Entry :=
  Happening.allEntries (ms.flatMap Moment.happenings)

section

variable (w : Scopes) (x : Moment) (ms more : List Moment)

@[simp] theorem scopesAfter_nil : scopesAfter w [] = w := rfl

@[simp] theorem scopesAfter_cons :
    scopesAfter w (x :: ms) = scopesAfter (Happening.effects w x.happenings) ms := by
  simp [scopesAfter, Happening.effects, List.foldl_append]

@[simp] theorem effects_nil : Happening.effects w [] = w := rfl

@[simp] theorem allEntries_nil : Happening.allEntries [] = [] := rfl

@[simp] theorem scopesAfter_append :
    scopesAfter w (ms ++ more) = scopesAfter (scopesAfter w ms) more := by
  simp [scopesAfter, Happening.effects, List.foldl_append]

@[simp] theorem entriesOf_nil : entriesOf [] = [] := rfl

@[simp] theorem entriesOf_cons :
    entriesOf (x :: ms) = Happening.allEntries x.happenings ++ entriesOf ms := by
  simp [entriesOf, Happening.allEntries]

@[simp] theorem entriesOf_append : entriesOf (ms ++ more) = entriesOf ms ++ entriesOf more := by
  simp [entriesOf, Happening.allEntries]

@[simp] theorem calls_nil : calls [] = [] := rfl

@[simp] theorem calls_cons : calls (x :: ms) = x.call?.toList ++ calls ms := by
  rw [calls, List.filterMap_cons]
  cases x.call? <;> rfl

@[simp] theorem calls_append : calls (ms ++ more) = calls ms ++ calls more :=
  List.filterMap_append

@[simp] theorem recordings_nil : recordings [] = [] := rfl

@[simp] theorem recordings_cons :
    recordings (x :: ms) = x.recording?.toList ++ recordings ms := by
  rw [recordings, List.filterMap_cons]
  cases x.recording? <;> rfl

@[simp] theorem recordings_append : recordings (ms ++ more) = recordings ms ++ recordings more :=
  List.filterMap_append

end

/-! ### One wait -/

/-- What happens while an operation is waited for. -/
def story (own : Scope) : Course α → Scopes → List Moment
  | .done _, _ => []
  | .act happening next, w => .did happening :: story own next (happening.effect w)
  | .pause meanwhile next, w =>
    .paused meanwhile ::
      if (Happening.effects w meanwhile).isCancelled own then []
      else story own next (Happening.effects w meanwhile)
  | .stall, _ => []

/-- What happens belongs to the operation. -/
def Silent (ms : List Moment) : Prop := ∀ x ∈ ms, x.isMark = false

section

variable {ms : List Moment}

theorem Silent.calls_eq_nil (h : Silent ms) : calls ms = [] := by
  rw [calls, List.filterMap_eq_nil_iff]
  intro x hx
  have hNoMark := h x hx
  cases x <;> simp_all

theorem Silent.recordings_eq_nil (h : Silent ms) : recordings ms = [] := by
  rw [recordings, List.filterMap_eq_nil_iff]
  intro x hx
  have hNoMark := h x hx
  cases x <;> simp_all

theorem Silent.filter_isMark (h : Silent ms) : ms.filter Moment.isMark = [] := by
  rw [List.filter_eq_nil_iff]
  intro x hx
  rw [h x hx]
  exact Bool.false_ne_true

end

/-- The last that happens follows at once on a moment at which the scope was found open. -/
def EndsOpen (own : Scope) (w : Scopes) (ms : List Moment) : Prop :=
  ∃ before rest, ms = before ++ rest ∧ (∀ x ∈ rest, x.isPrompt = true) ∧
    (scopesAfter w before).isCancelled own = false

section

variable (own : Scope) (c : Course α) (w : Scopes)

theorem silent_story : Silent (story own c w) := by
  induction c generalizing w with
  | done a => exact nofun
  | act happening next ih => exact List.forall_mem_cons.mpr ⟨rfl, ih _⟩
  | pause meanwhile next ih =>
    refine List.forall_mem_cons.mpr ⟨rfl, ?_⟩
    split
    · exact nofun
    · exact ih _
  | stall => exact nofun

@[simp] theorem calls_story : calls (story own c w) = [] := (silent_story own c w).calls_eq_nil

/-- Waiting leaves the scopes and the entries that the story tells. -/
theorem poll_eq_story : Course.poll own c w =
    ⟨(Course.poll own c w).wait, scopesAfter w (story own c w), entriesOf (story own c w)⟩ := by
  induction c generalizing w with
  | done a => rfl
  | act happening next ih =>
    rw [Course.poll, ih]
    simp [story, Happening.effects, Happening.allEntries]
  -- after a pause the story goes on if the scope is still open, as the poll does
  | pause meanwhile next ih =>
    rw [Course.poll, story]
    split
    · simp
    · dsimp only
      rw [ih]
      simp
  | stall => rfl

@[simp] theorem scopes_poll : (Course.poll own c w).scopes = scopesAfter w (story own c w) := by
  rw [poll_eq_story]

@[simp] theorem entries_poll : (Course.poll own c w).entries = entriesOf (story own c w) := by
  rw [poll_eq_story]

variable {own c w}

/-- An operation that comes to its end does so at once, or at once after a pause that left the scope
    open. -/
theorem story_of_finished {a : α} (h : (Course.poll own c w).wait = .finished a) :
    (∀ x ∈ story own c w, x.isPrompt = true) ∨ EndsOpen own w (story own c w) := by
  induction c generalizing w with
  | done b => exact Or.inl nofun
  | act happening next ih =>
    rcases ih h with hPrompt | ⟨before, rest, hStory, hPrompt, hOpen⟩
    · exact Or.inl (List.forall_mem_cons.mpr ⟨rfl, hPrompt⟩)
    · exact Or.inr ⟨.did happening :: before, rest, congrArg (Moment.did happening :: ·) hStory,
        hPrompt, hOpen⟩
  | pause meanwhile next ih =>
    -- the pause left the scope open, or else the wait would be over
    rw [Course.poll] at h
    split at h
    · cases h
    · rename_i hOpen
      rw [story, if_neg hOpen]
      refine Or.inr ?_
      rcases ih h with hPrompt | ⟨before, rest, hStory, hPrompt, hLater⟩
      · exact ⟨[.paused meanwhile], _, rfl, hPrompt, by simpa using hOpen⟩
      · rw [hStory]
        exact ⟨.paused meanwhile :: before, rest, rfl, hPrompt, by rwa [scopesAfter_cons]⟩
  | stall =>
    rw [Course.poll] at h
    split at h <;> cases h

theorem EndsOpen.of_prompt {ms : List Moment} (hw : w.isCancelled own = false)
    (hPrompt : ∀ x ∈ ms, x.isPrompt = true) : EndsOpen own w ms :=
  ⟨[], ms, rfl, hPrompt, hw⟩

theorem EndsOpen.append_left {ms more : List Moment} (h : EndsOpen own (scopesAfter w ms) more) :
    EndsOpen own w (ms ++ more) := by
  obtain ⟨before, rest, rfl, hPrompt, hOpen⟩ := h
  exact ⟨ms ++ before, rest, by simp, hPrompt, by rwa [scopesAfter_append]⟩

theorem endsOpen_of_finished {a : α} (hw : w.isCancelled own = false)
    (h : (Course.poll own c w).wait = .finished a) : EndsOpen own w (story own c w) :=
  (story_of_finished h).elim (.of_prompt hw) id

/-- A wait that is cut short leaves the scope cancelled. -/
theorem cancelled_of_poll (h : (Course.poll own c w).wait = .cancelled) :
    (scopesAfter w (story own c w)).isCancelled own = true := by
  induction c generalizing w with
  | done a => cases h
  | act happening next ih => exact ih h
  -- at a pause the others act, and the scope is looked at once more after they have
  | pause meanwhile next ih =>
    rw [Course.poll] at h
    rw [story, scopesAfter_cons]
    split at h
    · rename_i hCancelled
      rw [if_pos hCancelled]
      exact hCancelled
    · rename_i hOpen
      rw [if_neg hOpen]
      exact ih h
  | stall =>
    rw [Course.poll] at h
    split at h
    · rename_i hCancelled
      exact hCancelled
    · cases h

/-- A wait without an end leaves the scope open. -/
theorem open_of_stalled (h : (Course.poll own c w).wait = .stalled) :
    (scopesAfter w (story own c w)).isCancelled own = false := by
  -- as for a cancellation, with the look finding the scope open each time
  induction c generalizing w with
  | done a => cases h
  | act happening next ih => exact ih h
  | pause meanwhile next ih =>
    rw [Course.poll] at h
    split at h
    · cases h
    · rename_i hOpen
      rw [story, if_neg hOpen, scopesAfter_cons]
      exact ih h
  | stall =>
    rw [Course.poll] at h
    split at h
    · cases h
    · rename_i hOpen
      exact Bool.eq_false_iff.mpr hOpen

end

/-! ### One round -/

/-- Why a run stops. -/
inductive Stop
  | cancelled
  | closed
  | stalled
  | failed (failure : Failure)

/-- How a run ends that stops so. -/
@[simp] def Stop.ending : Stop → Ending
  | .cancelled | .closed => .ok
  | .stalled => .stalled
  | .failed failure => .failed failure

/-- The last entries of a run that stops so. -/
@[simp] def Stop.entries (own : Scope) (w : Scopes) : Stop → List Log.Entry
  | .cancelled => [shuttingDown own w]
  | .closed => [Listener.closed]
  | .stalled | .failed _ => []

/-- The handler's work on an event, with the entry before it. -/
def call (h : Handler σ) (s : σ) (e : Event) : Course (Except HandlerError Recording) :=
  .act (.note (handling e)) (dispatch h s e).2

/-- The moments of a round in which the handler is called; `others` happen between the listener's
    look at its scope and the call. -/
def handing (reading : List Moment) (others : List Happening) (e : Event)
    (working : List Moment) : List Moment :=
  .asked :: (reading ++ .got (.ok (some e)) :: (others.map .did ++ .called e :: working))

@[simp] theorem scopesAfter_dids (w : Scopes) (hs : List Happening) :
    scopesAfter w (hs.map .did) = Happening.effects w hs := by
  simp [scopesAfter, List.flatMap_map]

@[simp] theorem entriesOf_dids (hs : List Happening) :
    entriesOf (hs.map .did) = Happening.allEntries hs := by
  simp [entriesOf, List.flatMap_map]

@[simp] theorem scopesAfter_handing (w : Scopes) (reading : List Moment) (others : List Happening)
    (e : Event) (working : List Moment) :
    scopesAfter w (handing reading others e working) =
      scopesAfter (Happening.effects (scopesAfter w reading) others) working := by
  simp [handing]

theorem silent_dids (hs : List Happening) : Silent (hs.map .did) := by
  rw [Silent, List.forall_mem_map]
  exact fun _ _ => rfl

@[simp] theorem calls_dids (hs : List Happening) : calls (hs.map .did) = [] :=
  (silent_dids hs).calls_eq_nil

@[simp] theorem recordings_dids (hs : List Happening) : recordings (hs.map .did) = [] :=
  (silent_dids hs).recordings_eq_nil

theorem filter_isMark_handing {reading working : List Moment} {others : List Happening} {e : Event}
    (hReading : Silent reading) (hWorking : Silent working) :
    (handing reading others e working).filter Moment.isMark =
      [.asked, .got (.ok (some e)), .called e] := by
  rw [handing, List.filter_cons_of_pos rfl, List.filter_append, hReading.filter_isMark,
    List.filter_cons_of_pos rfl, List.filter_append, (silent_dids others).filter_isMark,
    List.filter_cons_of_pos rfl, hWorking.filter_isMark]
  rfl

/-- What happens from one read to the next, and what it comes to: the run stops, or the event was
    handled and there is something to be recorded. -/
def round (own : Scope) (h : Handler σ) (r : Read) (s : σ) (w : Scopes) :
    List Moment × Except Stop (Event × Recording) :=
  if w.isCancelled own then ([], .error .cancelled)
  else
    let reading := story own r w
    match (r.poll own w).wait with
    | .cancelled => (.asked :: reading, .error .cancelled)
    | .stalled => (.asked :: reading, .error .stalled)
    | .finished (.error failure) =>
      (.asked :: (reading ++ [.got (.error failure)]), .error (.failed failure))
    | .finished (.ok none) => (.asked :: (reading ++ [.got (.ok none)]), .error .closed)
    | .finished (.ok (some e)) =>
      if (scopesAfter w reading).isCancelled own then
        (.asked :: (reading ++ [.got (.ok (some e))]), .error .cancelled)
      else
        let called := Happening.effects (scopesAfter w reading) (h.meanwhile s e)
        let working := story own (call h s e) called
        let soFar := handing reading (h.meanwhile s e) e working
        match ((call h s e).poll own called).wait with
        | .cancelled => (soFar, .error .cancelled)
        | .stalled => (soFar, .error .stalled)
        | .finished (.error err) =>
          (soFar ++ [.returned (.error err)], .error (.failed (context e :: err.chain)))
        | .finished (.ok recording) => (soFar ++ [.returned (.ok recording)], .ok (e, recording))

/-- A wait is over without an end of the operation: the scope is cancelled, or nothing happens any
    more. -/
def StopsWaiting (own : Scope) (w : Scopes) (stop : Stop) : Prop :=
  stop = .cancelled ∧ w.isCancelled own = true ∨ stop = .stalled ∧ w.isCancelled own = false

/-- The ways of a round: what happens, and what it comes to. -/
inductive Turn (own : Scope) (h : Handler σ) (r : Read) (s : σ) (w : Scopes) :
    List Moment → Except Stop (Event × Recording) → Prop
  /-- The scope is cancelled already. -/
  | barred (hw : w.isCancelled own = true) : Turn own h r s w [] (.error .cancelled)
  /-- The source is asked and does not answer. -/
  | waits {reading : List Moment} {stop : Stop} (hReading : Silent reading)
    (hStop : StopsWaiting own (scopesAfter w reading) stop) :
    Turn own h r s w (.asked :: reading) (.error stop)
  /-- The source answers, and the handler is not called. -/
  | answers {reading : List Moment} {read : Except Failure (Option Event)} {stop : Stop}
    (hReading : Silent reading) (hEnds : EndsOpen own w reading) (hResult : r.result? = some read)
    (hStop : stop = .cancelled ∧ (scopesAfter w reading).isCancelled own = true ∨
      read = .ok none ∧ stop = .closed ∨
      ∃ failure, read = .error failure ∧ stop = .failed failure) :
    Turn own h r s w (.asked :: (reading ++ [.got read])) (.error stop)
  /-- The handler is called, and the call does not come to its end. -/
  | drops {reading working : List Moment} {e : Event} {stop : Stop} (hReading : Silent reading)
    (hResult : r.result? = some (.ok (some e)))
    (hOpen : (scopesAfter w reading).isCancelled own = false) (hWorking : Silent working)
    (hStop : StopsWaiting own (scopesAfter w (handing reading (h.meanwhile s e) e working)) stop) :
    Turn own h r s w (handing reading (h.meanwhile s e) e working) (.error stop)
  /-- The handler fails. -/
  | fails {reading working : List Moment} {e : Event} {err : HandlerError}
    (hReading : Silent reading) (hResult : r.result? = some (.ok (some e)))
    (hOpen : (scopesAfter w reading).isCancelled own = false) (hWorking : Silent working)
    (hEnds : EndsOpen own w (handing reading (h.meanwhile s e) e working)) :
    Turn own h r s w (handing reading (h.meanwhile s e) e working ++ [.returned (.error err)])
      (.error (.failed (context e :: err.chain)))
  /-- The handler is done. -/
  | handles {reading working : List Moment} {e : Event} {recording : Recording}
    (hReading : Silent reading) (hResult : r.result? = some (.ok (some e)))
    (hOpen : (scopesAfter w reading).isCancelled own = false) (hWorking : Silent working)
    (hHandled : (dispatch h s e).2.result? = some (.ok recording)) :
    Turn own h r s w (handing reading (h.meanwhile s e) e working ++ [.returned (.ok recording)])
      (.ok (e, recording))

/-- The loop goes from round to round. -/
theorem loop_eq_round (own : Scope) (h : Handler σ) (r : Read) (reads : List Read) (s : σ)
    (w : Scopes) (m : Option Metrics) :
    loop own h (r :: reads) s w m =
      match round own h r s w with
      | (ms, .error stop) =>
        ⟨stop.ending, h.after s (calls ms), scopesAfter w ms, m,
          entriesOf ms ++ stop.entries own (scopesAfter w ms)⟩
      | (ms, .ok (e, recording)) =>
        (loop own h reads (dispatch h s e).1 (scopesAfter w ms) (m.map recording.apply)).prepend
          (entriesOf ms) := by
  -- both sides ask the same questions in the same order, so one split serves both
  rw [loop, round]
  by_cases hw : w.isCancelled own = true
  · simp [Course.race, hw]
  · simp only [Course.race, if_neg hw, Course.poll_acting, scopes_poll, entries_poll]
    cases (r.poll own w).wait with
    | cancelled => simp
    | stalled => simp
    | finished read =>
      cases read with
      | error failure => simp
      | ok event? =>
        cases event? with
        | none => simp
        | some e =>
          by_cases hGot : (scopesAfter w (story own r w)).isCancelled own = true
          · simp [hGot]
          · have hCall : Course.act (.note (handling e)) (dispatch h s e).2 = call h s e := rfl
            simp only [if_neg hGot, hCall, handing]
            cases ((call h s e).poll own
              (Happening.effects (scopesAfter w (story own r w)) (h.meanwhile s e))).wait with
            | cancelled => simp
            | stalled => simp
            | finished result => cases result <;> simp

/-- A call that comes to its end does so at once after the scope was found open, before the call or
    in it. -/
theorem endsOpen_handing {own : Scope} {w : Scopes} {reading working : List Moment}
    {others : List Happening} {e : Event} (hOpen : (scopesAfter w reading).isCancelled own = false)
    (hWorking : (∀ x ∈ working, x.isPrompt = true) ∨
      EndsOpen own (Happening.effects (scopesAfter w reading) others) working) :
    EndsOpen own w (handing reading others e working) := by
  rcases hWorking with hPrompt | hEnds
  · -- the last look was the one before the call
    refine ⟨.asked :: (reading ++ [.got (.ok (some e))]), others.map .did ++ .called e :: working,
      by simp [handing], ?_, by simpa using hOpen⟩
    rw [List.forall_mem_append, List.forall_mem_map, List.forall_mem_cons]
    exact ⟨fun _ _ => rfl, rfl, hPrompt⟩
  · have hSplit : handing reading others e working =
        handing reading others e [] ++ working := by simp [handing]
    rw [hSplit]
    refine .append_left ?_
    rwa [scopesAfter_handing]

/-- Every round goes one of these ways. -/
theorem turn_round (own : Scope) (h : Handler σ) (r : Read) (s : σ) (w : Scopes) :
    Turn own h r s w (round own h r s w).1 (round own h r s w).2 := by
  have hReading := silent_story own r w
  rw [round]
  -- the turn follows the loop: a look, the read, the look after it, the call
  by_cases hw : w.isCancelled own = true
  · rw [if_pos hw]
    exact .barred hw
  · rw [if_neg hw]
    have hw := Bool.eq_false_iff.mpr hw
    -- the wait for the source may be cut off, stall, or come back with something
    cases hRead : (r.poll own w).wait with
    | cancelled => exact .waits hReading (Or.inl ⟨rfl, cancelled_of_poll hRead⟩)
    | stalled => exact .waits hReading (Or.inr ⟨rfl, open_of_stalled hRead⟩)
    | finished read =>
      have hEnds := endsOpen_of_finished hw hRead
      have hResult := Course.result?_of_poll own r w read hRead
      cases read with
      | error failure => exact .answers hReading hEnds hResult (Or.inr (Or.inr ⟨failure, rfl, rfl⟩))
      | ok event? =>
        cases event? with
        | none => exact .answers hReading hEnds hResult (Or.inr (Or.inl ⟨rfl, rfl⟩))
        | some e =>
          dsimp only
          -- the scope is looked at again before the handler is called
          split
          · rename_i hCancelled
            exact .answers hReading hEnds hResult (Or.inl ⟨rfl, hCancelled⟩)
          · rename_i hGot
            have hOpen := Bool.eq_false_iff.mpr hGot
            let called := Happening.effects (scopesAfter w (story own r w)) (h.meanwhile s e)
            have hWorking := silent_story own (call h s e) called
            -- the handler's own wait has the same three ends
            cases hCall : ((call h s e).poll own called).wait with
            | cancelled =>
              refine .drops hReading hResult hOpen hWorking (Or.inl ⟨rfl, ?_⟩)
              rw [scopesAfter_handing]
              exact cancelled_of_poll hCall
            | stalled =>
              refine .drops hReading hResult hOpen hWorking (Or.inr ⟨rfl, ?_⟩)
              rw [scopesAfter_handing]
              exact open_of_stalled hCall
            | finished result =>
              cases result with
              | error err =>
                exact .fails hReading hResult hOpen hWorking
                  (endsOpen_handing hOpen (story_of_finished hCall))
              | ok recording =>
                exact .handles hReading hResult hOpen hWorking
                  (Course.result?_of_poll own (call h s e) _ _ hCall)

/-! ### Whole runs -/

/-- What happens in a run, and why it stops. -/
structure Journal where
  moments : List Moment
  stop : Stop

/-- The journal of a run over some reads. -/
def journal (own : Scope) (h : Handler σ) : List Read → σ → Scopes → Journal
  | [], _, w => ⟨[], if w.isCancelled own then .cancelled else .closed⟩
  | r :: reads, s, w =>
    match round own h r s w with
    | (ms, .error stop) => ⟨ms, stop⟩
    | (ms, .ok (e, _)) =>
      let rest := journal own h reads (dispatch h s e).1 (scopesAfter w ms)
      ⟨ms ++ rest.moments, rest.stop⟩

/-- What is left of a run in which this happens. -/
def Journal.report (own : Scope) (h : Handler σ) (s : σ) (w : Scopes) (m : Option Metrics)
    (j : Journal) : Report σ where
  ending := j.stop.ending
  handler := h.after s (calls j.moments)
  scopes := scopesAfter w j.moments
  metrics := m.map fun m => (recordings j.moments).foldl Recording.apply m
  entries := entriesOf j.moments ++ j.stop.entries own (scopesAfter w j.moments)

section

variable {own : Scope} {h : Handler σ} {r : Read} {s : σ} {w : Scopes} {ms : List Moment}

/-- In a round that stops the run there is nothing to be recorded. -/
theorem Turn.of_error {stop : Stop} (hTurn : Turn own h r s w ms (.error stop)) :
    recordings ms = [] := by
  cases hTurn with
  | barred => rfl
  | waits hReading => simp [hReading.recordings_eq_nil]
  | answers hReading => simp [hReading.recordings_eq_nil]
  | drops hReading _ _ hWorking =>
    simp [handing, hReading.recordings_eq_nil, hWorking.recordings_eq_nil]
  | fails hReading _ _ hWorking =>
    simp [handing, hReading.recordings_eq_nil, hWorking.recordings_eq_nil]

/-- In any other round the handler is called for one event, and there is one thing to be
    recorded. -/
theorem Turn.of_ok {e : Event} {recording : Recording}
    (hTurn : Turn own h r s w ms (.ok (e, recording))) :
    calls ms = [e] ∧ recordings ms = [recording] := by
  cases hTurn with
  | handles hReading _ _ hWorking =>
    simp [handing, hReading.calls_eq_nil, hWorking.calls_eq_nil, hReading.recordings_eq_nil,
      hWorking.recordings_eq_nil]

end

/-- What holds of a run that stops and goes on holding with one more round before it holds of every
    journal. -/
theorem journal_induction {own : Scope} {h : Handler σ}
    {P : List Read → σ → Scopes → Journal → Prop}
    (hEnd : ∀ s w, P [] s w (journal own h [] s w))
    (hStop : ∀ r reads s w ms stop, Turn own h r s w ms (.error stop) →
      P (r :: reads) s w ⟨ms, stop⟩)
    (hMore : ∀ r reads s w ms e recording j, Turn own h r s w ms (.ok (e, recording)) →
      P reads (dispatch h s e).1 (scopesAfter w ms) j →
      P (r :: reads) s w ⟨ms ++ j.moments, j.stop⟩)
    (reads : List Read) (s : σ) (w : Scopes) : P reads s w (journal own h reads s w) := by
  induction reads generalizing s w with
  | nil => exact hEnd s w
  | cons r reads ih =>
    have hTurn := turn_round own h r s w
    rw [journal]
    -- the first turn decides whether there is a rest
    rcases hRound : round own h r s w with ⟨ms, stop | ⟨e, recording⟩⟩
    · rw [hRound] at hTurn
      exact hStop r reads s w ms stop hTurn
    · rw [hRound] at hTurn
      exact hMore r reads s w ms e recording _ hTurn (ih _ _)

/-- The loop reports what its journal tells, by induction on its reads. -/
theorem loop_eq_report (own : Scope) (h : Handler σ) (reads : List Read) (s : σ) (w : Scopes)
    (m : Option Metrics) :
    loop own h reads s w m = (journal own h reads s w).report own h s w m := by
  induction reads generalizing s w m with
  | nil =>
    rw [loop, journal]
    split <;> simp [Journal.report]
  | cons r reads ih =>
    have hTurn := turn_round own h r s w
    rw [loop_eq_round, journal]
    rcases hRound : round own h r s w with ⟨ms, stop | ⟨e, recording⟩⟩
    · rw [hRound] at hTurn
      simp [Journal.report, hTurn.of_error]
    · rw [hRound] at hTurn
      -- the rest of the run is told by the rest of the journal, with this round before it
      obtain ⟨hCalls, hRecordings⟩ := hTurn.of_ok
      dsimp only
      rw [ih]
      simp [Journal.report, Report.prepend, hCalls, hRecordings, Function.comp_def]

/-- A run reports what its journal tells. -/
theorem run_eq_report (own : Scope) (h : Handler σ) (reads : List Read) (s : σ) (w : Scopes)
    (m : Option Metrics) :
    run own h reads s w m = ((journal own h reads s w).report own h s w m).prepend [listening] := by
  rw [run, loop_eq_report]

end Listener

end RunnerPool
