import RunnerPool.Proofs.PoolPatch
import RunnerPool.Proofs.Settings.Check

/-!
# All requests of a pool

What a pool sends is settled by its events alone: the requests are those that the events ask for,
in their order, and no answer of the cluster makes a difference to them or to the state.  Of
settings that make sense, each request that sets the pool names a size and a number, both within
their bounds.

* `Pool.requests`     the requests that events ask for
* `Pool.reached`      the pool that events lead to
* `Handler.session`   the state and the result of the handler after each event

## Main statements

- `states_ignore_answers`: two clusters leave the same pool after each event
- `pool_patch_complete`: a request that sets the pool leaves nothing out
-/

namespace RunnerPool

open Cluster (Request)
open Listener (dispatch)

namespace Handler

/-- What comes of events that are handed to a handler one after the other, whether they are
    handled well or not: the state after each of them, and how its handling ends. -/
def session (h : Handler σ) (s : σ) :
    List Event → List (σ × Option (Except HandlerError Listener.Recording))
  | [] => []
  | e :: es => ((dispatch h s e).1, (dispatch h s e).2.result?) :: session h (dispatch h s e).1 es

end Handler

namespace Pool

/-! ### Requests and states without answers -/

/-- The request that an event asks a scaler for, if it asks for one that can be built. -/
def request? (s : Scaler) : Event → Option Request
  | .jobStarted job =>
    (Request.build .runner s.ns job.runner (some "status") (RunnerStatus.patch job)).toOption
  | .jobCompleted _ => none
  | .desiredCount n => (demand s (s.sequencer.evaluate n).1).toOption

/-- The requests that events ask a scaler for, one after the other. -/
def requests (s : Scaler) : List Event → List Request
  | [] => []
  | e :: es =>
    (request? s e).toList ++ requests { s with sequencer := Pipeline.advance s.sequencer e } es

/-- The pool that events lead to: its sequencer moved on with each of them, and their requests
    sent. -/
def reached (p : Pool) (es : List Event) : Pool :=
  ⟨{ p.scaler with sequencer := p.scaler.sequencer.advanced es },
    p.sent ++ requests p.scaler es⟩

@[simp] theorem requests_nil (s : Scaler) : requests s [] = [] := rfl

theorem requests_cons (s : Scaler) (e : Event) (es : List Event) :
    requests s (e :: es) =
      (request? s e).toList ++ requests { s with sequencer := Pipeline.advance s.sequencer e } es :=
  rfl

@[simp] theorem reached_nil (p : Pool) : p.reached [] = p := by
  simp [reached]

section

variable (cluster : Cluster.Script)

/-- An event adds its request to those that were sent. -/
theorem sent_dispatch (p : Pool) (e : Event) :
    (dispatch (handler cluster) p e).1.sent = p.sent ++ (request? p.scaler e).toList := by
  cases e with
  | jobStarted job =>
    simp only [dispatch, handler, Pipeline.fst_carryOut, Scaler.jobStarted, Handling.request?,
      request?]
    cases Request.build .runner p.scaler.ns job.runner (some "status") (RunnerStatus.patch job) <;>
      rfl
  | jobCompleted job => simp only [dispatch, handler, Pipeline.fst_carryOut]; rfl
  | desiredCount n => exact sent_dispatch_desiredCount cluster p n

/-- One event leads to the pool that it reaches, whatever the cluster answers. -/
theorem fst_dispatch_eq_reached (p : Pool) (e : Event) :
    (dispatch (handler cluster) p e).1 = p.reached [e] := by
  have hParts : (dispatch (handler cluster) p e).1 =
      ⟨(dispatch (handler cluster) p e).1.scaler, (dispatch (handler cluster) p e).1.sent⟩ := rfl
  rw [hParts, scaler_dispatch, sent_dispatch, reached, requests_cons, requests_nil,
    List.append_nil]
  rfl

/-- The pool after some events, and then after more. -/
theorem reached_cons (p : Pool) (e : Event) (es : List Event) :
    (p.reached [e]).reached es = p.reached (e :: es) := by
  simp [reached, requests_cons]

/-- Events lead to the pool that they reach, whatever the cluster answers. -/
theorem after_eq_reached (p : Pool) (es : List Event) :
    (handler cluster).after p es = p.reached es := by
  induction es generalizing p with
  | nil => rw [Handler.after_nil, reached_nil]
  | cons e es ih => rw [Handler.after_cons, ih, fst_dispatch_eq_reached, reached_cons]

/-- The pools of a session are those that the events reach, by induction on the events. -/
theorem map_fst_session (p : Pool) (es : List Event) :
    ((handler cluster).session p es).map Prod.fst =
      (List.range es.length).map fun k => p.reached (es.take (k + 1)) := by
  induction es generalizing p with
  | nil => rfl
  | cons e es ih =>
    rw [Handler.session, List.map_cons, ih, fst_dispatch_eq_reached, List.length_cons,
      List.range_succ_eq_map, List.map_cons, List.map_map]
    congr 1
    -- the pools of the rest are those of the whole list, one place further
    refine List.map_congr_left fun k _ => ?_
    rw [reached_cons]
    rfl

end

/-- Hand events to a pool one after the other, whether they are handled well or not.  After each
    of them the pool is the one that the events so far lead to, its sequencer and the requests
    that were sent included: at any two clusters the pools are the same, whatever they answer. -/
theorem states_ignore_answers (ns name : String) (bounds : Bounds) (es : List Event)
    (cluster cluster' : Cluster.Script) :
    let start := Pool.new ns name bounds
    let pools := ((handler cluster).session start es).map Prod.fst
    pools = ((handler cluster').session start es).map Prod.fst ∧
      pools.map (fun p => p.scaler.sequencer) =
        (List.range es.length).map
          (fun k => (Sequencer.new bounds).advanced (es.take (k + 1))) ∧
      pools.map Pool.sent =
        (List.range es.length).map (fun k => requests start.scaler (es.take (k + 1))) := by
  intro start pools
  have hPools : pools = _ := map_fst_session cluster start es
  -- each list is read off the pools, which do not depend on the cluster's answers
  refine ⟨?_, ?_, ?_⟩
  · rw [hPools, map_fst_session cluster' start es]
  · rw [hPools, List.map_map]
    rfl
  · rw [hPools, List.map_map]
    exact List.map_congr_left fun k _ => List.nil_append _

/-! Both requests of a pool fail, and still each of them has the number after the one before. -/

private def sampleRefusal : Cluster.Script := fun n _ =>
  .done (if n = 0 then .response 500 [] else .lost ["connection refused"])

example :
    let es : List Event := [.desiredCount 2, .jobCompleted .blank, .desiredCount 0]
    let session := (handler sampleRefusal).session (.new "ns" "pool" ⟨0, 5⟩) es
    session.map (fun step => step.2.map Except.toBool) = [some false, some true, some false] ∧
      session.map (fun step => step.1.sent.map Request.body) =
        [[RunnerSetSpec.patchText 2 0], [RunnerSetSpec.patchText 2 0],
          [RunnerSetSpec.patchText 2 0, RunnerSetSpec.patchText 0 1]] := by
  decide +kernel

/-! ### Requests that set the pool -/

/-- A field that is not negative is not left out. -/
theorem ne_baseline_of_nonneg {field : Int32} (h : 0 ≤ field.toInt) : field ≠ -1 := by
  rintro rfl
  exact absurd h (by decide)

section

variable {cluster : Cluster.Script} {ns name : String} {bounds : Bounds} {before : List Event}
  {n : UInt32} {r : Request}

/-- What a pool decides from its start is within its bounds. -/
theorem decision_mem_bounds (ns name : String) (before : List Event) (n : UInt32)
    (hBounds : bounds.min.toInt ≤ bounds.max.toInt) :
    let d := (Pool.new ns name bounds).decision before n
    bounds.min.toInt ≤ d.target.toInt ∧ d.target.toInt ≤ bounds.max.toInt ∧
      0 ≤ d.patchId.toInt := by
  intro d
  have hTarget : d.target = Sequencer.targetFor bounds n :=
    congrArg (Sequencer.targetFor · n) (Sequencer.bounds_advanced (.new bounds) before)
  have hStart : (Sequencer.new bounds).Stands 0 := rfl
  have hNumber : 0 ≤ d.patchId.toInt := (hStart.advanced before).patchId_nonneg n
  -- the target lies within the bounds, and the number never falls below zero
  rw [hTarget, Sequencer.toInt_targetFor, Sequencer.exactTarget]
  omega

/-- No decision is the baseline of its patch in either field. -/
theorem decision_ne_unset (ns name : String) (before : List Event) (n : UInt32)
    (hMin : 0 ≤ bounds.min.toInt) (hBounds : bounds.min.toInt ≤ bounds.max.toInt) :
    let d := (Pool.new ns name bounds).decision before n
    d.target ≠ RunnerSetSpec.unset.replicas ∧ d.patchId ≠ RunnerSetSpec.unset.patchId := by
  intro d
  obtain ⟨hLeast, -, hNumber⟩ := decision_mem_bounds ns name before n hBounds
  exact ⟨ne_baseline_of_nonneg (Int.le_trans hMin hLeast), ne_baseline_of_nonneg hNumber⟩

/-- A request that sets the pool leaves out neither field. -/
theorem Patches.exists_body_eq (hMin : 0 ≤ bounds.min.toInt)
    (hBounds : bounds.min.toInt ≤ bounds.max.toInt)
    (h : Patches cluster (Pool.new ns name bounds) before n r) :
    ∃ size number : Int, r.body = RunnerSetSpec.patchText size number ∧
      bounds.min.toInt ≤ size ∧ size ≤ bounds.max.toInt ∧
      0 ≤ number ∧ number ≤ Int32.maxValue.toInt := by
  obtain ⟨hSize, hNumber⟩ := decision_ne_unset ns name before n hMin hBounds
  obtain ⟨hLeast, hMost, hNonneg⟩ := decision_mem_bounds ns name before n hBounds
  refine ⟨_, _, ?_, hLeast, hMost, hNonneg, Int32.toInt_le _⟩
  rw [Request.body, h.patch_eq, RunnerSetSpec.compact_patch hSize hNumber]

end

/-- A request of events is that of one of them, in the state that those before it lead to. -/
theorem exists_of_mem_requests {s : Scaler} {es : List Event} {r : Request}
    (h : r ∈ requests s es) :
    ∃ before e after, es = before ++ e :: after ∧
      request? { s with sequencer := s.sequencer.advanced before } e = some r := by
  induction es generalizing s with
  | nil => exact nomatch h
  | cons e es ih =>
    rw [requests_cons, List.mem_append] at h
    rcases h with hFirst | hMore
    · exact ⟨[], e, es, rfl, Option.mem_toList.mp hFirst⟩
    · obtain ⟨before, d, after, rfl, hAsked⟩ := ih hMore
      exact ⟨e :: before, d, after, rfl, hAsked⟩

/-- A request that can be built is the one that is asked for. -/
theorem eq_ok_of_toOption {ε α : Type} {x : Except ε α} {a : α} (h : x.toOption = some a) :
    x = .ok a := by
  cases x with
  | error e => exact nomatch h
  | ok b => exact congrArg Except.ok (Option.some.inj h)

/-- Under settings that make sense, whatever the source, the cluster and the scopes do: each
    request of a run is that of a started job or that of a desired count.  Each request of a
    desired count, also of one that is handed to the pool in some other way, sets a size within
    the bounds and a number that is not negative, both always and nothing else; for what is
    decided never is the baseline, which would be left out. -/
theorem pool_patch_complete (s : Settings) (hs : s.check = .ok ()) (own : Scope)
    (cluster : Cluster.Script) (reads : List Read) (w : Scopes) (m : Option Metrics) :
    let start := Pool.new s.ns s.name s.bounds
    let es := Listener.dispatched own (handler cluster) reads start w m
    (∀ r ∈ (Listener.run own (handler cluster) reads start w m).handler.sent,
      (∃ before job after, es = before ++ .jobStarted job :: after ∧
        Request.build .runner s.ns job.runner (some "status") (RunnerStatus.patch job) = .ok r) ∨
      ∃ before n after, es = before ++ .desiredCount n :: after ∧
        Patches cluster start before n r) ∧
      ∀ before n,
        (∀ r, Patches cluster start before n r →
          ∃ size number : Int, r.body = RunnerSetSpec.patchText size number ∧
            s.minRunners.toInt ≤ size ∧ size ≤ s.maxRunners.toInt ∧
            0 ≤ number ∧ number ≤ Int32.maxValue.toInt) ∧
        (start.decision before n).target ≠ RunnerSetSpec.unset.replicas ∧
        (start.decision before n).patchId ≠ RunnerSetSpec.unset.patchId := by
  -- the bounds checked at the start carry both the sizes and the distance from the baseline
  intro start es
  obtain ⟨hMin, hBounds⟩ := Settings.bounds_of_check hs
  refine ⟨fun r hSent => ?_, fun before n => ⟨fun r h => h.exists_body_eq hMin hBounds,
    decision_ne_unset s.ns s.name before n hMin hBounds⟩⟩
  -- a request sent was asked for by one of the events dispatched
  rw [Listener.handler_run, after_eq_reached] at hSent
  obtain ⟨before, e, after, hSplit, hAsked⟩ :=
    exists_of_mem_requests ((List.mem_append.mp hSent).resolve_left List.not_mem_nil)
  cases e with
  -- a completed job asks for nothing, so only two kinds of event are left
  | jobStarted job => exact Or.inl ⟨before, job, after, hSplit, eq_ok_of_toOption hAsked⟩
  | jobCompleted job => exact nomatch hAsked
  | desiredCount n =>
    exact Or.inr ⟨before, n, after, hSplit, patches_iff.mpr (eq_ok_of_toOption hAsked)⟩

/-! A count far beyond the bounds, at a cluster that does not answer. -/

private def boundedSettings : Settings :=
  { ns := "ns", name := "pool", minRunners := 1, maxRunners := 3 }

private def deafCluster : Cluster.Script := fun _ _ => .stall

private def manyJobs : List Read := Read.ofEvents [.desiredCount 4294967295] .closed

theorem pool_patch_complete_beyond_bounds :
    let start := Pool.new boundedSettings.ns boundedSettings.name boundedSettings.bounds
    boundedSettings.check = .ok () ∧
      ∃ r, (Listener.run ⟨0, []⟩ (handler deafCluster) manyJobs start .empty none).handler.sent =
          [r] ∧
        ∃ size number : Int, r.body = RunnerSetSpec.patchText size number ∧
          1 ≤ size ∧ size ≤ 3 ∧ 0 ≤ number ∧ number ≤ 2147483647 := by
  intro start
  -- the one event asks for more runners than the bounds allow
  have hCheck : boundedSettings.check = .ok () := eq_ok_of_toOption (by decide +kernel)
  have hEvents : Listener.dispatched ⟨0, []⟩ (handler deafCluster) manyJobs start .empty none =
      [.desiredCount 4294967295] := by decide +kernel
  obtain ⟨r, hSent⟩ : ∃ r, Patches deafCluster start [] 4294967295 r :=
    exists_patches_iff.mpr (by decide +kernel)
  obtain ⟨-, hComplete⟩ :=
    pool_patch_complete boundedSettings hCheck ⟨0, []⟩ deafCluster manyJobs .empty none
  refine ⟨hCheck, r, ?_, (hComplete [] 4294967295).1 r hSent⟩
  rw [Listener.handler_run, hEvents]
  exact hSent

end Pool

end RunnerPool
