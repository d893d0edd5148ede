import RunnerPool.Proofs.Dispatch
import RunnerPool.Proofs.Resource.RunnerSet
import RunnerPool.Proofs.SequencerOrder

/-!
# The requests that set a pool

A desired count sends one request that sets the size of the pool and the number of the decision.
What a controller of the pool sees are the texts of these requests: it acts on a size only if the
number that comes with it is new to it, and on none at all if the number is zero.

* `Pool.Patches`   the request that is sent for a desired count

## Main statements

- `patchId_fresh`: a change of size, or a job event, comes with a new number, and the numbers of
  decisions that change something do not repeat
- `idle_patch_acknowledged`: in a run of the listener the number zero comes only with a size that
  the cluster has just confirmed
-/

namespace RunnerPool

open Cluster (Request)
open Listener (dispatch)

/-! ### Building requests -/

/-- Whether a request can be built does not depend on its patch. -/
theorem Cluster.Request.build_map (kind : Resource.Kind) (ns name : String) (part : Option String)
    (patch patch' : Json.Value) :
    Request.build kind ns name part patch' =
      (Request.build kind ns name part patch).map fun r => ⟨r.target, patch'⟩ := by
  simp only [Request.build]
  split
  · rfl
  · simp only [bind, Except.bind]
    split <;> rfl

/-- A request is built around its patch. -/
theorem Cluster.Request.patch_of_build {kind : Resource.Kind} {ns name : String}
    {part : Option String} {patch : Json.Value} {r : Request}
    (h : Request.build kind ns name part patch = .ok r) : r.patch = patch := by
  have hSame := build_map kind ns name part patch patch
  rw [h] at hSame
  rw [Except.ok.inj hSame]

namespace Pool

open Sequencer (decisions)

variable (cluster : Cluster.Script)

/-! ### The state of a pool -/

theorem scaler_dispatch (p : Pool) (e : Event) :
    (dispatch (handler cluster) p e).1.scaler =
      { p.scaler with sequencer := Pipeline.advance p.scaler.sequencer e } := by
  cases e <;> simp only [dispatch, handler, Pipeline.fst_carryOut] <;> rfl

/-- Events change nothing of a scaler but its sequencer. -/
theorem scaler_after (p : Pool) (es : List Event) :
    ((handler cluster).after p es).scaler =
      { p.scaler with sequencer := p.scaler.sequencer.advanced es } := by
  induction es generalizing p with
  | nil => rfl
  | cons e es ih => rw [Handler.after_cons, ih, scaler_dispatch, Sequencer.advanced_cons]

/-! ### The request of a desired count -/

/-- The request is sent for a count that comes after the events `before`. -/
def Patches (p : Pool) (before : List Event) (n : UInt32) (r : Request) : Prop :=
  ((handler cluster).after p (before ++ [.desiredCount n])).sent =
    ((handler cluster).after p before).sent ++ [r]

/-- The decision on a count that comes after the events `before`. -/
def decision (p : Pool) (before : List Event) (n : UInt32) : Decision :=
  ((p.scaler.sequencer.advanced before).evaluate n).1

/-- The request that a decision asks for, unless it cannot be built. -/
def demand (s : Scaler) (d : Decision) : Except Cluster.Unbuildable Request :=
  Request.build .runnerSet s.ns s.name none (RunnerSetSpec.patch d.target d.patchId)

/-- A desired count adds its request to those that were sent, if it can be built. -/
theorem sent_dispatch_desiredCount (p : Pool) (n : UInt32) :
    (dispatch (handler cluster) p (.desiredCount n)).1.sent =
      p.sent ++ (demand p.scaler (p.scaler.sequencer.evaluate n).1).toOption.toList := by
  simp only [dispatch, handler, Pipeline.fst_carryOut, Scaler.desiredCount, Handling.request?,
    demand]
  cases Request.build .runnerSet p.scaler.ns p.scaler.name none
    (RunnerSetSpec.patch (p.scaler.sequencer.evaluate n).1.target
      (p.scaler.sequencer.evaluate n).1.patchId) <;> rfl

section

variable {cluster : Cluster.Script} {p : Pool} {before : List Event} {n : UInt32} {r : Request}

/-- A request is sent if and only if it can be built. -/
theorem patches_iff :
    Patches cluster p before n r ↔ demand p.scaler (p.decision before n) = .ok r := by
  have hDemand : demand ((handler cluster).after p before).scaler
      (((handler cluster).after p before).scaler.sequencer.evaluate n).1 =
        demand p.scaler (p.decision before n) := by
    rw [scaler_after]
    rfl
  rw [Patches, Handler.after_append, Handler.after_cons, Handler.after_nil,
    sent_dispatch_desiredCount, hDemand, List.append_cancel_left_eq]
  cases demand p.scaler (p.decision before n) <;> simp [Except.toOption]

theorem exists_patches_iff :
    (∃ r, Patches cluster p before n r) ↔
      (demand p.scaler (p.decision before n)).toOption.isSome = true := by
  simp only [patches_iff]
  cases demand p.scaler (p.decision before n) <;> simp [Except.toOption]

/-- If a request is sent for one count, then one is sent for every count. -/
theorem Patches.exists_patches (h : Patches cluster p before n r) (before' : List Event)
    (n' : UInt32) : ∃ r', Patches cluster p before' n' r' := by
  rw [patches_iff, demand] at h
  simp only [patches_iff, demand]
  rw [Request.build_map _ _ _ _ _ _, h]
  exact ⟨_, rfl⟩

theorem Patches.patch_eq (h : Patches cluster p before n r) :
    r.patch = RunnerSetSpec.patch (p.decision before n).target (p.decision before n).patchId :=
  Request.patch_of_build (patches_iff.mp h)

/-- The number in the text of a request is that of the decision. -/
theorem Patches.specMember?_patchID (h : Patches cluster p before n r)
    (hNonneg : 0 ≤ (p.decision before n).patchId.toInt) :
    r.specMember? "patchID" = some (.int (p.decision before n).patchId.toInt) := by
  rw [RunnerSetSpec.specMember?_patchID h.patch_eq, if_neg]
  intro hBaseline
  rw [hBaseline] at hNonneg
  exact absurd hNonneg (by decide)

/-- The size in the text of a request is the target for its count. -/
theorem Patches.specMember?_replicas {target : Int32} (h : Patches cluster p before n r)
    (hTarget : Sequencer.targetFor p.scaler.sequencer.bounds n = target) :
    r.specMember? "replicas" = if target = -1 then none else some (.int target.toInt) := by
  have hDecided : (p.decision before n).target = target := by
    rw [decision, Sequencer.evaluate, Sequencer.bounds_advanced, hTarget]
  rw [RunnerSetSpec.specMember?_replicas h.patch_eq, hDecided]

end

/-! ### Fresh numbers -/

/-- The decision on a count that comes after the events `before` changes nothing. -/
def IdleAt (p : Pool) (before : List Event) (n : UInt32) : Prop :=
  ((handler cluster).after p before).scaler.sequencer.Idles n

/-- No request is sent for a count among the events `between`, which come after `before`. -/
def SilentFor (p : Pool) (before between : List Event) : Prop :=
  ∀ pre k post, between = pre ++ .desiredCount k :: post →
    ∀ r, ¬ Patches cluster p (before ++ pre) k r

/-- The sequence of numbers is not started anew for a count among the events `between`, which come
    after `before`. -/
def NeverWraps (p : Pool) (before between : List Event) : Prop :=
  ∀ pre k post, between = pre ++ .desiredCount k :: post →
    ((handler cluster).after p (before ++ pre)).scaler.sequencer.seq ≠ some Int32.maxValue

section

variable {cluster : Cluster.Script} {p : Pool} {before between : List Event} {n : UInt32}

theorem idleAt_iff : IdleAt cluster p before n ↔ (p.scaler.sequencer.advanced before).Idles n := by
  rw [IdleAt, scaler_after]

theorem NeverWraps.sequencer (h : NeverWraps cluster p before between) :
    (p.scaler.sequencer.advanced before).NeverWraps between := by
  intro pre k post hSplit
  have hSeq := h pre k post hSplit
  rwa [scaler_after, Sequencer.advanced_append] at hSeq

/-- Where requests can be sent, none is missing for a decision. -/
theorem SilentFor.decisions_eq_zero {before' : List Event} {r : Request}
    (h : SilentFor cluster p before between) (hAble : Patches cluster p before' n r) :
    decisions between = 0 := by
  refine Decidable.byContradiction fun hSome => ?_
  obtain ⟨pre, k, post, hSplit⟩ := Sequencer.exists_desiredCount_of_decisions hSome
  obtain ⟨r', hSent⟩ := hAble.exists_patches (before ++ pre) k
  exact h pre k post hSplit r' hSent

/-- Requests that differ in size are for counts whose targets differ. -/
theorem Patches.targetFor_ne {before' : List Event} {n' : UInt32} {r r' : Request}
    (h : Patches cluster p before n r) (h' : Patches cluster p before' n' r')
    (hDiffer : r.specMember? "replicas" ≠ r'.specMember? "replicas") :
    Sequencer.targetFor p.scaler.sequencer.bounds n ≠
      Sequencer.targetFor p.scaler.sequencer.bounds n' := by
  intro hSame
  refine hDiffer ?_
  rw [h.specMember?_replicas hSame, h'.specMember?_replicas rfl]

end

/-- From any state whose sequence has not begun or holds no negative number, consider two requests
    that set the pool.  If none was sent in between, and they differ in size or a job event came
    in between, then the number of the second is not that of the first and not zero.  If both
    decisions change something and there are fewer decisions from one to the other than the
    sequence has numbers, then their numbers differ.  If the second decision changes something and
    the sequence was not started anew since the first, then its number is the greater. -/
theorem patchId_fresh (p : Pool) (hSeq : ∀ n, p.scaler.sequencer.seq = some n → 0 ≤ n.toInt)
    (before between : List Event) (m n : UInt32) (r r' : Request)
    (hFirst : Patches cluster p before m r)
    (hSecond : Patches cluster p (before ++ .desiredCount m :: between) n r') :
    ∃ id id' : Int,
      r.specMember? "patchID" = some (.int id) ∧ r'.specMember? "patchID" = some (.int id') ∧
      (SilentFor cluster p (before ++ [.desiredCount m]) between →
        (r.specMember? "replicas" ≠ r'.specMember? "replicas" ∨
          ∃ e ∈ between, e.tag ≠ .desiredCount) → id' ≠ id ∧ id' ≠ 0) ∧
      (¬ IdleAt cluster p before m →
        ¬ IdleAt cluster p (before ++ .desiredCount m :: between) n →
        ((decisions between + 1 : Nat) : Int) < Int32.maxValue.toInt → id' ≠ id) ∧
      (¬ IdleAt cluster p (before ++ .desiredCount m :: between) n →
        NeverWraps cluster p (before ++ [.desiredCount m]) (between ++ [.desiredCount n]) →
        id < id') := by
  obtain ⟨k, hStart⟩ := Sequencer.exists_stands hSeq
  -- the states before the first decision, and before the second
  have hq := hStart.advanced before
  have hq' := (hq.evaluate m).advanced between
  have hState : p.scaler.sequencer.advanced (before ++ .desiredCount m :: between) =
      ((p.scaler.sequencer.advanced before).evaluate m).2.advanced between :=
    Sequencer.advanced_append _ _ _
  have hLater : p.decision (before ++ .desiredCount m :: between) n =
      ((((p.scaler.sequencer.advanced before).evaluate m).2.advanced between).evaluate n).1 := by
    rw [decision, hState]
  refine ⟨_, _, hFirst.specMember?_patchID (hq.patchId_nonneg m),
    hSecond.specMember?_patchID (hLater ▸ hq'.patchId_nonneg n), ?_, ?_, ?_⟩
  · -- one right after the other
    intro hSilent hChange
    have hNone := hSilent.decisions_eq_zero hFirst
    have hTargets : r.specMember? "replicas" ≠ r'.specMember? "replicas" →
        Sequencer.targetFor (p.scaler.sequencer.advanced before).bounds m ≠
          Sequencer.targetFor (p.scaler.sequencer.advanced before).bounds n := by
      rw [Sequencer.bounds_advanced]
      exact hFirst.targetFor_ne hSecond
    have hEvents : (∃ e ∈ between, e.tag ≠ .desiredCount) → between ≠ [] := by
      rintro ⟨e, he, -⟩
      exact List.ne_nil_of_mem he
    rw [hLater]
    exact hq.patchId_new hNone
      (Sequencer.not_idles_of_change hNone (hChange.imp hTargets hEvents))
  · -- both change something
    intro hBusy hBusy' hClose
    rw [idleAt_iff] at hBusy
    rw [idleAt_iff, hState] at hBusy'
    rw [hLater]
    exact hq.patchId_ne hBusy hBusy' hClose
  · -- before the sequence starts anew
    intro hBusy hNever
    rw [idleAt_iff, hState] at hBusy
    rw [hLater]
    refine hq.patchId_lt hBusy ?_
    have h := hNever.sequencer
    rwa [Sequencer.advanced_append] at h

/-! At the end of the sequence, a pool that waits at its least size: the first request is idle, and
    after a job event the second one takes the number that the sequence starts anew with. -/

private def samplePool : Pool := ⟨⟨"ns", "pool", ⟨⟨0, 5⟩, some 0, some 2147483646, false⟩⟩, []⟩

private def sampleSilence : Cluster.Script := fun _ _ => .stall

theorem patchId_fresh_across_end :
    (∀ n, samplePool.scaler.sequencer.seq = some n → 0 ≤ n.toInt) ∧
      ∃ r r', Patches sampleSilence samplePool [] 0 r ∧
        Patches sampleSilence samplePool [.desiredCount 0, .jobCompleted .blank] 0 r' ∧
        SilentFor sampleSilence samplePool [.desiredCount 0] [.jobCompleted .blank] ∧
        r.specMember? "patchID" = some (.int 0) ∧ r'.specMember? "patchID" = some (.int 1) ∧
        ∃ id id' : Int, r.specMember? "patchID" = some (.int id) ∧
          r'.specMember? "patchID" = some (.int id') ∧ id' ≠ id ∧ id' ≠ 0 := by
  have hSeq : ∀ n, samplePool.scaler.sequencer.seq = some n → 0 ≤ n.toInt := by
    intro n hn
    cases hn
    decide
  obtain ⟨r, hFirst⟩ : ∃ r, Patches sampleSilence samplePool [] 0 r :=
    exists_patches_iff.mpr (by decide +kernel)
  obtain ⟨r', hSecond⟩ := hFirst.exists_patches [.desiredCount 0, .jobCompleted .blank] 0
  -- no event between the two patches asks for one
  have hSilent : SilentFor sampleSilence samplePool [.desiredCount 0] [.jobCompleted .blank] := by
    intro pre k post hSplit
    cases pre <;> simp at hSplit
  obtain ⟨id, id', hId, hId', hFresh, -⟩ :=
    patchId_fresh sampleSilence samplePool hSeq [] [.jobCompleted .blank] 0 0 r r' hFirst hSecond
  -- the job event between them makes the second a new request
  have hNew := hFresh hSilent (Or.inr ⟨.jobCompleted .blank, List.mem_cons_self, by decide⟩)
  exact ⟨hSeq, r, r', hFirst, hSecond, hSilent, hFirst.specMember?_patchID (by decide),
    hSecond.specMember?_patchID (by decide), id, id', hId, hId', hNew⟩

/-! ### The idle number -/

section

variable {cluster : Cluster.Script} {p : Pool} {before : List Event} {n : UInt32} {r : Request}

/-- A desired count ends as the answer to its request says. -/
theorem result?_dispatch_desiredCount (now : Pool) (d : Decision)
    (hDecided : (now.scaler.sequencer.evaluate n).1 = d) (hBuilt : demand now.scaler d = .ok r) :
    (dispatch (handler cluster) now (.desiredCount n)).2.result? =
      (cluster now.sent.length r).result?.map fun answer =>
        (now.scaler.settleDesired d (answer.decode RunnerSet.record)).result.map
          (Listener.Recording.desired n) := by
  subst hDecided
  rw [demand] at hBuilt
  simp only [dispatch, handler, Scaler.desiredCount, carryOut, hBuilt, Course.result?_map,
    Course.result?_noting, Course.result?_bind, Pipeline.result?_conclude]
  cases (cluster now.sent.length r).result? <;> rfl

/-- A desired count that is handled without a failure was confirmed by the cluster. -/
theorem Patches.exists_answer {recording : Listener.Recording} (h : Patches cluster p before n r)
    (hHandled : (dispatch (handler cluster) ((handler cluster).after p before)
      (.desiredCount n)).2.result? = some (.ok recording)) :
    ∃ answer set,
      (cluster ((handler cluster).after p before).sent.length r).result? = some answer ∧
        answer.decode RunnerSet.record = .ok set := by
  -- the pool that handles the count has decided and built the patch `Patches` speaks of
  have hScaler := scaler_after cluster p before
  have hDecided : (((handler cluster).after p before).scaler.sequencer.evaluate n).1 =
      p.decision before n := by rw [hScaler, decision]
  have hBuilt : demand ((handler cluster).after p before).scaler (p.decision before n) = .ok r := by
    rw [hScaler]
    exact patches_iff.mp h
  rw [result?_dispatch_desiredCount _ _ hDecided hBuilt, Option.map_eq_some_iff] at hHandled
  -- the handler came back without an error, so it has read an answer
  obtain ⟨answer, hAnswer, hOk⟩ := hHandled
  cases hDecode : answer.decode RunnerSet.record with
  | ok set => exact ⟨answer, set, hAnswer, hDecode⟩
  | error err =>
    rw [hDecode] at hOk
    exact nomatch hOk

/-- After the first decision, the number zero tells of an idle one. -/
theorem Patches.idles_of_zero {k : Nat} (h : Patches cluster p before n r)
    (hPlace : (p.scaler.sequencer.advanced before).Stands k) (hLater : k ≠ 0)
    (hZero : r.specMember? "patchID" = some (.int 0)) :
    (p.scaler.sequencer.advanced before).Idles n := by
  have hId := h.specMember?_patchID (hPlace.patchId_nonneg n)
  have hNumber : (p.decision before n).patchId.toInt = 0 := by
    simpa [hZero, Json.Value.int, eq_comm] using hId
  exact hPlace.idles_of_patchId_eq_zero hLater hNumber

end

/-- In every run of the listener over a pool from its start, whatever its source and the cluster
    do: the run leaves the pool that the events lead to that were handed to the pool, and if a
    request with the number zero is sent for one of them that is not the first request that sets
    the pool, then the event right before it is a desired count too, whose request carried the
    same size, the least one, and was confirmed by the cluster.  A size that equals the baseline
    is left out of both. -/
theorem idle_patch_acknowledged (own : Scope) (cluster : Cluster.Script) (reads : List Read)
    (ns name : String) (bounds : Bounds) (w : Scopes) (m : Option Metrics) :
    let start := Pool.new ns name bounds
    let es := Listener.dispatched own (handler cluster) reads start w m
    (Listener.run own (handler cluster) reads start w m).handler =
        (handler cluster).after start es ∧
      ∀ before n after r, es = before ++ .desiredCount n :: after →
        Patches cluster start before n r → r.specMember? "patchID" = some (.int 0) →
        (∃ early k late first, before = early ++ .desiredCount k :: late ∧
          Patches cluster start early k first) →
        ∃ earlier k previous answer set, before = earlier ++ [.desiredCount k] ∧
          Patches cluster start earlier k previous ∧
          (cluster ((handler cluster).after start earlier).sent.length previous).result? =
            some answer ∧
          answer.decode RunnerSet.record = .ok set ∧
          previous.specMember? "replicas" = r.specMember? "replicas" ∧
          r.specMember? "replicas" =
            if bounds.min = -1 then none else some (.int bounds.min.toInt) := by
  intro start es
  refine ⟨Listener.handler_run own (handler cluster) reads start w m, ?_⟩
  rintro before n after r hSplit hSent hZero ⟨early, k₀, late, first, hEarly, -⟩
  -- the request is not the first, so its number is zero because its decision is idle
  have hPlace := (show start.scaler.sequencer.Stands 0 from rfl).advanced before
  have hLater : 0 + decisions before ≠ 0 := by
    rw [hEarly, Sequencer.decisions_append, Sequencer.decisions_desiredCount]
    omega
  have hIdle := hSent.idles_of_zero hPlace hLater hZero
  have hSome : before ≠ [] := by
    rw [hEarly]
    exact List.append_ne_nil_of_right_ne_nil _ (List.cons_ne_nil _ _)
  obtain ⟨earlier, k, hLast, hSame, hLeast⟩ := hIdle.exists_last hSome
  -- the run went on after the request before, so that one was confirmed
  obtain ⟨previous, hPrevious⟩ := hSent.exists_patches earlier k
  have hGoesOn : es = earlier ++ .desiredCount k :: .desiredCount n :: after := by
    rw [hSplit, hLast, List.append_assoc, List.singleton_append]
  obtain ⟨recording, hHandled⟩ := Listener.acknowledges_dispatched own (handler cluster) reads
    start w m earlier (.desiredCount k) (.desiredCount n :: after) hGoesOn (List.cons_ne_nil _ _)
  obtain ⟨answer, set, hAnswer, hDecode⟩ := hPrevious.exists_answer hHandled
  have hSize := hSent.specMember?_replicas hLeast
  have hSize' := hPrevious.specMember?_replicas (hSame.trans hLeast)
  exact ⟨earlier, k, previous, answer, set, hLast, hPrevious, hAnswer, hDecode,
    hSize'.trans hSize.symm, hSize⟩

/-! A run over two counts that ask for no runner, at a cluster that confirms what it is asked. -/

private def sampleScope : Scope := ⟨0, []⟩

private def sampleConfirmation : Cluster.Script := fun _ _ =>
  .done (.response 200 (Utf8.encode "\x7b\"metadata\":\x7b\x7d,\"spec\":\x7b\x7d\x7d".toList))

private def sampleReads : List Read := Read.ofEvents [.desiredCount 0, .desiredCount 0] .closed

theorem idle_patch_acknowledged_repeated_count :
    let start := Pool.new "ns" "pool" ⟨0, 5⟩
    Listener.dispatched sampleScope (handler sampleConfirmation) sampleReads start .empty none =
        [.desiredCount 0, .desiredCount 0] ∧
      ∃ r previous answer set, Patches sampleConfirmation start [.desiredCount 0] 0 r ∧
        r.specMember? "patchID" = some (.int 0) ∧
        Patches sampleConfirmation start [] 0 previous ∧
        (sampleConfirmation 0 previous).result? = some answer ∧
        answer.decode RunnerSet.record = .ok set ∧
        previous.specMember? "replicas" = r.specMember? "replicas" := by
  intro start
  have hEvents : Listener.dispatched sampleScope (handler sampleConfirmation) sampleReads start
      .empty none = [.desiredCount 0, .desiredCount 0] := by decide +kernel
  obtain ⟨first, hFirst⟩ : ∃ r, Patches sampleConfirmation start [] 0 r :=
    exists_patches_iff.mpr (by decide +kernel)
  obtain ⟨r, hSent⟩ := hFirst.exists_patches [.desiredCount 0] 0
  have hZero : r.specMember? "patchID" = some (.int 0) := hSent.specMember?_patchID (by decide)
  obtain ⟨-, hRun⟩ := idle_patch_acknowledged sampleScope sampleConfirmation sampleReads "ns" "pool"
    ⟨0, 5⟩ .empty none
  obtain ⟨earlier, k, previous, answer, set, hLast, hPrevious, hAnswer, hDecode, hSame, -⟩ :=
    hRun [.desiredCount 0] 0 [] r hEvents hSent hZero ⟨[], 0, [], first, rfl, hFirst⟩
  -- only one event came before, so the previous patch is the first one
  cases earlier with
  | cons e earlier => simp at hLast
  | nil =>
    cases hLast
    exact ⟨hEvents, r, previous, answer, set, hSent, hZero, hPrevious, hAnswer, hDecode, hSame⟩

end Pool

end RunnerPool
