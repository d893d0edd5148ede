import RunnerPool.Proofs.PoolRequests

/-!
# How the handlers take an answer

The answer of the cluster decides how a handler ends, and nothing else: the state of the pool is the
new one before there is an answer.  A runner that is gone is no failure where a job is noted on it;
every other error is handed on as it is, and for the pool itself there is no exception.

* `Cluster.Answer.Carries`   the answer brings the resource
* `Cluster.Answer.code?`     the code of an error answer
* `Cluster.Answer.IsText`    the body of the answer is text

## Main statement

- `handlers_settled_by_answer`: what each handler makes of every answer
-/

namespace RunnerPool

open Json

namespace Cluster.Answer

/-- The answer is no error, and its body is the resource. -/
def Carries (record : Record α) (x : α) : Answer → Prop
  | .lost _ => False
  | .response status body =>
    isErrorStatus status = false ∧ ∃ cs, Utf8.decode body = .ok cs ∧ record.ofText cs = .ok x

/-- The body of the answer is text. -/
def IsText : Answer → Prop
  | .lost _ => False
  | .response _ body => ∃ cs, Utf8.decode body = .ok cs

/-- What a body says that is a refusal. -/
def refusal? (body : List UInt8) : Option Refusal :=
  (Utf8.decode body).toOption.bind fun cs => (Refusal.record.ofText cs).toOption

/-- The code of an answer with an error status: the one in its body, if that is a refusal, and the
    status otherwise. -/
def code? : Answer → Option Nat
  | .lost _ => none
  | .response status body =>
    if isErrorStatus status then some (((refusal? body).map (·.code)).getD status) else none

/-! ### What a client makes of an answer -/

/-- A resource is what an answer without an error carries. -/
theorem decode_eq_ok_iff (record : Record α) (x : α) (a : Answer) :
    a.decode record = .ok x ↔ a.Carries record x := by
  cases a with
  | lost causes => simp [decode, Carries]
  -- the three gates in their order: the body is text, the status is no error, the text is a record
  | response status body =>
    rw [decode, Carries]
    cases Utf8.decode body with
    | error fault => simp
    | ok cs =>
      simp only [Except.ok.injEq, exists_eq_left']
      cases isErrorStatus status with
      | true => simp
      | false =>
        simp only [Bool.false_eq_true, ↓reduceIte, true_and]
        cases record.ofText cs with
        | error fault => constructor <;> intro h <;> cases h
        | ok y => constructor <;> intro h <;> cases h <;> rfl

/-- A body that is not text is an error of its own, whatever the status says. -/
theorem decode_of_not_text (record : Record α) (status : Nat) {body : List UInt8}
    {fault : Utf8.Fault} (h : Utf8.decode body = .error fault) :
    (response status body).decode record = .error (.notText fault) := by
  rw [decode, h]

/-- The code of a refusal is that of its answer. -/
theorem code_refusal {status : Nat} {body : List UInt8} {cs : List Char}
    (hText : Utf8.decode body = .ok cs) :
    (refusal status cs).code = ((refusal? body).map (·.code)).getD status := by
  rw [refusal, refusal?, hText]
  cases hBody : Refusal.record.ofText cs <;> simp [Except.toOption, hBody]

/-- An error says that the resource does not exist if its answer has the code of that, in text. -/
theorem isNotFound_iff {record : Record α} {a : Answer} {e : Error}
    (h : a.decode record = .error e) : e.isNotFound = true ↔ a.code? = some 404 ∧ a.IsText := by
  cases a with
  | lost causes =>
    cases h
    simp [Error.isNotFound, code?]
  | response status body =>
    rw [decode] at h
    rw [code?, IsText]
    cases hText : Utf8.decode body with
    | error fault =>
      rw [hText] at h
      cases h
      simp [Error.isNotFound]
    | ok cs =>
      simp only [hText] at h
      split at h
      · rename_i hStatus
        cases h
        rw [if_pos hStatus, Error.isNotFound, code_refusal hText, beq_iff_eq, Option.some.injEq]
        exact (and_iff_left ⟨cs, rfl⟩).symm
      · -- the body of an answer that is no error has no code
        rename_i hStatus
        rw [if_neg hStatus]
        cases hBody : record.ofText cs with
        | ok x => rw [hBody] at h; cases h
        | error fault =>
          rw [hBody] at h
          cases h
          simp [Error.isNotFound]

end Cluster.Answer

open Cluster (Answer Request)

namespace Scaler

/-! ### What a handler makes of it -/

/-- A started job is handled well if the runner comes back, or if it is gone. -/
theorem settleStarted_eq_ok_iff (job : JobStarted) (a : Answer) :
    (settleStarted job (a.decode Runner.record)).result = .ok () ↔
      (∃ runner, a.Carries Runner.record runner) ∨ (a.code? = some 404 ∧ a.IsText) := by
  simp only [← Answer.decode_eq_ok_iff]
  cases hDecode : a.decode Runner.record with
  | ok runner => exact ⟨fun _ => Or.inl ⟨runner, rfl⟩, fun _ => rfl⟩
  | error e =>
    rw [← Answer.isNotFound_iff hDecode, settleStarted]
    cases e.isNotFound <;> simp

/-- What else a started job ends with is the error of the answer. -/
theorem settleStarted_of_ne_ok {job : JobStarted} {a : Answer}
    (h : (settleStarted job (a.decode Runner.record)).result ≠ .ok ()) :
    ∃ e, a.decode Runner.record = .error e ∧
      (settleStarted job (a.decode Runner.record)).result = .error (.cluster e) := by
  cases hDecode : a.decode Runner.record with
  -- an answer that was read is no failure
  | ok runner => exact (h (by rw [hDecode]; rfl)).elim
  | error e =>
    rw [hDecode, settleStarted] at h
    refine ⟨e, rfl, ?_⟩
    rw [settleStarted]
    -- of the errors only an absence is swallowed, and here it was not
    split
    · rename_i hGone
      rw [if_pos hGone] at h
      exact (h rfl).elim
    · rfl

/-- A desired count is handled well if the pool comes back, and then ends with the decision. -/
theorem settleDesired_eq_ok_iff (s : Scaler) (d : Decision) (a : Answer) (target : Int32) :
    (s.settleDesired d (a.decode RunnerSet.record)).result = .ok target ↔
      target = d.target ∧ ∃ set, a.Carries RunnerSet.record set := by
  simp only [← Answer.decode_eq_ok_iff]
  cases a.decode RunnerSet.record with
  | ok set => simp [settleDesired, eq_comm]
  | error e => simp [settleDesired]

/-- What else a desired count ends with is the error of the answer. -/
theorem settleDesired_of_error (s : Scaler) (d : Decision) {a : Answer} {e : Cluster.Error}
    (h : a.decode RunnerSet.record = .error e) :
    (s.settleDesired d (a.decode RunnerSet.record)).result = .error (.cluster e) := by
  rw [h]
  rfl

end Scaler

namespace Pool

section

variable (cluster : Cluster.Script) {p : Pool} {r : Request}

/-- A started job whose request is sent ends as the answer to it says, and its state was settled
    before. -/
theorem jobStarted_of_request {job : JobStarted}
    (hAsked : request? p.scaler (.jobStarted job) = some r) :
    let done := (handler cluster).jobStarted p job
    done.1 = ⟨{ p.scaler with sequencer := p.scaler.sequencer.markDirty }, p.sent ++ [r]⟩ ∧
      done.2.result? = (cluster p.sent.length r).result?.map fun answer =>
        (Scaler.settleStarted job (answer.decode Runner.record)).result := by
  have hBuilt := eq_ok_of_toOption hAsked
  simp only [handler, Scaler.jobStarted, carryOut, hBuilt, Course.result?_noting,
    Course.result?_bind, Pipeline.result?_conclude, Option.map_eq_bind]
  exact ⟨trivial, rfl⟩

/-- A desired count whose request is sent ends as the answer to it says, and its state was settled
    before. -/
theorem desiredCount_of_request {count : UInt32}
    (hAsked : request? p.scaler (.desiredCount count) = some r) :
    let d := p.scaler.sequencer.evaluate count
    let done := (handler cluster).desiredCount p count
    done.1 = ⟨{ p.scaler with sequencer := d.2 }, p.sent ++ [r]⟩ ∧
      done.2.result? = (cluster p.sent.length r).result?.map fun answer =>
        (p.scaler.settleDesired d.1 (answer.decode RunnerSet.record)).result := by
  have hBuilt := eq_ok_of_toOption hAsked
  rw [demand] at hBuilt
  simp only [handler, Scaler.desiredCount, carryOut, hBuilt, Course.result?_noting,
    Course.result?_bind, Pipeline.result?_conclude, Option.map_eq_bind]
  exact ⟨trivial, rfl⟩

end

/-- In every state of the pool, let a handler send its request, and take any answer to it.

    A started job is handled well if and only if the runner comes back, or an error whose code is
    that of a missing resource and whose body is text; otherwise it ends with the error of the
    answer.  It leaves the state marked and otherwise as it was, also if no answer comes.

    A desired count is handled well if and only if the pool comes back, and then ends with what was
    decided, whatever size the answer shows; otherwise it ends with the error of the answer.  It
    leaves the state of the decision, also if no answer comes.

    A body that is not text is that error of either, whatever the status of the answer. -/
theorem handlers_settled_by_answer (cluster : Cluster.Script) (p : Pool) :
    (∀ job r, request? p.scaler (.jobStarted job) = some r →
      let done := (handler cluster).jobStarted p job
      done.1 = ⟨{ p.scaler with sequencer := { p.scaler.sequencer with dirty := true } },
          p.sent ++ [r]⟩ ∧
        ∀ answer, (cluster p.sent.length r).result? = some answer →
          (done.2.result? = some (.ok ()) ↔
            (∃ runner, answer.Carries Runner.record runner) ∨
              (answer.code? = some 404 ∧ answer.IsText)) ∧
          (done.2.result? ≠ some (.ok ()) → ∃ e, answer.decode Runner.record = .error e ∧
            done.2.result? = some (.error (.cluster e))) ∧
          ∀ status body fault, answer = .response status body → Utf8.decode body = .error fault →
            done.2.result? = some (.error (.cluster (.notText fault)))) ∧
      ∀ count r, request? p.scaler (.desiredCount count) = some r →
        let d := (p.scaler.sequencer.evaluate count).1
        let done := (handler cluster).desiredCount p count
        done.1 = ⟨{ p.scaler with
            sequencer := { p.scaler.sequencer with
              target := some d.target
              seq := some (Sequencer.nextSeq p.scaler.sequencer.seq)
              dirty := false } },
            p.sent ++ [r]⟩ ∧
          ∀ answer, (cluster p.sent.length r).result? = some answer →
            (∀ target, done.2.result? = some (.ok target) ↔
              target = d.target ∧ ∃ set, answer.Carries RunnerSet.record set) ∧
            (∀ e, answer.decode RunnerSet.record = .error e →
              done.2.result? = some (.error (.cluster e))) ∧
            ∀ status body fault, answer = .response status body → Utf8.decode body = .error fault →
              done.2.result? = some (.error (.cluster (.notText fault))) := by
  -- the state does not wait for the answer, so it is settled before one is looked at
  constructor
  · intro job r hAsked done
    obtain ⟨hState, hResult⟩ := jobStarted_of_request cluster hAsked
    refine ⟨hState, fun answer hAnswer => ?_⟩
    rw [hAnswer, Option.map_some] at hResult
    simp only [done, hResult, ne_eq, Option.some.injEq]
    refine ⟨Scaler.settleStarted_eq_ok_iff job answer, Scaler.settleStarted_of_ne_ok, ?_⟩
    -- a body that is no text is refused before its status is looked at
    rintro status body fault rfl hFault
    rw [Answer.decode_of_not_text _ _ hFault]
    rfl
  · intro count r hAsked d done
    obtain ⟨hState, hResult⟩ := desiredCount_of_request cluster hAsked
    refine ⟨hState, fun answer hAnswer => ?_⟩
    rw [hAnswer, Option.map_some] at hResult
    simp only [done, hResult, Option.some.injEq]
    refine ⟨Scaler.settleDesired_eq_ok_iff p.scaler d answer,
      fun e => Scaler.settleDesired_of_error p.scaler d, ?_⟩
    rintro status body fault rfl hFault
    exact Scaler.settleDesired_of_error p.scaler d (Answer.decode_of_not_text _ _ hFault)

/-! One body for both requests, which says that nothing is there, under a status that says something
    else. -/

private def freshPool : Pool := .new "ns" "pool" ⟨0, 5⟩

private def startedOne : JobStarted := { JobStarted.blank with runner := "r1" }

private def sampleAbsence : Answer :=
  .response 500 (Utf8.encode "\x7b\"status\":\"Failure\",\"code\":404\x7d".toList)

private def absentCluster : Cluster.Script := fun _ _ => .done sampleAbsence

theorem handlers_settled_by_answer_absence :
    let started := (handler absentCluster).jobStarted freshPool startedOne
    let desired := (handler absentCluster).desiredCount freshPool 2
    started.2.result? = some (.ok ()) ∧ started.1.scaler.sequencer = ⟨⟨0, 5⟩, none, none, true⟩ ∧
      (∃ e, desired.2.result? = some (.error (.cluster e))) ∧
      desired.1.scaler.sequencer = ⟨⟨0, 5⟩, some 2, some 0, false⟩ := by
  intro started desired
  obtain ⟨hJobs, hCounts⟩ := handlers_settled_by_answer absentCluster freshPool
  obtain ⟨r, hAsked⟩ : ∃ r, request? freshPool.scaler (.jobStarted startedOne) = some r :=
    Option.isSome_iff_exists.mp (by decide +kernel)
  obtain ⟨r', hAsked'⟩ : ∃ r, request? freshPool.scaler (.desiredCount 2) = some r :=
    Option.isSome_iff_exists.mp (by decide +kernel)
  have hCode : sampleAbsence.code? = some 404 := by decide +kernel
  have hText : sampleAbsence.IsText := ⟨_, Utf8.decode_encode _⟩
  -- the absence that settled the job's start is an error to the desired count
  obtain ⟨e, hDecode⟩ : ∃ e, sampleAbsence.decode RunnerSet.record = .error e := by
    cases hDecode : sampleAbsence.decode RunnerSet.record with
    | ok set => exact nomatch ((Answer.decode_eq_ok_iff _ _ _).mp hDecode).1
    | error e => exact ⟨e, rfl⟩
  obtain ⟨hState, hStarted⟩ := hJobs startedOne r hAsked
  obtain ⟨hState', hDesired⟩ := hCounts 2 r' hAsked'
  obtain ⟨hOk, -, -⟩ := hStarted sampleAbsence rfl
  obtain ⟨-, hError, -⟩ := hDesired sampleAbsence rfl
  refine ⟨hOk.mpr (Or.inr ⟨hCode, hText⟩), ?_, ⟨e, hError e hDecode⟩, ?_⟩
  · rw [hState]
    rfl
  · have hTarget : (freshPool.scaler.sequencer.evaluate 2).1.target = 2 := by decide +kernel
    rw [hState', hTarget]
    rfl

/-! A runner that is gone, and an answer that says so in what is no text. -/

private def garbledAbsence : Answer := .response 404 [0xff]

/-- The code of an answer does not count if its body is not text. -/
theorem jobStarted_fails_on_garbled_absence :
    garbledAbsence.code? = some 404 ∧
      (request? freshPool.scaler (.jobStarted startedOne)).isSome = true ∧
      ((handler fun _ _ => .done garbledAbsence).jobStarted freshPool startedOne).2.result? =
        some (.error (.cluster (.notText (.invalid 1 0)))) := by
  refine ⟨by decide +kernel, by decide +kernel, ?_⟩
  rfl

end Pool

end RunnerPool
