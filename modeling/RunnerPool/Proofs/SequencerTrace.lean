import RunnerPool.Sequencer

/-!
# The decisions of a run

A run of a sequencer is a list of calls from its first state on.  Its decisions have a closed
form: the target depends on the count alone, the number in the sequence on how many decisions
came before, and the number that is published on the counts of the last two and on whether a job
event was noted between them.

* `Sequencer.trace`         what a run decides, and the state after each decision
* `Sequencer.evaluations`   the calls of a run that make a decision
* `Sequencer.After`         the invariant between two calls

## Main statement

- `trace_closed_form`: the closed form of every decision, in exact integers
-/

namespace RunnerPool

namespace Sequencer

/-! ### Arithmetic of one decision -/

/-- An integer of 64 bits with a sign. -/
def FitsInt64 (n : Int) : Prop :=
  Int64.minValue.toInt ≤ n ∧ n ≤ Int64.maxValue.toInt

/-- An integer of 32 bits with a sign. -/
def FitsInt32 (n : Int) : Prop :=
  Int32.minValue.toInt ≤ n ∧ n ≤ Int32.maxValue.toInt

private theorem toInt_bounds (n : Int32) : -2147483648 ≤ n.toInt ∧ n.toInt ≤ 2147483647 := by
  have hLow := n.le_toInt
  have hHigh := n.toInt_lt
  omega

/-- The target as an exact integer. -/
def exactTarget (bounds : Bounds) (assigned : UInt32) : Int :=
  min (bounds.min.toInt + assigned.toNat) bounds.max.toInt

/-- The sum of a size and a count needs no more than 64 bits. -/
theorem fitsInt64_add (size : Int32) (count : UInt32) :
    FitsInt64 (size.toInt + count.toNat) := by
  have hSize := toInt_bounds size
  have hCount := count.toNat_lt
  have hMin : Int64.minValue.toInt = -9223372036854775808 := rfl
  have hMax : Int64.maxValue.toInt = 9223372036854775807 := rfl
  rw [FitsInt64, hMin, hMax]
  omega

/-- The target needs no more than 32 bits. -/
theorem fitsInt32_exactTarget (bounds : Bounds) (assigned : UInt32) :
    FitsInt32 (exactTarget bounds assigned) := by
  have hLeast := toInt_bounds bounds.min
  have hMost := toInt_bounds bounds.max
  have hMin : Int32.minValue.toInt = -2147483648 := rfl
  have hMax : Int32.maxValue.toInt = 2147483647 := rfl
  rw [FitsInt32, exactTarget, hMin, hMax]
  omega

/-- The target is exact: nothing is lost where it is put into 32 bits. -/
theorem toInt_targetFor (bounds : Bounds) (assigned : UInt32) :
    (targetFor bounds assigned).toInt = exactTarget bounds assigned := by
  have hFits := fitsInt32_exactTarget bounds assigned
  exact Int32.toInt_ofInt_of_le hFits.1 (Int.lt_of_le_of_lt hFits.2 (by decide))

/-- The number in the sequence of the `n`-th decision, counted from zero: zero, and then from one
    to the largest number and from one again. -/
def seqAt : Nat → Int
  | 0 => 0
  | n + 1 => n % Int32.maxValue.toInt + 1

theorem seqAt_nonneg (n : Nat) : 0 ≤ seqAt n := by
  have hMax : Int32.maxValue.toInt = 2147483647 := rfl
  cases n with
  | zero => exact Int.le_refl 0
  | succ n =>
    rw [seqAt, hMax]
    omega

/-- Only the first number is zero. -/
theorem seqAt_eq_zero_iff (n : Nat) : seqAt n = 0 ↔ n = 0 := by
  have hMax : Int32.maxValue.toInt = 2147483647 := rfl
  cases n with
  | zero => exact ⟨fun _ => rfl, fun _ => rfl⟩
  | succ n =>
    rw [seqAt, hMax]
    omega

/-- Below the largest number the addition does not wrap around. -/
theorem toInt_nextSeq_of_ne {last : Int32} (h : last ≠ Int32.maxValue) :
    (nextSeq (some last)).toInt = last.toInt + 1 := by
  have hMax : Int32.maxValue.toInt = 2147483647 := rfl
  have hOne : (1 : Int32).toInt = 1 := rfl
  have hLast := toInt_bounds last
  have hNe : last.toInt ≠ 2147483647 := by
    rw [← hMax]
    exact fun hEq => h (Int32.toInt_inj.mp hEq)
  simp only [nextSeq, if_neg h]
  rw [Int32.toInt_add, hOne]
  exact Int.bmod_eq_of_le (by omega) (by omega)

/-- The sequence goes on as it should, also from the largest number. -/
theorem toInt_nextSeq (last : Int32) (n : Nat) (h : last.toInt = seqAt n) :
    (nextSeq (some last)).toInt = seqAt (n + 1) := by
  have hMax : Int32.maxValue.toInt = 2147483647 := rfl
  have hNonneg := seqAt_nonneg n
  -- the closed form at the largest number and below it
  have hWrap : seqAt n = 2147483647 → seqAt (n + 1) = 1 := by
    cases n with
    | zero => exact (nomatch ·)
    | succ n =>
      rw [seqAt, seqAt, hMax]
      omega
  have hNext : seqAt n ≠ 2147483647 → seqAt (n + 1) = seqAt n + 1 := by
    cases n with
    | zero => exact fun _ => rfl
    | succ n =>
      rw [seqAt, seqAt, hMax]
      omega
  by_cases hTop : last = Int32.maxValue
  · rw [hWrap (by rw [← h, hTop, hMax]), hTop]
    rfl
  · have hNe : last.toInt ≠ 2147483647 := by
      rw [← hMax]
      exact fun hEq => hTop (Int32.toInt_inj.mp hEq)
    rw [toInt_nextSeq_of_ne hTop, hNext (h ▸ hNe), h]

/-! ### Runs -/

/-- One call on a sequencer. -/
inductive Call
  | markDirty
  | evaluate (assigned : UInt32)
deriving Repr, DecidableEq

/-- What a decision is asked for: the count, and whether a job event was noted since the decision
    before. -/
structure Evaluation where
  noted : Bool
  assigned : UInt32
deriving Repr, DecidableEq

/-- The calls that make a decision; `noted` tells whether a job event is still to be counted. -/
def evaluations : (noted : Bool) → List Call → List Evaluation
  | _, [] => []
  | _, .markDirty :: cs => evaluations true cs
  | noted, .evaluate n :: cs => ⟨noted, n⟩ :: evaluations false cs

/-- What a run decides, and the state after each decision. -/
def trace : Sequencer → List Call → List (Decision × Sequencer)
  | _, [] => []
  | s, .markDirty :: cs => trace s.markDirty cs
  | s, .evaluate n :: cs => s.evaluate n :: trace (s.evaluate n).2 cs

/-- The state after `n` decisions, of which the last was asked for with a count, with or without
    a job event since then. -/
structure After (bounds : Bounds) (n : Nat) (last : Option UInt32) (noted : Bool)
    (s : Sequencer) : Prop where
  sameBounds : s.bounds = bounds
  target : s.target = last.map (targetFor bounds)
  dirty : s.dirty = noted
  first : last = none → n = 0 ∧ s.seq = none
  later : ∀ count, last = some count →
    ∃ m seq, n = m + 1 ∧ s.seq = some seq ∧ seq.toInt = seqAt m

theorem after_new (bounds : Bounds) : After bounds 0 none false (new bounds) where
  sameBounds := rfl
  target := rfl
  dirty := rfl
  first := fun _ => ⟨rfl, rfl⟩
  later := fun _ h => nomatch h

/-- A job event is noted and changes nothing else. -/
theorem After.markDirty {bounds : Bounds} {n : Nat} {last : Option UInt32} {noted : Bool}
    {s : Sequencer} (h : After bounds n last noted s) :
    After bounds n last true s.markDirty where
  sameBounds := h.sameBounds
  target := h.target
  dirty := rfl
  first := h.first
  later := h.later

/-- Whether a decision changes nothing, given the count of the one before. -/
def IsIdle (bounds : Bounds) (last : Option UInt32) (e : Evaluation) : Prop :=
  e.noted = false ∧ ∃ count, last = some count ∧
    exactTarget bounds e.assigned = exactTarget bounds count ∧
    exactTarget bounds e.assigned = bounds.min.toInt

/-- The flag that the state gives agrees with the counts. -/
theorem After.isIdle_iff {bounds : Bounds} {n : Nat} {last : Option UInt32} {noted : Bool}
    {s : Sequencer} (h : After bounds n last noted s) (assigned : UInt32) :
    s.isIdle (targetFor s.bounds assigned) = true ↔ IsIdle bounds last ⟨noted, assigned⟩ := by
  -- targets are compared as integers, where the closed form is stated
  have hMin : targetFor bounds assigned = bounds.min ↔
      exactTarget bounds assigned = bounds.min.toInt := by
    rw [← Int32.toInt_inj, toInt_targetFor]
  simp only [isIdle, IsIdle, h.dirty, h.target, h.sameBounds, Bool.and_eq_true, Bool.not_eq_true',
    beq_iff_eq, hMin, and_assoc]
  refine and_congr_right fun _ => ?_
  -- without a count before it no evaluation is idle
  cases last with
  | none => exact ⟨fun h => (nomatch h.1), fun ⟨_, h, _⟩ => (nomatch h)⟩
  | some count =>
    have hSame : targetFor bounds count = targetFor bounds assigned ↔
        exactTarget bounds assigned = exactTarget bounds count := by
      rw [← Int32.toInt_inj, toInt_targetFor, toInt_targetFor]
      exact eq_comm
    simp only [Option.map_some, Option.some.injEq, hSame, exists_eq_left']

/-- The number that the next decision takes. -/
theorem After.toInt_nextSeq {bounds : Bounds} {n : Nat} {last : Option UInt32} {noted : Bool}
    {s : Sequencer} (h : After bounds n last noted s) : (nextSeq s.seq).toInt = seqAt n := by
  cases hLast : last with
  | none =>
    obtain ⟨rfl, hSeq⟩ := h.first hLast
    rw [hSeq]
    rfl
  | some count =>
    obtain ⟨m, seq, rfl, hSeq, hAt⟩ := h.later count hLast
    rw [hSeq]
    exact Sequencer.toInt_nextSeq seq m hAt

/-- A decision takes the next number and forgets the job events. -/
theorem After.evaluate {bounds : Bounds} {n : Nat} {last : Option UInt32} {noted : Bool}
    {s : Sequencer} (h : After bounds n last noted s) (assigned : UInt32) :
    After bounds (n + 1) (some assigned) false (s.evaluate assigned).2 where
  sameBounds := h.sameBounds
  target := by rw [← h.sameBounds]; rfl
  dirty := rfl
  first := fun hNone => nomatch hNone
  later := fun _ _ => ⟨n, nextSeq s.seq, rfl, rfl, h.toInt_nextSeq⟩

/-- The closed form of the `n`-th decision, given the count of the one before. -/
structure ClosedForm (bounds : Bounds) (n : Nat) (last : Option UInt32) (e : Evaluation)
    (d : Decision) (s : Sequencer) : Prop where
  target : d.target.toInt = exactTarget bounds e.assigned
  idle : IsIdle bounds last e → d.patchId = 0
  busy : ¬ IsIdle bounds last e → d.patchId.toInt = seqAt n
  zero : d.patchId = 0 ↔ n = 0 ∨ IsIdle bounds last e
  seq : s.seq.map Int32.toInt = some (seqAt n)
  dirty : s.dirty = false
  stored : s.target = some d.target

/-- The next decision has the closed form. -/
theorem After.closedForm {bounds : Bounds} {n : Nat} {last : Option UInt32} {noted : Bool}
    {s : Sequencer} (h : After bounds n last noted s) (assigned : UInt32) :
    ClosedForm bounds n last ⟨noted, assigned⟩ (s.evaluate assigned).1
      (s.evaluate assigned).2 := by
  have hIdle : IsIdle bounds last ⟨noted, assigned⟩ → (s.evaluate assigned).1.patchId = 0 := by
    intro hIs
    exact if_pos ((h.isIdle_iff assigned).mpr hIs)
  have hBusy : ¬ IsIdle bounds last ⟨noted, assigned⟩ →
      (s.evaluate assigned).1.patchId.toInt = seqAt n := by
    intro hNot
    rw [← h.toInt_nextSeq]
    exact congrArg Int32.toInt (if_neg (mt (h.isIdle_iff assigned).mp hNot))
  refine ⟨?_, hIdle, hBusy, ?_, ?_, rfl, rfl⟩
  · rw [← h.sameBounds]
    exact toInt_targetFor s.bounds assigned
  · constructor
    · intro hZero
      by_cases hIs : IsIdle bounds last ⟨noted, assigned⟩
      · exact Or.inr hIs
      · -- a number in the sequence is zero only at the start
        left
        rw [← seqAt_eq_zero_iff, ← hBusy hIs, hZero]
        rfl
    · rintro (rfl | hIs)
      · -- the first decision carries its own number, which is zero as the idle one is
        by_cases hIs : IsIdle bounds last ⟨noted, assigned⟩
        · exact hIdle hIs
        · exact Int32.toInt_inj.mp (hBusy hIs)
      · exact hIdle hIs
  · exact congrArg some h.toInt_nextSeq

/-- There is one decision for each evaluation. -/
theorem length_trace (s : Sequencer) (noted : Bool) (calls : List Call) :
    (trace s calls).length = (evaluations noted calls).length := by
  induction calls generalizing s noted with
  | nil => rfl
  | cons c cs ih =>
    cases c with
    | markDirty => exact ih s.markDirty true
    | evaluate assigned =>
      rw [trace, evaluations, List.length_cons, List.length_cons, ih _ false]

/-- The count of the evaluation before the `n`-th, where one came before all of them or not. -/
def countBefore (last : Option UInt32) (es : List Evaluation) : Nat → Option UInt32
  | 0 => last
  | n + 1 => es[n]?.map (·.assigned)

private theorem countBefore_cons (last : Option UInt32) (e : Evaluation) (es : List Evaluation)
    (n : Nat) : countBefore last (e :: es) (n + 1) = countBefore (some e.assigned) es n := by
  cases n <;> rfl

/-- Every decision of a run has the closed form, by induction on the calls: the state between two
    calls knows how many decisions there were, the last count and whether an event was noted. -/
theorem After.trace_closedForm {bounds : Bounds} {k : Nat} {last : Option UInt32} {noted : Bool}
    {s : Sequencer} (h : After bounds k last noted s) (calls : List Call) (n : Nat)
    (e : Evaluation) (d : Decision) (s' : Sequencer)
    (hAsked : (evaluations noted calls)[n]? = some e)
    (hMade : (trace s calls)[n]? = some (d, s')) :
    ClosedForm bounds (k + n) (countBefore last (evaluations noted calls) n) e d s' := by
  induction calls generalizing k last noted s n with
  | nil => exact nomatch hMade
  | cons c cs ih =>
    cases c with
    | markDirty => exact ih h.markDirty n hAsked hMade
    | evaluate assigned =>
      rw [evaluations] at hAsked ⊢
      rw [trace] at hMade
      cases n with
      | zero =>
        -- the decision asked about is the one made now
        cases Option.some.inj hAsked
        cases Option.some.inj hMade
        exact h.closedForm assigned
      | succ n =>
        rw [List.getElem?_cons_succ] at hAsked hMade
        rw [countBefore_cons, Nat.add_comm n 1, ← Nat.add_assoc]
        exact ih (h.evaluate assigned) n hAsked hMade

/-- Whether the `n`-th decision of a run changes nothing: it is not the first, no job event was
    noted since the one before, and both targets are the least size. -/
def IdleAt (bounds : Bounds) (es : List Evaluation) (n : Nat) : Prop :=
  ∃ m before now, n = m + 1 ∧ es[m]? = some before ∧ es[n]? = some now ∧ now.noted = false ∧
    exactTarget bounds now.assigned = exactTarget bounds before.assigned ∧
    exactTarget bounds now.assigned = bounds.min.toInt

private theorem isIdle_countBefore_iff (bounds : Bounds) (es : List Evaluation) (n : Nat)
    (e : Evaluation) (h : es[n]? = some e) :
    IsIdle bounds (countBefore none es n) e ↔ IdleAt bounds es n := by
  -- the first evaluation has none before it, and a later one has that of one place less
  cases n with
  | zero =>
    refine ⟨fun ⟨_, _, hNone, _⟩ => (nomatch hNone), ?_⟩
    rintro ⟨m, _, _, hZero, _⟩
    exact nomatch hZero
  | succ n =>
    constructor
    · rintro ⟨hNoted, count, hCount, hSame, hLeast⟩
      obtain ⟨before, hBefore, rfl⟩ := Option.map_eq_some_iff.mp hCount
      exact ⟨n, before, e, rfl, hBefore, h, hNoted, hSame, hLeast⟩
    · rintro ⟨m, before, now, hSucc, hBefore, hNow, hNoted, hSame, hLeast⟩
      cases hSucc
      cases h.symm.trans hNow
      exact ⟨hNoted, before.assigned, Option.map_eq_some_iff.mpr ⟨before, hBefore, rfl⟩,
        hSame, hLeast⟩

/-- The decisions of a run, numbered from zero, in exact integers.  No step leaves the range of
    its machine integers.  The target is the least size and one more for each job, at most the
    largest; the number in the sequence is `seqAt`; the published number is zero where the
    decision is idle and that number otherwise, so it is zero at the first decision and at idle
    ones only.  The state keeps target and number and no job event. -/
theorem trace_closed_form (bounds : Bounds) (calls : List Call) :
    (trace (new bounds) calls).length = (evaluations false calls).length ∧
      ∀ n e d s, (evaluations false calls)[n]? = some e →
        (trace (new bounds) calls)[n]? = some (d, s) →
        FitsInt64 (bounds.min.toInt + e.assigned.toNat) ∧
        FitsInt32 (min (bounds.min.toInt + e.assigned.toNat) bounds.max.toInt) ∧
        FitsInt32 (seqAt n) ∧
        d.target.toInt = min (bounds.min.toInt + e.assigned.toNat) bounds.max.toInt ∧
        (IdleAt bounds (evaluations false calls) n → d.patchId = 0) ∧
        (¬ IdleAt bounds (evaluations false calls) n → d.patchId.toInt = seqAt n) ∧
        (d.patchId = 0 ↔ n = 0 ∨ IdleAt bounds (evaluations false calls) n) ∧
        s.seq.map Int32.toInt = some (seqAt n) ∧ s.target = some d.target ∧ s.dirty = false := by
  refine ⟨length_trace (new bounds) false calls, ?_⟩
  intro n e d s hAsked hMade
  -- the closed form of any later trace, here from a new sequencer
  have hForm := (after_new bounds).trace_closedForm calls n e d s hAsked hMade
  rw [Nat.zero_add] at hForm
  have hIdle := isIdle_countBefore_iff bounds _ n e hAsked
  -- the sequence number is an `Int32`, so the closed form is in its range
  have hSeq : FitsInt32 (seqAt n) := by
    obtain ⟨seq, -, hAt⟩ := Option.map_eq_some_iff.mp hForm.seq
    rw [← hAt]
    exact ⟨seq.minValue_le_toInt, seq.toInt_le⟩
  refine ⟨fitsInt64_add _ _, fitsInt32_exactTarget _ _, hSeq, hForm.target, ?_, ?_, ?_,
    hForm.seq, hForm.stored, hForm.dirty⟩
  · exact fun h => hForm.idle (hIdle.mpr h)
  · exact fun h => hForm.busy (mt hIdle.mp h)
  -- the patch id is zero at the first evaluation and at the idle ones
  · rw [← hIdle]
    exact hForm.zero

/-- A pool that waits at its least size, below zero, and is told so twice: the second decision is
    idle although its number in the sequence is one. -/
theorem trace_closed_form_idle :
    let bounds : Bounds := ⟨-2, 1⟩
    let calls : List Call := [.markDirty, .evaluate 0, .evaluate 0, .markDirty, .evaluate 7]
    (evaluations false calls)[1]? = some ⟨false, 0⟩ ∧
      (trace (new bounds) calls)[1]? = some (⟨0, -2⟩, ⟨bounds, some (-2), some 1, false⟩) ∧
      IdleAt bounds (evaluations false calls) 1 ∧ seqAt 1 = 1 := by
  intro bounds calls
  have hAsked : (evaluations false calls)[1]? = some ⟨false, 0⟩ := by decide
  have hMade : (trace (new bounds) calls)[1]? =
      some (⟨0, -2⟩, ⟨bounds, some (-2), some 1, false⟩) := by decide
  have hForm := (trace_closed_form bounds calls).2 1 _ _ _ hAsked hMade
  obtain ⟨-, -, -, -, -, -, hZero, hSeq, -⟩ := hForm
  exact ⟨hAsked, hMade, (hZero.mp rfl).resolve_left (by decide), (Option.some.inj hSeq).symm⟩

end Sequencer

end RunnerPool
