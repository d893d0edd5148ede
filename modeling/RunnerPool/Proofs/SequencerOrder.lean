import RunnerPool.Proofs.Pipeline
import RunnerPool.Proofs.SequencerTrace

/-!
# The numbers of decisions that are far apart

How the numbers of two decisions compare, from whatever state a sequencer starts: whether decisions
that change something have different numbers, and when the later one has the greater.

* `Sequencer.advanced`     the state that events lead to
* `Sequencer.Stands`       the place of the next number in the sequence
* `Sequencer.Idles`        whether a decision changes nothing
* `Sequencer.NeverWraps`   whether the sequence starts anew
-/

namespace RunnerPool

namespace Sequencer

open Pipeline (advance)

/-! ### Events -/

/-- The state that events lead to, one after the other. -/
def advanced (q : Sequencer) (es : List Event) : Sequencer := es.foldl advance q

@[simp] theorem advanced_nil (q : Sequencer) : q.advanced [] = q := rfl

@[simp] theorem advanced_cons (q : Sequencer) (e : Event) (es : List Event) :
    q.advanced (e :: es) = (advance q e).advanced es := rfl

theorem advanced_append (q : Sequencer) (es more : List Event) :
    q.advanced (es ++ more) = (q.advanced es).advanced more :=
  List.foldl_append

theorem bounds_advance (q : Sequencer) (e : Event) : (advance q e).bounds = q.bounds := by
  cases e <;> rfl

theorem bounds_advanced (q : Sequencer) (es : List Event) :
    (q.advanced es).bounds = q.bounds := by
  induction es generalizing q with
  | nil => rfl
  | cons e es ih => rw [advanced_cons, ih, bounds_advance]

/-- How many of the events ask for a decision. -/
def decisions : List Event → Nat
  | [] => 0
  | .desiredCount _ :: es => decisions es + 1
  | .jobStarted _ :: es => decisions es
  | .jobCompleted _ :: es => decisions es

@[simp] theorem decisions_nil : decisions [] = 0 := rfl

@[simp] theorem decisions_desiredCount (n : UInt32) (es : List Event) :
    decisions (.desiredCount n :: es) = decisions es + 1 := rfl

@[simp] theorem decisions_jobStarted (job : JobStarted) (es : List Event) :
    decisions (.jobStarted job :: es) = decisions es := rfl

@[simp] theorem decisions_jobCompleted (job : JobCompleted) (es : List Event) :
    decisions (.jobCompleted job :: es) = decisions es := rfl

theorem decisions_append (es more : List Event) :
    decisions (es ++ more) = decisions es + decisions more := by
  induction es with
  | nil => rw [List.nil_append, decisions_nil, Nat.zero_add]
  | cons e es ih => cases e <;> simp [ih, Nat.add_right_comm]

/-- Events that ask for a decision hold a desired count. -/
theorem exists_desiredCount_of_decisions {es : List Event} (h : decisions es ≠ 0) :
    ∃ before n after, es = before ++ .desiredCount n :: after := by
  induction es with
  | nil => exact (h rfl).elim
  | cons e es ih =>
    cases e with
    | desiredCount n => exact ⟨[], n, es, rfl⟩
    | jobStarted | jobCompleted =>
      obtain ⟨before, n, after, rfl⟩ := ih h
      exact ⟨_ :: before, n, after, rfl⟩

/-- Job events are noted and change nothing else. -/
theorem advanced_of_no_decision {q : Sequencer} {es : List Event} (h : decisions es = 0) :
    q.advanced es = { q with dirty := q.dirty || !es.isEmpty } := by
  induction es generalizing q with
  | nil => simp
  | cons e es ih =>
    cases e with
    | desiredCount n => exact nomatch h
    | jobStarted job => simp [advance, markDirty, ih h]
    | jobCompleted job => simp [advance, markDirty, ih h]

/-- Where no job event is noted, the last event was a decision. -/
theorem exists_of_not_dirty {q : Sequencer} {es : List Event} (hSome : es ≠ [])
    (hClean : (q.advanced es).dirty = false) :
    ∃ before n, es = before ++ [.desiredCount n] := by
  -- a job event last would have marked the sequencer
  obtain ⟨before, e, rfl⟩ := (List.eq_nil_or_concat es).resolve_left hSome
  rw [List.concat_eq_append] at hClean ⊢
  cases e with
  | desiredCount n => exact ⟨before, n, rfl⟩
  | jobStarted | jobCompleted =>
    rw [advanced_append] at hClean
    exact nomatch hClean

/-! ### Places in the sequence -/

/-- The next number in the sequence is the `k`-th, counted from zero. -/
def Stands (q : Sequencer) (k : Nat) : Prop := (nextSeq q.seq).toInt = seqAt k

/-- A sequence that has not begun, or holds no negative number, is at some place. -/
theorem exists_stands {q : Sequencer} (h : ∀ n, q.seq = some n → 0 ≤ n.toInt) :
    ∃ k, q.Stands k := by
  cases hSeq : q.seq with
  | none => exact ⟨0, by rw [Stands, hSeq]; rfl⟩
  | some n =>
    have hNonneg := h n hSeq
    have hMost := n.toInt_lt
    have hMax : Int32.maxValue.toInt = 2147483647 := rfl
    -- up to its end the sequence counts its own places
    have hAt : n.toInt = seqAt n.toInt.toNat := by
      cases hNat : n.toInt.toNat with
      | zero =>
        rw [seqAt]
        omega
      | succ j =>
        rw [seqAt, hMax]
        omega
    exact ⟨n.toInt.toNat + 1, by rw [Stands, hSeq, toInt_nextSeq n _ hAt]⟩

/-- A decision takes one place in the sequence. -/
theorem Stands.evaluate {q : Sequencer} {k : Nat} (h : q.Stands k) (n : UInt32) :
    (q.evaluate n).2.Stands (k + 1) :=
  toInt_nextSeq (nextSeq q.seq) k h

/-- Job events take no place in the sequence. -/
theorem Stands.advanced {q : Sequencer} {k : Nat} (h : q.Stands k) (es : List Event) :
    (q.advanced es).Stands (k + decisions es) := by
  induction es generalizing q k with
  | nil => exact h
  | cons e es ih =>
    cases e with
    | jobStarted job => exact ih h
    | jobCompleted job => exact ih h
    | desiredCount n =>
      rw [decisions_desiredCount, Nat.add_comm (decisions es), ← Nat.add_assoc]
      exact ih (h.evaluate n)

/-- Numbers that are close in the sequence are different, also across its end. -/
theorem seqAt_ne_of_lt {j k : Nat} (hLater : j < k)
    (hClose : ((k - j : Nat) : Int) < Int32.maxValue.toInt) : seqAt j ≠ seqAt k := by
  have hMax : Int32.maxValue.toInt = 2147483647 := rfl
  rw [hMax] at hClose
  -- only the first number is zero; after it they repeat with the largest one as their period
  cases k with
  | zero => omega
  | succ k =>
    cases j with
    | zero =>
      rw [seqAt, seqAt, hMax]
      omega
    | succ j =>
      rw [seqAt, seqAt, hMax]
      omega

/-! ### Published numbers -/

/-- The decision for so many jobs changes nothing. -/
def Idles (q : Sequencer) (n : UInt32) : Prop := q.isIdle (targetFor q.bounds n) = true

instance (q : Sequencer) (n : UInt32) : Decidable (q.Idles n) :=
  inferInstanceAs (Decidable (_ = true))

/-- Of two decisions, one right after the other, the second is idle if both targets are the least
    size. -/
theorem idles_evaluate_iff {q : Sequencer} {m n : UInt32} :
    (q.evaluate m).2.Idles n ↔
      targetFor q.bounds m = targetFor q.bounds n ∧ targetFor q.bounds n = q.bounds.min := by
  simp [Idles, isIdle, evaluate]

/-- An idle decision after some events is right after another one. -/
theorem Idles.exists_last {q : Sequencer} {es : List Event} {n : UInt32} (hSome : es ≠ [])
    (h : (q.advanced es).Idles n) :
    ∃ before m, es = before ++ [.desiredCount m] ∧
      targetFor q.bounds m = targetFor q.bounds n ∧ targetFor q.bounds n = q.bounds.min := by
  -- an idle decision needs a clean sequencer, so a count came last
  have hClean : (q.advanced es).dirty = false := by
    rw [Idles, isIdle, Bool.and_eq_true, Bool.and_eq_true, Bool.not_eq_true'] at h
    exact h.1.1
  obtain ⟨before, m, rfl⟩ := exists_of_not_dirty hSome hClean
  have hPair : ((q.advanced before).evaluate m).2.Idles n := by
    rwa [advanced_append] at h
  rw [idles_evaluate_iff, bounds_advanced] at hPair
  exact ⟨before, m, rfl, hPair⟩

theorem patchId_of_idles {q : Sequencer} {n : UInt32} (h : q.Idles n) :
    (q.evaluate n).1.patchId = 0 :=
  if_pos h

theorem patchId_of_not_idles {q : Sequencer} {n : UInt32} (h : ¬ q.Idles n) :
    (q.evaluate n).1.patchId = nextSeq q.seq :=
  if_neg h

/-- A published number is its place's, or zero. -/
theorem Stands.patchId_cases {q : Sequencer} {k : Nat} (h : q.Stands k) (n : UInt32) :
    (q.evaluate n).1.patchId.toInt = 0 ∨ (q.evaluate n).1.patchId.toInt = seqAt k := by
  by_cases hIdle : q.Idles n
  · exact Or.inl (by rw [patchId_of_idles hIdle]; rfl)
  · exact Or.inr (by rw [patchId_of_not_idles hIdle, h])

theorem Stands.patchId_nonneg {q : Sequencer} {k : Nat} (h : q.Stands k) (n : UInt32) :
    0 ≤ (q.evaluate n).1.patchId.toInt := by
  have hSeq := seqAt_nonneg k
  rcases h.patchId_cases n with hId | hId <;> omega

theorem Stands.patchId_of_not_idles {q : Sequencer} {k : Nat} (h : q.Stands k) {n : UInt32}
    (hBusy : ¬ q.Idles n) : (q.evaluate n).1.patchId.toInt = seqAt k := by
  rw [Sequencer.patchId_of_not_idles hBusy, h]

/-- Only the first number of the sequence is zero, so later on zero tells of an idle decision. -/
theorem Stands.idles_of_patchId_eq_zero {q : Sequencer} {k : Nat} (h : q.Stands k) {n : UInt32}
    (hLater : k ≠ 0) (hZero : (q.evaluate n).1.patchId.toInt = 0) : q.Idles n := by
  refine Decidable.byContradiction fun hBusy => ?_
  rw [h.patchId_of_not_idles hBusy, seqAt_eq_zero_iff] at hZero
  exact hLater hZero

/-! ### Two decisions -/

section Pair

variable {q : Sequencer} {k : Nat} {m n : UInt32} {between : List Event}

/-- A decision changes something if no decision came since the last one, but a job event did, or
    if the targets differ. -/
theorem not_idles_of_change (hNone : decisions between = 0)
    (hChange : targetFor q.bounds m ≠ targetFor q.bounds n ∨ between ≠ []) :
    ¬ ((q.evaluate m).2.advanced between).Idles n := by
  rw [Idles, advanced_of_no_decision hNone]
  simp only [isIdle, evaluate, Bool.false_or, Bool.not_not, Bool.and_eq_true, List.isEmpty_iff,
    beq_iff_eq, Option.some.injEq]
  rintro ⟨⟨hEmpty, hSame⟩, -⟩
  exact hChange.elim (· hSame) (· hEmpty)

/-- The number of the later decision is new if it changes something and no decision came in
    between. -/
theorem Stands.patchId_new (h : q.Stands k) (hNone : decisions between = 0)
    (hBusy : ¬ ((q.evaluate m).2.advanced between).Idles n) :
    (((q.evaluate m).2.advanced between).evaluate n).1.patchId.toInt ≠
        (q.evaluate m).1.patchId.toInt ∧
      (((q.evaluate m).2.advanced between).evaluate n).1.patchId.toInt ≠ 0 := by
  have hLater := (h.evaluate m).advanced between
  have hNew : seqAt (k + 1) ≠ 0 := mt (seqAt_eq_zero_iff (k + 1)).mp (Nat.succ_ne_zero k)
  have hNext : seqAt k ≠ seqAt (k + 1) := by
    refine seqAt_ne_of_lt (Nat.lt_succ_self k) ?_
    have hMax : Int32.maxValue.toInt = 2147483647 := rfl
    omega
  rw [hNone] at hLater
  rw [hLater.patchId_of_not_idles hBusy]
  -- the number before it is that of the place before, or zero
  refine ⟨?_, hNew⟩
  rcases h.patchId_cases m with hId | hId
  · rw [hId]
    exact hNew
  · rw [hId]
    exact hNext.symm

/-- Two decisions that change something have different numbers if they are close. -/
theorem Stands.patchId_ne (h : q.Stands k) (hBusy : ¬ q.Idles m)
    (hBusy' : ¬ ((q.evaluate m).2.advanced between).Idles n)
    (hClose : ((decisions between + 1 : Nat) : Int) < Int32.maxValue.toInt) :
    (((q.evaluate m).2.advanced between).evaluate n).1.patchId.toInt ≠
      (q.evaluate m).1.patchId.toInt := by
  have hLater := (h.evaluate m).advanced between
  rw [h.patchId_of_not_idles hBusy, hLater.patchId_of_not_idles hBusy']
  exact (seqAt_ne_of_lt (by omega) (by omega)).symm

/-! ### Before the sequence starts anew -/

/-- No decision on the events follows the largest number. -/
def NeverWraps (q : Sequencer) (es : List Event) : Prop :=
  ∀ before n after, es = before ++ .desiredCount n :: after →
    (q.advanced before).seq ≠ some Int32.maxValue

theorem NeverWraps.tail {e : Event} {es : List Event} (h : q.NeverWraps (e :: es)) :
    (advance q e).NeverWraps es := by
  rintro before n after rfl
  exact h (e :: before) n after rfl

theorem NeverWraps.left {es more : List Event} (h : q.NeverWraps (es ++ more)) :
    q.NeverWraps es := by
  rintro before n after rfl
  exact h before n (after ++ more) (by simp)

theorem NeverWraps.right {es more : List Event} (h : q.NeverWraps (es ++ more)) :
    (q.advanced es).NeverWraps more := by
  rintro before n after rfl
  rw [← advanced_append]
  exact h (es ++ before) n after (by simp)

/-- A decision that does not start the sequence anew takes the next greater number. -/
theorem toInt_nextSeq_of_neverWraps {last : Int32} {es : List Event} (hSeq : q.seq = some last)
    (h : q.NeverWraps (.desiredCount n :: es)) : (nextSeq q.seq).toInt = last.toInt + 1 := by
  have hBelow := h [] n es rfl
  rw [advanced_nil, hSeq, ne_eq, Option.some.injEq] at hBelow
  rw [hSeq, toInt_nextSeq_of_ne hBelow]

/-- The number in the state never falls. -/
theorem NeverWraps.exists_seq {last : Int32} {es : List Event} (hSeq : q.seq = some last)
    (h : q.NeverWraps es) :
    ∃ later, (q.advanced es).seq = some later ∧ last.toInt ≤ later.toInt := by
  induction es generalizing q last with
  | nil => exact ⟨last, hSeq, Int.le_refl _⟩
  | cons e es ih =>
    -- only a count moves the sequence number, and a job event leaves it
    cases e with
    | jobStarted | jobCompleted =>
      have hMarked : q.markDirty.seq = some last := hSeq
      exact ih hMarked h.tail
    | desiredCount n =>
      have hTaken : (q.evaluate n).2.seq = some (nextSeq q.seq) := rfl
      have hNext := toInt_nextSeq_of_neverWraps hSeq h
      obtain ⟨later, hLater, hLe⟩ := ih hTaken h.tail
      exact ⟨later, hLater, by omega⟩

/-- A decision that changes something has a greater number than any before it. -/
theorem Stands.patchId_lt (h : q.Stands k)
    (hBusy : ¬ ((q.evaluate m).2.advanced between).Idles n)
    (hNever : (q.evaluate m).2.NeverWraps (between ++ [.desiredCount n])) :
    (q.evaluate m).1.patchId.toInt <
      (((q.evaluate m).2.advanced between).evaluate n).1.patchId.toInt := by
  have hNonneg := seqAt_nonneg k
  have hFirst : (nextSeq q.seq).toInt = seqAt k := h
  have hSeq : (q.evaluate m).2.seq = some (nextSeq q.seq) := rfl
  obtain ⟨later, hLater, hLe⟩ := hNever.left.exists_seq hSeq
  -- the number given out next lies past the one of the first decision
  have hNext := toInt_nextSeq_of_neverWraps hLater hNever.right
  rw [Sequencer.patchId_of_not_idles hBusy]
  rcases h.patchId_cases m with hId | hId <;> omega

end Pair

end Sequencer

end RunnerPool
