import Mathlib.Data.List.Induction
import RunnerPool.Proofs.Occurrence
import RunnerPool.Proofs.Scope.Forest
import RunnerPool.Scope

/-!
# What tokens report

What a token reports is read off the calls that were made on all of the tokens: the forest tells
which scope lies in which, and the cancellations tell what is over and which causes were given.

* `Tokens.after`          the tokens after some calls
* `Tokens.forest`         the scopes after some calls
* `Tokens.Cancels`        a scope was cancelled itself
* `Tokens.IsOver`         a scope, or one around it, was cancelled
* `Tokens.Given`          a scope was given a cause
* `Tokens.NearestGiven`   the nearest scope that was given one

## Main statements

- `isCancelled_iff`: a token reports a cancellation if and only if its scope is over
- `cause_iff`: a token reports the cause of the nearest scope that was given one
-/

namespace RunnerPool

/-! ### One cancellation -/

namespace Scopes

theorem isCancelled_iff (w : Scopes) (own : Scope) :
    w.isCancelled own = true ↔ ∃ a ∈ own.lineage, a ∈ w.cancelled := by
  simp [isCancelled]

variable (w : Scopes) (own : Scope) (cause : Option String)

@[simp] theorem cancelled_cancelFor :
    (w.cancelFor own cause).cancelled = own.id :: w.cancelled := by
  cases cause with
  | none => rfl
  | some why =>
    simp only [cancelFor, cancelBecause, cancel, giveCause]
    split
    · rfl
    · split <;> rfl

@[simp] theorem count_cancelFor : (w.cancelFor own cause).count = w.count := by
  cases cause with
  | none => rfl
  | some why =>
    simp only [cancelFor, cancelBecause, cancel, giveCause]
    split
    · rfl
    · split <;> rfl

/-- A cancellation gives a cause to a scope that is not cancelled yet and has none. -/
theorem ownCause_cancelFor (a : Nat) :
    (w.cancelFor own cause).ownCause a =
      if a = own.id ∧ w.isCancelled own = false ∧ w.ownCause a = none then cause
      else w.ownCause a := by
  -- without a cause nothing is given; with one it is given to an open scope that has none
  cases cause with
  | none =>
    have hSame : (w.cancelFor own none).ownCause a = w.ownCause a := rfl
    rw [hSame]
    split
    · rename_i h
      exact h.2.2
    · rfl
  | some why =>
    have hSame : (w.cancelFor own (some why)).ownCause a =
        (if w.isCancelled own then w else w.giveCause own why).ownCause a := rfl
    rw [hSame]
    cases hOwn : w.isCancelled own with
    | true => simp
    | false =>
      simp only [Bool.false_eq_true, ↓reduceIte, giveCause, true_and]
      -- only the scope itself has its cause looked up at the new place
      by_cases ha : a = own.id
      · subst ha
        cases hHas : w.ownCause own.id with
        | some old => simp [hHas]
        | none => simp [ownCause]
      · have hOther : (a == own.id) = false := beq_false_of_ne ha
        split
        · simp [ha]
        · simp [ownCause, List.lookup_cons, hOther, ha]

end Scopes

/-- Tokens, each the handle of its scope, and what happened to the scopes. -/
structure Tokens where
  scopes : Scopes
  handles : List Scope
deriving Repr, DecidableEq

namespace Tokens

/-- The tokens after a call.  A call on a token that does not exist does nothing. -/
def step (k : Tokens) : Call → Tokens
  | .root => ⟨k.scopes.root.2, k.handles ++ [k.scopes.root.1]⟩
  | .child t =>
    match k.handles[t]? with
    | some own => ⟨(k.scopes.child own).2, k.handles ++ [(k.scopes.child own).1]⟩
    | none => k
  | .clone t =>
    match k.handles[t]? with
    | some own => { k with handles := k.handles ++ [own] }
    | none => k
  | .cancel t cause =>
    match k.handles[t]? with
    | some own => { k with scopes := k.scopes.cancelFor own cause }
    | none => k

/-- The tokens after some calls, from the first one on. -/
def after (calls : List Call) : Tokens := calls.foldl step ⟨.empty, []⟩

/-- Whether a token reports that its scope is cancelled. -/
def isCancelled (k : Tokens) (t : Nat) : Bool := k.handles[t]?.any k.scopes.isCancelled

/-- The cause that a token reports. -/
def cause (k : Tokens) (t : Nat) : Option String := k.handles[t]?.bind k.scopes.cause

/-- What a token reports: whether its scope is cancelled, and why. -/
def report (k : Tokens) (t : Nat) : Bool × Option String := (k.isCancelled t, k.cause t)

/-- The forest after some calls, from the first one on. -/
def forest (calls : List Call) : Forest := calls.foldl Forest.grow .empty

theorem forest_concat (calls : List Call) (c : Call) :
    forest (calls ++ [c]) = (forest calls).grow c := by
  simp [forest, List.foldl_append]

theorem after_concat (calls : List Call) (c : Call) :
    after (calls ++ [c]) = (after calls).step c := by
  simp [after, List.foldl_append]

/-- More calls only add scopes and tokens. -/
theorem prefix_forest (calls more : List Call) :
    (forest calls).parents <+: (forest (calls ++ more)).parents ∧
      (forest calls).tokens <+: (forest (calls ++ more)).tokens := by
  induction more using List.reverseRecOn with
  | nil => rw [List.append_nil]; exact ⟨List.prefix_rfl, List.prefix_rfl⟩
  | append_singleton more c ih =>
    rw [← List.append_assoc, forest_concat]
    have hStep := (forest (calls ++ more)).prefix_grow c
    exact ⟨ih.1.trans hStep.1, ih.2.trans hStep.2⟩

/-! ### The tokens and their forest -/

/-- The handles of tokens know the scopes around theirs, as the forest has them. -/
structure Mirrors (f : Forest) (k : Tokens) : Prop where
  count : k.scopes.count = f.parents.length
  ids : k.handles.map Scope.id = f.tokens
  lineage : ∀ own ∈ k.handles, f.Lineage own.id own.lineage

section

variable {f : Forest} {k : Tokens} {own : Scope}

theorem Mirrors.getElem?_tokens (h : Mirrors f k) (t : Nat) :
    f.tokens[t]? = k.handles[t]?.map Scope.id := by
  rw [← h.ids, List.getElem?_map]

/-- A new scope, with the handle that knows the scopes around it. -/
theorem Mirrors.plant (h : Mirrors f k) {parent? : Option Nat} {ancestors : List Nat}
    (hParent : ∀ p ∈ parent?, p < f.parents.length)
    (hNew : (f.plant parent? hParent).Lineage f.parents.length (f.parents.length :: ancestors)) :
    Mirrors (f.plant parent? hParent)
      ⟨{ k.scopes with count := k.scopes.count + 1 },
        k.handles ++ [⟨k.scopes.count, ancestors⟩]⟩ where
  count := by
    rw [Forest.plant, List.length_append, List.length_singleton, h.count]
  ids := by
    rw [List.map_append, h.ids, List.map_singleton, h.count]
    rfl
  lineage := by
    intro own hOwn
    -- the new token's lineage is given, and the old ones reach no further than before
    rcases List.mem_append.mp hOwn with hOld | hIs
    · exact (h.lineage own hOld).extend (List.prefix_append _ _)
    · rw [List.mem_singleton.mp hIs, h.count]
      exact hNew

/-- A call keeps the handles and the forest in step. -/
theorem Mirrors.step (h : Mirrors f k) (c : Call) : Mirrors (f.grow c) (k.step c) := by
  have hLast (parent? : Option Nat) (hParent : ∀ p ∈ parent?, p < f.parents.length) :
      (f.plant parent? hParent).parents[f.parents.length]? = some parent? :=
    List.getElem?_concat_length
  -- root and child plant a new scope, a clone shares one, a cancellation moves none
  cases c with
  | root =>
    have hNone : ∀ p ∈ (none : Option Nat), p < f.parents.length :=
      fun p hp => (Option.not_mem_none p hp).elim
    exact h.plant hNone (.outermost (hLast none hNone))
  | child t =>
    have hToken := h.getElem?_tokens t
    rw [Tokens.step]
    cases hOwn : k.handles[t]? with
    -- a token that is not there grows nothing
    | none =>
      rw [hOwn] at hToken
      rw [(Forest.grow_of_none hToken).1]
      exact h
    | some own =>
      rw [hOwn] at hToken
      rw [Forest.grow_child hToken]
      refine h.plant _ (.inside (hLast (some own.id) _) ?_)
      exact (h.lineage own (List.mem_of_getElem? hOwn)).extend (List.prefix_append _ _)
  | clone t =>
    have hToken := h.getElem?_tokens t
    rw [Tokens.step]
    cases hOwn : k.handles[t]? with
    | none =>
      rw [hOwn] at hToken
      rw [(Forest.grow_of_none hToken).2]
      exact h
    | some own =>
      rw [hOwn] at hToken
      rw [Forest.grow_clone hToken]
      refine ⟨h.count, ?_, fun other hOther => ?_⟩
      · rw [List.map_append, h.ids]
        rfl
      · rcases List.mem_append.mp hOther with hOld | hIs
        · exact (h.lineage other hOld).extend List.prefix_rfl
        · rw [List.mem_singleton.mp hIs]
          exact (h.lineage own (List.mem_of_getElem? hOwn)).extend List.prefix_rfl
  | cancel t cause =>
    -- a cancellation only adds causes and cancelled scopes
    rw [Tokens.step]
    split
    · exact ⟨(Scopes.count_cancelFor _ _ _).trans h.count, h.ids, h.lineage⟩
    · exact h

theorem mirrors_after (calls : List Call) : Mirrors (forest calls) (after calls) := by
  induction calls using List.reverseRecOn with
  | nil => exact ⟨rfl, rfl, nofun⟩
  | append_singleton calls c ih =>
    rw [forest_concat, after_concat]
    exact ih.step c

end

/-! ### Histories -/

/-- Some call of a history is as `P` says, given the calls before it. -/
def Once (calls : List Call) (P : List Call → Call → Prop) : Prop :=
  ∃ before c later, calls = before ++ c :: later ∧ P before c

section

variable {calls more : List Call} {P : List Call → Call → Prop} {c : Call}

theorem once_iff_not_throughout :
    Once calls P ↔ ¬ Throughout calls fun before c => ¬ P before c := by
  simp only [Once, Throughout, not_forall, not_not, exists_prop]

theorem not_once_nil : ¬ Once [] P := by
  rw [once_iff_not_throughout, not_not]
  exact throughout_nil

theorem once_concat : Once (calls ++ [c]) P ↔ Once calls P ∨ P calls c := by
  rw [once_iff_not_throughout, once_iff_not_throughout, throughout_concat, not_and_or, not_not]

theorem Once.append (h : Once calls P) (more : List Call) : Once (calls ++ more) P := by
  obtain ⟨before, c, later, rfl, hc⟩ := h
  exact ⟨before, c, later ++ more, by simp, hc⟩

end

/-- The scope itself was cancelled. -/
def Cancels (calls : List Call) (a : Nat) : Prop :=
  Once calls fun before c => ∃ t cause, c = .cancel t cause ∧ (forest before).tokens[t]? = some a

/-- The scope, or one around it, was cancelled. -/
def IsOver (calls : List Call) (s : Nat) : Prop :=
  ∃ a, (forest calls).Encloses a s ∧ Cancels calls a

/-- The scope was cancelled for the cause when it was not over yet. -/
def Given (calls : List Call) (a : Nat) (why : String) : Prop :=
  Once calls fun before c => ∃ t, c = .cancel t (some why) ∧
    (forest before).tokens[t]? = some a ∧ ¬ IsOver before a

/-- The scope `a` was given the cause, and of those around `s`, itself included, it is the nearest
    that was given one. -/
def NearestGiven (calls : List Call) (a s : Nat) (why : String) : Prop :=
  (forest calls).Encloses a s ∧ Given calls a why ∧
    ∀ b, (forest calls).Encloses a b → (forest calls).Encloses b s → b ≠ a →
      ∀ other, ¬ Given calls b other

theorem cancels_concat {calls : List Call} {c : Call} {a : Nat} :
    Cancels (calls ++ [c]) a ↔
      Cancels calls a ∨ ∃ t cause, c = .cancel t cause ∧ (forest calls).tokens[t]? = some a :=
  once_concat

theorem given_concat {calls : List Call} {c : Call} {a : Nat} {why : String} :
    Given (calls ++ [c]) a why ↔
      Given calls a why ∨ ∃ t, c = .cancel t (some why) ∧
        (forest calls).tokens[t]? = some a ∧ ¬ IsOver calls a :=
  once_concat

/-- A scope that was given a cause was cancelled. -/
theorem Given.cancels {calls : List Call} {a : Nat} {why : String} (h : Given calls a why) :
    Cancels calls a := by
  obtain ⟨before, c, later, hSplit, t, hCall, hToken, -⟩ := h
  exact ⟨before, c, later, hSplit, t, some why, hCall, hToken⟩

/-! ### What tokens report -/

/-- A call adds the scope that it cancels to those that were cancelled. -/
theorem mem_cancelled_step (k : Tokens) (c : Call) (a : Nat) :
    a ∈ (k.step c).scopes.cancelled ↔
      a ∈ k.scopes.cancelled ∨
        ∃ t cause, c = .cancel t cause ∧ k.handles[t]?.map Scope.id = some a := by
  -- only a cancellation cancels, the scope of the token it names
  cases c with
  | root => simp [step, Scopes.root]
  | child t => rw [step]; cases k.handles[t]? <;> simp [Scopes.child]
  | clone t => rw [step]; cases k.handles[t]? <;> simp
  | cancel t cause =>
    rw [step]
    cases hOwn : k.handles[t]? with
    | none => simp [hOwn]
    | some own => simp [hOwn, or_comm, eq_comm]

/-- A call gives a cause to the scope that it cancels, if that one is not cancelled yet and has
    none. -/
theorem ownCause_step (k : Tokens) (c : Call) (a : Nat) (why : String) :
    (k.step c).scopes.ownCause a = some why ↔
      k.scopes.ownCause a = some why ∨
        k.scopes.ownCause a = none ∧ ∃ t own, c = .cancel t (some why) ∧
          k.handles[t]? = some own ∧ own.id = a ∧ k.scopes.isCancelled own = false := by
  -- only a cancellation gives a cause, and only to a scope without one
  cases c with
  | root => simp [step, Scopes.root, Scopes.ownCause]
  | child t => rw [step]; cases k.handles[t]? <;> simp [Scopes.child, Scopes.ownCause]
  | clone t => rw [step]; cases k.handles[t]? <;> simp
  | cancel t cause =>
    rw [step]
    cases hOwn : k.handles[t]? with
    | none => simp [hOwn]
    | some own =>
      simp only [Scopes.ownCause_cancelFor]
      split
      -- what the gift is guarded by is what the right side says
      · rename_i h
        obtain ⟨rfl, hQuiet, hNone⟩ := h
        simp [hNone, hOwn, hQuiet]
      · rename_i h
        constructor
        · exact Or.inl
        · rintro (hHas | ⟨hNone, u, other, hCall, hOther, hSame, hQuiet⟩)
          · exact hHas
          · cases hCall
            rw [hOwn] at hOther
            cases hOther
            exact (h ⟨hSame.symm, hQuiet, hNone⟩).elim

section

variable {calls : List Call}

theorem getElem?_tokens (calls : List Call) (t : Nat) :
    (forest calls).tokens[t]? = (after calls).handles[t]?.map Scope.id :=
  (mirrors_after calls).getElem?_tokens t

/-- The scopes that were cancelled are those that the history tells. -/
theorem mem_cancelled_iff {a : Nat} : a ∈ (after calls).scopes.cancelled ↔ Cancels calls a := by
  induction calls using List.reverseRecOn with
  | nil => exact ⟨nofun, fun h => (not_once_nil h).elim⟩
  | append_singleton calls c ih =>
    rw [after_concat, mem_cancelled_step, ih, cancels_concat]
    simp only [getElem?_tokens]

theorem isCancelled_handle_iff {own : Scope} (h : own ∈ (after calls).handles) :
    (after calls).scopes.isCancelled own = true ↔ IsOver calls own.id := by
  simp only [Scopes.isCancelled_iff, ((mirrors_after calls).lineage own h).mem_iff,
    mem_cancelled_iff, IsOver]

/-- The causes of the scopes are those that the history tells. -/
theorem ownCause_eq_some_iff {a : Nat} {why : String} :
    (after calls).scopes.ownCause a = some why ↔ Given calls a why := by
  induction calls using List.reverseRecOn generalizing why with
  | nil => exact ⟨nofun, fun h => (not_once_nil h).elim⟩
  | append_singleton calls c ih =>
    rw [after_concat, ownCause_step, ih, given_concat]
    refine or_congr_right ⟨?_, ?_⟩
    · rintro ⟨-, t, own, hCall, hOwn, rfl, hQuiet⟩
      refine ⟨t, hCall, by rw [getElem?_tokens, hOwn]; rfl, ?_⟩
      rw [← isCancelled_handle_iff (List.mem_of_getElem? hOwn), hQuiet]
      exact Bool.false_ne_true
    · rintro ⟨t, hCall, hToken, hNotOver⟩
      rw [getElem?_tokens, Option.map_eq_some_iff] at hToken
      obtain ⟨own, hOwn, rfl⟩ := hToken
      refine ⟨?_, t, own, hCall, hOwn, rfl, ?_⟩
      · -- a scope that has a cause already was cancelled for it
        rw [Option.eq_none_iff_forall_ne_some]
        exact fun other hOther => hNotOver ⟨own.id, .refl, (ih.mp hOther).cancels⟩
      · rwa [← Bool.not_eq_true, isCancelled_handle_iff (List.mem_of_getElem? hOwn)]

/-- A scope has no cause as long as the history tells of none. -/
theorem ownCause_eq_none_iff {a : Nat} :
    (after calls).scopes.ownCause a = none ↔ ∀ why, ¬ Given calls a why := by
  simp only [Option.eq_none_iff_forall_ne_some, ne_eq, ownCause_eq_some_iff]

/-- Nothing has happened yet to scopes that are still to be made. -/
theorem untouched_of_count_le {calls : List Call} {i : Nat}
    (h : (after calls).scopes.count ≤ i) :
    i ∉ (after calls).scopes.cancelled ∧ (after calls).scopes.ownCause i = none := by
  have hNever : ¬ Cancels calls i := by
    rintro ⟨before, c, later, rfl, t, cause, rfl, hToken⟩
    rw [(mirrors_after _).count] at h
    have hMade := (forest before).made i (List.mem_of_getElem? hToken)
    exact (Nat.lt_of_lt_of_le hMade (prefix_forest before _).1.length_le).not_ge h
  exact ⟨fun hIn => hNever (mem_cancelled_iff.mp hIn),
    ownCause_eq_none_iff.mpr fun why hGiven => hNever hGiven.cancels⟩

/-- A token reports a cancellation if and only if its scope is over. -/
theorem isCancelled_iff {t : Nat} :
    (after calls).isCancelled t = true ↔
      ∃ s, (forest calls).tokens[t]? = some s ∧ IsOver calls s := by
  rw [isCancelled, getElem?_tokens]
  cases hOwn : (after calls).handles[t]? with
  | none => simp
  | some own => simp [isCancelled_handle_iff (List.mem_of_getElem? hOwn)]

/-- A token reports the cause of the nearest scope that was given one. -/
theorem cause_iff {t : Nat} {why : String} :
    (after calls).cause t = some why ↔
      ∃ s, (forest calls).tokens[t]? = some s ∧ ∃ a, NearestGiven calls a s why := by
  rw [cause, getElem?_tokens]
  cases hOwn : (after calls).handles[t]? with
  | none => simp
  | some own =>
    have hLineage := (mirrors_after calls).lineage own (List.mem_of_getElem? hOwn)
    simp only [Option.bind_some, Scopes.cause, hLineage.findSome?_eq_some_iff,
      ownCause_eq_some_iff, ownCause_eq_none_iff, Option.map_some, Option.some.injEq,
      exists_eq_left', NearestGiven]

/-- A token reports no cause as long as no scope around its own was given one. -/
theorem cause_eq_none_iff {t s : Nat} (hToken : (forest calls).tokens[t]? = some s) :
    (after calls).cause t = none ↔
      ∀ a, (forest calls).Encloses a s → ∀ why, ¬ Given calls a why := by
  rw [getElem?_tokens, Option.map_eq_some_iff] at hToken
  obtain ⟨own, hOwn, rfl⟩ := hToken
  have hLineage := (mirrors_after calls).lineage own (List.mem_of_getElem? hOwn)
  simp only [cause, hOwn, Option.bind_some, Scopes.cause, List.findSome?_eq_none_iff,
    hLineage.mem_iff, ownCause_eq_none_iff]

end

end Tokens

end RunnerPool
