import RunnerPool.Proofs.Scope.History

/-!
# What a cancellation decides

A cause stays once it is reported, and a call leaves everything alone outside the scope that it
cancels.  The first cancellation around a scope decides its cause if it has one.  If it has none,
a scope further out that is cancelled later for a cause still gives that cause to the scope.

* `Tokens.FirstCancelled`   the first call that cancelled a scope or one around it

## Main statements

- `reports_of_history`: what tokens report, and which calls can change it
- `first_cancellation_decides_iff`: when the first cancellation of a scope decides its cause
-/

namespace RunnerPool

namespace Tokens

section

variable {calls before : List Call} {c : Call} {t a b s : Nat} {cause : Option String}
  {why other : String}

/-! ### More calls -/

/-- The scope of a token exists. -/
theorem lt_length_parents (hToken : (forest calls).tokens[t]? = some s) :
    s < (forest calls).parents.length :=
  (forest calls).made s (List.mem_of_getElem? hToken)

/-- A token keeps its scope. -/
theorem getElem?_tokens_append (hToken : (forest calls).tokens[t]? = some s)
    (more : List Call) : (forest (calls ++ more)).tokens[t]? = some s := by
  obtain ⟨new, hNew⟩ := (prefix_forest calls more).2
  obtain ⟨hLength, -⟩ := List.getElem?_eq_some_iff.mp hToken
  rw [← hNew, List.getElem?_append_left hLength, hToken]

/-- A scope keeps those around it. -/
theorem encloses_append (hMade : s < (forest calls).parents.length) (more : List Call) :
    (forest (calls ++ more)).Encloses a s ↔ (forest calls).Encloses a s :=
  Forest.encloses_iff_of_prefix (prefix_forest calls more).1 hMade

/-- What is over stays over. -/
theorem IsOver.append (hMade : s < (forest calls).parents.length) (h : IsOver calls s)
    (more : List Call) : IsOver (calls ++ more) s := by
  obtain ⟨a, hAround, hCancels⟩ := h
  exact ⟨a, (encloses_append hMade more).mpr hAround, Once.append hCancels more⟩

/-- A scope inside one that was cancelled is given no more causes. -/
theorem Given.of_cancels {more : List Call} (h : Given (calls ++ more) b why)
    (hAround : (forest (calls ++ more)).Encloses a b) (hCancels : Cancels calls a) :
    Given calls b why := by
  obtain ⟨before, c, later, hSplit, u, hCall, hToken, hNotOver⟩ := h
  -- a cause from after the first calls would be given to a scope that is over
  have hLate (mid : List Call) (hMid : before = calls ++ mid) : False := by
    refine hNotOver ⟨a, ?_, hMid ▸ Once.append hCancels mid⟩
    rw [hSplit] at hAround
    exact (encloses_append (lt_length_parents hToken) _).mp hAround
  rcases List.append_eq_append_iff.mp hSplit with ⟨mid, hMid, -⟩ | ⟨mid, rfl, hLater⟩
  · exact (hLate mid hMid).elim
  · cases mid with
    | nil => exact (hLate [] (by simp)).elim
    | cons d mid =>
      obtain ⟨rfl, -⟩ := List.cons.inj hLater
      exact ⟨before, c, mid, rfl, u, hCall, hToken, hNotOver⟩

/-- A scope that has got a cause from around it keeps getting that one. -/
theorem NearestGiven.append (hMade : s < (forest calls).parents.length)
    (h : NearestGiven calls a s why) (more : List Call) :
    NearestGiven (calls ++ more) a s why := by
  obtain ⟨hAround, hGiven, hNone⟩ := h
  refine ⟨(encloses_append hMade more).mpr hAround, Once.append hGiven more, ?_⟩
  intro b hab hbs hne other hOther
  -- a scope in between lies in one that was cancelled for its cause, so nothing new is given to it
  have hbs' := (encloses_append hMade more).mp hbs
  have hab' := (encloses_append (Nat.lt_of_le_of_lt hbs'.le hMade) more).mp hab
  exact hNone b hab' hbs' hne other (hOther.of_cancels hab hGiven.cancels)

/-- A cause that a token reports stays. -/
theorem cause_append (h : (after calls).cause t = some why) (more : List Call) :
    (after (calls ++ more)).cause t = some why := by
  obtain ⟨s, hToken, a, hNearest⟩ := cause_iff.mp h
  exact cause_iff.mpr
    ⟨s, getElem?_tokens_append hToken more, a, hNearest.append (lt_length_parents hToken) more⟩

/-- A token that reports a cause reports a cancellation. -/
theorem isCancelled_of_cause (h : (after calls).cause t = some why) :
    (after calls).isCancelled t = true := by
  obtain ⟨s, hToken, a, hAround, hGiven, -⟩ := cause_iff.mp h
  exact isCancelled_iff.mpr ⟨s, hToken, a, hAround, hGiven.cancels⟩

/-! ### Equal reports -/

/-- Tokens report the same if their scopes fare the same. -/
theorem report_eq {calls' : List Call} {t' s' : Nat}
    (hToken : (forest calls).tokens[t]? = some s)
    (hToken' : (forest calls').tokens[t']? = some s') (hOver : IsOver calls s ↔ IsOver calls' s')
    (hNearest : ∀ a why, NearestGiven calls a s why ↔ NearestGiven calls' a s' why) :
    (after calls).report t = (after calls').report t' := by
  refine Prod.ext (Bool.eq_iff_iff.mpr ?_) (Option.ext fun why => ?_)
  · simp only [report, isCancelled_iff, hToken, hToken', Option.some.injEq, exists_eq_left', hOver]
  · simp only [report, cause_iff, hToken, hToken', Option.some.injEq, exists_eq_left', hNearest]

/-- Tokens of one scope report the same. -/
theorem report_eq_of_same_scope {u : Nat} (hToken : (forest calls).tokens[t]? = some s)
    (hOther : (forest calls).tokens[u]? = some s) :
    (after calls).report t = (after calls).report u :=
  report_eq hToken hOther Iff.rfl fun _ _ => Iff.rfl

/-- A clone is one more token of the same scope. -/
theorem getElem?_tokens_clone (hToken : (forest calls).tokens[t]? = some s) :
    (forest (calls ++ [.clone t])).tokens[(forest calls).tokens.length]? = some s := by
  rw [forest_concat, Forest.grow_clone hToken]
  exact List.getElem?_concat_length

/-- A clone reports the same as the token that it was made from. -/
theorem report_clone (hToken : (forest calls).tokens[t]? = some s) (more : List Call) :
    (after (calls ++ .clone t :: more)).report (forest calls).tokens.length =
      (after (calls ++ .clone t :: more)).report t := by
  have hClone := getElem?_tokens_append (getElem?_tokens_clone hToken) more
  rw [List.append_assoc, List.singleton_append] at hClone
  exact report_eq_of_same_scope hClone (getElem?_tokens_append hToken _)

/-- The call does not cancel the scope or one around it. -/
def Spares (calls : List Call) (c : Call) (s : Nat) : Prop :=
  ∀ u cause a, c = .cancel u cause → (forest calls).tokens[u]? = some a →
    ¬ (forest calls).Encloses a s

/-- A call gives no cause to the scopes around one that it spares. -/
theorem Spares.given_iff (h : Spares calls c s) (hAround : (forest calls).Encloses b s) :
    Given (calls ++ [c]) b why ↔ Given calls b why := by
  rw [given_concat, or_iff_left]
  rintro ⟨u, hCall, hToken, -⟩
  exact h u (some why) b hCall hToken hAround

/-- A token reports the same before and after a call that spares its scope. -/
theorem report_concat (hToken : (forest calls).tokens[t]? = some s)
    (h : Spares calls c s) :
    (after (calls ++ [c])).report t = (after calls).report t := by
  have hMade := lt_length_parents hToken
  refine report_eq (getElem?_tokens_append hToken [c]) hToken ⟨?_, fun hOver => ?_⟩
    fun a why => ⟨?_, fun hNearest => hNearest.append hMade [c]⟩
  · -- the call cancels none of the scopes that decide whether this one is over
    rintro ⟨a, ha, hCancels⟩
    rw [encloses_append hMade] at ha
    refine ⟨a, ha, (cancels_concat.mp hCancels).resolve_right ?_⟩
    rintro ⟨u, cause, hCall, hCancelled⟩
    exact h u cause a hCall hCancelled ha
  · exact hOver.append hMade [c]
  · -- nor does it give them a cause
    rintro ⟨ha, hGiven, hNone⟩
    rw [encloses_append hMade] at ha
    refine ⟨ha, (h.given_iff ha).mp hGiven, fun b hab hbs hne other hOther => ?_⟩
    have hMadeB := Nat.lt_of_le_of_lt hbs.le hMade
    exact hNone b ((encloses_append hMadeB [c]).mpr hab) ((encloses_append hMade [c]).mpr hbs) hne
      other (Once.append hOther [c])

/-- What tokens report after any calls.

    A token reports a cancellation if and only if its scope or one around it was cancelled, also
    if the token was made after that.  It reports the cause of the nearest scope that was given
    one when it was not over yet, and only with a cancellation; and that cause stays.  A call
    changes no report outside the scope that it cancels, and tokens of one scope, as a clone and
    the token it was made from, report the same. -/
theorem reports_of_history (calls : List Call) :
    (∀ t, (after calls).isCancelled t = true ↔
      ∃ s, (forest calls).tokens[t]? = some s ∧ IsOver calls s) ∧
    (∀ t why, (after calls).cause t = some why ↔
      ∃ s, (forest calls).tokens[t]? = some s ∧ ∃ a, NearestGiven calls a s why) ∧
    (∀ t why, (after calls).cause t = some why →
      (after calls).isCancelled t = true ∧
      ∀ more, (after (calls ++ more)).cause t = some why) ∧
    (∀ t s c, (forest calls).tokens[t]? = some s → Spares calls c s →
      (after (calls ++ [c])).report t = (after calls).report t) ∧
    (∀ t u s, (forest calls).tokens[t]? = some s → (forest calls).tokens[u]? = some s →
      (after calls).report t = (after calls).report u) ∧
    (∀ t s more, (forest calls).tokens[t]? = some s →
      (after (calls ++ .clone t :: more)).report (forest calls).tokens.length =
        (after (calls ++ .clone t :: more)).report t) := by
  -- six facts about the history, each from its own lemma
  refine ⟨fun t => isCancelled_iff, fun t why => cause_iff, fun t why h => ⟨?_, ?_⟩,
    fun t s c => ?_, fun t u s => ?_, fun t s more hToken => ?_⟩
  · exact isCancelled_of_cause h
  · exact cause_append h
  · exact report_concat
  · exact report_eq_of_same_scope
  · exact report_clone hToken more

/-- Two scopes inside one; the first is cancelled, and then a token of a scope inside it and a
    clone of that token are made. -/
private def lateChild : List Call :=
  [.root, .child 0, .child 0, .cancel 1 (some "received SIGTERM"), .child 1, .clone 3]

/-- The scope that was made late is over, for the cause of the one around it, and its two tokens
    report so for good; a call on the other scope does not change what is reported outside. -/
theorem reports_of_history_late_child :
    (∃ s, (forest lateChild).tokens[3]? = some s ∧ IsOver lateChild s) ∧
    (∃ s, (forest lateChild).tokens[3]? = some s ∧
      ∃ a, NearestGiven lateChild a s "received SIGTERM") ∧
    (∀ more, (after (lateChild ++ more)).cause 3 = some "received SIGTERM") ∧
    (after (lateChild ++ [.cancel 2 (some "late")])).report 0 = (after lateChild).report 0 ∧
    (after lateChild).report 3 = (after lateChild).report 4 ∧
    (after (lateChild ++ .clone 3 :: [.cancel 0 none])).report 5 =
      (after (lateChild ++ .clone 3 :: [.cancel 0 none])).report 3 := by
  obtain ⟨hCancelled, hCause, hStays, hSpared, hSame, hClone⟩ := reports_of_history lateChild
  refine ⟨(hCancelled 3).mp (by decide), (hCause 3 _).mp (by decide),
    (hStays 3 "received SIGTERM" (by decide)).2, hSpared 0 0 _ (by decide) ?_,
    hSame 3 4 3 (by decide) (by decide), hClone 3 3 [.cancel 0 none] (by decide)⟩
  -- the late cancellation hits the second child only, which the root is not inside of
  rintro u cause a hCall hToken hAround
  cases hCall
  have hTwo : (forest lateChild).tokens[2]? = some 2 := by decide
  obtain rfl := Option.some.inj (hToken.symm.trans hTwo)
  exact absurd hAround.le (by decide)

/-! ### The first cancellation -/

/-- Some call of a history that is as `P` says is the first one. -/
theorem Once.exists_first {P : List Call → Call → Prop} (h : Once calls P) :
    ∃ before c later, calls = before ++ c :: later ∧ P before c ∧ ¬ Once before P := by
  induction calls using List.reverseRecOn with
  | nil => exact (not_once_nil h).elim
  | append_singleton calls c ih =>
    by_cases hEarlier : Once calls P
    · obtain ⟨before, d, later, rfl, hd⟩ := ih hEarlier
      exact ⟨before, d, later ++ [c], by simp, hd⟩
    · exact ⟨calls, c, [], rfl, (once_concat.mp h).resolve_left hEarlier, hEarlier⟩

/-- After the calls `before` came the first that cancelled the scope `s` or one around it: it
    cancelled `a`, for the cause if there is one. -/
structure FirstCancelled (calls : List Call) (s : Nat) (before : List Call) (a : Nat)
    (cause : Option String) : Prop where
  split : ∃ t later, calls = before ++ .cancel t cause :: later ∧
    (forest before).tokens[t]? = some a
  around : (forest calls).Encloses a s
  first : ∀ b, (forest calls).Encloses b s → ¬ Cancels before b

/-- A scope is over if and only if there is a first call that cancelled it or one around it. -/
theorem isOver_iff : IsOver calls s ↔ ∃ before a cause, FirstCancelled calls s before a cause := by
  constructor
  · rintro ⟨a, hAround, before, c, later, hSplit, hCancelled⟩
    -- of the calls that cancelled any of the scopes around this one, take the first
    have hOnce : Once calls fun before c => ∃ a, (forest calls).Encloses a s ∧
        ∃ t cause, c = .cancel t cause ∧ (forest before).tokens[t]? = some a :=
      ⟨before, c, later, hSplit, a, hAround, hCancelled⟩
    obtain ⟨before, c, later, hSplit, ⟨a, hAround, t, cause, rfl, hToken⟩, hFirst⟩ :=
      hOnce.exists_first
    refine ⟨before, a, cause, ⟨t, later, hSplit, hToken⟩, hAround, fun b hbs hCancels => ?_⟩
    obtain ⟨before', c', later', hSplit', hCancelled'⟩ := hCancels
    exact hFirst ⟨before', c', later', hSplit', b, hbs, hCancelled'⟩
  · rintro ⟨before, a, cause, ⟨t, later, hSplit, hToken⟩, hAround, -⟩
    exact ⟨a, hAround, before, _, later, hSplit, t, cause, rfl, hToken⟩

/-- More calls do not change which call was the first. -/
theorem FirstCancelled.append (hMade : s < (forest calls).parents.length)
    (h : FirstCancelled calls s before a cause) (more : List Call) :
    FirstCancelled (calls ++ more) s before a cause := by
  obtain ⟨⟨t, later, hSplit, hToken⟩, hAround, hFirst⟩ := h
  refine ⟨⟨t, later ++ more, by simp [hSplit], hToken⟩, (encloses_append hMade more).mpr hAround,
    fun b hbs => hFirst b ((encloses_append hMade more).mp hbs)⟩

/-- Of the scopes from the cancelled one inwards, only that one can have been given a cause, and
    none but that of the call. -/
theorem FirstCancelled.of_given (h : FirstCancelled calls s before a cause)
    (hab : (forest calls).Encloses a b) (hbs : (forest calls).Encloses b s)
    (hGiven : Given calls b why) : b = a ∧ cause = some why := by
  obtain ⟨⟨t, later, rfl, hToken⟩, -, hFirst⟩ := h
  rw [List.append_cons] at hGiven hab
  have hCancels : Cancels (before ++ [.cancel t cause]) a :=
    cancels_concat.mpr (Or.inr ⟨t, cause, rfl, hToken⟩)
  rcases given_concat.mp (hGiven.of_cancels hab hCancels) with hEarlier | ⟨u, hCall, hSame, -⟩
  · exact (hFirst b hbs hEarlier.cancels).elim
  · cases hCall
    exact ⟨Option.some.inj (hSame.symm.trans hToken), rfl⟩

/-- The cancelled scope is given the cause of the call. -/
theorem FirstCancelled.given (h : FirstCancelled calls s before a (some why)) :
    Given calls a why := by
  obtain ⟨⟨t, later, rfl, hToken⟩, hAround, hFirst⟩ := h
  refine ⟨before, _, later, rfl, t, rfl, hToken, ?_⟩
  rintro ⟨b, hba, hCancels⟩
  have hMade := lt_length_parents hToken
  exact hFirst b (.trans ((encloses_append hMade _).mpr hba) hAround) hCancels

/-- The first cancellation decides the cause, if it has one. -/
theorem FirstCancelled.nearestGiven (h : FirstCancelled calls s before a (some why)) :
    NearestGiven calls a s why :=
  ⟨h.around, h.given, fun _ hab hbs hne _ hOther => hne (h.of_given hab hbs hOther).1⟩

/-- A token reports the cause of the first cancellation, unless that one has none and a scope
    around the cancelled one was given a cause. -/
theorem FirstCancelled.cause_eq_iff (hToken : (forest calls).tokens[t]? = some s)
    (h : FirstCancelled calls s before a cause) :
    (after calls).cause t = cause ↔
      (cause = none → ∀ b, (forest calls).Encloses b a → ∀ why, ¬ Given calls b why) := by
  cases cause with
  | some why =>
    have hReported := cause_iff.mpr ⟨s, hToken, a, h.nearestGiven⟩
    exact iff_of_true hReported nofun
  | none =>
    rw [cause_eq_none_iff hToken]
    constructor
    · exact fun hNone _ b hba => hNone b (.trans hba h.around)
    · intro hNone b hbs why hGiven
      -- inside the cancelled scope no cause was given, and around it none by assumption
      rcases h.around.total hbs with hab | hba
      · exact nomatch (h.of_given hab hbs hGiven).2
      · exact hNone rfl b hba why hGiven

/-- A token reports a cancellation if and only if there is a first one around its scope.  From
    then on, whatever is called, it reports the cause of that cancellation, unless that one has
    none and a scope around the cancelled one was given a cause. -/
theorem first_cancellation_decides_iff (calls : List Call) (t s : Nat)
    (hToken : (forest calls).tokens[t]? = some s) :
    ((after calls).isCancelled t = true ↔
      ∃ before a cause, FirstCancelled calls s before a cause) ∧
    ∀ before a cause, FirstCancelled calls s before a cause → ∀ more,
      ((after (calls ++ more)).cause t = cause ↔
        (cause = none → ∀ b, (forest (calls ++ more)).Encloses b a →
          ∀ why, ¬ Given (calls ++ more) b why)) := by
  constructor
  · simp only [isCancelled_iff, hToken, Option.some.injEq, exists_eq_left', isOver_iff]
  -- to have come first is kept by more calls, and then the cause is read off the history
  · intro before a cause h more
    exact (h.append (lt_length_parents hToken) more).cause_eq_iff
      (getElem?_tokens_append hToken more)

/-- A scope inside another one that is cancelled first, for a cause. -/
private def ownCauseFirst : List Call := [.root, .child 0, .cancel 1 (some "lease lost")]

/-- That scope reports its cause whatever is called later. -/
theorem first_cancellation_decides_iff_own_cause :
    (forest ownCauseFirst).tokens[1]? = some 1 ∧
      (∃ before a cause, FirstCancelled ownCauseFirst 1 before a cause) ∧
      ∀ more, (after (ownCauseFirst ++ more)).cause 1 = some "lease lost" := by
  have hToken : (forest ownCauseFirst).tokens[1]? = some 1 := by decide
  have hFirst : FirstCancelled ownCauseFirst 1 [.root, .child 0] 1 (some "lease lost") := by
    -- the child's own cancellation comes first, and none of those around it before
    refine ⟨⟨1, [], rfl, by decide⟩, .refl, fun b _ hCancels => ?_⟩
    have hNone := mem_cancelled_iff.mpr hCancels
    exact nomatch hNone
  obtain ⟨hOver, hCause⟩ := first_cancellation_decides_iff ownCauseFirst 1 1 hToken
  exact ⟨hToken, hOver.mp (by decide), fun more => (hCause _ 1 _ hFirst more).mpr nofun⟩

/-- A scope that was cancelled without a cause gets one from a later call, made on the scope
    around it: the first cancellation does not decide the cause for good. -/
theorem cause_changes_after_quiet_cancellation :
    let calls := [.root, .child 0, .cancel 1 none]
    (after calls).report 1 = (true, none) ∧
      (after (calls ++ [.cancel 0 (some "root")])).report 1 = (true, some "root") := by
  decide

end

end Tokens

end RunnerPool
