import Mathlib.Data.List.Induction

/-!
# What stands where in a list

Statements about the elements of a list that depend on what stands before them, as what a step of
a run means depends on the steps before it.

* `Throughout xs P`   every element is as `P` says, given those before it
* `First xs P b`      the first element that `P` gives a value has the value `b`
-/

namespace RunnerPool

/-- Every element is as `P` says, given those before it. -/
def Throughout {α : Type} (xs : List α) (P : List α → α → Prop) : Prop :=
  ∀ before x after, xs = before ++ x :: after → P before x

/-- The first element that `P` gives a value, given those before it, has the value `b`. -/
def First {α β : Type} (xs : List α) (P : List α → α → β → Prop) (b : β) : Prop :=
  ∃ before x after, xs = before ++ x :: after ∧ P before x b ∧
    Throughout before fun earlier y => ∀ c, ¬ P earlier y c

section

variable {α β : Type} {xs ys : List α} {x : α} {P : List α → α → Prop}
  {Q : List α → α → β → Prop} {b : β}

theorem throughout_nil : Throughout [] P := by
  intro before x after hSplit
  simp at hSplit

theorem throughout_append :
    Throughout (xs ++ ys) P ↔ Throughout xs P ∧ Throughout ys fun before => P (xs ++ before) := by
  constructor
  · intro h
    refine ⟨fun before x after hSplit => h before x (after ++ ys) (by simp [hSplit]),
      fun before x after hSplit => h (xs ++ before) x after (by simp [hSplit])⟩
  · rintro ⟨hLeft, hRight⟩ before x after hSplit
    -- the occurrence lies in the one list or in the other
    rcases List.append_eq_append_iff.mp hSplit with ⟨mid, rfl, hMid⟩ | ⟨mid, hMid, hRest⟩
    · exact hRight mid x after hMid
    · cases mid with
      | nil =>
        rw [List.append_nil] at hMid
        subst hMid
        simpa using hRight [] x after hRest.symm
      | cons y mid =>
        obtain ⟨rfl, -⟩ := List.cons.inj hRest
        exact hLeft before x mid hMid

theorem throughout_singleton : Throughout [x] P ↔ P [] x := by
  constructor
  · exact fun h => h [] x [] rfl
  · intro h before y after hSplit
    cases before with
    | nil =>
      cases hSplit
      exact h
    | cons z before => simp at hSplit

theorem throughout_concat : Throughout (xs ++ [x]) P ↔ Throughout xs P ∧ P xs x := by
  rw [throughout_append, throughout_singleton, List.append_nil]

theorem throughout_cons :
    Throughout (x :: xs) P ↔ P [] x ∧ Throughout xs fun before => P (x :: before) := by
  have hSplit : Throughout ([x] ++ xs) P ↔ _ := throughout_append
  rwa [throughout_singleton] at hSplit

theorem throughout_of_forall (h : ∀ y ∈ xs, ∀ before, P before y) : Throughout xs P := by
  rintro before y after rfl
  exact h y (List.mem_append_right _ List.mem_cons_self) before

theorem First.append (h : First xs Q b) (more : List α) : First (xs ++ more) Q b := by
  obtain ⟨before, x, after, rfl, hx⟩ := h
  exact ⟨before, x, after ++ more, by simp, hx⟩

theorem First.not_throughout (h : First xs Q b) :
    ¬ Throughout xs fun before y => ∀ c, ¬ Q before y c := by
  obtain ⟨before, x, after, hSplit, hx, -⟩ := h
  exact fun hNone => hNone before x after hSplit b hx

/-- An element that has a value is the first to have one if none before it does. -/
theorem first_concat :
    First (xs ++ [x]) Q b ↔
      First xs Q b ∨ Throughout xs (fun before y => ∀ c, ¬ Q before y c) ∧ Q xs x b := by
  constructor
  · rintro ⟨before, y, after, hSplit, hy, hNone⟩
    -- the first occurrence is the new element, or one from before it
    rcases List.eq_nil_or_concat after with rfl | ⟨after, z, rfl⟩
    · obtain ⟨rfl, hSame⟩ := List.append_inj' hSplit rfl
      cases hSame
      exact Or.inr ⟨hNone, hy⟩
    · rw [List.concat_eq_append, ← List.cons_append, ← List.append_assoc] at hSplit
      obtain ⟨rfl, -⟩ := List.append_inj' hSplit rfl
      exact Or.inl ⟨before, y, after, rfl, hy, hNone⟩
  · rintro (hEarlier | ⟨hNone, hx⟩)
    · exact hEarlier.append [x]
    · exact ⟨xs, x, [], rfl, hx, hNone⟩

/-- If no value is the first, then no element has one. -/
theorem throughout_of_not_first (h : ∀ b, ¬ First xs Q b) :
    Throughout xs fun before y => ∀ c, ¬ Q before y c := by
  induction xs using List.reverseRecOn with
  | nil => exact throughout_nil
  | append_singleton xs x ih =>
    have hBefore := ih fun b hb => h b (hb.append [x])
    exact throughout_concat.mpr
      ⟨hBefore, fun c hc => h c (first_concat.mpr (Or.inr ⟨hBefore, hc⟩))⟩

/-- If an element has a value, then some value is the first. -/
theorem exists_first {before after : List α} (hSplit : xs = before ++ x :: after)
    (h : Q before x b) : ∃ c, First xs Q c := by
  by_contra hNone
  exact throughout_of_not_first (fun c hc => hNone ⟨c, hc⟩) before x after hSplit b h

/-- Some value is the first if it was so before or if the last element has one. -/
theorem exists_first_concat :
    (∃ b, First (xs ++ [x]) Q b) ↔ (∃ b, First xs Q b) ∨ ∃ b, Q xs x b := by
  constructor
  · rintro ⟨b, hFirst⟩
    exact (first_concat.mp hFirst).imp (fun h => ⟨b, h⟩) fun h => ⟨b, h.2⟩
  · rintro (⟨b, hFirst⟩ | ⟨b, hx⟩)
    · exact ⟨b, hFirst.append [x]⟩
    · have hSplit : xs ++ [x] = xs ++ x :: [] := rfl
      exact exists_first hSplit hx

/-- Only where the elements stand in the list does it matter which values they have. -/
theorem first_congr {R : List α → α → β → Prop}
    (h : ∀ before y after c, xs = before ++ y :: after → (Q before y c ↔ R before y c)) :
    First xs Q b ↔ First xs R b := by
  have hOneWay (Q R : List α → α → β → Prop) (h : ∀ before y after c,
      xs = before ++ y :: after → (Q before y c ↔ R before y c)) : First xs Q b → First xs R b := by
    rintro ⟨before, x, after, rfl, hx, hNone⟩
    refine ⟨before, x, after, rfl, (h _ _ _ _ rfl).mp hx, ?_⟩
    rintro earlier y later rfl c hy
    exact hNone earlier y later rfl c ((h earlier y (later ++ x :: after) c (by simp)).mpr hy)
  exact ⟨hOneWay Q R h, hOneWay R Q fun before y after c hSplit => (h before y after c hSplit).symm⟩

end

end RunnerPool
