import RunnerPool.Course

/-!
# The result of an operation

`Course.result?` is what an operation comes to if it is left alone: the pauses and the happenings
on the way make no difference to it.  Waiting for an operation gives this result unless the scope
is cancelled (`poll_of_result`), and what waiting gives is this result (`result?_of_poll`).
-/

namespace RunnerPool

namespace Course

/-- What an operation comes to if nothing cuts it short; nothing if it never ends. -/
def result? : Course α → Option α
  | .done a => some a
  | .act _ next => result? next
  | .pause _ next => result? next
  | .stall => none

@[simp] theorem result?_done (a : α) : (done a).result? = some a := rfl

@[simp] theorem result?_map (f : α → β) (c : Course α) : (c.map f).result? = c.result?.map f := by
  induction c with
  | done a => rfl
  | act h next ih => exact ih
  | pause hs next ih => exact ih
  | stall => rfl

@[simp] theorem result?_bind (c : Course α) (f : α → Course β) :
    (c.bind f).result? = c.result?.bind fun a => (f a).result? := by
  induction c with
  | done a => rfl
  | act h next ih => exact ih
  | pause hs next ih => exact ih
  | stall => rfl

@[simp] theorem result?_noting (entries : List Log.Entry) (c : Course α) :
    (noting entries c).result? = c.result? := by
  induction entries with
  | nil => rfl
  | cons e es ih => exact ih

@[simp] theorem result?_acting (hs : List Happening) (c : Course α) :
    (acting hs c).result? = c.result? := by
  induction hs with
  | nil => rfl
  | cons h hs ih => exact ih

/-- What happens before an operation leaves its end as it is. -/
theorem poll_acting (own : Scope) (hs : List Happening) (c : Course α) (w : Scopes) :
    poll own (acting hs c) w =
      ⟨(poll own c (Happening.effects w hs)).wait, (poll own c (Happening.effects w hs)).scopes,
        Happening.allEntries hs ++ (poll own c (Happening.effects w hs)).entries⟩ := by
  induction hs generalizing w with
  | nil => rfl
  | cons h hs ih =>
    have hActing : acting (h :: hs) c = .act h (acting hs c) := rfl
    rw [hActing, poll, ih]
    simp [Happening.effects, Happening.allEntries]

/-- Waiting for an operation gives its result if the scope is not cancelled by the end. -/
theorem poll_of_result (own : Scope) (c : Course α) (w : Scopes) (a : α)
    (hResult : c.result? = some a) (hQuiet : (poll own c w).scopes.isCancelled own = false) :
    (poll own c w).wait = .finished a := by
  induction c generalizing w with
  | done b =>
    cases hResult
    rfl
  | act h next ih => exact ih _ hResult hQuiet
  | pause hs next ih =>
    simp only [poll] at hQuiet ⊢
    split at hQuiet
    · -- what happens in the pause cannot have cancelled the scope
      rename_i hCancelled
      rw [hCancelled] at hQuiet
      exact nomatch hQuiet
    · rename_i hGoesOn
      rw [if_neg hGoesOn]
      exact ih _ hResult hQuiet
  | stall => exact nomatch hResult

/-- What a wait ends with is the operation's result. -/
theorem result?_of_poll (own : Scope) (c : Course α) (w : Scopes) (a : α)
    (h : (poll own c w).wait = .finished a) : c.result? = some a := by
  induction c generalizing w with
  | done b =>
    cases h
    rfl
  | act happening next ih => exact ih _ h
  -- a wait that was not cut off went on at each pause, as `result?` always does
  | pause hs next ih =>
    simp only [poll] at h
    split at h
    · exact nomatch h
    · exact ih _ h
  | stall =>
    simp only [poll] at h
    split at h <;> exact nomatch h

/-- A cancellation that is already there wins. -/
theorem race_of_cancelled (own : Scope) (c : Course α) (w : Scopes)
    (h : w.isCancelled own = true) : race own c w = ⟨.cancelled, w, []⟩ :=
  if_pos h

/-- An operation that is ready is done at once unless there is a cancellation. -/
theorem race_done (own : Scope) (a : α) (w : Scopes) (h : w.isCancelled own = false) :
    race own (.done a) w = ⟨.finished a, w, []⟩ := by
  rw [race, if_neg (by rw [h]; exact Bool.false_ne_true)]
  rfl

end Course

end RunnerPool
