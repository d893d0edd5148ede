import RunnerPool.Proofs.Json.MergePatch

/-!
# Merge patches hold nothing superfluous

The difference of two objects is empty if and only if they are equal, and it holds a member only
where they differ.  Each of its members is needed: without it, at whatever depth, the patch leads
elsewhere, unless the new object holds a `null` that no patch can set.

* `Value.remove`            the value without the member at a path
* `diff_eq_empty_iff`       when there is nothing to send
* `lookup_diff_cons`        a member of a difference below its first key is one of the difference
  of the members of that key

## Main statement

- `diff_minimal`: what a difference holds, and that no member of it can be left out
-/

namespace RunnerPool.Json

namespace Value

/-- The value without the member at a path of keys that leads through objects. -/
def remove : (path : List String) → Value → Value
  | [k], .object ms => .object (Members.erase k ms)
  | k :: l :: path, .object ms =>
    match Members.get? k ms with
    | some v => .object (Members.insert k (remove (l :: path) v) ms)
    | none => .object ms
  | _, v => v

theorem remove_singleton (k : String) (ms : Members) :
    (Value.object ms).remove [k] = .object (Members.erase k ms) := rfl

theorem remove_cons {k : String} {path : List String} {ms : Members} {v : Value}
    (hPath : path ≠ []) (h : Members.get? k ms = some v) :
    (Value.object ms).remove (k :: path) = .object (Members.insert k (v.remove path) ms) := by
  cases path with
  | nil => exact absurd rfl hPath
  | cons l path => rw [remove, h]

/-- Removing a member leaves an object an object. -/
theorem remove_object_ne_null (path : List String) (ms : Members) :
    (Value.object ms).remove path ≠ .null := by
  match path with
  | [] => exact nofun
  | [k] => exact nofun
  | k :: l :: path =>
    rw [remove]
    split <;> exact nofun

/-- Only below an object there is something. -/
theorem exists_object_of_lookup {path : List String} {v w : Value} (hPath : path ≠ [])
    (h : v.lookup path = some w) : ∃ ms, v = .object ms := by
  cases path with
  | nil => exact absurd rfl hPath
  | cons k path =>
    rw [lookup_cons] at h
    cases v with
    | object ms => exact ⟨ms, rfl⟩
    | _ => exact nomatch h

end Value

namespace MergePatch

open Members

/-! ### Where there is nothing to send -/

/-- The difference of two objects is empty if and only if they are equal. -/
theorem diff_eq_empty_iff {ms ns : Members} (hOld : (Value.object ms).Canonical)
    (hNew : (Value.object ns).Canonical) :
    diff (.object ms) (.object ns) = .object [] ↔ (Value.object ms == .object ns) = true := by
  constructor
  · intro hEmpty
    exact beq_of_isEmpty_diff _ _ hOld hNew rfl rfl (by rw [hEmpty]; rfl)
  · intro hEqual
    have hNone (key : String) : get? key (diffMembers ms ns) = none := by
      rw [get?_diffMembers ms ns hNew.ascending]
      exact memberPatch_of_beq _ _ (Value.get?_members_beq _ _ hEqual key)
    rw [diff_object, Value.members_object]
    cases hDiff : diffMembers ms ns with
    | nil => rfl
    | cons m ps =>
      -- the first member of a list is found
      have hFirst := hNone m.1
      rw [hDiff, get?_cons, if_pos rfl] at hFirst
      exact nomatch hFirst

/-! ### Members of a difference -/

/-- What a patch holds for a key is a difference, or the `null` of a removal. -/
theorem memberPatch_cases {old? new? : Option Value} {p : Value}
    (h : memberPatch old? new? = some p) :
    (new? = none ∧ old?.isSome = true ∧ p = .null) ∨
      ∃ v, new? = some v ∧ p = diff (old?.getD .null) v := by
  -- a member that is gone is set to null, and one that stays or is new has its difference
  cases new? with
  | none =>
    cases old? with
    | none => cases h
    | some w => exact Or.inl ⟨rfl, rfl, (Option.some.inj h).symm⟩
  | some v =>
    refine Or.inr ⟨v, rfl, ?_⟩
    cases old? with
    -- an added value counts as a change of null, whose difference is the value itself
    | none =>
      have hDiff : diff .null v = v := by cases v <;> rfl
      rw [Option.getD_none, hDiff]
      exact (Option.some.inj h).symm
    | some w =>
      simp only [memberPatch] at h
      split at h
      · cases h
      · split at h
        · cases h
        · exact (Option.some.inj h).symm

/-- Only the difference to an object holds members. -/
theorem exists_object_of_lookup_diff {old new q : Value} {path : List String} (hPath : path ≠ [])
    (h : (diff old new).lookup path = some q) : ∃ ns, new = .object ns := by
  cases hObject : isObject new with
  | true =>
    cases new with
    | object ns => exact ⟨ns, rfl⟩
    | _ => exact nomatch hObject
  | false =>
    rw [diff_of_not_isObject old new hObject] at h
    exact Value.exists_object_of_lookup hPath h

/-- What the difference to an object holds for a key. -/
theorem lookup_diff_singleton (old : Value) {ns : Members} (hNew : (Value.object ns).Canonical)
    (k : String) :
    (diff old (.object ns)).lookup [k] = memberPatch (get? k old.members) (get? k ns) := by
  have hAscending : Ascending ns := hNew.ascending
  rw [diff_object, Value.lookup_singleton, Value.members_object, get?_diffMembers _ _ hAscending]

/-- A member of a difference below its first key is one of the difference of the two members of
    that key; an old member that is absent counts as `null`. -/
theorem lookup_diff_cons {old q : Value} {ns : Members} {k : String} {path : List String}
    (hNew : (Value.object ns).Canonical) (hPath : path ≠ [])
    (h : (diff old (.object ns)).lookup (k :: path) = some q) :
    ∃ v, get? k ns = some v ∧
      get? k (diffMembers old.members ns) = some (diff ((get? k old.members).getD .null) v) ∧
      (diff ((get? k old.members).getD .null) v).lookup path = some q := by
  rw [diff_object, Value.lookup_cons, Value.members_object, Option.bind_eq_some_iff] at h
  obtain ⟨p, hPatch, hBelow⟩ := h
  have hAscending : Ascending ns := hNew.ascending
  have hCases := hPatch
  rw [get?_diffMembers _ _ hAscending] at hCases
  rcases memberPatch_cases hCases with ⟨-, -, rfl⟩ | ⟨v, hv, rfl⟩
  · -- there is nothing below the `null` of a removal
    obtain ⟨ms, hNull⟩ := Value.exists_object_of_lookup hPath hBelow
    exact nomatch hNull
  · exact ⟨v, hv, hPatch, hBelow⟩

private theorem canonical_getD {old : Value} (hOld : old.Canonical) (k : String) :
    ((get? k old.members).getD .null).Canonical := by
  cases hMember : get? k old.members with
  | none => exact trivial
  | some w => exact hOld.member hMember

/-- A difference holds a member only where the two values differ, by induction on the path. -/
theorem lookup_ne_of_lookup_diff {old new q : Value} {path : List String} (hNew : new.Canonical)
    (hPath : path ≠ []) (h : (diff old new).lookup path = some q) :
    (old.lookup path == new.lookup path) = false := by
  -- along the path: at its end the member differs, and before that a patch below it does
  induction path generalizing old new with
  | nil => exact absurd rfl hPath
  | cons k path ih =>
    obtain ⟨ns, rfl⟩ := exists_object_of_lookup_diff hPath h
    by_cases hEnd : path = []
    · subst hEnd
      rw [lookup_diff_singleton old hNew] at h
      rw [Value.lookup_singleton, Value.lookup_singleton, Value.members_object,
        Bool.eq_false_iff]
      -- an equal member would have no patch
      intro hEqual
      rw [memberPatch_of_beq _ _ hEqual] at h
      exact nomatch h
    · obtain ⟨v, hv, -, hBelow⟩ := lookup_diff_cons hNew hEnd h
      -- the induction hypothesis speaks of the member where there is one, and of null otherwise
      have hDiffer := ih (hNew.member hv) hEnd hBelow
      rw [Value.lookup_getD_null _ _ hEnd] at hDiffer
      rw [Value.lookup_cons, Value.lookup_cons, Value.members_object, hv]
      exact hDiffer

/-- A `null` in a difference names a member that the old value has and the new one has not, if
    the new one holds no `null` itself. -/
theorem removed_of_lookup_diff {old new : Value} {path : List String} (hNew : new.Canonical)
    (hFree : ∀ path, path ≠ [] → new.lookup path ≠ some .null) (hPath : path ≠ [])
    (h : (diff old new).lookup path = some .null) :
    (old.lookup path).isSome = true ∧ new.lookup path = none := by
  induction path generalizing old new with
  | nil => exact absurd rfl hPath
  | cons k path ih =>
    obtain ⟨ns, rfl⟩ := exists_object_of_lookup_diff hPath h
    by_cases hEnd : path = []
    · subst hEnd
      rw [lookup_diff_singleton old hNew] at h
      rw [Value.lookup_singleton, Value.lookup_singleton, Value.members_object]
      rcases memberPatch_cases h with ⟨hNone, hSome, -⟩ | ⟨v, hv, hNull⟩
      · exact ⟨hSome, hNone⟩
      · -- the new member would be `null`
        refine absurd ?_ (hFree [k] hPath)
        rw [Value.lookup_singleton, Value.members_object, hv,
          (diff_eq_null_iff _ _).mp hNull.symm]
    · obtain ⟨v, hv, -, hBelow⟩ := lookup_diff_cons hNew hEnd h
      have hFreeBelow : ∀ path, path ≠ [] → v.lookup path ≠ some .null := by
        intro rest _ hNull
        refine hFree (k :: rest) (List.cons_ne_nil _ _) ?_
        rw [Value.lookup_cons, Value.members_object, hv, Option.bind_some, hNull]
      have hRemoved := ih (hNew.member hv) hFreeBelow hEnd hBelow
      rw [Value.lookup_getD_null _ _ hEnd] at hRemoved
      rw [Value.lookup_cons, Value.lookup_cons, Value.members_object, hv]
      exact hRemoved

/-! ### Every member is needed -/

/-- If applying a patch gives an object, then so it does for each key. -/
private theorem memberAfter_beq_of_apply {old : Value} {ps ns : Members} (hOld : old.Canonical)
    (hPatch : Ascending ps) (hNew : Ascending ns)
    (h : (apply old (.object ps) == .object ns) = true) (k : String) :
    (memberAfter (get? k old.members) (get? k ps) == get? k ns) = true := by
  rw [apply_object, Value.beq_object_iff _ _ (ascending_applyMembers _ _ hOld.ascending) hNew] at h
  rw [← get?_applyMembers _ _ hPatch]
  exact h k

/-- Without one of its members a difference does not lead to the new value, by induction on the
    path. -/
theorem apply_remove_diff_ne {old new q : Value} {path : List String} (hOld : old.Canonical)
    (hNew : new.Canonical) (hPath : path ≠ []) (h : (diff old new).lookup path = some q) :
    (apply old ((diff old new).remove path) == new) = false := by
  induction path generalizing old new with
  | nil => exact absurd rfl hPath
  | cons k path ih =>
    obtain ⟨ns, rfl⟩ := exists_object_of_lookup_diff hPath h
    have hns : Ascending ns := hNew.ascending
    have hAscending := ascending_diffMembers old.members ns hns
    rw [Bool.eq_false_iff]
    intro hBack
    by_cases hEnd : path = []
    · -- the member stays as it is in the old value, where it differs from the new one
      subst hEnd
      have hDiffer := lookup_ne_of_lookup_diff hNew hPath h
      rw [diff_object, Value.remove_singleton] at hBack
      have hKey := memberAfter_beq_of_apply hOld (hAscending.erase k) hns hBack k
      rw [get?_erase, if_pos rfl, memberAfter_none] at hKey
      rw [Value.lookup_singleton, Value.lookup_singleton, Value.members_object, hKey] at hDiffer
      exact nomatch hDiffer
    · -- the member of the key is patched by a difference that lacks a member itself
      obtain ⟨v, hv, hMember, hBelow⟩ := lookup_diff_cons hNew hEnd h
      have hDiffer := ih (canonical_getD hOld k) (hNew.member hv) hEnd hBelow
      have hNotNull : (diff ((get? k old.members).getD .null) v).remove path ≠ .null := by
        obtain ⟨ps, hps⟩ := Value.exists_object_of_lookup hEnd hBelow
        rw [hps]
        exact Value.remove_object_ne_null path ps
      rw [diff_object, Value.remove_cons hEnd hMember] at hBack
      have hKey := memberAfter_beq_of_apply hOld (hAscending.insert k _) hns hBack k
      rw [get?_insert, if_pos rfl, memberAfter_some _ _ hNotNull, hv] at hKey
      exact Bool.eq_false_iff.mp hDiffer hKey

/-- The difference of two objects is empty if and only if they are equal.  It holds a member only
    where they differ, and without any one of its members, at whatever depth, it does not lead from
    the first to the second.  If the second holds no `null` below its root, through objects, then
    the whole difference does lead there, and a `null` in it names a member that the first object
    has and the second has not. -/
theorem diff_minimal (ms ns : Members) (hOld : (Value.object ms).Canonical)
    (hNew : (Value.object ns).Canonical) :
    let old := Value.object ms
    let new := Value.object ns
    let patch := diff old new
    (patch = .object [] ↔ (old == new) = true) ∧
      (∀ path, path ≠ [] → (patch.lookup path).isSome = true →
        (old.lookup path == new.lookup path) = false) ∧
      (∀ path, path ≠ [] → (patch.lookup path).isSome = true →
        (apply old (patch.remove path) == new) = false) ∧
      ((∀ path, path ≠ [] → new.lookup path ≠ some .null) →
        (apply old patch == new) = true ∧
          ∀ path, patch.lookup path = some .null →
            (old.lookup path).isSome = true ∧ new.lookup path = none) := by
  intro old new patch
  refine ⟨diff_eq_empty_iff hOld hNew, fun path hPath hIn => ?_, fun path hPath hIn => ?_,
    fun hFree => ⟨?_, fun path hNull => ?_⟩⟩
  · obtain ⟨q, hq⟩ := Option.isSome_iff_exists.mp hIn
    exact lookup_ne_of_lookup_diff hNew hPath hq
  · obtain ⟨q, hq⟩ := Option.isSome_iff_exists.mp hIn
    exact apply_remove_diff_ne hOld hNew hPath hq
  · exact (apply_diff_beq_iff_nullsKept old new hOld hNew).mpr fun path hPath hNull =>
      absurd hNull (hFree path hPath)
  · refine removed_of_lookup_diff hNew hFree ?_ hNull
    -- the difference itself is an object
    rintro rfl
    rw [Value.lookup_nil, Option.some.injEq, diff_eq_null_iff] at hNull
    exact nomatch hNull

/-- A nested object of which one member changes and one goes, and an object in place of a number:
    the patch needs what it holds inside the two. -/
theorem diff_minimal_nested :
    let old : Value := .object [("a", .object [("b", .int 1), ("c", .int 2), ("d", .null)]),
      ("e", .int 3)]
    let new : Value := .object [("a", .object [("b", .int 4), ("c", .int 2)]),
      ("e", .object [("f", .int 5)])]
    old.Canonical ∧ new.Canonical ∧
      (apply old ((diff old new).remove ["e", "f"]) == new) = false ∧
      (apply old ((diff old new).remove ["a", "d"]) == new) = false ∧
      ((diff old new).lookup ["a", "c"]).isSome = false := by
  -- the two paths in the patch are needed, and one whose member is the same is not in it
  intro old new
  have hOld : old.Canonical := by decide
  have hNew : new.Canonical := by decide
  obtain ⟨-, hDiffer, hNeeded, -⟩ := diff_minimal _ _ hOld hNew
  refine ⟨hOld, hNew, hNeeded _ (by decide) (by decide), hNeeded _ (by decide) (by decide), ?_⟩
  rw [Bool.eq_false_iff]
  intro hIn
  exact Bool.eq_false_iff.mp (hDiffer _ (by decide) hIn) (by decide)

end MergePatch

end RunnerPool.Json
