import RunnerPool.Json.MergePatch
import RunnerPool.Proofs.Json.Members

/-!
# Merge patches, key by key

What a patch holds for a key depends only on what the two objects hold for it, and what applying
a patch leaves for a key only on what the target and the patch hold for it.  `memberPatch` and
`memberAfter` are these two functions of a single key:

* `get?_diffMembers`     the difference is `memberPatch` of both objects
* `get?_applyMembers`    application is `memberAfter` of target and patch

Every law of patches follows by induction on the value or on the path, one key at a time.

## Main statements

- `apply_diff_beq_iff`: the difference leads from one value to the other if and only if no `null`
  that it would have to set is new
- `lookup_apply_diff`: at a path where two values agree, their difference leaves every third
  value as it is
-/

namespace RunnerPool.Json

namespace Value

/-! ### Paths -/

@[simp] theorem lookup_nil (v : Value) : v.lookup [] = some v := rfl

theorem lookup_cons (k : String) (path : List String) (v : Value) :
    v.lookup (k :: path) = (Members.get? k v.members).bind (Value.lookup path) := by
  rw [← member?_eq_get?]
  rfl

theorem lookup_singleton (k : String) (v : Value) : v.lookup [k] = Members.get? k v.members := by
  rw [lookup_cons]
  exact Option.bind_fun_some _

/-- Below `null` there is nothing, as below a member that is absent. -/
theorem lookup_getD_null (v? : Option Value) (path : List String) (h : path ≠ []) :
    (v?.getD .null).lookup path = v?.bind (Value.lookup path) := by
  cases v? with
  | some v => rfl
  | none =>
    cases path with
    | nil => exact absurd rfl h
    | cons k path => rfl

/-- Equal values hold equal values at every path. -/
theorem lookup_beq (v w : Value) (h : (v == w) = true) (path : List String) :
    (v.lookup path == w.lookup path) = true := by
  induction path generalizing v w with
  | nil => exact h
  | cons k path ih =>
    rw [lookup_cons, lookup_cons]
    rcases option_beq_cases (get?_members_beq v w h k) with ⟨hv, hw⟩ | ⟨x, y, hv, hw, hxy⟩
    · rw [hv, hw]
      rfl
    · rw [hv, hw]
      exact ih x y hxy

/-- A value that equals another has a `null` wherever the other has one. -/
theorem lookup_eq_null_of_beq (v w : Value) (h : (v == w) = true) (path : List String)
    (hw : w.lookup path = some .null) : v.lookup path = some .null := by
  rcases option_beq_cases (lookup_beq v w h path) with ⟨-, hNone⟩ | ⟨x, y, hv, hSome, hxy⟩
  · rw [hNone] at hw
    exact nomatch hw
  · cases hSome.symm.trans hw
    rw [hv, (beq_null_iff x).mp hxy]

end Value

namespace MergePatch

open Members

/-! ### One key -/

/-- What a patch holds for a key, given what the old and the new object hold for it. -/
def memberPatch : (old? new? : Option Value) → Option Value
  | none, none => none
  | some _, none => some .null
  | none, some v => some v
  | some w, some v =>
    if w == v then none
    else if isObject w && isObject v && isEmpty (diff w v) then none
    else some (diff w v)

/-- What is left for a key, given what the target and the patch hold for it. -/
def memberAfter (target? : Option Value) : (patch? : Option Value) → Option Value
  | none => target?
  | some .null => none
  | some p => some (apply (target?.getD .null) p)

@[simp] theorem memberAfter_none (target? : Option Value) :
    memberAfter target? none = target? := rfl

@[simp] theorem memberAfter_null (target? : Option Value) :
    memberAfter target? (some .null) = none := rfl

theorem memberAfter_some (target? : Option Value) (p : Value) (h : p ≠ .null) :
    memberAfter target? (some p) = some (apply (target?.getD .null) p) := by
  cases p with
  | null => exact absurd rfl h
  | _ => rfl

/-! ### The difference of two objects -/

/-- What the new members add for a key that is among them. -/
private theorem changes_cons (old : Members) (k : String) (v : Value) (new : Members) :
    changes old ((k, v) :: new) =
      ((memberPatch (get? k old) (some v)).map (k, ·)).toList ++ changes old new := by
  rw [changes]
  cases get? k old with
  | none => rfl
  | some w =>
    simp only [memberPatch]
    split
    · rfl
    · split <;> rfl

private theorem mem_keys_changes (old new : Members) (key : String)
    (h : key ∈ keys (changes old new)) : key ∈ keys new := by
  induction new with
  | nil => cases h
  | cons m new ih =>
    obtain ⟨k, v⟩ := m
    rw [changes_cons, keys, List.map_append, List.mem_append] at h
    simp only [keys, List.map_cons, List.mem_cons]
    -- the first member's change if there is one, or a later one's
    cases h with
    | inl hhead =>
      cases hp : memberPatch (get? k old) (some v) with
      | none =>
        rw [hp] at hhead
        cases hhead
      | some p =>
        rw [hp] at hhead
        exact Or.inl (List.mem_singleton.mp hhead)
    | inr htail => exact Or.inr (ih htail)

private theorem ascending_changes (old new : Members) (h : Ascending new) :
    Ascending (changes old new) := by
  induction new with
  | nil => exact ascending_nil
  | cons m new ih =>
    obtain ⟨k, v⟩ := m
    obtain ⟨hk, hnew⟩ := (ascending_cons k v new).mp h
    rw [changes_cons]
    cases memberPatch (get? k old) (some v) with
    | none => exact ih hnew
    | some p =>
      exact (ascending_cons k p _).mpr ⟨fun l hl => hk l (mem_keys_changes old new l hl), ih hnew⟩

private theorem get?_changes (old new : Members) (h : Ascending new) (key : String) :
    get? key (changes old new) =
      (get? key new).bind fun v => memberPatch (get? key old) (some v) := by
  induction new with
  | nil => rfl
  | cons m new ih =>
    obtain ⟨k, v⟩ := m
    have ih := ih ((ascending_cons k v new).mp h).2
    rw [changes_cons, get?_cons]
    by_cases hk : k = key
    · -- the first member decides, since its key does not come again
      subst hk
      have hrest : get? k (changes old new) = none := by
        rw [ih, get?_eq_none_of_not_mem k new h.not_mem_tail]
        rfl
      rw [if_pos rfl, Option.bind_some]
      cases memberPatch (get? k old) (some v) with
      | none => exact hrest
      | some p => exact if_pos rfl
    · rw [if_neg hk, ← ih]
      cases memberPatch (get? k old) (some v) with
      | none => rfl
      | some p => exact if_neg hk

private theorem get?_foldl_insert_null (ks : List String) (p : Members) (key : String) :
    get? key (ks.foldl (fun p k => insert k .null p) p) =
      if key ∈ ks then some .null else get? key p := by
  induction ks generalizing p with
  | nil => rfl
  | cons k ks ih =>
    rw [List.foldl_cons, ih, get?_insert]
    -- a key that comes again is null whatever was put before
    by_cases hks : key ∈ ks
    · simp [hks]
    · by_cases hk : k = key
      · simp [hk]
      · simp [hks, hk, Ne.symm hk]

private theorem ascending_foldl_insert_null (ks : List String) (p : Members)
    (h : Ascending p) : Ascending (ks.foldl (fun p k => insert k .null p) p) := by
  induction ks generalizing p with
  | nil => exact h
  | cons k ks ih => exact ih _ (h.insert k .null)

/-- The members of the difference of two objects. -/
def diffMembers (old new : Members) : Members :=
  withRemovals old new (changes old new)

/-- The keys of a difference are ascending. -/
theorem ascending_diffMembers (old new : Members) (h : Ascending new) :
    Ascending (diffMembers old new) :=
  ascending_foldl_insert_null _ _ (ascending_changes old new h)

/-- The difference of two objects, key by key. -/
theorem get?_diffMembers (old new : Members) (h : Ascending new) (key : String) :
    get? key (diffMembers old new) = memberPatch (get? key old) (get? key new) := by
  rw [diffMembers, withRemovals, get?_foldl_insert_null, get?_changes old new h]
  simp only [List.mem_filter, ← hasKey_iff_mem_keys, hasKey, Bool.not_eq_true']
  cases get? key new with
  | none =>
    -- the key is removed if the old object has it
    cases get? key old with
    | none => rfl
    | some w => rfl
  | some v => simp

private theorem changes_nil (new : Members) : changes [] new = new := by
  induction new with
  | nil => rfl
  | cons m new ih =>
    rw [changes_cons, ih]
    rfl

/-- The difference to an object; an old value that is no object counts as an empty one. -/
theorem diff_object (old : Value) (new : Members) :
    diff old (.object new) = .object (diffMembers old.members new) := by
  cases old with
  | object old => rfl
  | _ => exact congrArg Value.object (changes_nil new).symm

/-- The difference to a value that is no object is that value. -/
theorem diff_of_not_isObject (old new : Value) (h : isObject new = false) :
    diff old new = new := by
  cases new with
  | object ns => exact nomatch h
  | _ => cases old <;> rfl

/-- The difference is `null` only where the new value is. -/
theorem diff_eq_null_iff (old new : Value) : diff old new = .null ↔ new = .null := by
  cases new with
  | object ns =>
    rw [diff_object]
    exact ⟨(nomatch ·), (nomatch ·)⟩
  | _ => rw [diff_of_not_isObject _ _ rfl]

/-! ### Application -/

private theorem applyMembers_cons (ms : Members) (k : String) (p : Value) (ps : Members)
    (h : p ≠ .null) :
    applyMembers ms ((k, p) :: ps) =
      applyMembers (insert k (apply ((get? k ms).getD .null) p) ms) ps := by
  cases p with
  | null => exact absurd rfl h
  | _ => rfl

/-- The members of a target after a patch, key by key. -/
theorem get?_applyMembers (ms ps : Members) (h : Ascending ps) (key : String) :
    get? key (applyMembers ms ps) = memberAfter (get? key ms) (get? key ps) := by
  induction ps generalizing ms with
  | nil => cases ms <;> rfl
  | cons m ps ih =>
    obtain ⟨k, p⟩ := m
    have ih := fun ms => ih ms ((ascending_cons k p ps).mp h).2
    -- the rest of the patch leaves alone what its first entry does
    have hrest := get?_eq_none_of_not_mem k ps h.not_mem_tail
    by_cases hp : p = .null
    · subst hp
      rw [applyMembers, ih, get?_erase, get?_cons]
      by_cases hk : k = key
      · subst hk
        rw [if_pos rfl, if_pos rfl, hrest]
        rfl
      · rw [if_neg hk, if_neg hk]
    · rw [applyMembers_cons _ _ _ _ hp, ih, get?_insert, get?_cons]
      by_cases hk : k = key
      · subst hk
        rw [if_pos rfl, if_pos rfl, hrest, memberAfter_some _ _ hp]
        rfl
      · rw [if_neg hk, if_neg hk]

/-- Applying a patch keeps the keys ascending. -/
theorem ascending_applyMembers (ms ps : Members) (h : Ascending ms) :
    Ascending (applyMembers ms ps) := by
  induction ps generalizing ms with
  | nil => cases ms <;> exact h
  | cons m ps ih =>
    obtain ⟨k, p⟩ := m
    by_cases hp : p = .null
    · subst hp
      exact ih _ (h.erase k)
    · rw [applyMembers_cons _ _ _ _ hp]
      exact ih _ (h.insert k _)

/-- Applying an object gives an object, whatever the target is. -/
theorem apply_object (target : Value) (ps : Members) :
    apply target (.object ps) = .object (applyMembers target.members ps) := by
  cases target <;> rfl

/-- Applying a patch that is no object replaces the target. -/
theorem apply_of_not_isObject (target patch : Value) (h : isObject patch = false) :
    apply target patch = patch := by
  cases patch with
  | object ps => exact nomatch h
  | _ => cases target <;> rfl

/-! ### There and back -/

/-- Objects whose difference is empty are equal. -/
theorem beq_of_isEmpty_diff (old new : Value) (hOld : old.Canonical) (hNew : new.Canonical)
    (hOldObject : isObject old = true) (hNewObject : isObject new = true)
    (h : isEmpty (diff old new) = true) : (old == new) = true := by
  induction new using Value.member_induction generalizing old with
  | step new ih =>
    cases old with
    | object ms =>
      cases new with
      | object ns =>
        -- the difference is empty, and so it is for each key
        have hNone : diffMembers ms ns = [] := by
          rw [diff_object, Value.members_object] at h
          cases hDiff : diffMembers ms ns with
          | nil => rfl
          | cons m ps => rw [hDiff] at h; exact nomatch h
        rw [Value.beq_object_iff ms ns hOld.ascending hNew.ascending]
        intro key
        have hKey : memberPatch (get? key ms) (get? key ns) = none := by
          rw [← get?_diffMembers ms ns hNew.ascending, hNone]
          rfl
        cases hms : get? key ms with
        | none =>
          cases hns : get? key ns with
          | none => rfl
          | some v => rw [hms, hns] at hKey; exact nomatch hKey
        | some w =>
          cases hns : get? key ns with
          | none => rw [hms, hns] at hKey; exact nomatch hKey
          | some v =>
            rw [hms, hns] at hKey
            simp only [memberPatch] at hKey
            by_cases hEqual : (w == v) = true
            · exact hEqual
            · -- the members differ, so they are left out as objects whose difference is empty
              rw [if_neg hEqual] at hKey
              split at hKey
              · rename_i hEmpty
                simp only [Bool.and_eq_true] at hEmpty
                obtain ⟨⟨hw, hv⟩, hEmpty⟩ := hEmpty
                exact ih key v hns w (hOld.member hms) (hNew.member hns) hw hv hEmpty
              · exact nomatch hKey
      | _ => exact nomatch hNewObject
    | _ => exact nomatch hOldObject

/-- Every `null` that the new value holds below its root is in the old value too, at the same
    path; paths lead through objects only. -/
def NullsKept (old new : Value) : Prop :=
  ∀ path, path ≠ [] → new.lookup path = some .null → old.lookup path = some .null

/-- `NullsKept` for the members of one key. -/
def MemberNullsKept (old? new? : Option Value) : Prop :=
  ∀ path, new?.bind (Value.lookup path) = some .null → old?.bind (Value.lookup path) = some .null

theorem nullsKept_iff (old new : Value) :
    NullsKept old new ↔
      ∀ key, MemberNullsKept (get? key old.members) (get? key new.members) := by
  constructor
  -- a path goes through a member first, so the condition is one on each member
  · intro h key path hNew
    have hPath := h (key :: path) (List.cons_ne_nil _ _)
    rw [Value.lookup_cons, Value.lookup_cons] at hPath
    exact hPath hNew
  · intro h path hPath
    cases path with
    | nil => exact absurd rfl hPath
    | cons key path =>
      rw [Value.lookup_cons, Value.lookup_cons]
      exact h key path

/-- A member that is `null` itself must have been `null`, any other one must keep its nulls. -/
private theorem memberNullsKept_some (old? : Option Value) (v : Value) (h : v ≠ .null) :
    MemberNullsKept old? (some v) ↔ NullsKept (old?.getD .null) v := by
  constructor
  · intro hKept path hPath hNull
    rw [Value.lookup_getD_null _ _ hPath]
    exact hKept path hNull
  -- at the member itself there is no null, and below it the two conditions are one
  · intro hKept path hNull
    by_cases hPath : path = []
    · subst hPath
      exact absurd (Option.some.inj hNull) h
    · rw [← Value.lookup_getD_null _ _ hPath]
      exact hKept path hPath hNull

/-- The round trip for one key.  A member that differs is patched by its own difference, so the
    law for its values carries over; the other members are left out or removed. -/
private theorem memberAfter_memberPatch_beq_iff (old? new? : Option Value)
    (hOld : ∀ w, old? = some w → w.Canonical) (hNew : ∀ v, new? = some v → v.Canonical)
    (ih : ∀ v, new? = some v → ∀ w, w.Canonical →
      ((apply w (diff w v) == v) = true ↔ NullsKept w v)) :
    (memberAfter old? (memberPatch old? new?) == new?) = true ↔ MemberNullsKept old? new? := by
  cases new? with
  | none =>
    have hKept : MemberNullsKept old? none := fun path h => nomatch h
    cases old? with
    | none => exact ⟨fun _ => hKept, fun _ => rfl⟩
    | some w => exact ⟨fun _ => hKept, fun _ => rfl⟩
  | some v =>
    -- what a member that is not left out becomes, and when that is the new one
    have hPatched : (old? = none ∨ ∃ w, old? = some w ∧ (w == v) = false) →
        ((memberAfter old? (some (diff (old?.getD .null) v)) == some v) = true ↔
          MemberNullsKept old? (some v)) := by
      intro hDiffers
      by_cases hNull : v = .null
      · -- the patch removes the member, and a member that was `null` would not have differed
        subst hNull
        rw [diff_of_not_isObject _ _ rfl, memberAfter_null]
        refine ⟨(nomatch ·), fun hKept => ?_⟩
        have hOldNull := hKept [] rfl
        rcases hDiffers with rfl | ⟨w, rfl, hne⟩
        · exact nomatch hOldNull
        · rw [Option.bind_some, Value.lookup_nil] at hOldNull
          cases hOldNull
          exact nomatch hne
      · have hCanonical : (old?.getD .null).Canonical := by
          cases old? with
          | none => trivial
          | some w => exact hOld w rfl
        rw [memberAfter_some _ _ (fun h => hNull ((diff_eq_null_iff _ _).mp h)),
          memberNullsKept_some old? v hNull]
        exact ih v rfl _ hCanonical
    cases old? with
    | none =>
      have hDiff : diff .null v = v := by cases v <;> rfl
      have hNone := hPatched (Or.inl rfl)
      rwa [Option.getD_none, hDiff] at hNone
    | some w =>
      simp only [memberPatch]
      by_cases hEqual : (w == v) = true
      · rw [if_pos hEqual]
        refine ⟨fun _ path hNull => ?_, fun _ => hEqual⟩
        exact Value.lookup_eq_null_of_beq w v hEqual path hNull
      · rw [if_neg hEqual]
        split
        · -- only equal objects are left out
          rename_i hEmpty
          simp only [Bool.and_eq_true] at hEmpty
          obtain ⟨⟨hw, hv⟩, hEmpty⟩ := hEmpty
          exact absurd (beq_of_isEmpty_diff w v (hOld w rfl) (hNew v rfl) hw hv hEmpty) hEqual
        · exact hPatched (Or.inr ⟨w, rfl, by simpa using hEqual⟩)

/-- The round trip, by induction on the new value. -/
theorem apply_diff_beq_iff_nullsKept (old new : Value) (hOld : old.Canonical)
    (hNew : new.Canonical) : (apply old (diff old new) == new) = true ↔ NullsKept old new := by
  induction new using Value.member_induction generalizing old with
  | step new ih =>
    cases hObject : isObject new with
    | false =>
      -- the patch is the new value itself, which holds no `null` below its root
      have hMembers : new.members = [] := by
        cases new with
        | object ns => exact nomatch hObject
        | _ => rfl
      rw [diff_of_not_isObject old new hObject, apply_of_not_isObject old new hObject,
        nullsKept_iff, hMembers]
      exact ⟨fun _ key path h => (nomatch h), fun _ => BEq.rfl⟩
    | true =>
      cases new with
      | object ns =>
        -- both sides of the law hold of the objects as they hold of each key
        have hns : Ascending ns := hNew.ascending
        have hPatch := ascending_diffMembers old.members ns hns
        rw [diff_object, apply_object, nullsKept_iff, Value.members_object,
          Value.beq_object_iff _ _ (ascending_applyMembers _ _ hOld.ascending) hns]
        refine forall_congr' fun key => ?_
        rw [get?_applyMembers _ _ hPatch, get?_diffMembers _ _ hns]
        exact memberAfter_memberPatch_beq_iff _ _ (fun w hw => hOld.member hw)
          (fun v hv => hNew.member hv)
          (fun v hv w hw => ih key v hv w hw (hNew.member hv))
      | _ => exact nomatch hObject

/-- Applying the difference of two values to the first gives the second if and only if every
    `null` that the second holds below its root, through objects, the first holds there too.  So
    a value without such a `null` is reached from every other. -/
theorem apply_diff_beq_iff (old new : Value) (hOld : old.Canonical) (hNew : new.Canonical) :
    ((apply old (diff old new) == new) = true ↔
        ∀ path, path ≠ [] → new.lookup path = some .null → old.lookup path = some .null) ∧
      ((∀ path, path ≠ [] → new.lookup path ≠ some .null) →
        (apply old (diff old new) == new) = true) := by
  have hIff := apply_diff_beq_iff_nullsKept old new hOld hNew
  refine ⟨hIff, fun hFree => hIff.mpr ?_⟩
  intro path hPath hNull
  exact absurd hNull (hFree path hPath)

/-- A `null` that stays, one inside an array that is new, and a member that goes. -/
theorem apply_diff_beq_of_null_kept :
    let old : Value := .object [("a", .object [("b", .int 1), ("c", .null)])]
    let new : Value := .object [("a", .object [("c", .null)]), ("d", .array [.null])]
    old.Canonical ∧ new.Canonical ∧ (apply old (diff old new) == new) = true ∧
      ∀ path, path ≠ [] → new.lookup path = some .null → old.lookup path = some .null := by
  intro old new
  have hOld : old.Canonical := by decide
  have hNew : new.Canonical := by decide
  have hBack : (apply old (diff old new) == new) = true := by decide
  exact ⟨hOld, hNew, hBack, (apply_diff_beq_iff old new hOld hNew).1.mp hBack⟩

/-! ### Only what differs -/

/-- A member that both objects hold alike is left out of the patch. -/
theorem memberPatch_of_beq (old? new? : Option Value) (h : (old? == new?) = true) :
    memberPatch old? new? = none := by
  rcases Value.option_beq_cases h with ⟨rfl, rfl⟩ | ⟨w, v, rfl, rfl, hEqual⟩
  · rfl
  · exact if_pos hEqual

/-- A patched value at a path, by what becomes of the first key. -/
theorem lookup_cons_apply_object (live : Value) (ps : Members) (h : Ascending ps) (key : String)
    (path : List String) :
    (apply live (.object ps)).lookup (key :: path) =
      (memberAfter (get? key live.members) (get? key ps)).bind (Value.lookup path) := by
  rw [apply_object, Value.lookup_cons, Value.members_object, get?_applyMembers _ _ h]

/-- Where two values agree, and hold objects on the whole way there, their difference leaves
    every other value as it is: the patched value holds at the path what it held before. -/
theorem lookup_apply_diff (old new live : Value) (path : List String) (hNew : new.Canonical)
    (hPath : path ≠ [])
    (hObjects : ∀ q, q <+: path → q ≠ path →
      (∃ ms, old.lookup q = some (.object ms)) ∧ ∃ ns, new.lookup q = some (.object ns))
    (hAgree : (old.lookup path == new.lookup path) = true) :
    (apply live (diff old new)).lookup path = live.lookup path := by
  induction path generalizing old new live with
  | nil => exact absurd rfl hPath
  | cons key rest ih =>
    obtain ⟨⟨ms, hms⟩, ns, hns⟩ := hObjects [] List.nil_prefix (List.cons_ne_nil _ _).symm
    cases hms
    cases hns
    have hAscending : Ascending ns := hNew.ascending
    rw [diff_object, lookup_cons_apply_object _ _ (ascending_diffMembers _ _ hAscending),
      get?_diffMembers _ _ hAscending, Value.lookup_cons key rest live, Value.members_object]
    by_cases hRest : rest = []
    · -- the path ends here, at a member that the patch leaves out
      subst hRest
      rw [Value.lookup_singleton, Value.lookup_singleton, Value.members_object,
        Value.members_object] at hAgree
      rw [memberPatch_of_beq _ _ hAgree, memberAfter_none]
    · -- the path goes on, so both hold an object here and the patch holds their difference
      obtain ⟨⟨ms', hms'⟩, ns', hns'⟩ := hObjects [key] ⟨rest, rfl⟩
        (fun h => hRest (List.cons.inj h).2.symm)
      rw [Value.lookup_singleton, Value.members_object] at hms' hns'
      rw [Value.lookup_cons, Value.lookup_cons, Value.members_object, Value.members_object,
        hms', hns'] at hAgree
      have hBelow : ∀ q, q <+: rest → q ≠ rest →
          (∃ ms, (Value.object ms').lookup q = some (.object ms)) ∧
            ∃ ns, (Value.object ns').lookup q = some (.object ns) := by
        intro q hPrefix hProper
        have hObject := hObjects (key :: q) (List.prefix_cons_inj key |>.mpr hPrefix)
          (fun h => hProper (List.cons.inj h).2)
        rwa [Value.lookup_cons, Value.lookup_cons, Value.members_object, Value.members_object,
          hms', hns'] at hObject
      have hMember := ih (.object ms') (.object ns') ((get? key live.members).getD .null)
        (hNew.member hns') hRest hBelow hAgree
      have hNotNull : diff (.object ms') (.object ns') ≠ .null := by
        rw [diff_object]
        exact (nomatch ·)
      rw [hms', hns', memberPatch]
      -- the difference is left out if it is empty, which leaves the member alone all the more
      split
      · rfl
      · split
        · rfl
        · rw [memberAfter_some _ _ hNotNull, Option.bind_some, hMember,
            Value.lookup_getD_null _ _ hRest]

/-- A member beside a changed one, which the third value has changed on its own. -/
theorem lookup_apply_diff_beside_change :
    let old : Value := .object [("spec", .object [("image", .text "a"), ("size", .int 1)])]
    let new : Value := .object [("spec", .object [("image", .text "a"), ("size", .int 2)])]
    let live : Value := .object [("spec", .object [("image", .text "b")])]
    new.Canonical ∧ (old.lookup ["spec", "image"] == new.lookup ["spec", "image"]) = true ∧
      (apply live (diff old new)).lookup ["spec", "image"] = some (.text "b") := by
  intro old new live
  have hNew : new.Canonical := by decide
  have hAgree : (old.lookup ["spec", "image"] == new.lookup ["spec", "image"]) = true := by decide
  -- both values are objects on the way to the member, as the theorem asks
  have hObjects : ∀ q, q <+: ["spec", "image"] → q ≠ ["spec", "image"] →
      (∃ ms, old.lookup q = some (.object ms)) ∧ ∃ ns, new.lookup q = some (.object ns) := by
    intro q hPrefix hProper
    simp only [List.prefix_cons_iff, List.prefix_nil] at hPrefix
    rcases hPrefix with rfl | ⟨_, rfl, rfl | ⟨_, rfl, rfl⟩⟩
    · exact ⟨⟨_, rfl⟩, _, rfl⟩
    · exact ⟨⟨_, rfl⟩, _, rfl⟩
    · exact absurd rfl hProper
  exact ⟨hNew, hAgree,
    (lookup_apply_diff old new live _ hNew (List.cons_ne_nil _ _) hObjects hAgree).trans rfl⟩

end MergePatch

end RunnerPool.Json
