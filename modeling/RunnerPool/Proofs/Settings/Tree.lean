import RunnerPool.Settings.Load

/-!
# Values set under keys

What lies under a key of a tree after values were set under keys, which may be paths: a value that
is set stays until another one is set under the same key, unless a path through the key turns it
into a table or a list (`given_putAll`).  What lies under one key does not depend on what lies under
the others (`value?_putAll_congr`).
-/

namespace RunnerPool.Setting

open Settings (value?)

/-! ### One key -/

section

variable (K k : String) (x : Setting) {ms : List (String × Setting)}

private theorem lookup_first (ms : List (String × Setting)) :
    ((k, x) :: ms).lookup K = if K = k then some x else ms.lookup K := by
  by_cases hKey : K = k
  · simp [hKey]
  · rw [List.lookup_cons, beq_eq_false_iff_ne.mpr hKey, if_neg hKey]

private theorem lookup_concat (h : ms.lookup k = none) :
    (ms ++ [(k, x)]).lookup K = if K = k then some x else ms.lookup K := by
  rw [List.lookup_append, lookup_first]
  by_cases hKey : K = k
  · rw [hKey, h]
    rfl
  · simp [hKey]

private theorem lookup_replace (ms : List (String × Setting)) :
    (ms.map fun m => if m.1 = k then (k, x) else m).lookup K =
      if K = k then (ms.lookup k).map fun _ => x else ms.lookup K := by
  induction ms with
  | nil => by_cases hKey : K = k <;> simp [hKey]
  | cons m ms ih =>
    obtain ⟨k', w⟩ := m
    rw [List.map_cons, lookup_first, lookup_first]
    -- a member with the key is replaced, any other is passed by
    by_cases hFirst : k' = k
    · rw [if_pos hFirst, lookup_first, ih]
      by_cases hKey : K = k <;> simp [hKey, hFirst]
    · rw [if_neg hFirst, lookup_first, ih]
      by_cases hKey : K = k
      · simp [hKey, Ne.symm hFirst]
      · simp [hKey]

end

/-- The members of a value, none if it is no table. -/
private def members : Setting → List (String × Setting)
  | .table ms => ms
  | _ => []

private theorem value?_eq_lookup (K : String) (v : Setting) : value? K v = v.members.lookup K := by
  cases v <;> rfl

private theorem modifyKey_eq (k : String) (f : Setting → Setting) (v : Setting) :
    modifyKey k f v =
      match v.members.lookup k with
      | none => .table (v.members ++ [(k, f nothing)])
      | some w => .table (v.members.map fun m => if m.1 = k then (k, f w) else m) := by
  cases v <;> rfl

/-- Only the value of the key that is modified changes. -/
theorem value?_modifyKey (K k : String) (f : Setting → Setting) (v : Setting) :
    value? K (modifyKey k f v) =
      if K = k then some (f ((value? K v).getD nothing)) else value? K v := by
  rw [modifyKey_eq, value?_eq_lookup K v]
  -- a key that is not there is added behind the others, one that is there replaced
  cases hKey : v.members.lookup k with
  | none =>
    refine (lookup_concat K k (f nothing) hKey).trans ?_
    split
    · rename_i hSame
      rw [hSame, hKey]
      rfl
    · rfl
  | some w =>
    refine (lookup_replace K k (f w) v.members).trans ?_
    split
    · rename_i hSame
      rw [hSame, hKey]
      rfl
    · rfl

/-! ### Paths -/

/-- A table or a list. -/
def IsComposite (v : Setting) : Prop := ∀ origin p, v ≠ .plain origin p

theorem isComposite_modifyKey (k : String) (f : Setting → Setting) (v : Setting) :
    IsComposite (modifyKey k f v) := by
  intro origin p
  rw [modifyKey_eq]
  split <;> exact Setting.noConfusion

theorem isComposite_modifyIndex (i : Int) (f : Setting → Setting) (v : Setting) :
    IsComposite (modifyIndex i f v) := by
  intro origin p
  rw [modifyIndex.eq_def]
  split <;> exact Setting.noConfusion

/-- What lies on a path that goes on is a table or a list. -/
theorem isComposite_modifyAt (f : Setting → Setting) (s : Step) (path : List Step) (v : Setting) :
    IsComposite (modifyAt f (s :: path) v) := by
  cases s with
  | key k => exact isComposite_modifyKey k (modifyAt f path) v
  | index i => exact isComposite_modifyIndex i (modifyAt f path) v

private theorem eq_nil_of_steps? {fuel : Nat} {cs : List Char} (h : steps? fuel cs = some []) :
    cs = [] := by
  rw [steps?.eq_def] at h
  split at h
  · rfl
  · exact nomatch h
  · obtain ⟨⟨k, r⟩, -, h⟩ := Option.bind_eq_some_iff.mp h
    obtain ⟨path, -, h⟩ := Option.bind_eq_some_iff.mp h
    exact nomatch h
  · obtain ⟨⟨i, r⟩, -, h⟩ := Option.bind_eq_some_iff.mp h
    obtain ⟨path, -, h⟩ := Option.bind_eq_some_iff.mp h
    exact nomatch h
  · exact nomatch h

private theorem eq_of_name? {cs : List Char} {k : String} (h : name? cs = some (k, [])) :
    k = String.ofList cs := by
  rw [name?.eq_def] at h
  split at h
  · exact nomatch h
  · obtain ⟨rfl, hRest⟩ := Prod.mk.inj (Option.some.inj h)
    have hParts : cs.takeWhile isNameChar ++ cs.dropWhile isNameChar = cs :=
      List.takeWhile_append_dropWhile
    rw [hRest, List.append_nil] at hParts
    rw [hParts]

/-- A path begins with a key, and is the key itself if it ends there. -/
theorem exists_path (key : String) :
    ∃ k path, (path? key).getD [.key key] = .key k :: path ∧ (path = [] → k = key) := by
  cases hPath : path? key with
  | none => exact ⟨key, [], rfl, fun _ => rfl⟩
  | some path =>
    obtain ⟨⟨k, r⟩, hName, h⟩ := Option.bind_eq_some_iff.mp hPath
    obtain ⟨more, hMore, h⟩ := Option.bind_eq_some_iff.mp h
    obtain rfl := Option.some.inj h
    refine ⟨k, more, rfl, ?_⟩
    -- nothing follows the name, so it is the whole key
    rintro rfl
    obtain rfl := eq_nil_of_steps? hMore
    rw [eq_of_name? hName, String.ofList_toList]

/-! ### One key after the other -/

/-- A value lies under a key, or else a table or a list does. -/
def Given (K : String) (x t : Setting) : Prop :=
  ∃ v, value? K t = some v ∧ (v = x ∨ v.IsComposite)

/-- What is set under its own key lies there, unless it is a table. -/
theorem value?_put_plain {K : String} (hKey : (path? K).getD [.key K] = [.key K])
    (origin : Option String) (p : Plain) (t : Setting) :
    value? K (put K (.plain origin p) t) = some (.plain origin p) := by
  rw [put, hKey, modifyAt, value?_modifyKey, if_pos rfl]
  rfl

theorem putAll_cons (key : String) (x : Setting) (members : List (String × Setting))
    (t : Setting) : putAll ((key, x) :: members) t = putAll members (put key x t) := rfl

/-- Nothing else changes where a value is set under its own key. -/
theorem value?_put_of_ne {K k : String} (hKey : (path? k).getD [.key k] = [.key k]) (h : K ≠ k)
    (x t : Setting) : value? K (put k x t) = value? K t := by
  rw [put, hKey, modifyAt, value?_modifyKey, if_neg h]

/-- What lies under a key after a value was set depends on what lay there before, and on nothing
    else in the tree. -/
theorem value?_put_congr {K : String} {t u : Setting} (h : value? K t = value? K u) (key : String)
    (x : Setting) : value? K (put key x t) = value? K (put key x u) := by
  obtain ⟨k, path, hPath, -⟩ := exists_path key
  rw [put, put, hPath, modifyAt, value?_modifyKey, value?_modifyKey, h]

theorem value?_putAll_congr {K : String} {t u : Setting} (h : value? K t = value? K u)
    (members : List (String × Setting)) :
    value? K (putAll members t) = value? K (putAll members u) := by
  induction members generalizing t u with
  | nil => exact h
  | cons m members ih => exact ih (value?_put_congr h m.1 m.2)

section

variable {K : String} {x t : Setting}

theorem Given.put {key : String} (h : Given K x t) (hKey : key ≠ K) (value : Setting) :
    Given K x (put key value t) := by
  obtain ⟨v, hValue, hGiven⟩ := h
  obtain ⟨k, path, hPath, hEnd⟩ := exists_path key
  rw [Given, Setting.put, hPath, modifyAt, value?_modifyKey]
  by_cases hSame : K = k
  · -- the path leads through the key, and goes on
    rw [if_pos hSame]
    cases path with
    | nil => exact (hKey ((hEnd rfl).symm.trans hSame.symm)).elim
    | cons s path => exact ⟨_, rfl, Or.inr (isComposite_modifyAt _ s path _)⟩
  · rw [if_neg hSame]
    exact ⟨v, hValue, hGiven⟩

theorem Given.putAll {members : List (String × Setting)} (h : Given K x t)
    (hOther : ∀ m ∈ members, m.1 ≠ K) : Given K x (putAll members t) := by
  induction members generalizing t with
  | nil => exact h
  | cons m members ih =>
    obtain ⟨hFirst, hMore⟩ := List.forall_mem_cons.mp hOther
    exact ih (h.put hFirst m.2) hMore

end

/-- The last value that is set under a key lies there in the end, unless a table or a list does. -/
theorem given_putAll {K : String} (hKey : (path? K).getD [.key K] = [.key K])
    (before after : List (String × Setting)) (origin : Option String) (p : Plain)
    (hLast : ∀ m ∈ after, m.1 ≠ K) (t : Setting) :
    Given K (.plain origin p) (putAll (before ++ (K, .plain origin p) :: after) t) := by
  rw [putAll, List.foldl_append, List.foldl_cons]
  refine Given.putAll ?_ hLast
  exact ⟨_, value?_put_plain hKey origin p _, Or.inl rfl⟩

end RunnerPool.Setting
