import RunnerPool.Json.Value

/-!
# Members as a finite map

An object is a list of members, and every operation on it is known by what it does to the
look-up of each key:

* `Members.get?_insert`            one key is set
* `Members.get?_erase`             one key is removed
* `Members.get?_ofList`            members are put in order, the last of each key counts
* `Members.Ascending.ext`          ascending members are known by their look-ups
* `Value.beq_object_iff`           two objects are equal if their look-ups are, key by key

The last one needs ascending keys, which insertion and removal keep.  `Value.member_induction`
is induction on a value through the members of its objects.
-/

namespace RunnerPool.Json

namespace Members

/-! ### Look-up after each operation -/

@[simp] theorem get?_nil (key : String) : get? key [] = none := rfl

theorem get?_cons (key k : String) (v : Value) (ms : Members) :
    get? key ((k, v) :: ms) = if k = key then some v else get? key ms := rfl

/-- Insertion sets one key and leaves the others alone. -/
theorem get?_insert (key k : String) (v : Value) (ms : Members) :
    get? key (insert k v ms) = if k = key then some v else get? key ms := by
  induction ms with
  | nil => rfl
  | cons m ms ih =>
    obtain ⟨l, w⟩ := m
    simp only [insert]
    -- the member goes in front, replaces its own, or goes further back
    split
    · rfl
    · split
      · rename_i heq
        subst heq
        simp only [get?_cons]
        split <;> rfl
      · rename_i hne
        simp only [get?_cons, ih]
        by_cases hl : l = key
        · simp only [hl, ↓reduceIte]
          rw [if_neg (fun h => hne (h.trans hl.symm))]
        · simp only [hl, ↓reduceIte]

/-- Members that are kept by their keys are found as before. -/
theorem get?_filter (p : String → Bool) (key : String) (ms : Members) :
    get? key (ms.filter fun m => p m.1) = if p key then get? key ms else none := by
  induction ms with
  | nil => simp
  | cons m ms ih =>
    obtain ⟨k, v⟩ := m
    -- the filter asks for the key only, so it keeps all of a key's members or none
    by_cases hKey : k = key
    · subst hKey
      cases hp : p k with
      | true => simp [hp, get?_cons]
      | false => simpa [hp] using ih
    · cases hp : p k with
      | true => simp [hp, get?_cons, hKey, ih]
      | false => simp [hp, get?_cons, hKey, ih]

/-- Removal takes one key out and leaves the others alone. -/
theorem get?_erase (key k : String) (ms : Members) :
    get? key (erase k ms) = if k = key then none else get? key ms := by
  rw [erase, get?_filter (· != k)]
  by_cases hKey : k = key
  · simp [hKey]
  · simp [hKey, Ne.symm hKey]

/-- What is found is a member. -/
theorem mem_of_get? (key : String) (v : Value) (ms : Members) (h : get? key ms = some v) :
    (key, v) ∈ ms := by
  induction ms with
  | nil => exact nomatch h
  | cons m ms ih =>
    obtain ⟨k, w⟩ := m
    rw [get?_cons] at h
    split at h
    · rename_i heq
      cases h
      rw [heq]
      exact List.mem_cons_self
    · exact List.mem_cons_of_mem _ (ih h)

/-- A key is found if and only if it is among the keys. -/
theorem hasKey_iff_mem_keys (key : String) (ms : Members) :
    hasKey key ms = true ↔ key ∈ keys ms := by
  induction ms with
  | nil => simp [hasKey, keys]
  | cons m ms ih =>
    obtain ⟨k, w⟩ := m
    simp only [hasKey, keys, get?_cons, List.map_cons, List.mem_cons] at ih ⊢
    by_cases hk : k = key
    · simp [hk]
    · simp only [hk, ↓reduceIte, ih, Ne.symm hk, false_or]

/-- A key that is not among the keys is not found. -/
theorem get?_eq_none_of_not_mem (key : String) (ms : Members) (h : key ∉ keys ms) :
    get? key ms = none := by
  rw [← hasKey_iff_mem_keys] at h
  simpa [hasKey] using h

/-! ### Ascending keys -/

theorem ascending_nil : Ascending [] := List.Pairwise.nil

theorem ascending_cons (k : String) (v : Value) (ms : Members) :
    Ascending ((k, v) :: ms) ↔ (∀ l ∈ keys ms, k < l) ∧ Ascending ms :=
  List.pairwise_cons

/-- The first of ascending keys does not occur again. -/
theorem Ascending.not_mem_tail {k : String} {v : Value} {ms : Members}
    (h : Ascending ((k, v) :: ms)) : k ∉ keys ms := by
  intro hmem
  exact String.lt_irrefl k (((ascending_cons k v ms).mp h).1 k hmem)

/-- The keys after an insertion are the old ones and the new one. -/
theorem mem_keys_insert (key k : String) (v : Value) (ms : Members)
    (h : key ∈ keys (insert k v ms)) : key = k ∨ key ∈ keys ms := by
  rw [← hasKey_iff_mem_keys, hasKey, get?_insert] at h
  split at h
  · rename_i heq
    exact Or.inl heq.symm
  · exact Or.inr ((hasKey_iff_mem_keys key ms).mp h)

/-- Insertion keeps the keys ascending. -/
theorem Ascending.insert {ms : Members} (h : Ascending ms) (k : String) (v : Value) :
    Ascending (insert k v ms) := by
  induction ms with
  | nil => exact List.pairwise_singleton _ _
  | cons m ms ih =>
    obtain ⟨l, w⟩ := m
    obtain ⟨hl, hms⟩ := (ascending_cons l w ms).mp h
    simp only [Members.insert]
    split
    · -- the new key is the least
      rename_i hlt
      refine (ascending_cons k v _).mpr ⟨?_, h⟩
      intro j hj
      cases List.mem_cons.mp hj with
      | inl heq => rw [heq]; exact hlt
      | inr htail => exact String.lt_trans hlt (hl j htail)
    · split
      · rename_i heq
        subst heq
        exact (ascending_cons k v ms).mpr ⟨hl, hms⟩
      · -- the new key comes later, and the first key is less than it
        rename_i hnlt hne
        refine (ascending_cons l w _).mpr ⟨?_, ih hms⟩
        intro j hj
        cases mem_keys_insert j k v ms hj with
        | inl heq => grind
        | inr hold => exact hl j hold

/-- Leaving members out keeps the keys ascending. -/
theorem Ascending.filter {ms : Members} (h : Ascending ms) (p : String × Value → Bool) :
    Ascending (ms.filter p) :=
  List.Pairwise.sublist (List.Sublist.map _ List.filter_sublist) h

/-- Removal keeps the keys ascending. -/
theorem Ascending.erase {ms : Members} (h : Ascending ms) (k : String) :
    Ascending (erase k ms) :=
  h.filter _

/-- Ascending keys are distinct. -/
theorem Ascending.nodup_keys {ms : Members} (h : Ascending ms) : (keys ms).Nodup :=
  h.imp String.ne_of_lt

/-! ### Members put in order -/

private theorem ascending_foldl_insert {acc : Members} (h : Ascending acc)
    (ms : List (String × Value)) :
    Ascending (ms.foldl (fun acc m => Members.insert m.1 m.2 acc) acc) := by
  induction ms generalizing acc with
  | nil => exact h
  | cons m ms ih => exact ih (h.insert m.1 m.2)

/-- Members that were put in order have ascending keys. -/
theorem ascending_ofList (ms : List (String × Value)) : Ascending (ofList ms) :=
  ascending_foldl_insert ascending_nil ms

/-- The value of the last member with the key. -/
def last? (key : String) : Members → Option Value
  | [] => none
  | (k, v) :: ms => (last? key ms).or (if k = key then some v else none)

private theorem get?_foldl_insert (key : String) (ms : List (String × Value)) (acc : Members) :
    get? key (ms.foldl (fun acc m => insert m.1 m.2 acc) acc) =
      (last? key ms).or (get? key acc) := by
  induction ms generalizing acc with
  | nil => rfl
  | cons m ms ih =>
    obtain ⟨k, v⟩ := m
    rw [List.foldl_cons, ih, get?_insert, last?, Option.or_assoc]
    split <;> rfl

/-- Of members put in order the last of each key is found. -/
theorem get?_ofList (key : String) (ms : List (String × Value)) :
    get? key (ofList ms) = last? key ms := by
  rw [ofList, get?_foldl_insert, get?_nil, Option.or_none]

theorem last?_eq_none_iff {key : String} {ms : Members} : last? key ms = none ↔ key ∉ keys ms := by
  induction ms with
  | nil => simp [last?, keys]
  | cons m ms ih =>
    obtain ⟨k, v⟩ := m
    rw [last?, Option.or_eq_none_iff, ih]
    simp [keys, eq_comm, and_comm]

theorem last?_append (key : String) (ms ns : Members) :
    last? key (ms ++ ns) = (last? key ns).or (last? key ms) := by
  induction ms with
  | nil => exact (Option.or_none ..).symm
  | cons m ms ih =>
    obtain ⟨k, v⟩ := m
    rw [List.cons_append, last?, ih, last?, Option.or_assoc]

/-- The members with other keys do not matter. -/
theorem last?_filter (key : String) (ms : Members) :
    last? key (ms.filter fun m => m.1 = key) = last? key ms := by
  induction ms with
  | nil => rfl
  | cons m ms ih =>
    obtain ⟨k, v⟩ := m
    by_cases hKey : k = key
    · rw [List.filter_cons_of_pos (by simpa using hKey), last?, last?, ih]
    · rw [List.filter_cons_of_neg (by simpa using hKey), last?, ih, if_neg hKey, Option.or_none]

/-- Among distinct keys there is one member at most to be found. -/
theorem last?_of_nodup (key : String) {ms : List (String × Value)} (h : (keys ms).Nodup) :
    last? key ms = get? key ms := by
  induction ms with
  | nil => rfl
  | cons m ms ih =>
    obtain ⟨k, v⟩ := m
    obtain ⟨hFirst, hMore⟩ := List.nodup_cons.mp h
    rw [last?, get?_cons, ih hMore]
    -- a later member with the same key cannot be
    split
    · rename_i hSame
      subst hSame
      rw [get?_eq_none_of_not_mem k ms hFirst, Option.none_or]
    · rw [Option.or_none]

/-- Among distinct keys what is found for a key is the member with it. -/
theorem last?_eq_some_iff {key : String} {x : Value} {ms : Members} (h : (keys ms).Nodup) :
    last? key ms = some x ↔ (key, x) ∈ ms := by
  rw [last?_of_nodup key h]
  -- only one member has the key, so the first found is the one that is there
  refine ⟨mem_of_get? key x ms, fun hMem => ?_⟩
  induction ms with
  | nil => exact nomatch hMem
  | cons m ms ih =>
    obtain ⟨k, v⟩ := m
    obtain ⟨hFirst, hMore⟩ := List.nodup_cons.mp h
    rw [get?_cons]
    rcases List.mem_cons.mp hMem with hSame | hRest
    · cases hSame
      exact if_pos rfl
    · have hOther : k ≠ key := fun hSame =>
        hFirst (List.mem_map.mpr ⟨(key, x), hRest, hSame.symm⟩)
      rw [if_neg hOther]
      exact ih hMore hRest

/-- Putting members of distinct keys in order leaves every look-up as it was. -/
theorem get?_ofList_of_nodup (key : String) {ms : List (String × Value)} (h : (keys ms).Nodup) :
    get? key (ofList ms) = get? key ms := by
  rw [get?_ofList, last?_of_nodup key h]

/-! ### Comparing members -/

/-- Ascending members with the same keys begin with the same key, the least one. -/
theorem Ascending.exists_cons {k : String} {x : Value} {ms ns : Members}
    (hms : Ascending ((k, x) :: ms)) (hns : Ascending ns)
    (h : ∀ key, key ∈ keys ((k, x) :: ms) ↔ key ∈ keys ns) :
    ∃ y rest, ns = (k, y) :: rest := by
  have hk := ((ascending_cons k x ms).mp hms).1
  cases ns with
  | nil => exact nomatch (h k).mp List.mem_cons_self
  | cons n ns =>
    obtain ⟨l, y⟩ := n
    have hl := ((ascending_cons l y ns).mp hns).1
    have hleft := (h k).mp List.mem_cons_self
    have hright := (h l).mpr List.mem_cons_self
    -- each list holds the other's least key, so neither key is below the other
    have hkl : k = l := by
      rcases List.mem_cons.mp hleft with heq | hleft
      · exact heq
      · rcases List.mem_cons.mp hright with heq | hright
        · exact heq.symm
        · exact absurd (hk l hright) (String.lt_asymm (hl k hleft))
    exact ⟨y, ns, by rw [hkl]⟩

/-- The look-up of a key behind the first one. -/
theorem Ascending.get?_tail {k : String} {x : Value} {ms : Members}
    (h : Ascending ((k, x) :: ms)) (key : String) :
    get? key ms = if k = key then none else get? key ((k, x) :: ms) := by
  rw [get?_cons]
  split
  · rename_i hkey
    exact get?_eq_none_of_not_mem key ms (hkey ▸ h.not_mem_tail)
  · rfl

/-- Ascending members are known by their look-ups. -/
theorem Ascending.ext {ms ns : Members} (hms : Ascending ms) (hns : Ascending ns)
    (h : ∀ key, get? key ms = get? key ns) : ms = ns := by
  have hKeys (key : String) : key ∈ keys ms ↔ key ∈ keys ns := by
    rw [← hasKey_iff_mem_keys, ← hasKey_iff_mem_keys, hasKey, hasKey, h key]
  -- the two lists start with the same key, and their tails agree on every key
  induction ms generalizing ns with
  | nil =>
    cases ns with
    | nil => rfl
    | cons n ns => exact nomatch (hKeys n.1).mpr List.mem_cons_self
  | cons m ms ih =>
    obtain ⟨k, x⟩ := m
    obtain ⟨y, ns, rfl⟩ := hms.exists_cons hns hKeys
    -- the first members have one key, so they are equal by looking it up
    have hxy : x = y := by simpa [get?_cons] using h k
    have hrest (key : String) : get? key ms = get? key ns := by
      rw [hms.get?_tail, hns.get?_tail, h key]
    have hTail : ms = ns := by
      refine ih ((ascending_cons k x ms).mp hms).2 ((ascending_cons k y ns).mp hns).2 hrest ?_
      intro key
      rw [← hasKey_iff_mem_keys, ← hasKey_iff_mem_keys, hasKey, hasKey, hrest key]
    rw [hxy, hTail]

end Members

namespace Value

open Members

/-- The members of an object; any other value has none. -/
def members : Value → Members
  | .object ms => ms
  | _ => []

@[simp] theorem members_object (ms : Members) : members (.object ms) = ms := rfl

theorem member?_eq_get? (key : String) (v : Value) : v.member? key = get? key v.members := by
  cases v <;> rfl

/-! ### Induction through members -/

/-- A member is smaller than the members that it is found among. -/
private theorem sizeOf_get?_lt (key : String) (v : Value) (ms : Members)
    (h : get? key ms = some v) : sizeOf v < sizeOf ms := by
  have hlt := List.sizeOf_lt_of_mem (mem_of_get? key v ms h)
  have hpair : sizeOf (key, v) = 1 + sizeOf key + sizeOf v := rfl
  omega

/-- What holds of a value if it holds of its members, holds of every value. -/
theorem member_induction {P : Value → Prop}
    (step : ∀ v, (∀ key w, get? key v.members = some w → P w) → P v) (v : Value) : P v := by
  apply step
  intro key w hw
  -- a member is smaller than the object it is of
  have hlt : sizeOf w < sizeOf v := by
    cases v with
    | object ms =>
      have := sizeOf_get?_lt key w ms hw
      simp only [Value.object.sizeOf_spec]
      omega
    | _ => exact nomatch hw
  exact member_induction step w
termination_by sizeOf v

/-! ### Canonical values -/

private theorem canonical_of_mem (key : String) (v : Value) (ms : Members)
    (h : MembersCanonical ms) (hmem : (key, v) ∈ ms) : v.Canonical := by
  induction ms with
  | nil => exact nomatch hmem
  | cons m ms ih =>
    obtain ⟨k, w⟩ := m
    cases List.mem_cons.mp hmem with
    | inl heq => cases heq; exact h.1
    | inr htail => exact ih h.2 htail

instance (ms : Members) : Decidable (Ascending ms) :=
  inferInstanceAs (Decidable ((keys ms).Pairwise (· < ·)))

mutual

/-- Whether a value is canonical. -/
def decideCanonical : (v : Value) → Decidable v.Canonical
  | .null => isTrue trivial
  | .bool _ => isTrue trivial
  | .number _ => isTrue trivial
  | .text _ => isTrue trivial
  | .array xs => decideItemsCanonical xs
  | .object ms =>
    have := decideMembersCanonical ms
    inferInstanceAs (Decidable (Ascending ms ∧ MembersCanonical ms))
termination_by structural v => v

/-- Whether every item is canonical. -/
def decideItemsCanonical : (xs : List Value) → Decidable (ItemsCanonical xs)
  | [] => isTrue trivial
  | x :: xs =>
    have := decideCanonical x
    have := decideItemsCanonical xs
    inferInstanceAs (Decidable (Canonical x ∧ ItemsCanonical xs))
termination_by structural xs => xs

/-- Whether the value of every member is canonical. -/
def decideMembersCanonical : (ms : List (String × Value)) → Decidable (MembersCanonical ms)
  | [] => isTrue trivial
  | (_, x) :: ms =>
    have := decideCanonical x
    have := decideMembersCanonical ms
    inferInstanceAs (Decidable (Canonical x ∧ MembersCanonical ms))
termination_by structural ms => ms

end

instance (v : Value) : Decidable v.Canonical := decideCanonical v

/-- The keys of a canonical value are ascending. -/
theorem Canonical.ascending {v : Value} (h : v.Canonical) : Ascending v.members := by
  cases v with
  | object ms => exact h.1
  | _ => exact ascending_nil

/-- The members of a canonical value are canonical. -/
theorem Canonical.member {v w : Value} {key : String} (h : v.Canonical)
    (hw : get? key v.members = some w) : w.Canonical := by
  cases v with
  | object ms => exact canonical_of_mem key w ms h.2 (mem_of_get? key w ms hw)
  | _ => exact nomatch hw

/-! ### Equality -/

private theorem number_beq_refl (n : Number) : (n == n) = true := by
  cases n with
  | int n => exact BEq.rfl (a := n)
  | float x =>
    show Binary64.beq x x = true
    simp [Binary64.beq]

mutual

private theorem beq_self : (v : Value) → Value.beq v v = true
  | .null => rfl
  | .bool b => BEq.rfl (a := b)
  | .number n => number_beq_refl n
  | .text s => BEq.rfl (a := s)
  | .array xs => itemsBeq_self xs
  | .object ms => membersBeq_self ms
termination_by structural v => v

private theorem itemsBeq_self : (xs : List Value) → itemsBeq xs xs = true
  | [] => rfl
  | x :: xs => by rw [itemsBeq, beq_self x, itemsBeq_self xs, Bool.and_self]
termination_by structural xs => xs

private theorem membersBeq_self : (ms : List (String × Value)) → membersBeq ms ms = true
  | [] => rfl
  | (k, x) :: ms => by
    rw [membersBeq, beq_self x, membersBeq_self ms, BEq.rfl, Bool.and_self, Bool.and_self]
termination_by structural ms => ms

end

instance : ReflBEq Value := ⟨beq_self _⟩

/-- Only `null` equals `null`. -/
theorem beq_null_iff (v : Value) : (v == .null) = true ↔ v = .null := by
  cases v with
  | null => exact ⟨fun _ => rfl, fun _ => rfl⟩
  | _ => exact ⟨(nomatch ·), (nomatch ·)⟩

/-- Two members that may be absent are equal if both are absent, or both are there and equal. -/
theorem option_beq_cases {x? y? : Option Value} (h : (x? == y?) = true) :
    (x? = none ∧ y? = none) ∨ ∃ x y, x? = some x ∧ y? = some y ∧ (x == y) = true := by
  cases x? with
  | none =>
    cases y? with
    | none => exact Or.inl ⟨rfl, rfl⟩
    | some y => exact nomatch h
  | some x =>
    cases y? with
    | none => exact nomatch h
    | some y => exact Or.inr ⟨x, y, rfl, rfl, h⟩

private theorem get?_beq_of_membersBeq (ms ns : Members) (h : membersBeq ms ns = true)
    (key : String) : (get? key ms == get? key ns) = true := by
  induction ms generalizing ns with
  | nil =>
    cases ns with
    | nil => rfl
    | cons n ns => exact nomatch h
  | cons m ms ih =>
    cases ns with
    | nil => exact nomatch h
    | cons n ns =>
      obtain ⟨k, x⟩ := m
      obtain ⟨l, y⟩ := n
      simp only [membersBeq, Bool.and_eq_true, beq_iff_eq] at h
      -- equal lists have equal keys in the same places
      obtain ⟨⟨rfl, hxy⟩, hrest⟩ := h
      simp only [get?_cons]
      split
      · exact hxy
      · exact ih ns hrest

/-- Equal values have equal members. -/
theorem get?_members_beq (v w : Value) (h : (v == w) = true) (key : String) :
    (get? key v.members == get? key w.members) = true := by
  cases v with
  | object ms =>
    cases w with
    | object ns => exact get?_beq_of_membersBeq ms ns h key
    | _ => exact nomatch h
  | _ =>
    cases w with
    | object ns => exact nomatch h
    | _ => rfl

private theorem mem_keys_iff_of_get?_beq (ms ns : Members)
    (h : ∀ key, (get? key ms == get? key ns) = true) (key : String) :
    key ∈ keys ms ↔ key ∈ keys ns := by
  rw [← hasKey_iff_mem_keys, ← hasKey_iff_mem_keys, hasKey, hasKey]
  rcases option_beq_cases (h key) with ⟨hms, hns⟩ | ⟨x, y, hms, hns, -⟩
  · rw [hms, hns]
  · rw [hms, hns]
    rfl

private theorem membersBeq_of_get?_beq (ms ns : Members) (hms : Ascending ms)
    (hns : Ascending ns) (h : ∀ key, (get? key ms == get? key ns) = true) :
    membersBeq ms ns = true := by
  -- as for equality of values, with the comparison in its place
  induction ms generalizing ns with
  | nil =>
    cases ns with
    | nil => rfl
    | cons n ns =>
      have hfirst := h n.1
      rw [get?_cons, if_pos rfl] at hfirst
      exact nomatch hfirst
  | cons m ms ih =>
    obtain ⟨k, x⟩ := m
    obtain ⟨y, ns, rfl⟩ := hms.exists_cons hns (mem_keys_iff_of_get?_beq _ _ h)
    have hxy : Value.beq x y = true := by
      have hfirst := h k
      rwa [get?_cons, if_pos rfl, get?_cons, if_pos rfl] at hfirst
    have hrest : membersBeq ms ns = true := by
      refine ih ns ((ascending_cons k x ms).mp hms).2 ((ascending_cons k y ns).mp hns).2 ?_
      -- the head's key is in neither tail
      intro key
      rw [hms.get?_tail, hns.get?_tail]
      split
      · rfl
      · exact h key
    simp only [membersBeq, BEq.rfl, hxy, hrest, Bool.and_self]

/-- Objects with ascending keys are equal if and only if they are so key by key. -/
theorem beq_object_iff (ms ns : Members) (hms : Ascending ms) (hns : Ascending ns) :
    (Value.object ms == .object ns) = true ↔
      ∀ key, (get? key ms == get? key ns) = true :=
  ⟨fun h key => get?_beq_of_membersBeq ms ns h key, membersBeq_of_get?_beq ms ns hms hns⟩

end Value

end RunnerPool.Json
