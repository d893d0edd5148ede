import RunnerPool.Proofs.Json.Members
import RunnerPool.Proofs.Settings.Orders
import RunnerPool.Proofs.Settings.Tree

/-!
# Overrides shield the file

Settings are read off the values of nine keys.  A variable of the environment replaces whatever the
file has under its key, be it of another type, a list or a table, so that the file's value has no
influence on what is loaded, nor on why nothing is.  This is so in whatever order the members are
set and the keys are read: what one file can end with, the other can as well.

* `Settings.others K ms`   the members that have another key

## Main statements

- `Setting.exists_arranged`: members that differ under one key can be put into the same order
- `load_shielded`: two files that differ under a key that the environment sets are loaded alike
-/

namespace RunnerPool

namespace Settings

/-- The members that have another key. -/
def others (K : String) (ms : List (String × Setting)) : List (String × Setting) :=
  ms.filter (·.1 != K)

theorem others_cons_self (K : String) (x : Setting) (ms : List (String × Setting)) :
    others K ((K, x) :: ms) = others K ms :=
  List.filter_cons_of_neg (by simp)

theorem others_cons_of_ne {K k : String} (h : k ≠ K) (x : Setting) (ms : List (String × Setting)) :
    others K ((k, x) :: ms) = (k, x) :: others K ms :=
  List.filter_cons_of_pos (by simpa using h)

theorem others_ofMembers (K : String) (origin : Option String) (ms : Json.Members) :
    others K (Setting.ofMembers origin ms) =
      Setting.ofMembers origin (Json.Members.erase K ms) := by
  rw [ofMembers_eq_map, ofMembers_eq_map, others, Json.Members.erase, List.filter_map]
  rfl

end Settings

/-! ### Orders -/

namespace Setting

open Settings (others others_cons_self others_cons_of_ne)

variable {K : String} {ms ms' ns : List (String × Setting)}

theorem ArrangedMembers.others (h : ArrangedMembers ms ns) :
    ArrangedMembers (others K ms) (others K ns) := by
  induction ms generalizing ns with
  | nil =>
    cases h
    exact .nil
  | cons m ms ih =>
    cases h with
    | cons key h hs =>
      -- a member for `K` is left out on both sides
      by_cases hKey : key = K
      · rw [hKey, others_cons_self, others_cons_self]
        exact ih hs
      · rw [others_cons_of_ne hKey, others_cons_of_ne hKey]
        exact .cons key h (ih hs)

/-- How the members with other keys are arranged leaves it open where those with the key are. -/
theorem ArrangedMembers.exists_of_others (h : ArrangedMembers (Settings.others K ms) ns) :
    ∃ ks, ArrangedMembers ms ks ∧ Settings.others K ks = ns := by
  induction ms generalizing ns with
  | nil =>
    cases h
    exact ⟨[], .nil, rfl⟩
  | cons m ms ih =>
    obtain ⟨key, x⟩ := m
    -- a member for `K` stays where it is, any other one follows the arrangement
    by_cases hKey : key = K
    · rw [hKey, others_cons_self] at h
      obtain ⟨ks, hKs, hRest⟩ := ih h
      exact ⟨(K, x) :: ks, hKey ▸ .cons key (.refl x) hKs, (others_cons_self K x ks).trans hRest⟩
    · rw [others_cons_of_ne hKey] at h
      cases h with
      | cons _ h hs =>
        obtain ⟨ks, hKs, rfl⟩ := ih hs
        exact ⟨_, .cons key h hKs, others_cons_of_ne hKey _ ks⟩

/-- Members that are the same but for those with one key can be put into the same order, again but
    for those with the key. -/
theorem exists_arranged (hSame : Settings.others K ms = Settings.others K ms')
    (h : Arranged (.table ms) (.table ns)) :
    ∃ ns', Arranged (.table ms') (.table ns') ∧ Settings.others K ns' = Settings.others K ns := by
  cases h with
  | table h hPerm =>
    rename_i ks
    have hOthers := hSame ▸ h.others (K := K)
    obtain ⟨ks', hKs', hRest⟩ := hOthers.exists_of_others
    -- those with the key come first, and behind them the others in the order of the given ones
    refine ⟨ks'.filter (·.1 == K) ++ Settings.others K ns, .table hKs' ?_, ?_⟩
    · have hParts : (ks'.filter (·.1 == K) ++ Settings.others K ks').Perm ks' :=
        List.filter_append_perm (·.1 == K) ks'
      rw [hRest] at hParts
      exact hParts.symm.trans ((hPerm.filter _).append_left _)
    · have hNone : Settings.others K (ks'.filter (·.1 == K)) = [] := by
        rw [Settings.others, List.filter_filter, List.filter_eq_nil_iff]
        intro m _
        simp
      rw [Settings.others, List.filter_append, ← Settings.others, hNone, List.nil_append,
        Settings.others, List.filter_filter]
      simp only [Bool.and_self]

end Setting

namespace Settings

open Json (Members)

/-! ### Trees -/

/-- Trees that agree on the keys are read alike. -/
theorem ofTree_congr {t u : Setting} (h : ∀ K ∈ keys, value? K t = value? K u) :
    ofTree t = ofTree u := by
  simp only [keys, List.forall_mem_cons] at h
  obtain ⟨hNs, hName, hScaleSet, hMin, hMax, hLevel, hFormat, hAddress, hEndpoint, -⟩ := h
  simp only [ofTree, read?, hNs, hName, hScaleSet, hMin, hMax, hLevel, hFormat, hAddress,
    hEndpoint]

theorem typed_congr {t u : Setting} {key : String} (h : value? key t = value? key u) :
    typed t key = typed u key := by
  simp only [typed, read?, h]

/-- Trees that agree on the keys are settled alike, in whatever order the keys are read. -/
theorem settle_congr {t u : Setting} {order : List String} (hOrder : order.Perm keys)
    (h : ∀ K ∈ keys, value? K t = value? K u) : settle order t = settle order u := by
  -- each key's own check and the whole reading look at the values only
  have hEach : ∀ key ∈ order, typed t key = typed u key := fun key hKey =>
    typed_congr (h key (hOrder.mem_iff.mp hKey))
  have hAll : (order.forM fun key => (typed t key).mapError Error.load) =
      order.forM fun key => (typed u key).mapError Error.load := by
    clear hOrder
    induction order with
    | nil => rfl
    | cons key order ih =>
      obtain ⟨hFirst, hMore⟩ := List.forall_mem_cons.mp hEach
      simp only [List.forM_eq_forM, List.forM_cons, hFirst] at ih ⊢
      rw [ih hMore]
  rw [settle, settle, hAll, ofTree_congr h]

/-! ### Files -/

variable {K K' : String}

/-- A member of the file makes no difference under the other keys. -/
theorem value?_putAll_others (hK : K ∈ keys) (h : K' ≠ K) (ms : List (String × Setting))
    (t : Setting) :
    value? K' (Setting.putAll ms t) = value? K' (Setting.putAll (others K ms) t) := by
  induction ms generalizing t with
  | nil => rfl
  | cons m ms ih =>
    obtain ⟨k, x⟩ := m
    by_cases hKey : k = K
    · -- the member is missing on one side, and on the other it is not put under the other key
      rw [hKey, others_cons_self, ← ih, Setting.putAll_cons]
      refine Setting.value?_putAll_congr ?_ _
      rw [Setting.value?_put_of_ne (path?_of_mem_keys hK) h]
    · rw [others_cons_of_ne hKey, Setting.putAll_cons, Setting.putAll_cons, ih]

/-! ### The environment -/

/-- A variable that is set leaves nothing of what was under its key. -/
theorem value?_environment_congr {env : List (String × String)} (hK : K ∈ keys)
    (hEnv : ∃ w ∈ env, keyOf? w.1 = some K) {es : List (String × Setting)}
    (hPerm : es.Perm (environmentMembers env)) (t u : Setting) :
    value? K (Setting.putAll es t) = value? K (Setting.putAll es u) := by
  obtain ⟨m, hMem, hKey⟩ := exists_mem_environmentMembers hEnv
  obtain ⟨w, -, -, hPlain⟩ := exists_of_mem_environmentMembers hMem
  obtain ⟨before, after, rfl⟩ := List.append_of_mem (hPerm.mem_iff.mpr hMem)
  have hPath := path?_of_mem_keys hK
  rw [Setting.putAll, Setting.putAll, List.foldl_append, List.foldl_append, List.foldl_cons,
    List.foldl_cons]
  -- both have the variable's value at once, and then the same is done to both
  refine Setting.value?_putAll_congr ?_ _
  rw [hKey, hPlain, Setting.value?_put_plain hPath, Setting.value?_put_plain hPath]

/-- Members that are the same but for those with a key that the environment sets give the same
    settings, or the same error, once the environment is set over them. -/
theorem settle_shielded (hK : K ∈ keys) {env : List (String × String)}
    (hEnv : ∃ w ∈ env, keyOf? w.1 = some K) {ms ns es : List (String × Setting)}
    (hSame : others K ms = others K ns) (hPerm : es.Perm (environmentMembers env))
    {order : List String} (hOrder : order.Perm keys) (t : Setting) :
    settle order (Setting.putAll es (Setting.putAll ms t)) =
      settle order (Setting.putAll es (Setting.putAll ns t)) := by
  refine settle_congr hOrder fun key _ => ?_
  -- at `K` itself the environment decides, and elsewhere the files agree
  by_cases hKey : key = K
  · rw [hKey]
    exact value?_environment_congr hK hEnv hPerm _ _
  · refine Setting.value?_putAll_congr ?_ _
    rw [value?_putAll_others hK hKey, hSame, ← value?_putAll_others hK hKey]

section

variable {files files' : String → Option (List UInt8)} {path file : String}
  {bytes bytes' : List UInt8} {ms ms' : Members} {env : List (String × String)}

/-- What the loading of one file can end with, that of the other can end with as well. -/
theorem loads_of_loads (hK : K ∈ keys) (hFile : findFile files path = .ok (file, bytes))
    (hFile' : findFile files' path = .ok (file, bytes'))
    (hRead : Json.Value.read (fileText bytes) = .ok (.object ms))
    (hRead' : Json.Value.read (fileText bytes') = .ok (.object ms'))
    (hSame : Members.erase K ms = Members.erase K ms')
    (hEnv : ∃ w ∈ env, keyOf? w.1 = some K) {r : Except Error Settings}
    (h : Loads files path env r) : Loads files' path env r := by
  -- the files differ in `K` at most, so only the case where both are read is left
  cases h with
  | notFound hNone => exact nomatch hFile.symm.trans hNone
  | notRead hFound hNone =>
    obtain ⟨rfl, rfl⟩ := Prod.mk.inj (Except.ok.inj (hFile.symm.trans hFound))
    exact nomatch (fileMembers_of_read hRead).symm.trans hNone
  | read hFound hMembers hFromFile hFromEnv hOrder =>
    obtain ⟨rfl, rfl⟩ := Prod.mk.inj (Except.ok.inj (hFile.symm.trans hFound))
    obtain rfl := Except.ok.inj ((fileMembers_of_read hRead).symm.trans hMembers)
    -- what else the files hold is the same, so the orders in which it may be met are too
    have hOthers : others K (Setting.ofMembers (some file) ms) =
        others K (Setting.ofMembers (some file) ms') := by
      rw [others_ofMembers, others_ofMembers, hSame]
    obtain ⟨fromFile', hArranged, hRest⟩ := Setting.exists_arranged hOthers hFromFile
    rw [settle_shielded hK hEnv hRest.symm hFromEnv hOrder]
    exact .read hFile' (fileMembers_of_read hRead') hArranged hFromEnv hOrder

/-- Take two files of one name that hold objects and differ at most in what they have under a key
    of the settings, which may be any value or none.  In an environment with a variable for that
    key, whatever it says, both are loaded alike: as the same settings, or with the same error.
    Where several orders of the members and of the keys lead to several ends, these are the same
    ends for both. -/
theorem load_shielded (hK : K ∈ keys) (hFile : findFile files path = .ok (file, bytes))
    (hFile' : findFile files' path = .ok (file, bytes'))
    (hRead : Json.Value.read (fileText bytes) = .ok (.object ms))
    (hRead' : Json.Value.read (fileText bytes') = .ok (.object ms'))
    (hSame : Members.erase K ms = Members.erase K ms')
    (hEnv : ∃ w ∈ env, keyOf? w.1 = some K) :
    load files path env = load files' path env ∧
      ∀ r, Loads files path env r ↔ Loads files' path env r := by
  -- the fixed order is one case, and every other order is met by both files alike
  constructor
  · rw [load_of_members hFile (fileMembers_of_read hRead),
      load_of_members hFile' (fileMembers_of_read hRead')]
    refine settle_shielded hK hEnv ?_ (.refl _) (.refl _) _
    rw [others_ofMembers, others_ofMembers, hSame]
  · intro r
    exact ⟨loads_of_loads hK hFile hFile' hRead hRead' hSame hEnv,
      loads_of_loads hK hFile' hFile hRead' hRead hSame.symm hEnv⟩

end

/-! The least size is a table in one file and absent in the other, and a variable sets it. -/

private def poolMembers : Members :=
  [("ephemeral_runner_set_name", .text "pool"), ("ephemeral_runner_set_namespace", .text "ns")]

private def nestedMembers : Members :=
  ("min_runners", .object [("low", .array [.int 1])]) :: poolMembers

private def fileOf (ms : Members) : String → Option (List UInt8)
  | "config.json" => some (Utf8.encode (Json.Value.object ms).chars)
  | _ => none

theorem load_shielded_nested :
    (load (fileOf nestedMembers) "config" [(variableOf "min_runners", "2")] =
        load (fileOf poolMembers) "config" [(variableOf "min_runners", "2")] ∧
      ∀ r, Loads (fileOf nestedMembers) "config" [(variableOf "min_runners", "2")] r ↔
        Loads (fileOf poolMembers) "config" [(variableOf "min_runners", "2")] r) ∧
      load (fileOf poolMembers) "config" [(variableOf "min_runners", "2")] =
        .ok { ns := "ns", name := "pool", minRunners := 2 } := by
  have hKey : "min_runners" ∈ keys := by decide
  have hFile : findFile (fileOf nestedMembers) "config" =
      .ok ("config.json", Utf8.encode (Json.Value.object nestedMembers).chars) := rfl
  have hFile' : findFile (fileOf poolMembers) "config" =
      .ok ("config.json", Utf8.encode (Json.Value.object poolMembers).chars) := rfl
  have hText : fileText (Utf8.encode (Json.Value.object nestedMembers).chars) =
      (Json.Value.object nestedMembers).chars := by decide +kernel
  have hText' : fileText (Utf8.encode (Json.Value.object poolMembers).chars) =
      (Json.Value.object poolMembers).chars := by decide +kernel
  have hOne : Json.Numeral.IsExact 1 := ⟨by decide, by decide⟩
  have hRead := Json.Value.read_chars (v := .object nestedMembers)
    ⟨⟨⟨hOne, trivial⟩, trivial⟩, trivial, trivial, trivial⟩ (by decide)
  have hRead' := Json.Value.read_chars (v := .object poolMembers)
    ⟨trivial, trivial, trivial⟩ (by decide)
  rw [← hText] at hRead
  rw [← hText'] at hRead'
  refine ⟨load_shielded hKey hFile hFile' hRead hRead' ?_ ?_, by decide +kernel⟩
  · -- no other member has the key
    refine ((Members.ascending_ofList _).erase _).ext ((Members.ascending_ofList _).erase _)
      fun key => ?_
    rw [Members.get?_erase, Members.get?_erase, Members.get?_ofList, Members.get?_ofList,
      nestedMembers, Json.Value.sortedMembers, Members.last?]
    split
    · rfl
    · rw [Option.or_none]
  · exact ⟨_, List.mem_singleton_self _, keyOf?_variableOf hKey⟩

end RunnerPool.Settings
