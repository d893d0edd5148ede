import RunnerPool.Proofs.Json.Language
import RunnerPool.Settings.Load

/-!
# How settings are loaded

Settings are read off a tree: that of the members of a file, with the variables of the environment
set over it.  Each is what lies under its key, taken for its type, or its default.

* `Settings.variableOf`   the variable that is named after a key
* `Settings.ReadFrom`     the settings of a tree
* `Settings.overlaid`     the tree of a file and an environment

## Main statements

- `ofTree_eq_ok_iff`: what settings are read off a tree
- `fileMembers_of_read`, `exists_of_tree`: the tree of a file is that of its object
- `load_eq_ok_iff`: what settings are loaded
-/

namespace RunnerPool.Settings

open Json (exists_of_bind_eq_ok exists_of_map_eq_ok)

/-! ### The keys -/

/-- No key leads further into the tree. -/
theorem path?_of_mem_keys {K : String} (h : K ∈ keys) :
    (Setting.path? K).getD [.key K] = [.key K] := by
  have hAll : ∀ K ∈ keys, (Setting.path? K).getD [.key K] = [.key K] := by decide +kernel
  exact hAll K h

/-- The variable that is named after a key. -/
def variableOf (K : String) : String :=
  "LISTENER_" ++ String.ofList (K.toList.map Char.toUpper)

theorem keyOf?_variableOf {K : String} (h : K ∈ keys) : keyOf? (variableOf K) = some K := by
  have hAll : ∀ K ∈ keys, keyOf? (variableOf K) = some K := by decide +kernel
  exact hAll K h

/-! ### Settings of a tree -/

/-- Each setting is what lies under its key, taken for its type, or its default. -/
structure ReadFrom (s : Settings) (t : Setting) : Prop where
  ns : read? "ephemeral_runner_set_namespace" asText t = .ok (some s.ns)
  name : read? "ephemeral_runner_set_name" asText t = .ok (some s.name)
  scaleSet : (read? "runner_scale_set_name" asText t).map (·.getD "") = .ok s.scaleSet
  minRunners : (read? "min_runners" asInt32 t).map (·.getD 0) = .ok s.minRunners
  maxRunners : (read? "max_runners" asInt32 t).map (·.getD Int32.maxValue) = .ok s.maxRunners
  logLevel : (read? "log_level" asText t).map (·.getD "info") = .ok s.logLevel
  logFormat : (read? "log_format" (fun _ => asFormat) t).map (·.getD .json) = .ok s.logFormat
  metricsAddress : (read? "metrics_addr" asText t).map (·.getD "") = .ok s.metricsAddress
  metricsEndpoint : (read? "metrics_endpoint" asText t).map (·.getD "/metrics") =
    .ok s.metricsEndpoint

theorem eq_some_of_must {key : String} {r : Option α} {a : α} (h : must key r = .ok a) :
    r = some a := by
  cases r with
  | none => exact nomatch h
  | some b => exact congrArg some (Except.ok.inj h)

theorem ofTree_eq_ok_iff {t : Setting} {s : Settings} : ofTree t = .ok s ↔ s.ReadFrom t := by
  constructor
  -- every setting was read, in the order of the fields, and the two with no default are there
  · intro h
    rw [ofTree] at h
    obtain ⟨_, hNs, h⟩ := exists_of_bind_eq_ok h
    obtain ⟨_, hName, h⟩ := exists_of_bind_eq_ok h
    obtain ⟨_, hScaleSet, h⟩ := exists_of_bind_eq_ok h
    obtain ⟨_, hMin, h⟩ := exists_of_bind_eq_ok h
    obtain ⟨_, hMax, h⟩ := exists_of_bind_eq_ok h
    obtain ⟨_, hLevel, h⟩ := exists_of_bind_eq_ok h
    obtain ⟨_, hFormat, h⟩ := exists_of_bind_eq_ok h
    obtain ⟨_, hAddress, h⟩ := exists_of_bind_eq_ok h
    obtain ⟨_, hEndpoint, h⟩ := exists_of_bind_eq_ok h
    obtain ⟨_, hMustNs, h⟩ := exists_of_bind_eq_ok h
    obtain ⟨_, hMustName, h⟩ := exists_of_bind_eq_ok h
    obtain rfl := Except.ok.inj h
    rw [eq_some_of_must hMustNs] at hNs
    rw [eq_some_of_must hMustName] at hName
    constructor <;> simp only [*, Except.map]
  -- each setting is read from the tree or takes its default, so no read fails
  · intro h
    obtain ⟨_, hScaleSet, hScaleSet'⟩ := exists_of_map_eq_ok h.scaleSet
    obtain ⟨_, hMin, hMin'⟩ := exists_of_map_eq_ok h.minRunners
    obtain ⟨_, hMax, hMax'⟩ := exists_of_map_eq_ok h.maxRunners
    obtain ⟨_, hLevel, hLevel'⟩ := exists_of_map_eq_ok h.logLevel
    obtain ⟨_, hFormat, hFormat'⟩ := exists_of_map_eq_ok h.logFormat
    obtain ⟨_, hAddress, hAddress'⟩ := exists_of_map_eq_ok h.metricsAddress
    obtain ⟨_, hEndpoint, hEndpoint'⟩ := exists_of_map_eq_ok h.metricsEndpoint
    rw [ofTree]
    simp only [h.ns, h.name, hScaleSet, hMin, hMax, hLevel, hFormat, hAddress, hEndpoint, bind,
      Except.bind, must, hScaleSet', hMin', hMax', hLevel', hFormat', hAddress', hEndpoint']
    rfl

theorem exists_of_read? {key : String} {as : String → Setting → Except LoadFault α} {t v : Setting}
    {r : Option α} (hValue : value? key t = some v) (h : read? key as t = .ok r) :
    ∃ a, as key v = .ok a ∧ r = some a := by
  rw [read?, hValue] at h
  obtain ⟨a, hRead, rfl⟩ := exists_of_map_eq_ok h
  exact ⟨a, hRead, rfl⟩

/-- A setting that must be there is what lies under its key. -/
theorem taken_of_read? {key : String} {as : String → Setting → Except LoadFault α} {t v : Setting}
    {a : α} (hValue : value? key t = some v) (h : read? key as t = .ok (some a)) :
    as key v = .ok a := by
  obtain ⟨b, hTaken, hSame⟩ := exists_of_read? hValue h
  rw [Option.some.inj hSame]
  exact hTaken

/-- A setting with a default is what lies under its key, if anything does. -/
theorem taken_of_read?_getD {key : String} {as : String → Setting → Except LoadFault α}
    {t v : Setting} {d a : α} (hValue : value? key t = some v)
    (h : (read? key as t).map (·.getD d) = .ok a) : as key v = .ok a := by
  obtain ⟨r, hRead, rfl⟩ := exists_of_map_eq_ok h
  obtain ⟨b, hTaken, rfl⟩ := exists_of_read? hValue hRead
  exact hTaken

/-! ### Trees of files -/

theorem eq_ok_of_mapError {x : Except ε α} {f : ε → δ} {a : α} (h : x.mapError f = .ok a) :
    x = .ok a := by
  cases x with
  | error e => exact nomatch h
  | ok b => exact congrArg _ (Except.ok.inj h)

theorem ofMembers_eq_map (origin : Option String) (ms : Json.Members) :
    Setting.ofMembers origin ms = ms.map fun m => (m.1, Setting.ofJson origin m.2) := by
  induction ms with
  | nil => rfl
  | cons m ms ih => rw [Setting.ofMembers, ih, List.map_cons]

/-- The tree of the members of a file, with the environment set over it. -/
def overlaid (file : String) (ms : Json.Members) (env : List (String × String)) : Setting :=
  .putAll (environmentMembers env) (.putAll (Setting.ofMembers (some file) ms) (.table []))

section

variable {files : String → Option (List UInt8)} {path file : String} {bytes : List UInt8}
  {env : List (String × String)} {ms : Json.Members}

/-- A file with an object gives its members. -/
theorem fileMembers_of_read (hRead : Json.Value.read (fileText bytes) = .ok (.object ms)) :
    fileMembers file bytes = .ok (Setting.ofMembers (some file) ms) := by
  rw [fileMembers]
  simp only [hRead, Setting.ofJson]

/-- Only an object is a table. -/
theorem exists_of_ofJson_eq_table {origin : Option String} {v : Json.Value}
    {members : List (String × Setting)} (h : Setting.ofJson origin v = .table members) :
    ∃ ms, v = .object ms ∧ members = Setting.ofMembers origin ms := by
  cases v with
  | object ms => exact ⟨ms, rfl, (Setting.table.inj h).symm⟩
  | number n => cases n <;> exact nomatch h
  | _ => exact nomatch h

/-- Only a file with an object gives a tree. -/
theorem exists_of_tree {t : Setting} (hFile : findFile files path = .ok (file, bytes))
    (h : tree files path env = .ok t) :
    ∃ ms, Json.Value.read (fileText bytes) = .ok (.object ms) ∧ t = overlaid file ms env := by
  -- the file is found, its members are read, and the environment is laid over them
  obtain ⟨found, hFound, h⟩ := exists_of_bind_eq_ok h
  obtain rfl := Except.ok.inj (hFile.symm.trans hFound)
  obtain ⟨members, hMembers, h⟩ := exists_of_bind_eq_ok h
  obtain rfl := Except.ok.inj h
  rw [fileMembers] at hMembers
  split at hMembers
  · exact nomatch hMembers
  · rename_i v hRead
    split at hMembers
    · rename_i hTable
      obtain ⟨ms, rfl, rfl⟩ := exists_of_ofJson_eq_table hTable
      obtain rfl := Except.ok.inj hMembers
      exact ⟨ms, hRead, rfl⟩
    · exact nomatch hMembers

/-- Settings are loaded if they are read off the tree and pass the check, and only then. -/
theorem load_eq_ok_iff {s : Settings} :
    load files path env = .ok s ↔
      ∃ t, tree files path env = .ok t ∧ ofTree t = .ok s ∧ s.check = .ok () := by
  constructor
  -- of the three steps each has come through
  · intro h
    obtain ⟨t, hTree, h⟩ := exists_of_bind_eq_ok h
    obtain ⟨s', hTyped, h⟩ := exists_of_bind_eq_ok h
    obtain ⟨⟨⟩, hCheck, h⟩ := exists_of_bind_eq_ok h
    obtain rfl := Except.ok.inj h
    exact ⟨t, eq_ok_of_mapError hTree, eq_ok_of_mapError hTyped,
      eq_ok_of_mapError hCheck⟩
  · rintro ⟨t, hTree, hTyped, hCheck⟩
    simp only [load, hTree, hTyped, hCheck, Except.mapError, bind, Except.bind]
    rfl

/-- Settings that are loaded are read from the tree of a file, over which the environment is set,
    and make sense. -/
theorem exists_of_load {s : Settings} (h : load files path env = .ok s) :
    ∃ file, ofTree (Setting.putAll (environmentMembers env) file) = .ok s ∧ s.check = .ok () := by
  obtain ⟨t, hTree, hTyped, hCheck⟩ := load_eq_ok_iff.mp h
  obtain ⟨⟨file, bytes⟩, hFile, -⟩ := exists_of_bind_eq_ok hTree
  obtain ⟨ms, -, rfl⟩ := exists_of_tree hFile hTree
  exact ⟨_, hTyped, hCheck⟩

end

/-! ### The environment -/

variable {α : Type} {m : String × α} {ms before after : List (String × α)} {key : String}

theorem mem_of_mem_lastOfEach (h : m ∈ lastOfEach ms) : m ∈ ms := by
  induction ms with
  | nil => exact h
  | cons m' ms ih =>
    rw [lastOfEach] at h
    split at h
    · exact List.mem_cons_of_mem _ (ih h)
    · exact List.mem_cons.mpr ((List.mem_cons.mp h).imp_right ih)

/-- Each key keeps a member. -/
theorem exists_mem_lastOfEach (h : m ∈ ms) : ∃ kept ∈ lastOfEach ms, kept.1 = m.1 := by
  induction ms generalizing m with
  | nil => exact nomatch h
  | cons m' ms ih =>
    rw [lastOfEach]
    split
    · rename_i hLater
      rcases List.mem_cons.mp h with rfl | hMem
      · -- the member is dropped for a later one with its key
        obtain ⟨later, hMem, hSame⟩ := List.any_eq_true.mp hLater
        obtain ⟨kept, hKept, hKey⟩ := ih hMem
        exact ⟨kept, hKept, hKey.trans (beq_iff_eq.mp hSame)⟩
      · exact ih hMem
    · rcases List.mem_cons.mp h with rfl | hMem
      · exact ⟨m, List.mem_cons_self, rfl⟩
      · obtain ⟨kept, hKept, hSame⟩ := ih hMem
        exact ⟨kept, List.mem_cons_of_mem _ hKept, hSame⟩

/-- The last member with its key is kept, and so is what is kept of the members behind it. -/
theorem exists_lastOfEach_append (hLast : ∀ m' ∈ after, m'.1 ≠ m.1) :
    ∃ kept, lastOfEach (before ++ m :: after) = kept ++ m :: lastOfEach after := by
  induction before with
  | nil =>
    -- the member is the last with its key, so it is kept
    refine ⟨[], if_neg ?_⟩
    rw [List.any_eq_true]
    rintro ⟨m', hMem, hSame⟩
    exact hLast m' hMem (beq_iff_eq.mp hSame)
  | cons m' before ih =>
    obtain ⟨kept, ih⟩ := ih
    rw [List.cons_append, lastOfEach, ih]
    split
    · exact ⟨kept, rfl⟩
    · exact ⟨m' :: kept, rfl⟩

/-- What the environment gives, up to and behind the last variable for a key. -/
theorem environmentMembers_split {env before after : List (String × String)}
    {varName v key : String} (hEnv : env = before ++ (varName, v) :: after)
    (hName : keyOf? varName = some key) (hLast : ∀ w ∈ after, keyOf? w.1 ≠ some key) :
    ∃ kept, environmentMembers env =
      kept ++ (key, .plain (some environmentName) (.ofText v)) :: environmentMembers after := by
  simp only [hEnv, environmentMembers, List.filterMap_append, List.filterMap_cons, hName,
    Option.map_some]
  refine exists_lastOfEach_append fun m hMem hSame => ?_
  obtain ⟨w, hw, hMade⟩ := List.mem_filterMap.mp hMem
  obtain ⟨k, hk, rfl⟩ := Option.map_eq_some_iff.mp hMade
  exact hLast w hw (hk.trans (congrArg some hSame))

/-- What the environment gives is given by one of its variables. -/
theorem exists_of_mem_environmentMembers {env : List (String × String)} {m : String × Setting}
    (h : m ∈ environmentMembers env) :
    ∃ w ∈ env, keyOf? w.1 = some m.1 ∧ m.2 = .plain (some environmentName) (.ofText w.2) := by
  obtain ⟨w, hw, hMade⟩ := List.mem_filterMap.mp (mem_of_mem_lastOfEach h)
  obtain ⟨k, hk, rfl⟩ := Option.map_eq_some_iff.mp hMade
  exact ⟨w, hw, hk, rfl⟩

/-- The environment gives a member for the key of each of its variables. -/
theorem exists_mem_environmentMembers {env : List (String × String)} {key : String}
    (h : ∃ w ∈ env, keyOf? w.1 = some key) : ∃ m ∈ environmentMembers env, m.1 = key := by
  obtain ⟨w, hw, hName⟩ := h
  refine exists_mem_lastOfEach
    (m := (key, .plain (some environmentName) (.ofText w.2))) (List.mem_filterMap.mpr ⟨w, hw, ?_⟩)
  exact Option.map_eq_some_iff.mpr ⟨key, hName, rfl⟩

theorem ne_of_mem_environmentMembers {env : List (String × String)} {key : String}
    (h : ∀ w ∈ env, keyOf? w.1 ≠ some key) : ∀ m ∈ environmentMembers env, m.1 ≠ key := by
  intro m hm hKey
  obtain ⟨w, hw, hName, -⟩ := exists_of_mem_environmentMembers hm
  exact h w hw (hName.trans (congrArg some hKey))

end RunnerPool.Settings
