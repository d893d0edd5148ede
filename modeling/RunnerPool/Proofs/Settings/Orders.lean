import RunnerPool.Proofs.Settings.Loading
import RunnerPool.Settings.Orders

/-!
# The order of loading

Whether the settings of a tree are read, and as what, does not depend on the order in which its keys
are read: only which fault is told does.  One of the orders is that in which `load` goes.

## Main statements

- `settle_eq_ok_iff`: the order of the keys does not matter to settings that are read
- `loads_load`: what `load` gives is one of the things that loading can end with
-/

namespace RunnerPool

namespace Setting

mutual

/-- A value may keep its order. -/
theorem Arranged.refl : (v : Setting) → Arranged v v
  | .plain origin p => .plain origin p
  | .list origin items => .list origin (ArrangedItems.refl items)
  | .table ms => .table (ArrangedMembers.refl ms) (.refl ms)
termination_by structural v => v

theorem ArrangedItems.refl : (items : List Setting) → ArrangedItems items items
  | [] => .nil
  | x :: xs => .cons (Arranged.refl x) (ArrangedItems.refl xs)
termination_by structural items => items

theorem ArrangedMembers.refl : (ms : List (String × Setting)) → ArrangedMembers ms ms
  | [] => .nil
  | (key, x) :: ms => .cons key (Arranged.refl x) (ArrangedMembers.refl ms)
termination_by structural ms => ms

end

end Setting

namespace Settings

open Json (exists_of_bind_eq_ok)

/-! ### The order of the keys -/

variable {t : Setting} {s : Settings} {order : List String}

theorem ok_of_map {x : Except ε α} {f : α → β} {b : β} (h : x.map f = .ok b) :
    x.map (fun _ => ()) = .ok () := by
  cases x with
  | error e => exact nomatch h
  | ok a => rfl

/-- Where settings are read off a tree, each value has the type of its setting. -/
theorem typed_of_ofTree (h : ofTree t = .ok s) : ∀ key ∈ keys, typed t key = .ok () := by
  have hRead := ofTree_eq_ok_iff.mp h
  simp only [keys, typed, List.forall_mem_cons, String.reduceEq, or_self, or_false, or_true,
    if_true, if_false]
  exact ⟨congrArg (·.map fun _ => ()) hRead.ns, congrArg (·.map fun _ => ()) hRead.name,
    ok_of_map hRead.scaleSet, ok_of_map hRead.minRunners, ok_of_map hRead.maxRunners,
    ok_of_map hRead.logLevel, ok_of_map hRead.logFormat, ok_of_map hRead.metricsAddress,
    ok_of_map hRead.metricsEndpoint, List.forall_mem_nil _⟩

/-- Settings are read off a tree in one order of the keys if and only if they are in any other. -/
theorem settle_eq_ok_iff (hOrder : order.Perm keys) :
    settle order t = .ok s ↔ ofTree t = .ok s ∧ s.check = .ok () := by
  -- loading succeeds if each part does, in whatever order the parts come
  constructor
  · intro h
    obtain ⟨-, -, h⟩ := exists_of_bind_eq_ok h
    obtain ⟨s', hTyped, h⟩ := exists_of_bind_eq_ok h
    obtain ⟨⟨⟩, hCheck, h⟩ := exists_of_bind_eq_ok h
    obtain rfl := Except.ok.inj h
    exact ⟨eq_ok_of_mapError hTyped, eq_ok_of_mapError hCheck⟩
  · rintro ⟨hTyped, hCheck⟩
    have hEach : ∀ key ∈ order, typed t key = .ok () := fun key hKey =>
      typed_of_ofTree hTyped key (hOrder.mem_iff.mp hKey)
    have hAll : (order.forM fun key => (typed t key).mapError Error.load) = .ok () := by
      -- along the order: every key of it is read without a fault
      clear hOrder
      induction order with
      | nil => rfl
      | cons key order ih =>
        obtain ⟨hFirst, hMore⟩ := List.forall_mem_cons.mp hEach
        simp only [List.forM_eq_forM, List.forM_cons, hFirst] at ih ⊢
        exact ih hMore
    rw [settle, hAll, hTyped]
    simp only [bind, Except.bind, Except.mapError, hCheck]
    rfl

/-- To give each value its type first makes no difference where the keys are read in the order in
    which they are listed: the first value of a wrong kind is the fault either way. -/
theorem settle_keys (t : Setting) :
    settle keys t = (do
      let s ← (ofTree t).mapError .load
      s.check.mapError .refused
      return s) := by
  simp only [settle, keys, typed, ofTree, List.forM_eq_forM, List.forM_cons, List.forM_nil,
    String.reduceEq, or_self, or_false, or_true, if_true, if_false]
  generalize read? "ephemeral_runner_set_namespace" asText t = ns
  generalize read? "ephemeral_runner_set_name" asText t = name
  generalize read? "runner_scale_set_name" asText t = scaleSet
  generalize read? "min_runners" asInt32 t = minRunners
  generalize read? "max_runners" asInt32 t = maxRunners
  generalize read? "log_level" asText t = logLevel
  generalize read? "log_format" (fun _ => asFormat) t = logFormat
  generalize read? "metrics_addr" asText t = metricsAddress
  generalize read? "metrics_endpoint" asText t = metricsEndpoint
  -- one key after the other: either its value is the fault of both, or both go on
  rcases ns with _ | ns
  · rfl
  rcases name with _ | name
  · rfl
  rcases scaleSet with _ | scaleSet
  · rfl
  rcases minRunners with _ | minRunners
  · rfl
  rcases maxRunners with _ | maxRunners
  · rfl
  rcases logLevel with _ | logLevel
  · rfl
  rcases logFormat with _ | logFormat
  · rfl
  rcases metricsAddress with _ | metricsAddress
  · rfl
  rcases metricsEndpoint with _ | metricsEndpoint
  · rfl
  · rfl

/-! ### Loading -/

section

variable {files : String → Option (List UInt8)} {path file : String} {bytes : List UInt8}
  {env : List (String × String)} {ms : List (String × Setting)}

/-- What is loaded is settled by the tree of the members in the order in which they are listed. -/
theorem load_of_members (hFile : findFile files path = .ok (file, bytes))
    (hMembers : fileMembers file bytes = .ok ms) :
    load files path env =
      settle keys (Setting.putAll (environmentMembers env) (Setting.putAll ms (.table []))) := by
  rw [settle_keys, load, tree, hFile]
  simp only [bind, Except.bind, hMembers]
  rfl

end

/-- What is loaded where the members and the keys are taken in the order in which they are listed
    is one of the things that loading can end with. -/
theorem loads_load (files : String → Option (List UInt8)) (path : String)
    (env : List (String × String)) : Loads files path env (load files path env) := by
  -- the file is not found, not read, or its members are taken as they are listed
  cases hFile : findFile files path with
  | error fault =>
    rw [load, tree, hFile]
    exact .notFound hFile
  | ok found =>
    obtain ⟨file, bytes⟩ := found
    cases hMembers : fileMembers file bytes with
    | error fault =>
      rw [load, tree, hFile]
      simp only [bind, Except.bind, hMembers]
      exact .notRead hFile hMembers
    | ok ms =>
      rw [load_of_members hFile hMembers]
      exact .read hFile hMembers (.refl _) (.refl _) (.refl _)

end Settings

end RunnerPool
