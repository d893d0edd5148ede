import Mathlib.Data.List.TakeWhile
import RunnerPool.Cluster.Request
import RunnerPool.Proofs.Settings.Check

/-!
# Where the metrics are served

An endpoint that makes sense is a route that can be mounted, and serves the one path that it names;
beside it there is the path of the health.  Whether any request has that path is another question:
a path ends at the first question mark of a target.

* `Telemetry.IsTarget s`   a text that is sent as a target as it is

## Main statements

- `routes_of_check`: what is served at each path under settings that make sense
- `reachable_iff`: when the metrics can be asked for
-/

namespace RunnerPool

/-! ### Routes without captures -/

namespace Route

/-- Without braces, no character is escaped. -/
theorem unescape_of_forall {cs : List Char} (h : ∀ c ∈ cs, c ≠ '{' ∧ c ≠ '}') :
    unescape cs = cs.map (·, false) := by
  induction cs with
  | nil => rfl
  | cons c cs ih =>
    obtain ⟨⟨hOpen, hClose⟩, hRest⟩ := List.forall_mem_cons.mp h
    rw [unescape, ih hRest, List.map_cons]
    · exact fun _ hBrace => (hOpen hBrace).elim
    · exact fun _ hBrace => (hClose hBrace).elim

/-- Without braces, each character stands for itself. -/
theorem parts_of_forall {cs : List Char} (h : ∀ c ∈ cs, c ≠ '{' ∧ c ≠ '}') :
    parts none (cs.map (·, false)) = some (cs.map .literal) := by
  induction cs with
  | nil => rfl
  | cons c cs ih =>
    obtain ⟨⟨hOpen, hClose⟩, hRest⟩ := List.forall_mem_cons.mp h
    rw [List.map_cons, parts, ih hRest]
    · rfl
    · exact fun hBrace => (hOpen hBrace).elim
    · exact fun hBrace => (hClose hBrace).elim

theorem head?_of_isStatic {s : String} (h : isStatic s = true) : s.toList.head? = some '/' := by
  simp only [isStatic, Bool.and_eq_true, beq_iff_eq] at h
  exact h.1.1.1

/-- A path without captures is a route of its characters. -/
theorem parse?_of_isStatic {s : String} (h : isStatic s = true) :
    parse? s = some (s.toList.map .literal) := by
  simp only [isStatic, Bool.and_eq_true, Bool.not_eq_true', List.contains_eq_mem,
    decide_eq_false_iff_not] at h
  obtain ⟨⟨⟨hHead, hOpen⟩, hClose⟩, hMarked⟩ := h
  -- no brace and no marker, so every character stands for itself
  have hBraces : ∀ c ∈ s.toList, c ≠ '{' ∧ c ≠ '}' := fun c hc =>
    ⟨fun hBrace => hOpen (hBrace ▸ hc), fun hBrace => hClose (hBrace ▸ hc)⟩
  have hCount : (s.toList.map Part.literal).count .segment = 0 := by
    rw [List.count_eq_zero]
    intro hMem
    obtain ⟨c, -, hc⟩ := List.mem_map.mp hMem
    exact nomatch hc
  simp only [parse?, hHead, hMarked, Bool.not_false, Bool.and_self, ↓reduceIte,
    unescape_of_forall hBraces, parts_of_forall hBraces, Option.filter_some, hCount,
    Nat.zero_le, decide_true]

/-- A route without captures serves the one path that it names. -/
theorem accepts_literal (cs path : List Char) :
    accepts (cs.map .literal) path = true ↔ path = cs := by
  induction cs generalizing path with
  | nil => exact List.isEmpty_iff
  | cons c cs ih =>
    cases path with
    | nil => simp [accepts]
    | cons d path =>
      rw [List.map_cons, accepts, Bool.and_eq_true, beq_iff_eq, ih, List.cons.injEq, eq_comm]

end Route

namespace Telemetry

/-! ### What is served at a path -/

/-- Settings that make sense have their endpoint and the path of the health served, and nothing
    else. -/
theorem exists_table {s : Settings} (h : s.check = .ok ()) :
    ∃ t, table? s.metricsEndpoint = some t ∧ ∀ path, t.page? path =
      if path = s.metricsEndpoint.toList then some .metrics
      else if path = healthPath.toList then some .health
      else none := by
  obtain ⟨hStatic, hOther⟩ := Settings.endpoint_of_check h
  refine ⟨⟨s.metricsEndpoint.toList.map .literal⟩, ?_, fun path => ?_⟩
  · rw [table?, if_neg hOther, Route.parse?_of_isStatic hStatic, Option.map_some]
  -- the two paths differ, so the health page is not hidden by the metrics
  · have hApart : healthPath.toList ≠ s.metricsEndpoint.toList :=
      fun hSame => hOther (String.toList_inj.mp hSame).symm
    simp only [Table.page?, Route.accepts_literal]
    split
    · rename_i hHealth
      rw [if_neg (hHealth ▸ hApart)]
    · rfl

theorem respond_get (t : Table) (m : Metrics) (target : String) :
    respond t m "GET" target = ((t.page? (pathOf target)).map (·.response m)).getD notFound := by
  rw [respond]
  cases t.page? (pathOf target) <;> rfl

/-- Under settings that make sense, the metrics can be mounted, and a server does not crash.  A GET
    of the endpoint's path is answered with the metrics, one of the path of the health with the
    health, and nothing is found at any other path. -/
theorem routes_of_check {s : Settings} (h : s.check = .ok ()) :
    ∃ t, table? s.metricsEndpoint = some t ∧
      (∀ path, t.page? path =
        if path = s.metricsEndpoint.toList then some .metrics
        else if path = healthPath.toList then some .health
        else none) ∧
      (∀ m target, respond t m "GET" target =
        if pathOf target = s.metricsEndpoint.toList then
          ⟨200, some metricsType, none, .text m.render⟩
        else if pathOf target = healthPath.toList then ⟨200, some healthType, none, .health⟩
        else ⟨404, none, none, .empty⟩) ∧
      ∀ address refusal cause, (serve address s.metricsEndpoint refusal cause).1 ≠ .crashed := by
  obtain ⟨t, hTable, hPage⟩ := exists_table h
  refine ⟨t, hTable, hPage, fun m target => ?_, fun address refusal cause => ?_⟩
  · rw [respond_get, hPage]
    split
    · rfl
    · split <;> rfl
  -- an accepted endpoint has a table, so neither a served nor a refused address crashes
  · cases refusal with
    | none =>
      rw [serve, hTable]
      exact nofun
    | some why => exact nofun

theorem routes_of_check_internal :
    ({ ns := "ns", name := "pool", metricsEndpoint := "/internal/metrics" } : Settings).check =
        .ok () ∧
      ∃ t, table? "/internal/metrics" = some t ∧
        t.page? "/internal/metrics".toList = some .metrics ∧
        t.page? "/healthz".toList = some .health ∧
        t.page? "/internal/metrics/".toList = none := by
  have hCheck : ({ ns := "ns", name := "pool", metricsEndpoint := "/internal/metrics" } :
      Settings).check = .ok () := by decide +kernel
  obtain ⟨t, hTable, hPage, -, -⟩ := routes_of_check hCheck
  exact ⟨hCheck, t, hTable, (hPage _).trans (by decide), (hPage _).trans (by decide),
    (hPage _).trans (by decide)⟩

/-! ### The path of a target -/

/-- The characters of a target up to what ends its path. -/
def beforeMark (cs : List Char) : List Char := cs.takeWhile (!endsPath ·)

theorem beforeMark_append {front : List Char} (cs : List Char)
    (h : ∀ c ∈ front, endsPath c = false) : beforeMark (front ++ cs) = front ++ beforeMark cs :=
  List.takeWhile_append_of_pos fun c hc => by rw [h c hc]; rfl

theorem endsPath_of_mem_beforeMark {cs : List Char} {c : Char} (h : c ∈ beforeMark cs) :
    endsPath c = false := by
  simpa using List.mem_takeWhile_imp h

/-- A scheme and its slashes stand before what follows them, and do not end a path. -/
theorem exists_scheme {cs rest : List Char} (h : afterScheme? cs = some rest) :
    ∃ scheme, cs = scheme ++ rest ∧ ∀ c ∈ scheme, endsPath c = false := by
  rw [afterScheme?] at h
  split at h
  -- a scheme has letters, digits and three signs, none of which ends a path
  · rename_i rest' hRest
    obtain rfl := Option.some.inj h
    refine ⟨cs.takeWhile (fun c => c.isAlphanum || c == '+' || c == '-' || c == '.') ++
      [':', '/', '/'], ?_, ?_⟩
    · rw [List.append_assoc]
      exact (List.takeWhile_append_dropWhile).symm.trans (congrArg _ hRest)
    · intro c hc
      rcases List.mem_append.mp hc with hc | hc
      · have hChar := List.mem_takeWhile_imp hc
        by_contra hEnds
        rw [Bool.not_eq_false, endsPath, Bool.or_eq_true, beq_iff_eq, beq_iff_eq] at hEnds
        rcases hEnds with rfl | rfl <;> exact nomatch hChar
      · simp only [List.mem_cons, List.not_mem_nil, or_false] at hc
        rcases hc with rfl | rfl | rfl <;> rfl
  · exact nomatch h

/-- The path of a target is the end of what stands before the mark that ends it, or it is left
    out. -/
theorem pathOf_cases (target : String) :
    pathOf target = ['/'] ∨ pathOf target <:+ beforeMark target.toList := by
  rw [pathOf]
  split
  · rename_i cs hSlash
    rw [hSlash]
    exact Or.inr (List.suffix_refl _)
  · rename_i hStar
    rw [hStar]
    exact Or.inr (List.suffix_refl _)
  · split
    · exact Or.inr List.nil_suffix
    · rename_i rest hScheme
      split
      · exact Or.inl rfl
      · -- the authority stands behind the scheme, and does not end the path either
        obtain ⟨scheme, hText, hFront⟩ := exists_scheme hScheme
        have hAuthority : ∀ c ∈ rest.takeWhile (fun c => c != '/' && !endsPath c),
            endsPath c = false := fun c hc => by
          have hBoth := List.mem_takeWhile_imp hc
          rw [Bool.and_eq_true, Bool.not_eq_true'] at hBoth
          exact hBoth.2
        have hRest : rest.takeWhile (fun c => c != '/' && !endsPath c) ++
            rest.dropWhile (fun c => c != '/' && !endsPath c) = rest :=
          List.takeWhile_append_dropWhile
        rw [hText, ← hRest, beforeMark_append _ hFront, beforeMark_append _ hAuthority, hRest]
        exact Or.inr ((List.suffix_append _ _).trans (List.suffix_append _ _))

/-- No path has a mark that ends it. -/
theorem endsPath_of_mem_pathOf {target : String} {c : Char} (h : c ∈ pathOf target) :
    endsPath c = false := by
  rcases pathOf_cases target with hSlash | hSuffix
  · rw [hSlash] at h
    rw [List.mem_singleton.mp h]
    rfl
  · exact endsPath_of_mem_beforeMark (hSuffix.mem h)

/-- A target that begins with a slash begins with its path. -/
theorem pathOf_of_slash {target : String} (h : target.toList.head? = some '/') :
    pathOf target = beforeMark target.toList := by
  obtain ⟨cs, hSlash⟩ := List.head?_eq_some_iff.mp h
  rw [pathOf, hSlash]
  rfl

/-! ### Targets -/

open Cluster

/-- A text that is sent as a target as it is: no character in it is out of place, it has no
    fragment, and it is not too long. -/
def IsTarget (s : String) : Prop := Uri.target? s = .ok s

theorem isTarget_iff (s : String) :
    IsTarget s ↔ Utf8.size s.toList ≤ Uri.maxLength ∧ Uri.path? s.toList = some s.toList := by
  rw [IsTarget, Uri.target?]
  split
  · rename_i hLong
    exact ⟨nofun, fun h => absurd h.1 (Nat.not_le.mpr hLong)⟩
  -- short enough, a text is a target if its path takes all of it
  · rename_i hShort
    cases hPath : Uri.path? s.toList with
    | none => exact ⟨nofun, nofun⟩
    | some cs =>
      simp only [Except.ok.injEq, Option.some.injEq, Nat.not_lt.mp hShort, true_and]
      rw [← String.toList_inj, String.toList_ofList]

instance (s : String) : Decidable (IsTarget s) :=
  decidable_of_iff _ (isTarget_iff s).symm

theorem size_le_of_sublist {cs ds : List Char} (h : cs.Sublist ds) :
    Utf8.size cs ≤ Utf8.size ds := by
  induction h with
  | slnil => exact Nat.le_refl _
  | cons c _ ih => exact Nat.le_trans ih (Nat.le_add_left _ _)
  | cons_cons c _ ih => exact Nat.add_le_add_left ih _

theorem eq_some_of_map_cons {x : Option (List Char)} {c : Char} {cs : List Char}
    (h : x.map (c :: ·) = some (c :: cs)) : x = some cs := by
  obtain ⟨ds, hRest, hSame⟩ := Option.map_eq_some_iff.mp h
  rw [hRest, (List.cons.inj hSame).2]

/-- A query that is left as it is has no fragment. -/
theorem notMem_of_query? {cs : List Char} (h : Uri.query? cs = some cs) : '#' ∉ cs := by
  induction cs with
  | nil => exact List.not_mem_nil
  | cons c cs ih =>
    rw [Uri.query?.eq_def] at h
    -- what comes out is the text itself, so no character of it was cut off
    split at h
    · rename_i hNil
      exact nomatch hNil
    · exact nomatch h
    · rename_i hOther hCons
      obtain ⟨rfl, rfl⟩ := List.cons.inj hCons
      split at h
      · exact List.not_mem_cons_of_ne_of_not_mem (fun hMark => hOther hMark.symm)
          (ih (eq_some_of_map_cons h))
      · exact nomatch h

/-- A path with its query that is left as it is has no fragment, and its path has no character that
    is out of place. -/
theorem of_path? {cs : List Char} (h : Uri.path? cs = some cs) :
    '#' ∉ cs ∧ ∀ c ∈ beforeMark cs, Uri.inPath c = true := by
  induction cs with
  | nil => exact ⟨List.not_mem_nil, nofun⟩
  | cons c cs ih =>
    rw [Uri.path?.eq_def] at h
    -- as for a query, with the query's own characters behind a question mark
    split at h
    · rename_i hNil
      exact nomatch hNil
    · rename_i hCons
      obtain ⟨rfl, rfl⟩ := List.cons.inj hCons
      have hQuery := notMem_of_query? (eq_some_of_map_cons h)
      exact ⟨List.not_mem_cons_of_ne_of_not_mem (by decide) hQuery, nofun⟩
    · exact nomatch h
    · rename_i hQuery hFragment hCons
      obtain ⟨rfl, rfl⟩ := List.cons.inj hCons
      -- the path goes on, so what is before the mark goes on with it
      split at h
      · rename_i hChar
        obtain ⟨hNone, hPath⟩ := ih (eq_some_of_map_cons h)
        refine ⟨List.not_mem_cons_of_ne_of_not_mem (fun hMark => hFragment hMark.symm) hNone,
          fun d hd => ?_⟩
        rw [beforeMark, List.takeWhile_cons] at hd
        split at hd
        · rcases List.mem_cons.mp hd with rfl | hd
          · exact hChar
          · exact hPath d hd
        · exact nomatch hd
      · exact nomatch h

theorem path?_of_forall {cs : List Char}
    (h : ∀ c ∈ cs, endsPath c = false ∧ Uri.inPath c = true) : Uri.path? cs = some cs := by
  induction cs with
  | nil => rfl
  | cons c cs ih =>
    obtain ⟨⟨hMark, hChar⟩, hRest⟩ := List.forall_mem_cons.mp h
    rw [endsPath, Bool.or_eq_false_iff, beq_eq_false_iff_ne, beq_eq_false_iff_ne] at hMark
    rw [Uri.path?, if_pos hChar, ih hRest, Option.map_some]
    · exact hMark.1
    · exact hMark.2

/-- The path of a target can be a target of its own. -/
theorem isTarget_pathOf {target : String} (h : IsTarget target) :
    IsTarget (String.ofList (pathOf target)) := by
  obtain ⟨hSize, hPath⟩ := (isTarget_iff target).mp h
  rw [isTarget_iff, String.toList_ofList]
  rcases pathOf_cases target with hSlash | hSuffix
  · rw [hSlash]
    decide
  · have hPrefix : beforeMark target.toList <+: target.toList := List.takeWhile_prefix _
    refine ⟨Nat.le_trans (size_le_of_sublist (hSuffix.sublist.trans hPrefix.sublist)) hSize, ?_⟩
    exact path?_of_forall fun c hc =>
      ⟨endsPath_of_mem_pathOf hc, (of_path? hPath).2 c (hSuffix.mem hc)⟩

theorem takeWhile_eq_self_iff_notMem (cs : List Char) :
    cs.takeWhile (· != '?') = cs ↔ '?' ∉ cs := by
  simp only [List.takeWhile_eq_self_iff, bne_iff_ne]
  exact ⟨fun h hMark => h _ hMark rfl, fun h c hc hMark => h (hMark ▸ hc)⟩

/-- The path of a target that begins with a slash is what stands before its first question mark. -/
theorem pathOf_of_isTarget {s : String} (hTarget : IsTarget s)
    (hSlash : s.toList.head? = some '/') :
    pathOf s = s.toList.takeWhile (· != '?') := by
  have hNone := (of_path? ((isTarget_iff s).mp hTarget).2).1
  rw [pathOf_of_slash hSlash, beforeMark]
  -- only a question mark can end the path, since the fragment is gone
  generalize s.toList = cs at hNone
  induction cs with
  | nil => rfl
  | cons c cs ih =>
    have hc : c ≠ '#' := fun h => hNone (h ▸ List.mem_cons_self)
    have hEnds : (!endsPath c) = (c != '?') := by
      rw [endsPath, beq_false_of_ne hc, Bool.or_false]
      rfl
    rw [List.takeWhile_cons, List.takeWhile_cons, hEnds, ih (List.not_mem_of_not_mem_cons hNone)]

/-- Under settings that make sense, the metrics can be asked for if and only if the endpoint is a
    target of its own and has no question mark, which no path has.  A GET of an endpoint that is a
    target is then answered with the metrics.  With a question mark in it, only what stands before
    the first one is looked for, and nothing is found there but the health. -/
theorem reachable_iff {s : Settings} (h : s.check = .ok ()) :
    ∃ t, table? s.metricsEndpoint = some t ∧
      ((∃ target, IsTarget target ∧ t.page? (pathOf target) = some .metrics) ↔
        IsTarget s.metricsEndpoint ∧ '?' ∉ s.metricsEndpoint.toList) ∧
      (IsTarget s.metricsEndpoint → ∀ m, respond t m "GET" s.metricsEndpoint =
        if '?' ∉ s.metricsEndpoint.toList then ⟨200, some metricsType, none, .text m.render⟩
        else if s.metricsEndpoint.toList.takeWhile (· != '?') = healthPath.toList then
          ⟨200, some healthType, none, .health⟩
        else ⟨404, none, none, .empty⟩) := by
  obtain ⟨t, hTable, hPage⟩ := exists_table h
  have hSlash := Route.head?_of_isStatic (Settings.endpoint_of_check h).1
  -- the endpoint is looked up first, so its page is the metrics whatever else has its path
  have hMetrics (target : String) :
      t.page? (pathOf target) = some .metrics ↔ pathOf target = s.metricsEndpoint.toList := by
    rw [hPage]
    split
    · simp [*]
    · rename_i hOther
      split <;> simp [hOther]
  refine ⟨t, hTable, ⟨?_, ?_⟩, ?_⟩
  -- a target's path has no question mark, so neither has an endpoint that is reached
  · rintro ⟨target, hTarget, hPath⟩
    rw [hMetrics] at hPath
    have hOwn := isTarget_pathOf hTarget
    rw [hPath, String.ofList_toList] at hOwn
    have hNone : '?' ∉ pathOf target := fun hMark => nomatch endsPath_of_mem_pathOf hMark
    exact ⟨hOwn, hPath ▸ hNone⟩
  -- without a question mark the endpoint is a target whose path is itself
  · rintro ⟨hTarget, hNone⟩
    exact ⟨_, hTarget, (hMetrics _).mpr ((pathOf_of_isTarget hTarget hSlash).trans
      ((takeWhile_eq_self_iff_notMem _).mpr hNone))⟩
  · intro hTarget m
    rw [respond_get, hPage, pathOf_of_isTarget hTarget hSlash]
    simp only [takeWhile_eq_self_iff_notMem]
    split
    · rfl
    · split <;> rfl

theorem reachable_iff_internal :
    ({ ns := "ns", name := "pool", metricsEndpoint := "/internal/metrics" } : Settings).check =
        .ok () ∧
      ∃ t, table? "/internal/metrics" = some t ∧
        (∃ target, IsTarget target ∧ t.page? (pathOf target) = some .metrics) ∧
        ∀ m, respond t m "GET" "/internal/metrics" =
          ⟨200, some metricsType, none, .text m.render⟩ := by
  have hCheck : ({ ns := "ns", name := "pool", metricsEndpoint := "/internal/metrics" } :
      Settings).check = .ok () := by decide +kernel
  have hTarget : IsTarget "/internal/metrics" := by decide +kernel
  have hNone : '?' ∉ "/internal/metrics".toList := by decide
  obtain ⟨t, hTable, hReach, hGet⟩ := reachable_iff hCheck
  exact ⟨hCheck, t, hTable, hReach.mpr ⟨hTarget, hNone⟩, fun m =>
    (hGet hTarget m).trans (if_pos hNone)⟩

/-- An endpoint with a question mark makes sense and is a target, but nothing is found there, and
    no request at all reaches the metrics. -/
theorem query_endpoint_unreachable :
    ({ ns := "ns", name := "pool", metricsEndpoint := "/metrics?x=1" } : Settings).check = .ok () ∧
      IsTarget "/metrics?x=1" ∧
      ∃ t, table? "/metrics?x=1" = some t ∧
        (∀ m, respond t m "GET" "/metrics?x=1" = ⟨404, none, none, .empty⟩) ∧
        ∀ target, t.page? (pathOf target) ≠ some .metrics := by
  have hCheck : ({ ns := "ns", name := "pool", metricsEndpoint := "/metrics?x=1" } :
      Settings).check = .ok () := by decide +kernel
  obtain ⟨t, hTable, hPage⟩ := exists_table hCheck
  -- || the mark cuts the target's path, and no target's path has one in it
  refine ⟨hCheck, by decide +kernel, t, hTable, fun m => ?_, fun target hMetrics => ?_⟩
  · have hPath : pathOf "/metrics?x=1" = "/metrics".toList := by decide +kernel
    rw [respond_get, hPage, hPath]
    rfl
  · rw [hPage] at hMetrics
    split at hMetrics
    · rename_i hPath
      have hMark : '?' ∈ pathOf target := hPath ▸ (by decide : '?' ∈ "/metrics?x=1".toList)
      exact nomatch endsPath_of_mem_pathOf hMark
    · split at hMetrics <;> exact nomatch hMetrics

end Telemetry

end RunnerPool
