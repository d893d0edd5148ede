import RunnerPool.Event.Wire
import RunnerPool.Proofs.Telemetry
import RunnerPool.Scaler

/-!
# Which resource a started job's request addresses

A started job is noted in the status of its runner.  The runner's name stands in the target of the
request as it came with the event, so a mark in it ends the path, and what is patched then is not
the status of that runner.

* `Cluster.IsSegment s`          a text that is one segment of a path
* `Cluster.Request.Addresses`    the path of the request is that of a runner's status

## Main statements

- `Scaler.addresses_iff`: when the request of a started job addresses the status of its runner
- `Scaler.marked_name_leaves_status`: a job whose request addresses another runner itself
-/

namespace RunnerPool

open Cluster (Request Uri.path? Uri.query? Uri.target?)
open Telemetry (beforeMark endsPath endsPath_of_mem_beforeMark pathOf pathOf_of_slash)

namespace Cluster

/-- A text that is one segment of a path: there is no slash in it, and no mark that ends a path. -/
def IsSegment (s : String) : Prop :=
  s ≠ "" ∧ ∀ c ∈ s.toList, c ≠ '/' ∧ endsPath c = false

instance (s : String) : Decidable (IsSegment s) :=
  have := List.decidableBAll (fun c => c ≠ '/' ∧ endsPath c = false) s.toList
  inferInstanceAs (Decidable (_ ∧ _))

/-- The path of a runner's status. -/
def statusPath (ns runner : String) : String :=
  Resource.Kind.runner.path (some ns) ++ "/" ++ runner ++ "/status"

/-- The path of the request is that of the runner's status, where the name of the runner is one
    segment. -/
def Request.Addresses (r : Request) (ns runner : String) : Prop :=
  IsSegment runner ∧ pathOf r.target = (statusPath ns runner).toList

instance (r : Request) (ns runner : String) : Decidable (r.Addresses ns runner) :=
  inferInstanceAs (Decidable (_ ∧ _))

/-! ### The path of a request -/

theorem beforeMark_cons_congr {cs ds : List Char} (h : beforeMark cs = beforeMark ds) (c : Char) :
    beforeMark (c :: cs) = beforeMark (c :: ds) := by
  rw [beforeMark, beforeMark, List.takeWhile_cons, List.takeWhile_cons]
  exact congrArg (if !endsPath c then c :: · else []) h

theorem beforeMark_append_mark (cs : List Char) : beforeMark (cs ++ ['?']) = beforeMark cs := by
  induction cs with
  | nil => rfl
  | cons c cs ih => exact beforeMark_cons_congr ih c

/-- Texts with one path begin alike, if they do not begin with a mark. -/
theorem head?_of_beforeMark {cs ds : List Char} {c : Char} (h : beforeMark cs = beforeMark ds)
    (hHead : ds.head? = some c) (hPlain : endsPath c = false) : cs.head? = some c := by
  have hHeads := congrArg List.head? h
  have hFirst : (some c).filter (!endsPath ·) = some c := by
    rw [Option.filter_some, hPlain]
    rfl
  rw [beforeMark, beforeMark, List.head?_takeWhile, List.head?_takeWhile, hHead, hFirst] at hHeads
  exact (Option.filter_eq_some_iff.mp hHeads).1

/-- What is sent has the path of the text that it was made of. -/
theorem beforeMark_of_path? {cs ds : List Char} (h : Uri.path? cs = some ds) :
    beforeMark ds = beforeMark cs := by
  induction cs generalizing ds with
  | nil =>
    cases h
    rfl
  | cons c cs ih =>
    rw [Uri.path?.eq_def] at h
    -- the text goes on with a question mark, a hash or a character of the path
    split at h
    · rename_i hNil
      cases hNil
    · rename_i hCons
      obtain ⟨rfl, rfl⟩ := List.cons.inj hCons
      obtain ⟨query, -, rfl⟩ := Option.map_eq_some_iff.mp h
      rfl
    · rename_i hCons
      obtain ⟨rfl, rfl⟩ := List.cons.inj hCons
      cases h
      rfl
    · rename_i hQuery hFragment hCons
      obtain ⟨rfl, rfl⟩ := List.cons.inj hCons
      split at h
      · obtain ⟨rest, hRest, rfl⟩ := Option.map_eq_some_iff.mp h
        exact beforeMark_cons_congr (ih hRest) c
      · cases h

/-- A target that is made of a path and a question mark has the path up to its first mark. -/
theorem pathOf_of_target? {path target : String} (hSlash : path.toList.head? = some '/')
    (h : Uri.target? (path ++ "?") = .ok target) : pathOf target = beforeMark path.toList := by
  rw [Uri.target?] at h
  split at h
  · cases h
  · split at h
    · rename_i cs hPath
      cases h
      have hBefore := beforeMark_of_path? hPath
      have hMark : (path ++ "?").toList = path.toList ++ ['?'] := String.toList_append
      rw [hMark, beforeMark_append_mark] at hBefore
      -- the path begins with its slash, so the target does
      have hHead := head?_of_beforeMark hBefore hSlash (by decide)
      rw [pathOf_of_slash (by rwa [String.toList_ofList]), String.toList_ofList, hBefore]
    · cases h

/-! ### The path of a runner's status -/

theorem toList_statusPath (ns runner : String) :
    (statusPath ns runner).toList =
      "/apis/actions.github.com/v1alpha1/namespaces/".toList ++ ns.toList ++
        "/ephemeralrunners/".toList ++ runner.toList ++ "/status".toList := by
  simp [statusPath, Resource.Kind.path, Resource.Kind.plural, Resource.apiVersion, Resource.group,
    Resource.version]

/-- The path of a status has no mark if neither the namespace nor the runner has one. -/
theorem beforeMark_statusPath_eq_self_iff (ns runner : String) :
    beforeMark (statusPath ns runner).toList = (statusPath ns runner).toList ↔
      (∀ c ∈ ns.toList, endsPath c = false) ∧ ∀ c ∈ runner.toList, endsPath c = false := by
  have hPlain {cs : List Char} (h : beforeMark cs = cs) : ∀ c ∈ cs, endsPath c = false :=
    fun c hc => endsPath_of_mem_beforeMark (by rwa [h])
  -- no mark stands in the path's own three pieces, so it is in one of the two names
  have hFront : ∀ c ∈ "/apis/actions.github.com/v1alpha1/namespaces/".toList,
      endsPath c = false := hPlain (by decide)
  have hMiddle : ∀ c ∈ "/ephemeralrunners/".toList, endsPath c = false := hPlain (by decide)
  have hBack : ∀ c ∈ "/status".toList, endsPath c = false := hPlain (by decide)
  simp only [beforeMark, List.takeWhile_eq_self_iff, Bool.not_eq_true', toList_statusPath,
    List.forall_mem_append]
  exact ⟨fun ⟨⟨⟨⟨_, hNs⟩, _⟩, hRunner⟩, _⟩ => ⟨hNs, hRunner⟩,
    fun ⟨hNs, hRunner⟩ => ⟨⟨⟨⟨hFront, hNs⟩, hMiddle⟩, hRunner⟩, hBack⟩⟩

/-- The request that patches a runner's status has the path of that status up to its first mark. -/
theorem pathOf_of_build {ns runner : String} {patch : Json.Value} {r : Request}
    (h : Request.build .runner ns runner (some "status") patch = .ok r) :
    runner ≠ "" ∧ pathOf r.target = beforeMark (statusPath ns runner).toList := by
  rw [Request.build] at h
  split at h
  · exact nomatch h
  · rename_i hName
    refine ⟨hName, ?_⟩
    -- the text of the request is the path of the status and a question mark
    have hText : Resource.Kind.runner.path (some ns) ++ "/" ++ runner ++ ("/" ++ "status") ++ "?" =
        statusPath ns runner ++ "?" := rfl
    cases hTarget : Uri.target? (statusPath ns runner ++ "?") with
    | error why =>
      simp only [hText, hTarget] at h
      exact nomatch h
    | ok target =>
      simp only [hText, hTarget] at h
      cases h
      refine pathOf_of_target? ?_ hTarget
      rw [toList_statusPath]
      rfl

end Cluster

namespace Scaler

/-- A started job is noted with at most one request.  Without one its handler fails, whatever comes
    after.  The request that is sent has the path of the status of its runner up to the first mark
    in it, and so it addresses that status if and only if the namespace has no mark and the runner's
    name is one segment of a path. -/
theorem addresses_iff (s : Scaler) (job : JobStarted) :
    match (s.jobStarted job).2.request? with
    | none => ∃ why, ∀ answer,
        ((s.jobStarted job).2.settle answer).result = .error (.cluster (.unbuildable why))
    | some r =>
      pathOf r.target = beforeMark (Cluster.statusPath s.ns job.runner).toList ∧
        (r.Addresses s.ns job.runner ↔
          (∀ c ∈ s.ns.toList, endsPath c = false) ∧ Cluster.IsSegment job.runner) := by
  -- the request cannot be built, or its path is cut at the first mark in it
  cases hBuild : Request.build .runner s.ns job.runner (some "status") (RunnerStatus.patch job) with
  | error why =>
    simp only [jobStarted, hBuild, Handling.request?, Handling.settle]
    exact ⟨why, fun _ => rfl⟩
  | ok r =>
    obtain ⟨hName, hPath⟩ := Cluster.pathOf_of_build hBuild
    simp only [jobStarted, hBuild, Handling.request?]
    refine ⟨hPath, ?_⟩
    rw [Request.Addresses, hPath, Cluster.beforeMark_statusPath_eq_self_iff]
    -- a name or namespace with a mark in it would leave less than the path asked for
    constructor
    · rintro ⟨hSegment, hNs, -⟩
      exact ⟨hNs, hSegment⟩
    · rintro ⟨hNs, hSegment⟩
      exact ⟨hSegment, hNs, fun c hc => (hSegment.2 c hc).2⟩

/-- A job that comes with a name that has a question mark in it is noted, not on the status of a
    runner of that name, but on another runner itself. -/
theorem marked_name_leaves_status :
    ∃ job r,
      Event.decode "\x7b\"type\":\"job_started\",\"runner_name\":\"r1?x\"\x7d" =
        .ok (.jobStarted job) ∧
      ((Scaler.new "ns" "pool" ⟨0, 5⟩).jobStarted job).2.request? = some r ∧
      ¬ r.Addresses "ns" job.runner ∧
      pathOf r.target = (Resource.Kind.runner.path (some "ns") ++ "/r1").toList := by
  let job : JobStarted := { JobStarted.blank with runner := "r1?x" }
  -- the target shows where the name's mark ends the path
  have hSent : (((Scaler.new "ns" "pool" ⟨0, 5⟩).jobStarted job).2.request?).map (·.target) =
      some "/apis/actions.github.com/v1alpha1/namespaces/ns/ephemeralrunners/r1?x/status?" := by
    decide +kernel
  obtain ⟨r, hRequest, hTarget⟩ := Option.map_eq_some_iff.mp hSent
  refine ⟨job, r, by decide +kernel, hRequest, ?_, ?_⟩
  · exact fun h => absurd h.1 (by decide +kernel)
  · rw [hTarget]
    decide +kernel

end Scaler

end RunnerPool
