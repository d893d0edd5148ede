import RunnerPool.Proofs.Json.MergePatch
import RunnerPool.Proofs.Resource.RunnerSet
import RunnerPool.Proofs.Resource.RunnerStatus

/-!
# Patches on a live object

Whoever runs the cluster changes its objects all the time.  A patch is applied to an object as it is
then, and what it does to that: of one part it sets some members, and all else stays.

* `Members.part`             a part of an object
* `SetsPart`                 an object after some members of a part were set
* `JobStarted.annotations`   what a job says of its runner

## Main statements

- `patches_set_own_members`: what either patch does to any object
- `annotation_replaces_iff`: when a job takes the place of the one before it
-/

namespace RunnerPool

open Json

namespace Json

/-- The members of a part of an object; a part that is absent or no object has none. -/
def Members.part (key : String) (ms : Members) : Members :=
  ((get? key ms).getD .null).members

/-- The second object is the first one after some members of a part were set: the part is an
    object, has these members and those that it had, and outside of it nothing is changed. -/
structure SetsPart (part : String) (set : String → Option Value) (before after : Members) :
    Prop where
  outside : ∀ key, key ≠ part → Members.get? key after = Members.get? key before
  isObject : Members.get? part after = some (.object (after.part part))
  inside : ∀ key,
    Members.get? key (after.part part) = (set key).or (Members.get? key (before.part part))

/-- Among members of distinct keys, those that are kept by their values. -/
theorem Members.get?_filter_of_nodup (p : Value → Bool) (key : String) {ms : Members}
    (h : (keys ms).Nodup) :
    get? key (ms.filter fun m => p m.2) = (get? key ms).filter p := by
  induction ms with
  | nil => rfl
  | cons m ms ih =>
    obtain ⟨k, x⟩ := m
    obtain ⟨hFirst, hMore⟩ := List.nodup_cons.mp h
    rw [List.filter_cons, get?_cons]
    -- filtered out or not, a member hides nothing, since its key does not come again
    by_cases hKey : k = key
    · subst hKey
      have hNone := get?_eq_none_of_not_mem k ms hFirst
      cases hp : p x with
      | true => simp [get?_cons, Option.filter, hp]
      | false => simp [ih hMore, hNone, Option.filter, hp]
    · cases hp : p x with
      | true => simp [get?_cons, hKey, ih hMore]
      | false => simp [hKey, ih hMore]

namespace MergePatch

/-- What a patch of texts and integers leaves for a key. -/
theorem put_applyMembers (ms : Members) {set : Members} (hSet : Members.Ascending set)
    (hPlain : ∀ m ∈ set, m.2.IsPlain) : set.Put ms (applyMembers ms set) := by
  intro key
  rw [get?_applyMembers ms set hSet]
  cases hFound : Members.get? key set with
  | none => rfl
  | some x =>
    cases hPlain _ (Members.mem_of_get? key x set hFound) with
    | text s => exact congrArg some (apply_of_not_isObject _ _ rfl)
    | int hn => exact congrArg some (apply_of_not_isObject _ _ rfl)

/-- The object after a patch of one part of it. -/
def patchPart (part : String) (set live : Members) : Members :=
  Members.insert part (.object (applyMembers (live.part part) set)) live

theorem apply_part (part : String) (set live : Members) :
    apply (.object live) (.object [(part, .object set)]) = .object (patchPart part set live) := by
  have hPart : apply ((Members.get? part live).getD .null) (.object set) =
      .object (applyMembers (live.part part) set) := apply_object _ _
  rw [apply_object, Value.members_object, applyMembers, hPart, applyMembers, patchPart]
  simp

theorem get?_patchPart (part : String) (set live : Members) :
    Members.get? part (patchPart part set live) =
      some (.object (applyMembers (live.part part) set)) := by
  rw [patchPart, Members.get?_insert, if_pos rfl]

/-- A patch of texts and integers in one part of an object sets them there. -/
theorem setsPart_patchPart (part : String) (live : Members) {set : Members}
    (hSet : Members.Ascending set) (hPlain : ∀ m ∈ set, m.2.IsPlain) :
    SetsPart part (Members.get? · set) live (patchPart part set live) := by
  have hInside : (patchPart part set live).part part = applyMembers (live.part part) set := by
    rw [Members.part, get?_patchPart]
    rfl
  refine ⟨fun key hKey => ?_, ?_, fun key => ?_⟩
  · rw [patchPart, Members.get?_insert, if_neg (Ne.symm hKey)]
  · rw [hInside, get?_patchPart]
  · rw [hInside]
    exact put_applyMembers (live.part part) hSet hPlain key

end MergePatch

end Json

/-! ### What the patches set -/

/-- What a job says of its runner, by the names that the members have in the status. -/
def JobStarted.annotations (job : JobStarted) : Members := [
  ("jobRequestId", .int job.requestId.toInt),
  ("jobRepositoryName", .text (job.owner ++ "/" ++ job.repository)),
  ("jobId", .text job.jobId),
  ("workflowRunId", .int job.workflowRun.toInt),
  ("jobWorkflowRef", .text job.workflowRef),
  ("jobDisplayName", .text job.displayName)]

namespace RunnerStatus

variable (job : JobStarted)

/-- What is written of a job. -/
def told : Members := Members.ofList (record.members (ofJob job))

/-- The patch sets what is written of the job. -/
theorem patch_eq : patch job = .object [("status", .object (told job))] := by
  -- nothing is written of the blank status, so that the difference to it is all that is written
  have hBlank : blank.sortedValue = .object [] := rfl
  have hDiff : MergePatch.diff (.object []) (.object (told job)) = .object (told job) :=
    (MergePatch.diff_object (.object []) (told job)).trans
      (MergePatch.diff_object .null (told job)).symm
  rw [patch, hBlank, sortedValue, ← told, hDiff]

/-- What is written of a job are the annotations that are not blank. -/
theorem members_ofJob :
    record.members (ofJob job) = job.annotations.filter fun m => !m.2.isBlank := by
  have hFull : fullRecord.members (ofJob job) =
      ("phase", .text "") :: ("runnerId", .int 0) :: job.annotations := rfl
  rw [record_eq, Record.members_omittingBlank, hFull]
  rfl

theorem nodup_keys_annotations : (Members.keys job.annotations).Nodup := by
  simp [Members.keys, JobStarted.annotations]

theorem get?_told (key : String) :
    Members.get? key (told job) =
      (Members.get? key job.annotations).filter fun x => !x.isBlank := by
  have hKeys := nodup_keys_annotations job
  have hFiltered : (Members.keys (job.annotations.filter fun m => !m.2.isBlank)).Nodup :=
    hKeys.sublist (List.filter_sublist.map _)
  rw [told, members_ofJob, Members.get?_ofList_of_nodup _ hFiltered,
    Members.get?_filter_of_nodup (fun x => !x.isBlank) key hKeys]

theorem ascending_told : Members.Ascending (told job) :=
  Members.ascending_ofList _

theorem isPlain_of_mem_told : ∀ m ∈ told job, m.2.IsPlain := by
  have hPlain : ∀ m ∈ job.annotations, m.2.IsPlain := by
    simp [JobStarted.annotations, Value.isPlain_int64, Value.IsPlain.text]
  rintro ⟨k, x⟩ hMem
  -- what is found in the patch is one of the annotations
  have hDistinct := (ascending_told job).nodup_keys
  have hFound := (Members.last?_eq_some_iff hDistinct).mpr hMem
  rw [Members.last?_of_nodup _ hDistinct, get?_told, Option.filter_eq_some_iff] at hFound
  exact hPlain _ (Members.mem_of_get? k x _ hFound.1)

/-- A repository is never left out, for its name has a slash. -/
theorem repositoryFullName_ne_empty : job.repositoryFullName ≠ "" := by
  intro hEmpty
  have hSlash : '/' ∈ job.repositoryFullName.toList := by
    simp [JobStarted.repositoryFullName]
  rw [hEmpty] at hSlash
  exact nomatch hSlash

end RunnerStatus

namespace RunnerSetSpec

variable (replicas patchId : Int32)

/-- What the patch of a runner set can set. -/
def fieldsOf : Members :=
  [("patchID", .int patchId.toInt), ("replicas", .int replicas.toInt)]

/-- A field is set unless it equals the baseline. -/
theorem patchMembers_eq :
    patchMembers replicas patchId =
      (fieldsOf replicas patchId).filter fun m => m.2 != .int (-1) := by
  have hSame (n : Int32) : (Value.int n.toInt != .int (-1)) = true ↔ n ≠ -1 := by
    have hInt : (Value.int n.toInt != .int (-1)) = (n.toInt != (-1 : Int32).toInt) := rfl
    rw [hInt, bne_iff_ne, Ne, Int32.toInt_inj]
  rw [patchMembers, changed, changed, fieldsOf, List.filter_cons, List.filter_cons, List.filter_nil]
  simp only [hSame]
  split <;> split <;> simp_all

theorem ascending_patchMembers : Members.Ascending (patchMembers replicas patchId) := by
  have hKeys : ["patchID", "replicas"].Pairwise (· < ·) := by decide
  have hFields : Members.Ascending (fieldsOf replicas patchId) := hKeys
  rw [patchMembers_eq]
  exact hFields.filter _

theorem get?_patchMembers (key : String) :
    Members.get? key (patchMembers replicas patchId) =
      (Members.get? key (fieldsOf replicas patchId)).filter fun x => x != .int (-1) := by
  rw [patchMembers_eq, Members.get?_filter_of_nodup fun x => x != .int (-1)]
  simp [Members.keys, fieldsOf]

end RunnerSetSpec

/-- What the two patches do to an object, whatever it holds by then.  The patch of a job sets in the
    status the annotations of the job that are neither empty nor zero; an annotation that is, and
    everything else, stays as it is there.  The patch holds texts and integers only, hence no
    `null`, and always the repository.  The patch of a runner set sets in the specification the size
    and the number of the decision, save one that is -1, and nothing else. -/
theorem patches_set_own_members (live : Members) :
    (∀ job : JobStarted, ∃ told after : Members,
      RunnerStatus.patch job = .object [("status", .object told)] ∧
        (∀ m ∈ told, m.2.IsPlain) ∧
        Members.get? "jobRepositoryName" told = some (.text (job.owner ++ "/" ++ job.repository)) ∧
        MergePatch.apply (.object live) (RunnerStatus.patch job) = .object after ∧
        SetsPart "status"
          (fun key => (Members.get? key job.annotations).filter fun x => !x.isBlank) live after) ∧
    ∀ replicas patchId : Int32, ∃ after : Members,
      MergePatch.apply (.object live) (RunnerSetSpec.patch replicas patchId) = .object after ∧
        SetsPart "spec"
          (fun key => (Members.get? key [("patchID", .int patchId.toInt),
            ("replicas", .int replicas.toInt)]).filter fun x => x != .int (-1)) live after := by
  refine ⟨fun job => ⟨RunnerStatus.told job,
    MergePatch.patchPart "status" (RunnerStatus.told job) live, RunnerStatus.patch_eq job,
    RunnerStatus.isPlain_of_mem_told job, ?_, ?_, ?_⟩, fun replicas patchId =>
    ⟨MergePatch.patchPart "spec" (RunnerSetSpec.patchMembers replicas patchId) live, ?_, ?_⟩⟩
  -- the repository has a slash at least, so its name is always told
  · have hFilled : (!(Value.text (job.owner ++ "/" ++ job.repository)).isBlank) = true := by
      simp [Value.isBlank]
    have hAnnotated : Members.get? "jobRepositoryName" job.annotations =
        some (.text (job.owner ++ "/" ++ job.repository)) := rfl
    rw [RunnerStatus.get?_told, hAnnotated, Option.filter_some, if_pos hFilled]
  -- the patch has one part, which the merge takes member by member
  · rw [RunnerStatus.patch_eq, MergePatch.apply_part]
  · have hSets := MergePatch.setsPart_patchPart "status" live (RunnerStatus.ascending_told job)
      (RunnerStatus.isPlain_of_mem_told job)
    simpa only [RunnerStatus.get?_told] using hSets
  · rw [RunnerSetSpec.patch_eq, MergePatch.apply_part]
  · have hSets := MergePatch.setsPart_patchPart "spec" live
      (RunnerSetSpec.ascending_patchMembers replicas patchId)
      (RunnerSetSpec.isPlain_of_mem_patchMembers replicas patchId)
    simpa only [RunnerSetSpec.get?_patchMembers, RunnerSetSpec.fieldsOf] using hSets

/-! A status of the controller's beside a size that is someone else's, and a job that says
little. -/

example :
    let job : JobStarted := { JobStarted.blank with owner := "acme", repository := "widgets" }
    let live : Value := .object [("spec", .int 1), ("status", .object [("jobId", .text "a")])]
    (MergePatch.apply live (RunnerStatus.patch job) ==
      .object [("spec", .int 1), ("status", .object [
        ("jobId", .text "a"), ("jobRepositoryName", .text "acme/widgets")])]) = true := by
  decide +kernel

/-! ### A job after another -/

namespace RunnerStatus

/-- What of a live status stays beside the members of a patch: a status that is written as an array
    of its fields is replaced as a whole. -/
def kept (status : Value) (s : RunnerStatus) : RunnerStatus :=
  if MergePatch.isObject status then s else blank

/-- A live status is read from the members that a patch meets. -/
theorem kept_eq_given {status : Value} {s : RunnerStatus} (hCanonical : status.Canonical)
    (hRead : record.ofValue status = .ok s) :
    Fits shape status.members ∧ kept status s = given status.members := by
  cases status with
  | object ms =>
    obtain ⟨hFits, rfl⟩ := (ofValue_object_iff hCanonical.ascending.nodup_keys).mp hRead
    exact ⟨hFits, rfl⟩
  | array xs => exact ⟨show Fits shape [] by decide, rfl⟩
  | _ => exact nomatch hRead

/-- A value that is put over another unless it is blank takes its place if and only if the other is
    blank where it is. -/
theorem ite_eq_right_iff_of_blank {α : Type} [DecidableEq α] (a k c : α) :
    (if a = c then k else a) = a ↔ (a = c → k = c) := by
  by_cases hBlank : a = c <;> simp [hBlank]

/-- A job takes the place of the one before it if and only if each of its annotations that is blank
    was blank before. -/
theorem updated_ofJob_eq_iff (k : RunnerStatus) (job : JobStarted) (phase : String)
    (runnerId : Int64) :
    k.updated (ofJob job) = { ofJob job with phase, runnerId } ↔
      k.phase = phase ∧ k.runnerId = runnerId ∧
      (job.requestId = 0 → k.jobRequestId = 0) ∧ (job.jobId = "" → k.jobId = "") ∧
      (job.workflowRun = 0 → k.workflowRun = 0) ∧
      (job.workflowRef = "" → k.jobWorkflowRef = "") ∧
      (job.displayName = "" → k.jobDisplayName = "") := by
  -- the phase and the runner's id are never set by a job, and the repository always is
  have hPhase : (ofJob job).phase = "" := rfl
  have hRunner : (ofJob job).runnerId = 0 := rfl
  have hRepository : (ofJob job).jobRepository ≠ "" := repositoryFullName_ne_empty job
  simp only [updated, hPhase, hRunner, hRepository, RunnerStatus.mk.injEq, ↓reduceIte,
    ite_eq_right_iff_of_blank, true_and]
  rfl

end RunnerStatus

/-- Where a job is noted on a live runner whose status says something of a job already, each
    annotation that is neither empty nor zero takes the place of the one before; one that is leaves
    what the job before it said.  So the status tells of the new job alone, with phase and runner
    as they were, if and only if each of its blank annotations was blank before. -/
theorem annotation_replaces_iff (job : JobStarted) (live : Members) (status : Value)
    (s : RunnerStatus) (hLive : (Value.object live).Canonical)
    (hStatus : Members.get? "status" live = some status)
    (hRead : RunnerStatus.record.ofValue status = .ok s) :
    let k := RunnerStatus.kept status s
    let annotated := k.updated (.ofJob job)
    (∃ after status', MergePatch.apply (.object live) (RunnerStatus.patch job) = .object after ∧
      Members.get? "status" after = some status' ∧
      RunnerStatus.record.ofValue status' = .ok annotated) ∧
    (annotated = { RunnerStatus.ofJob job with phase := s.phase, runnerId := s.runnerId } ↔
      k.phase = s.phase ∧ k.runnerId = s.runnerId ∧
      (job.requestId = 0 → k.jobRequestId = 0) ∧ (job.jobId = "" → k.jobId = "") ∧
      (job.workflowRun = 0 → k.workflowRun = 0) ∧
      (job.workflowRef = "" → k.jobWorkflowRef = "") ∧
      (job.displayName = "" → k.jobDisplayName = "")) := by
  intro k annotated
  have hPart : live.part "status" = status.members := by rw [Members.part, hStatus]; rfl
  have hCanonical : status.Canonical := hLive.member hStatus
  have hBefore : (live.part "status").Ascending := hPart ▸ hCanonical.ascending
  obtain ⟨hFits, hGiven⟩ := RunnerStatus.kept_eq_given hCanonical hRead
  -- what the live status held is kept, and what the job tells is put over it
  refine ⟨⟨_, _, ?_, MergePatch.get?_patchPart "status" (RunnerStatus.told job) live, ?_⟩,
    RunnerStatus.updated_ofJob_eq_iff k job s.phase s.runnerId⟩
  · rw [RunnerStatus.patch_eq, MergePatch.apply_part]
  -- the merged part has the told members put into the live ones
  · have hPut := MergePatch.put_applyMembers (live.part "status")
      (RunnerStatus.ascending_told job) (RunnerStatus.isPlain_of_mem_told job)
    have hAfter := MergePatch.ascending_applyMembers _ (RunnerStatus.told job) hBefore
    refine (RunnerStatus.ofValue_of_put (.ofJob job) hBefore hAfter hPut (hPart ▸ hFits)).trans ?_
    rw [hPart, ← hGiven]

private def secondJob : JobStarted where
  runner := "pool-runner-x7k2p"
  requestId := 42
  owner := "acme"
  repository := "widgets"
  jobId := "job-2"
  workflowRef := "acme/widgets/ci.yml@main"
  workflowRun := 9001
  displayName := "build"

private def statusOfFirstJob : Value :=
  .object [("jobId", .text "job-1"), ("phase", .text "Running"), ("runnerId", .int 17),
    ("workflowRunId", .int 9000)]

/-- A job of which nothing is blank. -/
theorem annotation_replaces_iff_second_job :
    let s := { RunnerStatus.blank with
      phase := "Running", runnerId := 17, jobId := "job-1", workflowRun := 9000 }
    let live : Members := [("status", statusOfFirstJob)]
    (Value.object live).Canonical ∧ Members.get? "status" live = some statusOfFirstJob ∧
      RunnerStatus.record.ofValue statusOfFirstJob = .ok s ∧
      ∃ after status',
        MergePatch.apply (.object live) (RunnerStatus.patch secondJob) = .object after ∧
        Members.get? "status" after = some status' ∧
        RunnerStatus.record.ofValue status' =
          .ok { RunnerStatus.ofJob secondJob with phase := "Running", runnerId := 17 } := by
  intro s live
  have hLive : (Value.object live).Canonical := by decide
  have hRead : RunnerStatus.record.ofValue statusOfFirstJob = .ok s := by decide +kernel
  obtain ⟨⟨after, status', hApply, hStatus, hAfter⟩, hIff⟩ :=
    annotation_replaces_iff secondJob live statusOfFirstJob s hLive rfl hRead
  -- each member of the first job's status is told by the second one too
  rw [hIff.mpr ⟨rfl, rfl, by decide, by decide, by decide, by decide, by decide⟩] at hAfter
  exact ⟨hLive, rfl, hRead, after, status', hApply, hStatus, hAfter⟩

/-- The number of a job stays on the runner where the next job comes without one. -/
theorem job_id_outlives_job :
    let live : Value := .object [("status", statusOfFirstJob)]
    let job := { secondJob with jobId := "" }
    ((MergePatch.apply live (RunnerStatus.patch job)).member? "status").map
        (fun status => (RunnerStatus.record.ofValue status).map (·.jobId)) =
      some (.ok "job-1") ∧ (RunnerStatus.ofJob job).jobId = "" := by
  decide +kernel

end RunnerPool
