import RunnerPool.Proofs.Json.Omission
import RunnerPool.Proofs.Json.Shape
import RunnerPool.Resource.Runner

/-!
# What a runner's status holds

A status is read from any object whose members are of the types of its fields; each field may be
absent, and then is empty or zero.  Where members of a second status are put over those of a first,
the fields that the second one holds replace those of the first.

* `RunnerStatus.shape`, `RunnerStatus.given`   what is asked of the members, and what they give
* `RunnerStatus.updated`                       a status with the fields of another put over it
* `RunnerStatus.ofValue_object_iff`            the statuses that are read from objects
* `RunnerStatus.ofValue_of_put`                reading after members were put over others
-/

namespace RunnerPool

open Json RecordField

/-! ### Members put over others -/

namespace Json

variable {ms set after : Members}

/-- The first members were put over the second ones. -/
def Members.Put (set ms after : Members) : Prop :=
  ∀ key, get? key after = (get? key set).or (get? key ms)

/-- Members that fit a shape of which nothing is required fit it together. -/
theorem Fits.put {shapes : List FieldShape} (hSet : (Members.keys set).Nodup)
    (hms : (Members.keys ms).Nodup) (hAfter : (Members.keys after).Nodup)
    (hPut : set.Put ms after) (hFitsSet : Fits shapes set) (hFits : Fits shapes ms) :
    Fits shapes after := by
  intro s hs
  have hMetSet := hFitsSet s hs
  have hMet := hFits s hs
  rw [FieldShape.Met, Members.last?_of_nodup _ hSet] at hMetSet
  rw [FieldShape.Met, Members.last?_of_nodup _ hms] at hMet
  rw [FieldShape.Met, Members.last?_of_nodup _ hAfter, hPut]
  -- the member is the new one where it is set, and the old one where it is not
  cases hFound : Members.get? s.key set with
  | none => exact hMet
  | some x =>
    rw [hFound] at hMetSet
    exact hMetSet

/-- A field with a text that is left out if it is empty. -/
theorem FieldShape.Met.of_text (hSet : (Members.keys set).Nodup) {key s : String}
    (hFound : Members.get? key set = (some (Value.text s)).filter fun x => !x.isBlank) :
    FieldShape.Met ⟨key, .text, false⟩ set := by
  rw [FieldShape.Met, Members.last?_of_nodup _ hSet, hFound]
  by_cases hBlank : s = "" <;>
    simp [Option.filter, Value.isBlank, hBlank, Allows, FieldType.admits]

/-- The same of a field with an integer of 64 bits. -/
theorem FieldShape.Met.of_int64 (hSet : (Members.keys set).Nodup) {key : String} {n : Int64}
    (hFound : Members.get? key set = (some (Value.int n.toInt)).filter fun x => !x.isBlank) :
    FieldShape.Met ⟨key, .integer .int64, false⟩ set := by
  have hRange : Int64.minValue.toInt ≤ n.toInt ∧ n.toInt ≤ Int64.maxValue.toInt :=
    ⟨n.minValue_le_toInt, n.toInt_le⟩
  rw [FieldShape.Met, Members.last?_of_nodup _ hSet, hFound]
  by_cases hBlank : n.toInt = 0
  · simp [Option.filter, Value.int, Value.isBlank, hBlank, Allows]
  · simpa [Option.filter, Value.int, Value.isBlank, hBlank, Allows, FieldType.admits,
      Reader.IntRange.int64] using hRange

/-- A text that was put over another, unless it is empty. -/
theorem Members.Put.textOf (hPut : set.Put ms after) (hms : (keys ms).Nodup)
    (hAfter : (keys after).Nodup) {key s : String}
    (hSet : get? key set = (some (Value.text s)).filter fun x => !x.isBlank) :
    textOf key after = if s = "" then textOf key ms else s := by
  rw [Members.textOf, Members.textOf, last?_of_nodup _ hms, last?_of_nodup _ hAfter, hPut, hSet]
  by_cases hBlank : s = "" <;> simp [Option.filter, Value.isBlank, hBlank]

/-- The same of an integer. -/
theorem Members.Put.intOf (hPut : set.Put ms after) (hms : (keys ms).Nodup)
    (hAfter : (keys after).Nodup) {key : String} {n : Int}
    (hSet : get? key set = (some (Value.int n)).filter fun x => !x.isBlank) :
    intOf key after = if n = 0 then intOf key ms else n := by
  rw [Members.intOf, Members.intOf, last?_of_nodup _ hms, last?_of_nodup _ hAfter, hPut, hSet]
  by_cases hBlank : n = 0 <;> simp [Option.filter, Value.int, Value.isBlank, hBlank]

end Json

namespace RunnerStatus

/-! ### The fields -/

/-- The record that leaves out no field. -/
def fullRecord : Record RunnerStatus where
  name := record.name
  blank := blank
  fields := [
    .text "phase" .defaulted (·.phase) fun x s => { s with phase := x },
    .int64 "runnerId" .defaulted (·.runnerId) fun x s => { s with runnerId := x },
    .int64 "jobRequestId" .defaulted (·.jobRequestId) fun x s => { s with jobRequestId := x },
    .text "jobRepositoryName" .defaulted (·.jobRepository) fun x s =>
      { s with jobRepository := x },
    .text "jobId" .defaulted (·.jobId) fun x s => { s with jobId := x },
    .int64 "workflowRunId" .defaulted (·.workflowRun) fun x s => { s with workflowRun := x },
    .text "jobWorkflowRef" .defaulted (·.jobWorkflowRef) fun x s => { s with jobWorkflowRef := x },
    .text "jobDisplayName" .defaulted (·.jobDisplayName) fun x s =>
      { s with jobDisplayName := x }]

/-- The record leaves out what is blank. -/
theorem record_eq : record = fullRecord.omittingBlank := by
  -- a number is blank where it is zero, so the two ways to leave a field out are one
  have hZero (key : String) (get : RunnerStatus → Int64)
      (set : Int64 → RunnerStatus → RunnerStatus) :
      (int64 key .defaulted get set).omittingBlank =
        (int64 key .defaulted get set).omitting fun s => get s == 0 := by
    refine congrArg (int64 key .defaulted get set).omitting (funext fun s => ?_)
    have hBlank : (Value.int (get s).toInt).isBlank = ((get s).toInt == 0) := rfl
    rw [write_int64, Option.any_some, hBlank, Bool.eq_iff_iff, beq_iff_eq, beq_iff_eq,
      ← Int64.toInt_inj]
    rfl
  simp only [Record.omittingBlank, fullRecord, List.map_cons, List.map_nil, hZero]
  rfl

/-- What is asked of the fields. -/
def shape : List FieldShape := [
  ⟨"phase", .text, false⟩,
  ⟨"runnerId", .integer .int64, false⟩,
  ⟨"jobRequestId", .integer .int64, false⟩,
  ⟨"jobRepositoryName", .text, false⟩,
  ⟨"jobId", .text, false⟩,
  ⟨"workflowRunId", .integer .int64, false⟩,
  ⟨"jobWorkflowRef", .text, false⟩,
  ⟨"jobDisplayName", .text, false⟩]

/-- The status that the members give; what they leave out is empty or zero. -/
def given (ms : Members) : RunnerStatus where
  phase := ms.textOf "phase"
  runnerId := .ofInt (ms.intOf "runnerId")
  jobRequestId := .ofInt (ms.intOf "jobRequestId")
  jobRepository := ms.textOf "jobRepositoryName"
  jobId := ms.textOf "jobId"
  workflowRun := .ofInt (ms.intOf "workflowRunId")
  jobWorkflowRef := ms.textOf "jobWorkflowRef"
  jobDisplayName := ms.textOf "jobDisplayName"

/-- The status with the fields of another one put over it, as far as those are not blank. -/
def updated (s a : RunnerStatus) : RunnerStatus where
  phase := if a.phase = "" then s.phase else a.phase
  runnerId := if a.runnerId = 0 then s.runnerId else a.runnerId
  jobRequestId := if a.jobRequestId = 0 then s.jobRequestId else a.jobRequestId
  jobRepository := if a.jobRepository = "" then s.jobRepository else a.jobRepository
  jobId := if a.jobId = "" then s.jobId else a.jobId
  workflowRun := if a.workflowRun = 0 then s.workflowRun else a.workflowRun
  jobWorkflowRef := if a.jobWorkflowRef = "" then s.jobWorkflowRef else a.jobWorkflowRef
  jobDisplayName := if a.jobDisplayName = "" then s.jobDisplayName else a.jobDisplayName

theorem lawful : fullRecord.Lawful where
  distinct := by decide
  sets := by
    simp only [fullRecord, List.forall_mem_cons]
    refine ⟨text_sets _ _ ?_, int64_sets _ _ ?_, int64_sets _ _ ?_, text_sets _ _ ?_,
      text_sets _ _ ?_, int64_sets _ _ ?_, text_sets _ _ ?_, text_sets _ _ ?_,
      List.forall_mem_nil _⟩ <;> simp
  omitted := by simp [fullRecord]
  ext := by
    rintro ⟨⟩ ⟨⟩ h
    simpa [fullRecord, Value.int, Int64.toInt_inj] using h

theorem hasShape : fullRecord.HasShape shape :=
  .cons (text_hasShape ..) <| .cons (int64_hasShape ..) <| .cons (int64_hasShape ..) <|
    .cons (text_hasShape ..) <| .cons (text_hasShape ..) <| .cons (int64_hasShape ..) <|
    .cons (text_hasShape ..) <| .cons (text_hasShape ..) .nil

/-! ### Reading -/

section

variable {ms : Members} {s : RunnerStatus}

/-- Members that fit the shape are read as the status that they give. -/
theorem ofValue_of_fits (hDistinct : (Members.keys ms).Nodup) (hFits : Fits shape ms) :
    record.ofValue (.object ms) = .ok (given ms) := by
  simp only [Fits, shape, List.forall_mem_cons] at hFits
  obtain ⟨h₁, h₂, h₃, h₄, h₅, h₆, h₇, h₈, -⟩ := hFits
  rw [record_eq, Record.ofValue_omittingBlank, lawful.ofValue_object _ hDistinct]
  simp only [Record.Gives, fullRecord, List.forall_mem_cons]
  exact ⟨text_gives hDistinct h₁ rfl rfl, int64_gives hDistinct h₂ rfl rfl,
    int64_gives hDistinct h₃ rfl rfl, text_gives hDistinct h₄ rfl rfl,
    text_gives hDistinct h₅ rfl rfl, int64_gives hDistinct h₆ rfl rfl,
    text_gives hDistinct h₇ rfl rfl, text_gives hDistinct h₈ rfl rfl, List.forall_mem_nil _⟩

/-- An object is read as a status if and only if its members fit the shape. -/
theorem ofValue_object_iff (hDistinct : (Members.keys ms).Nodup) :
    record.ofValue (.object ms) = .ok s ↔ Fits shape ms ∧ s = given ms := by
  constructor
  · intro hRead
    by_cases hFits : Fits shape ms
    · rw [ofValue_of_fits hDistinct hFits] at hRead
      exact ⟨hFits, (Except.ok.inj hRead).symm⟩
    -- what does not fit is refused, so it was not read
    · obtain ⟨_, _, _, _, hRefused⟩ := hasShape.ofValue_refused lawful.distinct hDistinct hFits
      rw [record_eq, Record.ofValue_omittingBlank, hRefused] at hRead
      exact nomatch hRead
  · rintro ⟨hFits, rfl⟩
    exact ofValue_of_fits hDistinct hFits

end

/-! ### Members put over those of a status -/

/-- A field is written unless it is blank. -/
theorem get?_written (a : RunnerStatus) :
    ∀ f ∈ fullRecord.fields, Members.get? f.key (Members.ofList (record.members a)) =
      (f.write a).filter fun x => !x.isBlank := by
  intro f hf
  have hKeys : (fullRecord.omittingBlank.fields.map (·.key)).Nodup := by decide
  rw [record_eq, Members.get?_ofList_of_nodup _ (Record.nodup_keys_members hKeys a),
    ← f.write_omittingBlank]
  exact Record.get?_members hKeys a (List.mem_map_of_mem hf)

/-- Where what is written of one status was put over the members of another, the fields of the one
    are put over those of the other. -/
theorem ofValue_of_put (a : RunnerStatus) {ms after : Members} (hms : Members.Ascending ms)
    (hAfter : Members.Ascending after)
    (hPut : (Members.ofList (record.members a)).Put ms after) (hFits : Fits shape ms) :
    record.ofValue (.object after) = .ok ((given ms).updated a) := by
  have hSet := (Members.ascending_ofList (record.members a)).nodup_keys
  -- a number left at zero is not written, and reading zero back gives the same
  have hZero (n : Int64) : n.toInt = 0 ↔ n = 0 := by
    rw [← Int64.toInt_inj]
    rfl
  -- one fact for each of the eight fields, in the order of the record
  have hWritten := get?_written a
  simp only [fullRecord, List.forall_mem_cons, key_text, write_text, key_int64, write_int64]
    at hWritten
  obtain ⟨h₁, h₂, h₃, h₄, h₅, h₆, h₇, h₈, -⟩ := hWritten
  have hFitsSet : Fits shape (Members.ofList (record.members a)) := by
    simp only [Fits, shape, List.forall_mem_cons]
    exact ⟨.of_text hSet h₁, .of_int64 hSet h₂, .of_int64 hSet h₃, .of_text hSet h₄,
      .of_text hSet h₅, .of_int64 hSet h₆, .of_text hSet h₇, .of_text hSet h₈,
      List.forall_mem_nil _⟩
  have hOld := hms.nodup_keys
  have hNew := hAfter.nodup_keys
  -- what is put fits, so the result is read, and each field is the new value or the old
  rw [ofValue_of_fits hNew (hFitsSet.put hSet hOld hNew hPut hFits)]
  simp only [given, updated, hPut.textOf hOld hNew h₁, hPut.intOf hOld hNew h₂,
    hPut.intOf hOld hNew h₃, hPut.textOf hOld hNew h₄, hPut.textOf hOld hNew h₅,
    hPut.intOf hOld hNew h₆, hPut.textOf hOld hNew h₇, hPut.textOf hOld hNew h₈, hZero,
    apply_ite Int64.ofInt, Int64.ofInt_toInt]

end RunnerStatus

end RunnerPool
