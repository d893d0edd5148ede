import RunnerPool.Proofs.Event.Wire
import RunnerPool.Proofs.Resource.RunnerStatus
import RunnerPool.Resource.RunnerSet

/-!
# Payloads are read back

The records that are exchanged with a cluster and with the source of events: the status of a
runner, the specification of a runner set, and the two kinds of jobs.  Each is read back from the
text that is written of it, by the reader of texts as well as by that of generic values.

* `RunnerStatus.roundTrips`, `RunnerSetSpec.roundTrips`, `JobStarted.roundTrips`,
  `JobCompleted.roundTrips`          the records are read back
* `RunnerStatus.write_of_not_given`  what a status holds that was read where a field is absent
* `RunnerStatus.omitted_iff`         a field is left out where it is empty or zero
* `payloads_round_trip`              all of it
-/

namespace RunnerPool

open Json RecordField

/-! ### Jobs -/

theorem JobStarted.roundTrips : JobStarted.record.RoundTrips :=
  JobStarted.lawful.roundTrips JobStarted.isPlain_of_mem

theorem JobCompleted.roundTrips : JobCompleted.record.RoundTrips :=
  JobCompleted.lawful.roundTrips JobCompleted.isPlain_of_mem

/-! ### Runner sets -/

namespace RunnerSetSpec

theorem lawful : record.Lawful where
  distinct := by decide
  sets := by
    simp only [record, List.forall_mem_cons]
    refine ⟨int32_sets _ _ ?_, int32_sets _ _ ?_, List.forall_mem_nil _⟩ <;> simp
  omitted := by simp [record]
  ext := by
    rintro ⟨⟩ ⟨⟩ h
    simpa [record, Value.int, Int32.toInt_inj] using h

theorem roundTrips : record.RoundTrips := by
  refine lawful.roundTrips fun spec => ?_
  simp [Record.members, record, Value.isPlain_int32]

end RunnerSetSpec

/-! ### The status of a runner -/

namespace RunnerStatus

/-- Each field may be left out, and is where it is empty or zero. -/
theorem omitsBlank : fullRecord.OmitsBlank := by
  have hText (s : String) : (Value.text s).isBlank = true ↔ s = "" := beq_iff_eq
  have hInt (n : Int64) : (Value.number (.int n.toInt)).isBlank = true ↔ n.toInt = 0 := beq_iff_eq
  have hZero : (0 : Int64).toInt = 0 := rfl
  simp only [Record.OmitsBlank, write_omittingBlank]
  simp [fullRecord, blank, hText, hInt, hZero, Value.int]

theorem isPlain_of_mem (s : RunnerStatus) : ∀ m ∈ record.members s, m.2.IsPlain := by
  have hFull : ∀ m ∈ fullRecord.members s, m.2.IsPlain := by
    simp [Record.members, fullRecord, Value.isPlain_int64, Value.IsPlain.text]
  rw [record_eq, Record.members_omittingBlank]
  exact fun m hm => hFull m (List.mem_of_mem_filter hm)

theorem roundTrips : record.RoundTrips := by
  have hLawful : record.Lawful := by
    rw [record_eq]
    exact lawful.omittingBlank omitsBlank
  exact hLawful.roundTrips isPlain_of_mem

/-- A field is left out of what is written where it is as in the blank status, and only there. -/
theorem omitted_iff (s : RunnerStatus) {f : RecordField RunnerStatus}
    (hf : f ∈ fullRecord.fields) :
    f.key ∉ Members.keys (record.members s) ↔ f.write s = f.write blank := by
  have hKeys : (fullRecord.omittingBlank.fields.map (·.key)).Nodup := by decide
  have hWritten : Members.get? f.key (record.members s) = f.omittingBlank.write s := by
    rw [record_eq]
    exact Record.get?_members hKeys s (List.mem_map_of_mem hf)
  have hBlank : fullRecord.blank = blank := rfl
  rw [← Members.hasKey_iff_mem_keys, Members.hasKey, hWritten, ← hBlank, ← (omitsBlank f hf).2 s]
  simp

/-- Where a field is absent, the status that is read has it as the blank status has it. -/
theorem write_of_not_given {ms : Members} {s : RunnerStatus} (hDistinct : (Members.keys ms).Nodup)
    (hRead : record.ofValue (.object ms) = .ok s) {f : RecordField RunnerStatus}
    (hf : f ∈ fullRecord.fields) (hAbsent : f.key ∉ Members.keys ms) :
    f.write s = f.write blank := by
  have hText {key : String} (h : key ∉ Members.keys ms) : ms.textOf key = "" := by
    rw [Members.textOf, Members.last?_eq_none_iff.mpr h]
  have hInt {key : String} (h : key ∉ Members.keys ms) : ms.intOf key = 0 := by
    rw [Members.intOf, Members.last?_eq_none_iff.mpr h]
  -- what is read is given by the members, field by field
  obtain ⟨-, rfl⟩ := (ofValue_object_iff hDistinct).mp hRead
  simp only [fullRecord, List.mem_cons, List.not_mem_nil, or_false] at hf
  rcases hf with rfl | rfl | rfl | rfl | rfl | rfl | rfl | rfl <;>
    simp_all [given, blank]

end RunnerStatus

/-! ### All payloads -/

/-- Every status of a runner, specification of a runner set and job is read back from its text and
    from the generic value of it, and no two have one text.  A field of a status is left out where
    it is empty or zero and only there, and what is read where a field is absent, with whatever
    else, has it empty or zero. -/
theorem payloads_round_trip :
    RunnerStatus.record.RoundTrips ∧ RunnerSetSpec.record.RoundTrips ∧
      JobStarted.record.RoundTrips ∧ JobCompleted.record.RoundTrips ∧
      ∀ f ∈ RunnerStatus.fullRecord.fields,
        (∀ s, f.key ∉ Members.keys (RunnerStatus.record.members s) ↔
          f.write s = f.write RunnerStatus.blank) ∧
        ∀ ms s, (Members.keys ms).Nodup → RunnerStatus.record.ofValue (.object ms) = .ok s →
          f.key ∉ Members.keys ms → f.write s = f.write RunnerStatus.blank := by
  refine ⟨RunnerStatus.roundTrips, RunnerSetSpec.roundTrips, JobStarted.roundTrips,
    JobCompleted.roundTrips, fun f hf => ⟨fun s => RunnerStatus.omitted_iff s hf, ?_⟩⟩
  intro ms s hDistinct hRead hAbsent
  exact RunnerStatus.write_of_not_given hDistinct hRead hf hAbsent

end RunnerPool
