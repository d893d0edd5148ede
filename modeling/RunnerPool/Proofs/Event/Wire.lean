import RunnerPool.Event.Wire
import RunnerPool.Proofs.Json.Record

/-!
# Reading a written event

The text of an event is read back as the event, and no text that is cut short is read as any.

* `Event.read_chars`    the text of an event
* `Event.read_torn`     a part of it, from its beginning
-/

namespace RunnerPool

open Json RecordField

/-! ### The records -/

theorem JobStarted.lawful : JobStarted.record.Lawful where
  distinct := by decide
  sets := by
    simp only [record, List.forall_mem_cons]
    refine ⟨text_sets _ _ ?_, int64_sets _ _ ?_, text_sets _ _ ?_, text_sets _ _ ?_,
      text_sets _ _ ?_, text_sets _ _ ?_, int64_sets _ _ ?_, text_sets _ _ ?_, nofun⟩ <;> simp
  omitted := by simp [record]
  ext := by
    rintro ⟨⟩ ⟨⟩ h
    simpa [record, Value.int, Int64.toInt_inj] using h

theorem JobStarted.isPlain_of_mem (job : JobStarted) :
    ∀ m ∈ record.members job, m.2.IsPlain := by
  simp [Record.members, record, Value.isPlain_int64, Value.IsPlain.text]

theorem JobCompleted.lawful : JobCompleted.record.Lawful where
  distinct := by decide
  sets := by
    simp only [record, List.forall_mem_cons]
    refine ⟨text_sets _ _ ?_, int64_sets _ _ ?_, text_sets _ _ ?_, text_sets _ _ ?_, nofun⟩ <;>
      simp
  omitted := by simp [record]
  ext := by
    rintro ⟨⟩ ⟨⟩ h
    simpa [record, Value.int, Int64.toInt_inj] using h

theorem JobCompleted.isPlain_of_mem (job : JobCompleted) :
    ∀ m ∈ record.members job, m.2.IsPlain := by
  simp [Record.members, record, Value.isPlain_int64, Value.IsPlain.text]

namespace Event

theorem count_lawful : countRecord.Lawful where
  distinct := by decide
  sets := by
    simp only [countRecord, List.forall_mem_cons]
    refine ⟨int_sets _ _ (fun n => ?_) ?_, nofun⟩
    -- a count is not negative and below `2 ^ 32`
    · have hRange := n.toNat_lt
      simp only [Reader.IntRange.nat32, UInt32.size]
      omega
    · simp
  omitted := by simp [countRecord]
  ext := by
    intro a b h
    simpa [countRecord, Value.int, Int.natCast_inj, UInt32.toNat_inj] using h

/-! ### The text -/

/-- The members of an event, the kind first. -/
theorem isPlain_of_mem (e : Event) :
    ∀ m ∈ ("type", .text e.tag.name) :: e.members, m.2.IsPlain := by
  have hCount (n : UInt32) : (Value.int n.toNat).IsPlain := by
    have hLow : Int64.minValue.toInt = -9223372036854775808 := rfl
    have hSize : UInt64.size = 18446744073709551616 := rfl
    have hRange := n.toNat_lt
    refine .int ⟨?_, ?_⟩ <;> omega
  rw [List.forall_mem_cons]
  refine ⟨.text _, ?_⟩
  -- only a count is a number of its own, the two jobs have their fields' values
  cases e with
  | jobStarted job => exact job.isPlain_of_mem
  | jobCompleted job => exact job.isPlain_of_mem
  | desiredCount n => simp [members, Record.members, countRecord, hCount]

/-- The name of a kind on the wire is the one that the listener knows. -/
theorem Tag.wireName_eq (t : Tag) : t.wireName = t.name := by
  cases t <;> rfl

/-- The kind is found by its name. -/
theorem Tag.ofWireName?_name (t : Tag) : Tag.ofWireName? t.name = some t := by
  cases t <;> rfl

theorem Tag.name_of_ofWireName? {name : String} {tag : Tag} (h : Tag.ofWireName? name = some tag) :
    tag.name = name := by
  rw [← wireName_eq]
  simpa using List.find?_some h

/-- The kinds that the listener knows are those that are declared: a name that passes for known is
    that of a kind. -/
theorem Tag.isKnown_eq (name : String) : Tag.isKnown name = (Tag.ofWireName? name).isSome := by
  rw [Bool.eq_iff_iff, isKnown, ofWireName?, List.find?_isSome, List.any_eq_true]
  simp only [wireName_eq]
  exact Iff.rfl

/-- What becomes of a value depends on the kind that it names. -/
theorem ofValue_eq (v : Value) :
    ofValue v =
      match (v.member? "type").bind Value.text? with
      | none => .error .untagged
      | some name =>
        match Tag.ofWireName? name with
        | none => .error (.unknownTag name)
        | some tag => (ofFields tag v).mapError .payload := by
  rw [ofValue]
  -- two of the ways through are one: a known tag has a name of its own
  cases (v.member? "type").bind Value.text? with
  | none => rfl
  | some name => cases hName : Tag.ofWireName? name <;> simp [Tag.isKnown_eq, hName]

theorem toValue_eq (e : Event) :
    e.toValue = .object (("type", .text e.tag.name) :: e.members) := by
  rw [toValue, Tag.wireName_eq]

/-- The fields of an event are read back beside its kind. -/
theorem ofFields_members (e : Event) :
    ofFields e.tag (.object (Members.ofList (("type", .text e.tag.name) :: e.members))) =
      .ok e := by
  cases e with
  | jobStarted job =>
    simp only [tag, ofFields, members]
    rw [JobStarted.lawful.ofValue_tagged job _ (by decide)]
    rfl
  | jobCompleted job =>
    simp only [tag, ofFields, members]
    rw [JobCompleted.lawful.ofValue_tagged job _ (by decide)]
    rfl
  | desiredCount n =>
    simp only [tag, ofFields, members]
    rw [count_lawful.ofValue_tagged n _ (by decide)]
    rfl

/-- The members of an event have distinct keys. -/
theorem nodup_keys (e : Event) :
    (Members.keys (("type", .text e.tag.name) :: e.members)).Nodup := by
  cases e <;>
    simp [Members.keys, members, Record.members, JobStarted.record, JobCompleted.record,
      countRecord]

/-- The text of an event is read as the event. -/
theorem read_chars (e : Event) : read e.toValue.chars = .ok e := by
  have hTag : ((Value.object (Members.ofList (("type", .text e.tag.name) :: e.members))).member?
      "type").bind Value.text? = some e.tag.name := by
    rw [Value.member?, Members.get?_ofList_of_nodup _ e.nodup_keys, Members.get?_cons, if_pos rfl]
    rfl
  rw [read, toValue_eq, Value.read_chars_of_plain e.isPlain_of_mem]
  simp only [ofValue_eq, hTag, Tag.ofWireName?_name, e.ofFields_members]
  rfl

/-- A beginning of an event's text that is not all of it is read as no event. -/
theorem read_torn {e : Event} {cut : List Char} (hCut : cut <+: e.toValue.chars)
    (hProper : cut ≠ e.toValue.chars) : ∃ refusal, read cut = .error refusal := by
  suffices hValue : ∃ f, Value.read cut = .error f by
    obtain ⟨f, hf⟩ := hValue
    exact ⟨_, by rw [read, hf]⟩
  cases cut with
  | nil => exact ⟨_, rfl⟩
  | cons c cut =>
    obtain ⟨cs, hChars⟩ := Value.exists_chars_object_eq (("type", .text e.tag.name) :: e.members)
    rw [toValue_eq] at hCut hProper
    -- the only closing brace is the last character, which is not in the cut
    have hOpen := closesLast_chars _ e.isPlain_of_mem _ hCut hProper
    rw [hChars] at hCut
    obtain ⟨rfl, -⟩ := List.cons_prefix_cons.mp hCut
    exact Value.read_unclosed hOpen

theorem toList_encode (e : Event) : e.encode.toList = e.toValue.chars :=
  String.toList_ofList

/-- The text of an event holds no newline. -/
theorem newline_not_mem_chars (e : Event) : '\n' ∉ e.toValue.chars := by
  rw [toValue_eq]
  exact Value.newline_not_mem_chars e.isPlain_of_mem

end Event

end RunnerPool
