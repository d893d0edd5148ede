import RunnerPool.Proofs.Event.Wire
import RunnerPool.Proofs.Json.Language
import RunnerPool.Proofs.Json.Shape

/-!
# The language of events

A text is an event if it spells a JSON object whose `type` names a kind of event and whose members
fit the shape of that kind.  Every other text is refused, and how it is refused says where it
leaves the language.

* `Event.kind?`      the kind that a value names
* `Event.Tag.shape`  what is asked of the fields of each kind
* `Event.given`      the event that the members give
* `Event.Verdict`    what becomes of a value

## Main statement

- `Event.decode_classified`: what becomes of every text
-/

namespace RunnerPool

open Json RecordField

namespace Event

/-- The kind that a value names: the last `type` among the members of an object, if it is a
    text. -/
def kind? : Value → Option String
  | .object ms => (Members.last? "type" ms).bind Value.text?
  | _ => none

/-- What is asked of the fields of an event. -/
def Tag.shape : Tag → List FieldShape
  | .jobStarted => [
    ⟨"runner_name", .text, true⟩,
    ⟨"runner_request_id", .integer .int64, false⟩,
    ⟨"owner_name", .text, false⟩,
    ⟨"repository_name", .text, false⟩,
    ⟨"job_id", .text, false⟩,
    ⟨"job_workflow_ref", .text, false⟩,
    ⟨"workflow_run_id", .integer .int64, false⟩,
    ⟨"job_display_name", .text, false⟩]
  | .jobCompleted => [
    ⟨"runner_name", .text, false⟩,
    ⟨"runner_request_id", .integer .int64, false⟩,
    ⟨"job_id", .text, false⟩,
    ⟨"result", .text, false⟩]
  | .desiredCount => [⟨"count", .integer .nat32, true⟩]

/-- The event of a kind that the members give; what they leave out is empty or zero. -/
def given : Tag → Members → Event
  | .jobStarted, ms => .jobStarted {
      runner := ms.textOf "runner_name"
      requestId := .ofInt (ms.intOf "runner_request_id")
      owner := ms.textOf "owner_name"
      repository := ms.textOf "repository_name"
      jobId := ms.textOf "job_id"
      workflowRef := ms.textOf "job_workflow_ref"
      workflowRun := .ofInt (ms.intOf "workflow_run_id")
      displayName := ms.textOf "job_display_name" }
  | .jobCompleted, ms => .jobCompleted {
      runner := ms.textOf "runner_name"
      requestId := .ofInt (ms.intOf "runner_request_id")
      jobId := ms.textOf "job_id"
      result := ms.textOf "result" }
  | .desiredCount, ms => .desiredCount (.ofNat (ms.intOf "count").toNat)

theorem tag_given (tag : Tag) (ms : Members) : (given tag ms).tag = tag := by
  cases tag <;> rfl

theorem given_sorted (tag : Tag) (ms : Members) :
    given tag (Members.ofList (Value.sortedMembers ms)) = given tag ms := by
  cases tag <;> simp only [given, Members.textOf_sorted, Members.intOf_sorted]

/-! ### The fields of each kind -/

section

variable {ms : Members}

theorem started_hasShape : JobStarted.record.HasShape Tag.jobStarted.shape :=
  .cons (text_hasShape ..) <| .cons (int64_hasShape ..) <| .cons (text_hasShape ..) <|
    .cons (text_hasShape ..) <| .cons (text_hasShape ..) <| .cons (text_hasShape ..) <|
    .cons (int64_hasShape ..) <| .cons (text_hasShape ..) .nil

theorem completed_hasShape : JobCompleted.record.HasShape Tag.jobCompleted.shape :=
  .cons (text_hasShape ..) <| .cons (int64_hasShape ..) <| .cons (text_hasShape ..) <|
    .cons (text_hasShape ..) .nil

theorem count_hasShape : countRecord.HasShape Tag.desiredCount.shape :=
  .cons (int_hasShape ..) .nil

/-- Members that fit the shape of a kind are read as the event that they give. -/
theorem ofFields_of_fits {tag : Tag} (hDistinct : (Members.keys ms).Nodup)
    (hFits : Fits tag.shape ms) : ofFields tag (.object ms) = .ok (given tag ms) := by
  -- a case for each shape: what fits gives each field its member, and nothing else is read
  cases tag with
  | jobStarted =>
    simp only [Fits, Tag.shape, List.forall_mem_cons] at hFits
    obtain ⟨h₁, h₂, h₃, h₄, h₅, h₆, h₇, h₈, -⟩ := hFits
    rw [ofFields, JobStarted.lawful.ofValue_object _ hDistinct]
    · rfl
    · simp only [Record.Gives, JobStarted.record, List.forall_mem_cons]
      exact ⟨text_gives hDistinct h₁ rfl rfl, int64_gives hDistinct h₂ rfl rfl,
        text_gives hDistinct h₃ rfl rfl, text_gives hDistinct h₄ rfl rfl,
        text_gives hDistinct h₅ rfl rfl, text_gives hDistinct h₆ rfl rfl,
        int64_gives hDistinct h₇ rfl rfl, text_gives hDistinct h₈ rfl rfl, List.forall_mem_nil _⟩
  | jobCompleted =>
    simp only [Fits, Tag.shape, List.forall_mem_cons] at hFits
    obtain ⟨h₁, h₂, h₃, h₄, -⟩ := hFits
    rw [ofFields, JobCompleted.lawful.ofValue_object _ hDistinct]
    · rfl
    · simp only [Record.Gives, JobCompleted.record, List.forall_mem_cons]
      exact ⟨text_gives hDistinct h₁ rfl rfl, int64_gives hDistinct h₂ rfl rfl,
        text_gives hDistinct h₃ rfl rfl, text_gives hDistinct h₄ rfl rfl, List.forall_mem_nil _⟩
  | desiredCount =>
    simp only [Fits, Tag.shape, List.forall_mem_cons] at hFits
    rw [ofFields, count_lawful.ofValue_object _ hDistinct]
    · rfl
    · simp only [Record.Gives, countRecord, List.forall_mem_cons]
      -- a count is the number itself, since its shape bounds it below `2 ^ 32`
      refine ⟨int_gives hDistinct hFits.1 (by decide) (fun hRange => ?_) rfl, List.forall_mem_nil _⟩
      rw [UInt32.toNat_ofNat']
      simp only [Reader.IntRange.nat32, UInt32.size] at hRange
      omega

/-- Members that do not fit it are refused, and the refusal is about one of the fields. -/
theorem ofFields_of_not_fits {tag : Tag} (hDistinct : (Members.keys ms).Nodup)
    (hNot : ¬ Fits tag.shape ms) :
    ∃ s ∈ tag.shape, ∃ m, s.Wrong ms m ∧ ofFields tag (.object ms) = .error (.mismatch m) := by
  have hRefused {α : Type} {r : Record α} (hShape : r.HasShape tag.shape)
      (hKeys : (r.fields.map (·.key)).Nodup) (event : α → Event) :
      ∃ s ∈ tag.shape, ∃ m, s.Wrong ms m ∧
        (r.ofValue (.object ms)).map event = .error (.mismatch m) := by
    obtain ⟨s, hs, m, hWrong, hRead⟩ := hShape.ofValue_refused hKeys hDistinct hNot
    exact ⟨s, hs, m, hWrong, by rw [hRead]; rfl⟩
  -- the three shapes are refused in the same way, each by its own record
  cases tag with
  | jobStarted => exact hRefused started_hasShape JobStarted.lawful.distinct .jobStarted
  | jobCompleted => exact hRefused completed_hasShape JobCompleted.lawful.distinct .jobCompleted
  | desiredCount => exact hRefused count_hasShape count_lawful.distinct .desiredCount

end

/-! ### What becomes of a text -/

/-- What becomes of a text that spells the value. -/
inductive Verdict (v : Value) : Except Refusal Event → Prop
  | untagged (kind : kind? v = none) : Verdict v (.error .untagged)
  | unknownTag {name : String} (kind : kind? v = some name)
    (unknown : ∀ tag : Tag, tag.name ≠ name) : Verdict v (.error (.unknownTag name))
  | payload {tag : Tag} {s : FieldShape} {m : Mismatch} (kind : kind? v = some tag.name)
    (field : s ∈ tag.shape) (wrong : s.Wrong v.members m) :
    Verdict v (.error (.payload (.mismatch m)))
  | event {tag : Tag} (kind : kind? v = some tag.name) (fits : Fits tag.shape v.members) :
    Verdict v (.ok (given tag v.members))

theorem Tag.name_ne_of_ofWireName? {name : String} (h : Tag.ofWireName? name = none) (tag : Tag) :
    tag.name ≠ name := by
  rintro rfl
  rw [ofWireName?_name] at h
  exact nomatch h

/-- No two kinds have the same name. -/
theorem Tag.name_injective {s t : Tag} (h : s.name = t.name) : s = t := by
  have hSame := ofWireName?_name s
  rw [h, ofWireName?_name] at hSame
  exact (Option.some.inj hSame).symm

/-- The kind is the same once the value was put in order. -/
theorem kind?_sorted (v : Value) : (v.sorted.member? "type").bind Value.text? = kind? v := by
  cases v with
  | object ms =>
    rw [Value.sorted, Value.member?, Members.get?_ofList, Value.last?_sortedMembers, kind?]
    cases Members.last? "type" ms with
    | none => rfl
    | some x => cases x <;> rfl
  | _ => rfl

/-- A value that names a kind is an object. -/
theorem exists_members_of_kind? {v : Value} {name : String} (h : kind? v = some name) :
    ∃ ms, v = .object ms := by
  cases v with
  | object ms => exact ⟨ms, rfl⟩
  | _ => exact nomatch h

theorem verdict (v : Value) : Verdict v (ofValue v.sorted) := by
  rw [ofValue_eq, kind?_sorted]
  -- one case for each gate in turn: no tag, an unknown tag, a payload that fits or does not
  cases hKind : kind? v with
  | none => exact .untagged hKind
  | some name =>
    cases hName : Tag.ofWireName? name with
    | none =>
      simp only [hName]
      exact .unknownTag hKind (Tag.name_ne_of_ofWireName? hName)
    | some tag =>
      obtain rfl := Tag.name_of_ofWireName? hName
      obtain ⟨ms, rfl⟩ := exists_members_of_kind? hKind
      -- sorting keeps the last member of each key, so no key occurs twice
      have hDistinct := (Members.ascending_ofList (Value.sortedMembers ms)).nodup_keys
      rw [Value.sorted]
      simp only [hName]
      by_cases hFits : Fits tag.shape ms
      · rw [ofFields_of_fits hDistinct (fits_sorted.mpr hFits), given_sorted]
        exact .event hKind hFits
      · obtain ⟨s, hs, m, hWrong, hRead⟩ := ofFields_of_not_fits hDistinct (mt fits_sorted.mp hFits)
        rw [hRead]
        exact .payload hKind hs hWrong.of_sorted

/-- A text that spells a value within the limit is read as that value. -/
theorem read_of_spelled {v : Value} {cs : List Char} (h : v.Spelled cs)
    (hDepth : v.depth ≤ Node.depthLimit) : read cs = ofValue v.sorted := by
  rw [read, Value.read_eq_ok_iff.mpr ⟨v, h, hDepth, rfl⟩]

/-- A text is no JSON if it spells no value within the limit. -/
theorem read_notJson_iff {cs : List Char} :
    (∃ flaw position, read cs = .error (.notJson flaw position)) ↔
      ¬ ∃ v : Value, v.Spelled cs ∧ v.depth ≤ Node.depthLimit := by
  constructor
  -- a spelled value within the depth is read, and its verdict is never about the text
  · rintro ⟨flaw, position, hRead⟩ ⟨v, h, hDepth⟩
    rw [read_of_spelled h hDepth] at hRead
    have hVerdict := verdict v
    rw [hRead] at hVerdict
    exact nomatch hVerdict
  · intro hNone
    rw [read]
    cases hValue : Value.read cs with
    | error f => exact ⟨_, _, rfl⟩
    -- what was read has a spelling within the depth, against the assumption
    | ok w =>
      obtain ⟨v, h, hDepth, -⟩ := Value.read_eq_ok_iff.mp hValue
      exact (hNone ⟨v, h, hDepth⟩).elim

namespace Verdict

variable {v : Value} {r : Except Refusal Event}

theorem untagged_iff (h : Verdict v r) : r = .error .untagged ↔ kind? v = none := by
  cases h with
  | untagged kind => exact iff_of_true rfl kind
  | unknownTag kind | payload kind | event kind => simp [kind]

theorem unknownTag_iff {name : String} (h : Verdict v r) :
    r = .error (.unknownTag name) ↔ kind? v = some name ∧ ∀ tag : Tag, tag.name ≠ name := by
  cases h with
  | untagged kind => simp [kind]
  | unknownTag kind unknown =>
    simp only [kind, Except.error.injEq, Refusal.unknownTag.injEq, Option.some.injEq]
    refine ⟨fun hName => ⟨hName, hName ▸ unknown⟩, And.left⟩
  | payload kind | event kind =>
    refine ⟨nofun, fun ⟨hName, hNone⟩ => ?_⟩
    exact (hNone _ (Option.some.inj (kind.symm.trans hName))).elim

/-- An object of a known kind is the event that its members give, or something is wrong at one of
    the fields. -/
theorem of_tag {tag : Tag} (h : Verdict v r) (hTag : kind? v = some tag.name) :
    (Fits tag.shape v.members ∧ r = .ok (given tag v.members)) ∨
      ∃ s ∈ tag.shape, ∃ m, s.Wrong v.members m ∧ r = .error (.payload (.mismatch m)) := by
  -- the verdict is on this tag, so it is one of the last two
  cases h with
  | untagged kind => exact nomatch kind.symm.trans hTag
  | unknownTag kind unknown =>
    exact (unknown tag (Option.some.inj (hTag.symm.trans kind))).elim
  | payload kind field wrong =>
    obtain rfl := Tag.name_injective (Option.some.inj (kind.symm.trans hTag))
    exact Or.inr ⟨_, field, _, wrong, rfl⟩
  | event kind fits =>
    obtain rfl := Tag.name_injective (Option.some.inj (kind.symm.trans hTag))
    exact Or.inl ⟨fits, rfl⟩

end Verdict

/-- What becomes of every text.  It is no JSON if it spells no value within the limit of depth.  If
    it spells one, no kind is named if that is no object or has no text for its last `type`; a kind
    that is named is unknown if it is none of the kinds of event; and an event of a kind is read if
    and only if the members fit the shape of the kind, as the event that the members give.  What
    does not fit is refused because of one of the fields. -/
theorem decode_classified (line : String) :
    ((∃ flaw position, decode line = .error (.notJson flaw position)) ↔
      ¬ ∃ v : Value, v.Spelled line.toList ∧ v.depth ≤ Node.depthLimit) ∧
    Refusal.untagged.message = "invalid event payload: missing `type` tag" ∧
    ∀ v : Value, v.Spelled line.toList → v.depth ≤ Node.depthLimit →
      (decode line = .error .untagged ↔ kind? v = none) ∧
      (∀ name, decode line = .error (.unknownTag name) ↔
        kind? v = some name ∧ ∀ tag : Tag, tag.name ≠ name) ∧
      ∀ tag : Tag, kind? v = some tag.name →
        (∀ e, decode line = .ok e ↔
          Fits tag.shape v.members ∧ e = given tag v.members ∧ e.tag = tag) ∧
        ((∃ cause, decode line = .error (.payload cause)) ↔ ¬ Fits tag.shape v.members) ∧
        ∀ cause, decode line = .error (.payload cause) →
          ∃ s ∈ tag.shape, ∃ m, s.Wrong v.members m ∧ cause = .mismatch m := by
  refine ⟨read_notJson_iff, rfl, fun v h hDepth => ?_⟩
  have hVerdict := verdict v
  rw [decode, read_of_spelled h hDepth]
  refine ⟨hVerdict.untagged_iff, fun name => hVerdict.unknownTag_iff, fun tag hTag => ?_⟩
  -- the tag is known, so what is left is whether the payload fits
  rcases hVerdict.of_tag hTag with ⟨hFits, hRead⟩ | ⟨s, hs, m, hWrong, hRead⟩
  · rw [hRead]
    refine ⟨fun e => ⟨?_, ?_⟩, by simp [hFits], fun _ hCause => (nomatch hCause)⟩
    · rintro ⟨⟩
      exact ⟨hFits, rfl, tag_given tag v.members⟩
    · rintro ⟨-, rfl, -⟩
      rfl
  -- a requirement that is not met is the one the refusal names
  · have hNot : ¬ Fits tag.shape v.members := fun hFits => hWrong.not_met (hFits s hs)
    rw [hRead]
    refine ⟨fun e => ⟨nofun, fun hFits => (hNot hFits.1).elim⟩, iff_of_true ⟨_, rfl⟩ hNot, ?_⟩
    rintro cause ⟨⟩
    exact ⟨s, hs, m, hWrong, rfl⟩

/-- Of two members with one key the last counts, and a member that is no field is passed over. -/
theorem decode_classified_count :
    decode "\x7b\"count\": 1, \"type\": \"desired_count\", \"note\": null, \"count\": 4\x7d" =
      .ok (.desiredCount 4) := by
  have hSpelled : (Value.object [("count", .int 1), ("type", .text "desired_count"),
      ("note", .null), ("count", .int 4)]).Spelled
      "\x7b\"count\": 1, \"type\": \"desired_count\", \"note\": null, \"count\": 4\x7d".toList :=
    Value.spelled_iff.mpr rfl
  have hKind := ((decode_classified _).2.2 _ hSpelled (by decide)).2.2 .desiredCount rfl
  exact (hKind.1 _).mpr ⟨by decide, rfl, rfl⟩

end Event

end RunnerPool
