import Mathlib.Logic.Relation
import RunnerPool.Proofs.Event.Language

/-!
# What does not matter in the text of an event

A sender may give the members of an event in any order, may add members of its own, may repeat a
key, and may put blanks where it likes: what counts is the last member with each key that a reader
knows.

* `Members.Altered`   one alteration of members that does not matter
* `Event.knownKeys`   the keys that a reader of the value looks up

## Main statement

- `Event.decode_altered`: texts that differ in nothing else are decoded alike
-/

namespace RunnerPool

open Json

namespace Json.Members

/-- The members are altered in a way that a reader who knows some keys does not notice. -/
inductive Altered (known : List String) : Members → Members → Prop
  /-- They are put in another order, in which those of one key stand as before. -/
  | reordered {ms ns : Members} (perm : ms.Perm ns)
    (order : ∀ key, ms.filter (fun m => m.1 = key) = ns.filter fun m => m.1 = key) :
    Altered known ms ns
  /-- One with another key is added. -/
  | added {ms ns : Members} {k : String} (x : Value) (other : k ∉ known) :
    Altered known (ms ++ ns) (ms ++ (k, x) :: ns)
  /-- One is dropped whose key comes again. -/
  | dropped {ms ns : Members} {k : String} (x : Value) (again : k ∈ keys ns) :
    Altered known (ms ++ (k, x) :: ns) (ms ++ ns)

variable {known : List String} {ms ns : Members} {key : String}

/-- An alteration leaves the last member with each known key. -/
theorem Altered.last?_eq (h : Altered known ms ns) (hKey : key ∈ known) :
    last? key ms = last? key ns := by
  cases h with
  | reordered _ order => rw [← last?_filter, order, last?_filter]
  -- a member of another key is not the last of a known one
  | @added ms ns k x other =>
    have hOther : k ≠ key := fun hSame => other (hSame ▸ hKey)
    rw [last?_append, last?_append, last?, if_neg hOther, Option.or_none]
  | @dropped ms ns k x again =>
    rw [last?_append, last?_append, last?]
    -- the dropped member is of this key, but a later one of the same key hides it
    split
    · rename_i hSame
      subst hSame
      obtain ⟨y, hy⟩ := Option.ne_none_iff_exists'.mp (mt last?_eq_none_iff.mp (not_not.mpr again))
      rw [hy]
      rfl
    · rw [Option.or_none]

/-- So do alterations one after the other, and those that were taken back. -/
theorem last?_eq_of_altered (h : Relation.EqvGen (Altered known) ms ns) (hKey : key ∈ known) :
    last? key ms = last? key ns := by
  induction h with
  | rel _ _ h => exact h.last?_eq hKey
  | refl _ => rfl
  | symm _ _ _ ih => exact ih.symm
  | trans _ _ _ _ _ ih ih' => exact ih.trans ih'

end Json.Members

namespace Event

/-- The keys that a reader looks up in a value: the kind, and the fields of the kind if it is
    known. -/
def knownKeys (v : Value) : List String :=
  match (kind? v).bind Tag.ofWireName? with
  | none => ["type"]
  | some tag => "type" :: tag.shape.map (·.key)

theorem type_mem_knownKeys (v : Value) : "type" ∈ knownKeys v := by
  rw [knownKeys]
  split <;> exact List.mem_cons_self

/-- The fields of a kind are all that is read of an event of that kind. -/
theorem ofFields_congr {tag : Tag} {ms ns : Members} (hms : Members.Ascending ms)
    (hns : Members.Ascending ns)
    (h : ∀ s ∈ tag.shape, Members.get? s.key ms = Members.get? s.key ns) :
    ofFields tag (.object ms) = ofFields tag (.object ns) := by
  -- a record reads no more than the fields of its shape
  have hFields {α : Type} {r : Record α} (hShape : r.HasShape tag.shape) :
      r.ofValue (.object ms) = r.ofValue (.object ns) := by
    refine Record.ofValue_congr hms hns fun f hf => ?_
    obtain ⟨s, hs, hField⟩ := hShape.exists_shape hf
    rw [hField.key, h s hs]
  cases tag with
  | jobStarted => rw [ofFields, ofFields, hFields started_hasShape]
  | jobCompleted => rw [ofFields, ofFields, hFields completed_hasShape]
  | desiredCount => rw [ofFields, ofFields, hFields count_hasShape]

/-- Objects in which the last members with the known keys are the same stand for the same. -/
theorem ofValue_sorted_congr {ms ns : Members}
    (h : ∀ key ∈ knownKeys (.object ms), Members.last? key ms = Members.last? key ns) :
    ofValue (Value.object ms).sorted = ofValue (Value.object ns).sorted := by
  -- the tag is read off `type`, and its fields off the keys that tag knows
  have hKind : kind? (.object ms) = kind? (.object ns) := by
    rw [kind?, kind?, h "type" (type_mem_knownKeys _)]
  rw [ofValue_eq, ofValue_eq, kind?_sorted, kind?_sorted, ← hKind]
  cases hName : kind? (.object ms) with
  | none => rfl
  | some name =>
    cases hTag : Tag.ofWireName? name with
    | none => simp only [hTag]
    | some tag =>
      simp only [hTag]
      rw [Value.sorted, Value.sorted, ofFields_congr (Members.ascending_ofList _)
        (Members.ascending_ofList _)]
      -- the fields are looked up in the sorted members, where each has its last value
      intro s hs
      have hKnown : s.key ∈ knownKeys (.object ms) := by
        rw [knownKeys, hName, Option.bind_some, hTag]
        exact List.mem_cons_of_mem _ (List.mem_map_of_mem hs)
      rw [Members.get?_ofList, Members.get?_ofList, Value.last?_sortedMembers,
        Value.last?_sortedMembers, h s.key hKnown]

/-- Texts of objects that differ in alterations of their members are decoded alike, be it to the
    same event or to the same refusal, and so are texts with other blanks. -/
theorem decode_altered {line line' : String} {ms ms' : Members}
    (hText : (Value.object ms).Spelled line.toList)
    (hDepth : (Value.object ms).depth ≤ Node.depthLimit)
    (hText' : (Value.object ms').Spelled line'.toList)
    (hDepth' : (Value.object ms').depth ≤ Node.depthLimit)
    (hAltered : Relation.EqvGen (Members.Altered (knownKeys (.object ms))) ms ms') :
    decode line = decode line' ∧
      ∀ respaced : String, Respaced line'.toList respaced.toList →
        decode line = decode respaced := by
  -- alterations keep the last member of each known key, and the rest is not looked at
  have hSame := ofValue_sorted_congr fun key hKey => Members.last?_eq_of_altered hAltered hKey
  rw [decode, read_of_spelled hText hDepth, hSame]
  refine ⟨(read_of_spelled hText' hDepth').symm, fun respaced hRespaced => ?_⟩
  exact (read_of_spelled (hText'.respaced hRespaced) hDepth').symm

/-- A text with another order, a member that is no field, a key that comes twice, and blanks. -/
theorem decode_altered_count :
    decode "\x7b\"type\":\"desired_count\",\"count\":4\x7d" =
      decode "\x7b\"count\": 1, \"note\": [], \"count\": 4, \"type\": \"desired_count\"\x7d" ∧
    decode "\x7b\"type\":\"desired_count\",\"count\":4\x7d" =
      decode ("\n" ++
        "\x7b\"count\": 1, \"note\": [], \"count\": 4, \"type\": \"desired_count\"\x7d") := by
  have hText : (Value.object [("type", .text "desired_count"), ("count", .int 4)]).Spelled
      "\x7b\"type\":\"desired_count\",\"count\":4\x7d".toList := Value.spelled_iff.mpr rfl
  have hText' : (Value.object [("count", .int 1), ("note", .array []), ("count", .int 4),
      ("type", .text "desired_count")]).Spelled
      "\x7b\"count\": 1, \"note\": [], \"count\": 4, \"type\": \"desired_count\"\x7d".toList :=
    Value.spelled_iff.mpr rfl
  -- by swapping the two members, then adding `note`, then undoing a drop of the earlier `count`
  have hReordered : Members.Altered ["type", "count"]
      [("type", .text "desired_count"), ("count", .int 4)]
      [("count", .int 4), ("type", .text "desired_count")] := by
    refine .reordered (.swap ..) fun key => ?_
    by_cases hType : "type" = key
    · subst hType
      rfl
    · simp [List.filter_cons, hType]
  have hAdded : Members.Altered ["type", "count"]
      [("count", .int 4), ("type", .text "desired_count")]
      [("note", .array []), ("count", .int 4), ("type", .text "desired_count")] :=
    @Members.Altered.added _ [] _ _ (.array []) (by decide)
  have hDropped : Members.Altered ["type", "count"]
      [("count", .int 1), ("note", .array []), ("count", .int 4), ("type", .text "desired_count")]
      [("note", .array []), ("count", .int 4), ("type", .text "desired_count")] :=
    @Members.Altered.dropped _ [] _ _ (.int 1) (by decide)
  have hSame := decode_altered hText (by decide) hText' (by decide)
    (((Relation.EqvGen.rel _ _ hReordered).trans _ _ _ (.rel _ _ hAdded)).trans _ _ _
      (.symm _ _ (.rel _ _ hDropped)))
  refine ⟨hSame.1, hSame.2 _ ?_⟩
  rw [String.toList_append]
  exact hText'.respaced_append (by simp [isSpace])

end Event

end RunnerPool
