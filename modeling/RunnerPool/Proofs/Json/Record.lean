import RunnerPool.Json.Record
import RunnerPool.Proofs.Json.Members
import RunnerPool.Proofs.Json.Node

/-!
# Reading a written record

A record is lawful if each of its fields reads what it writes and leaves the other fields alone.
A lawful record is read from any object that gives each field the value that it writes or leaves
it out, in whatever order the members stand and whatever else the object holds.

* `Record.Lawful`                 the law of each field, and that the fields make up the record
* `Record.Gives`                  the members say what the record holds
* `Record.Lawful.ofNode_object`   the record that an object holds
* `Record.Lawful.ofValue_tagged`  a record is read back from its members, beside one more
* `Record.Lawful.roundTrips`      a record is read back from its text
-/

namespace RunnerPool.Json

/-- Reading what the field writes of a record sets the field to that record's, and leaves the
    other fields alone. -/
def RecordField.Sets (f : RecordField α) (fields : List (RecordField α)) : Prop :=
  ∀ a x, f.write a = some x → ∀ n : Node, n.Holds x →
    ∃ change, f.read n = .ok change ∧ ∀ b, ∀ g ∈ fields,
      g.write (change b) = if g.key = f.key then g.write a else g.write b

/-- The members give the record `a` at the field: a field among them has the value that it writes
    of `a`, and one that is not may be left out and is as in the blank record. -/
def RecordField.Gives (f : RecordField α) (ms : Members) (blank a : α) : Prop :=
  match Members.get? f.key ms with
  | some x => f.write a = some x
  | none => f.presence ≠ .required ∧ f.write a = f.write blank

namespace Record

/-- The description reads what it writes. -/
structure Lawful (r : Record α) : Prop where
  distinct : (r.fields.map (·.key)).Nodup
  sets : ∀ f ∈ r.fields, f.Sets r.fields
  /-- A field that is left out need not be given, and the blank record leaves it out too. -/
  omitted : ∀ f ∈ r.fields, ∀ a, f.write a = none → f.presence ≠ .required ∧
    f.write r.blank = none
  /-- The fields make up the record. -/
  ext : ∀ a b, (∀ f ∈ r.fields, f.write a = f.write b) → a = b

variable {r : Record α}

theorem mem_of_field? {key : String} {f : RecordField α} (h : r.field? key = some f) :
    f ∈ r.fields ∧ f.key = key :=
  ⟨List.mem_of_find?_eq_some h, by simpa using List.find?_some h⟩

theorem key_ne_of_field?_eq_none {key : String} (h : r.field? key = none) :
    ∀ f ∈ r.fields, f.key ≠ key := by
  intro f hf hKey
  have hNot := List.find?_eq_none.mp h f hf
  exact hNot (by rw [hKey, beq_self_eq_true])

/-- A member that is no field is passed over. -/
theorem readMembers_other {k : String} {x : Value} {key : Key} {n : Node} (hKey : key.value = .ok k)
    (hold : n.Holds x) (hOther : r.field? k = none) (b : α) (given : List String)
    (ns : List (Key × Node)) :
    r.readMembers b given ((key, n) :: ns) = r.readMembers b given ns := by
  have hKey' : key.value.mapError Fault.ofFlaw = .ok k := by rw [hKey]; rfl
  have hSkip : n.skip.mapError Fault.ofFlaw = .ok () := by rw [Node.skip_of_holds x n hold]; rfl
  rw [readMembers, hKey']
  simp only [bind, Except.bind, hOther, hSkip]

/-- A member that is a field makes its change, unless it was given before. -/
theorem readMembers_field {k : String} {key : Key} {n : Node} {f : RecordField α} {change : α → α}
    {given : List String} (hKey : key.value = .ok k) (hField : r.field? k = some f)
    (hNew : k ∉ given) (hRead : f.read n = .ok change) (b : α) (ns : List (Key × Node)) :
    r.readMembers b given ((key, n) :: ns) = r.readMembers (change b) (k :: given) ns := by
  have hKey' : key.value.mapError Fault.ofFlaw = .ok k := by rw [hKey]; rfl
  rw [readMembers, hKey']
  simp only [bind, Except.bind, hField, hNew, ↓reduceIte, hRead]

/-- The fault of a field ends the reading. -/
theorem readMembers_fault {k : String} {key : Key} {n : Node} {f : RecordField α}
    {fault : Fault Cause} {given : List String} (hKey : key.value = .ok k)
    (hField : r.field? k = some f) (hNew : k ∉ given) (hRead : f.read n = .error fault) (b : α)
    (ns : List (Key × Node)) : r.readMembers b given ((key, n) :: ns) = .error fault := by
  have hKey' : key.value.mapError Fault.ofFlaw = .ok k := by rw [hKey]; rfl
  rw [readMembers, hKey']
  simp only [bind, Except.bind, hField, hNew, ↓reduceIte, hRead]

/-- The record `b` agrees with `a` where a field was given, and else with the blank one. -/
def Agrees (r : Record α) (a b : α) (given : List String) : Prop :=
  ∀ f ∈ r.fields, f.write b = if f.key ∈ given then f.write a else f.write r.blank

theorem agrees_blank (a : α) : r.Agrees a r.blank [] := by
  intro f _
  rw [if_neg List.not_mem_nil]

/-- A field's change makes one more field agree. -/
theorem Agrees.given {a b : α} {given : List String} {f : RecordField α} {change : α → α}
    (h : r.Agrees a b given) (hChange : ∀ b, ∀ g ∈ r.fields,
      g.write (change b) = if g.key = f.key then g.write a else g.write b) :
    r.Agrees a (change b) (f.key :: given) := by
  intro g hg
  rw [hChange b g hg, h g hg]
  by_cases hKey : g.key = f.key
  · rw [if_pos hKey, if_pos (by rw [hKey]; exact List.mem_cons_self)]
  · simp only [hKey, List.mem_cons, false_or, ↓reduceIte]

/-- Once each field was given in which the record differs from the blank one, there is no
    difference. -/
theorem Lawful.eq_of_agrees (h : r.Lawful) {a b : α} {given : List String}
    (hAgrees : r.Agrees a b given)
    (hDone : ∀ f ∈ r.fields, f.key ∉ given → f.write a = f.write r.blank) : b = a := by
  refine h.ext b a fun f hf => ?_
  rw [hAgrees f hf]
  split
  · rfl
  · exact (hDone f hf ‹_›).symm

/-- The members give the record `a`, field by field. -/
def Gives (r : Record α) (ms : Members) (a : α) : Prop :=
  ∀ f ∈ r.fields, f.Gives ms r.blank a

/-- What a lawful record writes gives the record. -/
theorem Lawful.gives_of_written (h : r.Lawful) {ms : Members} {a : α}
    (hFields : ∀ f ∈ r.fields, Members.get? f.key ms = f.write a) : r.Gives ms a := by
  intro f hf
  rw [RecordField.Gives, hFields f hf]
  cases hWritten : f.write a with
  | some x => rfl
  | none =>
    obtain ⟨hPresence, hBlank⟩ := h.omitted f hf a hWritten
    exact ⟨hPresence, hBlank.symm⟩

/-- Members that give a record are read as that record, by induction on the members. -/
theorem Lawful.readMembers_of_hold (h : r.Lawful) (a : α) {ms : List (String × Value)}
    {ns : List (Key × Node)} (hold : Node.MembersHold ns ms) (b : α) (given : List String)
    (hDistinct : (Members.keys ms).Nodup) (hNew : ∀ k ∈ Members.keys ms, k ∉ given)
    (hAgrees : r.Agrees a b given)
    (hWant : ∀ f ∈ r.fields, f.key ∉ given → match Members.get? f.key ms with
      | some x => f.write a = some x
      | none => f.write a = f.write r.blank) :
    ∃ given', r.readMembers b given ns = .ok (a, given') ∧
      ∀ f ∈ r.fields, f.key ∈ given ∨ f.key ∈ Members.keys ms → f.key ∈ given' := by
  induction ms generalizing ns b given with
  | nil =>
    cases hold
    refine ⟨given, ?_, fun f hf hGiven => hGiven.resolve_right List.not_mem_nil⟩
    rw [readMembers, h.eq_of_agrees hAgrees hWant]
  | cons m ms ih =>
    obtain ⟨k, x⟩ := m
    cases hold with
    | @cons key _ n _ ns _ named first more =>
    simp only [Members.keys, List.map_cons, List.nodup_cons] at hDistinct
    have hk : k ∉ given := hNew k List.mem_cons_self
    have hNewMore : ∀ l ∈ Members.keys ms, l ∉ given :=
      fun l hl => hNew l (List.mem_cons_of_mem _ hl)
    cases hField : r.field? k with
    | none =>
      -- no field looks the member up
      have hOther := key_ne_of_field?_eq_none hField
      rw [readMembers_other named first hField]
      obtain ⟨given', hRead, hGiven⟩ :=
        ih more b given hDistinct.2 hNewMore hAgrees fun f hf hNot => by
          have hWanted := hWant f hf hNot
          rwa [Members.get?_cons, if_neg (hOther f hf).symm] at hWanted
      refine ⟨given', hRead, fun f hf hIn => hGiven f hf (hIn.imp_right fun hMem => ?_)⟩
      exact (List.mem_cons.mp hMem).resolve_left (hOther f hf)
    | some f =>
      obtain ⟨hf, rfl⟩ := mem_of_field? hField
      have hWritten : f.write a = some x := by
        have hWanted := hWant f hf hk
        rwa [Members.get?_cons, if_pos rfl] at hWanted
      obtain ⟨change, hRead, hChange⟩ := h.sets f hf a x hWritten n first
      have hNewMore' : ∀ l ∈ Members.keys ms, l ∉ f.key :: given := by
        intro l hl hMem
        rcases List.mem_cons.mp hMem with rfl | hGiven
        · exact hDistinct.1 hl
        · exact hNewMore l hl hGiven
      -- the change makes one more field agree, and none is left to be changed by the same key
      rw [readMembers_field named hField hk hRead]
      obtain ⟨given', hRest, hGiven⟩ :=
        ih more (change b) (f.key :: given) hDistinct.2 hNewMore' (hAgrees.given hChange)
          fun g hg hNot => by
            rw [List.mem_cons, not_or] at hNot
            have hWanted := hWant g hg hNot.2
            rwa [Members.get?_cons, if_neg (Ne.symm hNot.1)] at hWanted
      refine ⟨given', hRest, fun g hg hIn => hGiven g hg ?_⟩
      rcases hIn with hIn | hIn
      · exact Or.inl (List.mem_cons_of_mem _ hIn)
      · refine (List.mem_cons.mp hIn).imp_left fun hSame => ?_
        rw [hSame]
        exact List.mem_cons_self

/-- No field is missing if each that must be given was. -/
theorem missing?_eq_none_iff {given : List String} :
    r.missing? given = none ↔ ∀ f ∈ r.fields, f.presence = .required → f.key ∈ given := by
  rw [missing?, Option.map_eq_none_iff, List.find?_eq_none]
  simp

/-- An object that gives a record is read as that record. -/
theorem Lawful.ofNode_object (h : r.Lawful) (a : α) {ms : List (String × Value)} {n : Node}
    (hold : n.Holds (.object ms)) (hDistinct : (Members.keys ms).Nodup) (hGives : r.Gives ms a) :
    r.ofNode n = .ok a := by
  cases hold with
  | object start rest members =>
    -- every member is read into its field, and what the record has then is `a`
    obtain ⟨given, hRead, hGiven⟩ :=
      h.readMembers_of_hold a members r.blank [] hDistinct (fun _ _ => List.not_mem_nil)
        (agrees_blank a) fun f hf _ => by
          have hField := hGives f hf
          rw [RecordField.Gives] at hField
          split at hField
          · exact hField
          · exact hField.2
    -- a required field is given, since `Gives` leaves it no default
    have hMissing : r.missing? given = none := by
      rw [missing?_eq_none_iff]
      intro f hf hRequired
      refine hGiven f hf (Or.inr ?_)
      rw [← Members.hasKey_iff_mem_keys, Members.hasKey]
      have hField := hGives f hf
      rw [RecordField.Gives] at hField
      split at hField
      · rename_i hFound
        rw [hFound]
        rfl
      · exact (hField.1 hRequired).elim
    rw [ofNode, readObject, hRead]
    simp only [bind, Except.bind, hMissing]

/-- The same from a generic value. -/
theorem Lawful.ofValue_object (h : r.Lawful) (a : α) {ms : List (String × Value)}
    (hDistinct : (Members.keys ms).Nodup)
    (hGives : r.Gives ms a) : r.ofValue (.object ms) = .ok a := by
  rw [ofValue, h.ofNode_object a (Node.holds_ofValue _) hDistinct hGives]
  rfl

/-! ### Members that are no fields -/

/-- Members that are no fields may be left out, by induction on the members. -/
theorem readMembers_filter (b : α) (given : List String) (ms : Members) :
    r.readMembers b given (Node.ofMembers (ms.filter fun m => (r.field? m.1).isSome)) =
      r.readMembers b given (Node.ofMembers ms) := by
  induction ms generalizing b given with
  | nil => rfl
  | cons m ms ih =>
    obtain ⟨k, x⟩ := m
    cases hField : r.field? k with
    | none =>
      rw [List.filter_cons_of_neg (by simp [hField]), Node.ofMembers,
        readMembers_other rfl (Node.holds_ofValue x) hField, ih]
    | some f =>
      -- whatever the field does, the members behind it are read alike
      rw [List.filter_cons_of_pos (by simp [hField]), Node.ofMembers, Node.ofMembers, readMembers,
        readMembers]
      simp only [ih]

/-- A record is read off its fields alone. -/
theorem ofValue_congr {ms ns : Members} (hms : Members.Ascending ms) (hns : Members.Ascending ns)
    (h : ∀ f ∈ r.fields, Members.get? f.key ms = Members.get? f.key ns) :
    r.ofValue (.object ms) = r.ofValue (.object ns) := by
  -- the record passes over members it has no field for, so only the others are compared
  have hFields : ms.filter (fun m => (r.field? m.1).isSome) =
      ns.filter fun m => (r.field? m.1).isSome := by
    refine (hms.filter _).ext (hns.filter _) fun key => ?_
    rw [Members.get?_filter fun k => (r.field? k).isSome,
      Members.get?_filter fun k => (r.field? k).isSome]
    cases hField : r.field? key with
    | none => rfl
    | some f =>
      obtain ⟨hf, rfl⟩ := mem_of_field? hField
      rw [h f hf]
  rw [ofValue, ofValue, Node.ofValue, Node.ofValue, ofNode, ofNode, readObject, readObject,
    ← readMembers_filter, hFields, readMembers_filter]

/-! ### Written members -/

private theorem mem_fields_of_mem_keys {fields : List (RecordField α)} {a : α} {key : String}
    (h : key ∈ Members.keys (fields.filterMap fun f => (f.write a).map (f.key, ·))) :
    key ∈ fields.map (·.key) := by
  obtain ⟨m, hm, rfl⟩ := List.mem_map.mp h
  obtain ⟨f, hf, hWritten⟩ := List.mem_filterMap.mp hm
  obtain ⟨x, -, rfl⟩ := Option.map_eq_some_iff.mp hWritten
  exact List.mem_map_of_mem hf

/-- Each field is found among the written members as it was written. -/
theorem get?_members (h : (r.fields.map (·.key)).Nodup) (a : α) {f : RecordField α}
    (hf : f ∈ r.fields) : Members.get? f.key (r.members a) = f.write a := by
  rw [members]
  -- on the fields, which have distinct keys, so a later one cannot hide this one
  generalize r.fields = fields at h hf
  induction fields with
  | nil => exact nomatch hf
  | cons g fields ih =>
    rw [List.map_cons, List.nodup_cons] at h
    rcases List.mem_cons.mp hf with rfl | hMore
    · rw [List.filterMap_cons]
      cases hWritten : f.write a with
      | none => exact Members.get?_eq_none_of_not_mem _ _ (mt mem_fields_of_mem_keys h.1)
      | some x => exact if_pos rfl
    · have hOther : g.key ≠ f.key := fun hEq => h.1 (hEq ▸ List.mem_map_of_mem hMore)
      rw [← ih h.2 hMore, List.filterMap_cons]
      cases g.write a with
      | none => rfl
      | some x => exact if_neg hOther

/-- The written members have distinct keys. -/
theorem nodup_keys_members (h : (r.fields.map (·.key)).Nodup) (a : α) :
    (Members.keys (r.members a)).Nodup := by
  rw [members]
  generalize r.fields = fields at h
  induction fields with
  | nil => exact List.nodup_nil
  | cons g fields ih =>
    rw [List.map_cons, List.nodup_cons] at h
    rw [List.filterMap_cons]
    -- a field that is not written adds no key
    cases g.write a with
    | none => exact ih h.2
    | some x => exact List.nodup_cons.mpr ⟨mt mem_fields_of_mem_keys h.1, ih h.2⟩

/-- A record is read back from its members, put in order beside one that is no field. -/
theorem Lawful.ofValue_tagged (h : r.Lawful) (a : α) (tag : String × Value)
    (hTag : tag.1 ∉ r.fields.map (·.key)) :
    r.ofValue (.object (Members.ofList (tag :: r.members a))) = .ok a := by
  have hDistinct : (Members.keys (tag :: r.members a)).Nodup :=
    List.nodup_cons.mpr ⟨mt mem_fields_of_mem_keys hTag, nodup_keys_members h.distinct a⟩
  refine h.ofValue_object a (Members.ascending_ofList _).nodup_keys
    (h.gives_of_written fun f hf => ?_)
  have hOther : tag.1 ≠ f.key := fun hEq => hTag (hEq ▸ List.mem_map_of_mem hf)
  rw [Members.get?_ofList_of_nodup _ hDistinct, Members.get?_cons, if_neg hOther,
    get?_members h.distinct a hf]

/-! ### Round trips -/

/-- A record is read back from its text, directly and by way of a generic value. -/
structure RoundTrips (r : Record α) : Prop where
  ofText : ∀ a, r.ofText (r.toValue a).compact.toList = .ok a
  /-- The text is that of a generic value. -/
  parse : ∀ a, Value.parse (r.toValue a).compact = .ok (r.toValue a).sorted
  ofValue : ∀ a, r.ofValue (r.toValue a).sorted = .ok a
  /-- Records that differ have texts that differ. -/
  distinct : ∀ a b, (r.toValue a).compact = (r.toValue b).compact → a = b

/-- The written members give the record, also once they are put in order. -/
theorem Lawful.gives_members (h : r.Lawful) (a : α) :
    r.Gives (r.members a) a ∧ r.Gives (Members.ofList (r.members a)) a := by
  have hFields (f : RecordField α) (hf : f ∈ r.fields) :
      Members.get? f.key (r.members a) = f.write a := get?_members h.distinct a hf
  refine ⟨h.gives_of_written hFields, h.gives_of_written fun f hf => ?_⟩
  rw [Members.get?_ofList_of_nodup _ (nodup_keys_members h.distinct a), hFields f hf]

/-- A lawful record of texts and integers of 64 bits is read back. -/
theorem Lawful.roundTrips (h : r.Lawful) (hPlain : ∀ a, ∀ m ∈ r.members a, m.2.IsPlain) :
    r.RoundTrips := by
  have hSorted (a : α) : (r.toValue a).sorted = .object (Members.ofList (r.members a)) := by
    rw [toValue, Value.sorted, Value.sortedMembers_of_plain (hPlain a)]
  have hText (a : α) : r.ofText (r.toValue a).compact.toList = .ok a := by
    have hIntegral : (r.toValue a).IsIntegral := Value.membersIntegral_of_plain (hPlain a)
    obtain ⟨hRoot, hAfter⟩ := Document.read_of_lexemes (lexemes_chars hIntegral)
    have hRecord := h.ofNode_object a hRoot (nodup_keys_members h.distinct a) (h.gives_members a).1
    rw [ofText, Document.decode, Value.compact, String.toList_ofList, hRecord, hAfter]
    rfl
  refine ⟨hText, fun a => ?_, fun a => ?_, fun a b hSame => ?_⟩
  · rw [hSorted, Value.parse, Value.compact, String.toList_ofList]
    exact Value.read_chars_of_plain (hPlain a)
  · rw [hSorted]
    exact h.ofValue_object a (Members.ascending_ofList _).nodup_keys (h.gives_members a).2
  · -- one text is read as one record
    have hRead := hText a
    rw [hSame, hText b] at hRead
    exact (Except.ok.inj hRead).symm

end Record

/-! ### Fields -/

namespace RecordField

variable {fields : List (RecordField α)} (key : String) (presence : Presence)

section Projections

variable (range : Reader.IntRange) (a : α) (getText : α → String) (setText : String → α → α)
  (getInt : α → Int) (setInt : Int → α → α) (getInt64 : α → Int64) (setInt64 : Int64 → α → α)
  (getInt32 : α → Int32) (setInt32 : Int32 → α → α)

@[simp] theorem key_text : (text key presence getText setText).key = key := rfl

@[simp] theorem presence_text : (text key presence getText setText).presence = presence := rfl

@[simp] theorem write_text :
    (text key presence getText setText).write a = some (.text (getText a)) := rfl

@[simp] theorem key_int : (int key range presence getInt setInt).key = key := rfl

@[simp] theorem presence_int : (int key range presence getInt setInt).presence = presence := rfl

@[simp] theorem write_int :
    (int key range presence getInt setInt).write a = some (.int (getInt a)) := rfl

@[simp] theorem key_int64 : (int64 key presence getInt64 setInt64).key = key := rfl

@[simp] theorem presence_int64 :
    (int64 key presence getInt64 setInt64).presence = presence := rfl

@[simp] theorem write_int64 :
    (int64 key presence getInt64 setInt64).write a = some (.int (getInt64 a).toInt) := rfl

@[simp] theorem key_int32 : (int32 key presence getInt32 setInt32).key = key := rfl

@[simp] theorem presence_int32 :
    (int32 key presence getInt32 setInt32).presence = presence := rfl

@[simp] theorem write_int32 :
    (int32 key presence getInt32 setInt32).write a = some (.int (getInt32 a).toInt) := rfl

end Projections

/-- A field that holds a text. -/
theorem text_sets {get : α → String} {set : String → α → α}
    (h : ∀ a b, ∀ g ∈ fields,
      g.write (set (get a) b) = if g.key = key then g.write a else g.write b) :
    (text key presence get set).Sets fields := by
  intro a x hx n hn
  cases hx
  cases hn with
  | text start rest => exact ⟨set (get a), rfl, h a⟩

/-- A field that holds an integer of a range. -/
theorem int_sets {range : Reader.IntRange} {get : α → Int} {set : Int → α → α}
    (hRange : ∀ a, range.low ≤ get a ∧ get a ≤ range.high)
    (h : ∀ a b, ∀ g ∈ fields,
      g.write (set (get a) b) = if g.key = key then g.write a else g.write b) :
    (int key range presence get set).Sets fields := by
  intro a x hx n hn
  cases hx
  -- the number comes from the record, so it is in the field's range
  cases hn with
  | number start rest =>
    refine ⟨set (get a), ?_, h a⟩
    simp only [int, Reader.int, if_pos (hRange a)]
    rfl

/-- A field that holds an integer of 64 bits. -/
theorem int64_sets {get : α → Int64} {set : Int64 → α → α}
    (h : ∀ a b, ∀ g ∈ fields,
      g.write (set (get a) b) = if g.key = key then g.write a else g.write b) :
    (int64 key presence get set).Sets fields := by
  refine int_sets key presence (fun a => ⟨(get a).minValue_le_toInt, (get a).toInt_le⟩) ?_
  simpa only [Int64.ofInt_toInt] using h

/-- A field that holds an integer of 32 bits. -/
theorem int32_sets {get : α → Int32} {set : Int32 → α → α}
    (h : ∀ a b, ∀ g ∈ fields,
      g.write (set (get a) b) = if g.key = key then g.write a else g.write b) :
    (int32 key presence get set).Sets fields := by
  refine int_sets key presence (fun a => ⟨(get a).minValue_le_toInt, (get a).toInt_le⟩) ?_
  simpa only [Int32.ofInt_toInt] using h

end RecordField

end RunnerPool.Json
