import Mathlib.Data.List.Forall2
import Mathlib.Data.List.Nodup
import RunnerPool.Proofs.Json.Record

/-!
# The shape of a record

The shape of a record says of each field what it holds and whether it must be given.  Members fit
the shape if each field among them holds what it should and each that must be given is there.
Members that do not fit are refused, and the refusal is about one of the fields.

* `FieldShape`       what is asked of a field
* `Fits`             the members are as the shape asks
* `Members.textOf`   what the members give, and `intOf` for an integer
* `Record.HasShape`  the record asks for the shape

## Main statement

- `Record.HasShape.ofValue_refused`: members that do not fit the shape are refused
-/

namespace RunnerPool.Json

/-- What a field holds. -/
inductive FieldType
  | text
  | integer (range : Reader.IntRange)

/-- What is met in the place of another value. -/
def Value.found : Value → Found
  | .null => .null
  | .bool b => .bool b
  | .number (.int n) => .int n
  | .number (.float x) => .float x
  | .text s => .text s
  | .array _ => .sequence
  | .object _ => .map

namespace FieldType

/-- The value is of the type.  No floating point number is an integer, and an integer has to be in
    its range. -/
def admits : FieldType → Value → Bool
  | .text, .text _ => true
  | .integer range, .number (.int n) => range.low ≤ n ∧ n ≤ range.high
  | _, _ => false

/-- How the type is called. -/
def expected : FieldType → String
  | .text => "a string"
  | .integer range => range.name

/-- What is wrong with a value that is not of the type. -/
def mismatch : FieldType → Value → Mismatch
  | .integer range, .number (.int n) => .range n range.name
  | t, x => .kind x.found t.expected

/-- Neither looks into a container. -/
theorem admits_sorted (t : FieldType) (x : Value) : t.admits x.sorted = t.admits x := by
  cases x <;> cases t <;> rfl

theorem mismatch_sorted (t : FieldType) (x : Value) : t.mismatch x.sorted = t.mismatch x := by
  cases x <;> cases t <;> rfl

end FieldType

/-- What is asked of a field. -/
structure FieldShape where
  key : String
  type : FieldType
  required : Bool

namespace FieldShape

/-- The field can have the value, or can be left out. -/
def Allows (s : FieldShape) : Option Value → Prop
  | some x => s.type.admits x = true
  | none => s.required = false

instance (s : FieldShape) : (x? : Option Value) → Decidable (s.Allows x?)
  | some x => inferInstanceAs (Decidable (s.type.admits x = true))
  | none => inferInstanceAs (Decidable (s.required = false))

/-- The members are as the field asks; the last member with its key counts. -/
def Met (s : FieldShape) (ms : Members) : Prop :=
  s.Allows (Members.last? s.key ms)

instance (s : FieldShape) (ms : Members) : Decidable (s.Met ms) :=
  inferInstanceAs (Decidable (s.Allows _))

/-- What can be wrong with the members at the field. -/
inductive Wrong (s : FieldShape) (ms : Members) : Mismatch → Prop
  | missing (required : s.required = true) (absent : Members.last? s.key ms = none) :
    Wrong s ms (.missing s.key)
  | refused {x : Value} (found : Members.last? s.key ms = some x)
    (other : s.type.admits x = false) : Wrong s ms (s.type.mismatch x)

variable {s : FieldShape} {ms : Members} {m : Mismatch}

/-- What is wrong at a field is that the members are not as it asks. -/
theorem Wrong.not_met (h : s.Wrong ms m) : ¬ s.Met ms := by
  rw [Met]
  cases h with
  | missing required absent =>
    rw [absent, Allows, required]
    exact Bool.noConfusion
  | refused found other =>
    rw [found]
    exact Bool.eq_false_iff.mp other

end FieldShape

/-- The members are as the shape asks. -/
def Fits (shapes : List FieldShape) (ms : Members) : Prop :=
  ∀ s ∈ shapes, s.Met ms

instance (shapes : List FieldShape) (ms : Members) : Decidable (Fits shapes ms) :=
  inferInstanceAs (Decidable (∀ s ∈ shapes, s.Met ms))

/-! ### Members put in order -/

/-- What a reader delivers for a key is the value of the last member with it. -/
theorem Value.last?_sortedMembers (key : String) (ms : Members) :
    Members.last? key (sortedMembers ms) = (Members.last? key ms).map sorted := by
  induction ms with
  | nil => rfl
  | cons m ms ih =>
    obtain ⟨k, x⟩ := m
    rw [sortedMembers, Members.last?, Members.last?, ih]
    cases Members.last? key ms with
    | some y => rfl
    | none => by_cases hKey : k = key <;> simp [hKey]

/-- The members as a reader delivers them. -/
theorem Value.last?_sorted (key : String) (ms : Members) :
    Members.last? key (Members.ofList (sortedMembers ms)) = (Members.last? key ms).map sorted := by
  rw [Members.last?_of_nodup key (Members.ascending_ofList _).nodup_keys, Members.get?_ofList,
    last?_sortedMembers]

theorem FieldShape.met_sorted {s : FieldShape} {ms : Members} :
    s.Met (Members.ofList (Value.sortedMembers ms)) ↔ s.Met ms := by
  rw [Met, Met, Value.last?_sorted]
  cases Members.last? s.key ms with
  | none => exact Iff.rfl
  | some x => exact iff_of_eq (congrArg (· = true) (s.type.admits_sorted x))

theorem fits_sorted {shapes : List FieldShape} {ms : Members} :
    Fits shapes (Members.ofList (Value.sortedMembers ms)) ↔ Fits shapes ms :=
  forall₂_congr fun _ _ => FieldShape.met_sorted

theorem FieldShape.Wrong.of_sorted {s : FieldShape} {ms : Members} {m : Mismatch}
    (h : s.Wrong (Members.ofList (Value.sortedMembers ms)) m) : s.Wrong ms m := by
  -- sorting keeps the last member of each key, and with it what is wrong about it
  cases h with
  | missing required absent =>
    rw [Value.last?_sorted, Option.map_eq_none_iff] at absent
    exact .missing required absent
  | refused found other =>
    rw [Value.last?_sorted] at found
    obtain ⟨x, hx, rfl⟩ := Option.map_eq_some_iff.mp found
    rw [FieldType.admits_sorted] at other
    rw [FieldType.mismatch_sorted]
    exact .refused hx other

/-! ### What members give -/

namespace Members

/-- The text of the last member with the key, the empty one if there is none. -/
def textOf (key : String) (ms : Members) : String :=
  match last? key ms with
  | some (.text s) => s
  | _ => ""

/-- The integer of the last member with the key, zero if there is none. -/
def intOf (key : String) (ms : Members) : Int :=
  match last? key ms with
  | some (.number (.int n)) => n
  | _ => 0

theorem textOf_sorted (key : String) (ms : Members) :
    textOf key (ofList (Value.sortedMembers ms)) = textOf key ms := by
  rw [textOf, textOf, Value.last?_sorted]
  cases last? key ms with
  | none => rfl
  | some x => cases x <;> rfl

theorem intOf_sorted (key : String) (ms : Members) :
    intOf key (ofList (Value.sortedMembers ms)) = intOf key ms := by
  rw [intOf, intOf, Value.last?_sorted]
  cases last? key ms with
  | none => rfl
  | some x => cases x <;> rfl

end Members

namespace RecordField

variable {ms : Members} {blank a : α} {key : String} {presence : Presence}

/-- Members that are as a field of text asks give it what they hold. -/
theorem text_gives {get : α → String} {set : String → α → α} (hDistinct : (Members.keys ms).Nodup)
    (hMet : FieldShape.Met ⟨key, .text, presence = .required⟩ ms)
    (hGet : get a = Members.textOf key ms) (hBlank : get blank = "") :
    (text key presence get set).Gives ms blank a := by
  rw [Gives, write_text, write_text, presence_text, key_text, hGet, hBlank]
  rw [FieldShape.Met, Members.last?_of_nodup key hDistinct] at hMet
  rw [Members.textOf, Members.last?_of_nodup key hDistinct]
  -- absent, the field keeps its default; present, it is a text by the requirement
  cases hFound : Members.get? key ms with
  | none =>
    rw [hFound] at hMet
    exact ⟨of_decide_eq_false hMet, rfl⟩
  | some x =>
    rw [hFound] at hMet
    cases x with
    | text s => rfl
    | _ => cases hMet

/-- The same of a field with an integer. -/
theorem int_gives {range : Reader.IntRange} {get : α → Int} {set : Int → α → α}
    (hDistinct : (Members.keys ms).Nodup)
    (hMet : FieldShape.Met ⟨key, .integer range, presence = .required⟩ ms)
    (hZero : range.low ≤ 0 ∧ 0 ≤ range.high)
    (hGet : range.low ≤ Members.intOf key ms ∧ Members.intOf key ms ≤ range.high →
      get a = Members.intOf key ms) (hBlank : get blank = 0) :
    (int key range presence get set).Gives ms blank a := by
  rw [Gives, write_int, write_int, presence_int, key_int, hBlank]
  rw [FieldShape.Met, Members.last?_of_nodup key hDistinct] at hMet
  rw [Members.intOf, Members.last?_of_nodup key hDistinct] at hGet
  -- as for texts, and a number given must be an integer in the range
  cases hFound : Members.get? key ms with
  | none =>
    rw [hFound] at hGet hMet
    exact ⟨of_decide_eq_false hMet, by rw [hGet hZero]⟩
  | some x =>
    rw [hFound] at hGet hMet
    cases x with
    | number n =>
      cases n with
      | int n =>
        rw [hGet (of_decide_eq_true hMet)]
        rfl
      | float y => cases hMet
    | _ => cases hMet

/-- The same of a field with an integer of 64 bits. -/
theorem int64_gives {get : α → Int64} {set : Int64 → α → α} (hDistinct : (Members.keys ms).Nodup)
    (hMet : FieldShape.Met ⟨key, .integer .int64, presence = .required⟩ ms)
    (hGet : get a = .ofInt (Members.intOf key ms)) (hBlank : get blank = 0) :
    (int64 key presence get set).Gives ms blank a := by
  refine int_gives hDistinct hMet (by decide) (fun hRange => ?_) (by rw [hBlank]; rfl)
  rw [hGet]
  exact Int64.toInt_ofInt_of_le hRange.1 (Int.lt_of_le_of_lt hRange.2 (by decide))

end RecordField

/-- The field asks for what the shape says. -/
structure RecordField.HasShape (f : RecordField α) (s : FieldShape) : Prop where
  key : f.key = s.key
  required : f.presence = .required ↔ s.required = true
  accepts : ∀ x, s.type.admits x = true → ∃ change, f.read (.ofValue x) = .ok change
  refuses : ∀ x, s.type.admits x = false →
    ∃ left, f.read (.ofValue x) = .error ⟨.mismatch (s.type.mismatch x), left⟩

namespace RecordField

variable (key : String) (presence : Presence)

theorem text_hasShape (get : α → String) (set : String → α → α) :
    (text key presence get set).HasShape ⟨key, .text, presence = .required⟩ where
  key := rfl
  required := by simp
  accepts := by
    intro x hx
    cases x with
    | text s => exact ⟨set s, rfl⟩
    | _ => cases hx
  refuses := by
    intro x hx
    cases x with
    | text s => cases hx
    | number n => cases n <;> exact ⟨0, rfl⟩
    | _ => exact ⟨0, rfl⟩

theorem int_hasShape (range : Reader.IntRange) (get : α → Int) (set : Int → α → α) :
    (int key range presence get set).HasShape ⟨key, .integer range, presence = .required⟩ where
  key := rfl
  required := by simp
  accepts := by
    intro x hx
    -- of the values only integers are accepted, and of these the ones in the range
    cases x with
    | number n =>
      cases n with
      | int n =>
        refine ⟨set n, ?_⟩
        simp only [int, Node.ofValue, Reader.int, if_pos (of_decide_eq_true hx)]
        rfl
      | float y => cases hx
    | _ => cases hx
  refuses := by
    intro x hx
    cases x with
    | number n =>
      cases n with
      | int n =>
        refine ⟨0, ?_⟩
        simp only [int, Node.ofValue, Reader.int, if_neg (of_decide_eq_false hx)]
        rfl
      | float y => exact ⟨0, rfl⟩
    | _ => exact ⟨0, rfl⟩

theorem int64_hasShape (get : α → Int64) (set : Int64 → α → α) :
    (int64 key presence get set).HasShape ⟨key, .integer .int64, presence = .required⟩ :=
  int_hasShape key presence .int64 _ _

end RecordField

/-- The record asks for what the shape says, field by field. -/
def Record.HasShape (r : Record α) (shapes : List FieldShape) : Prop :=
  List.Forall₂ RecordField.HasShape r.fields shapes

namespace Record

variable {r : Record α} {shapes : List FieldShape} {ms : Members}

theorem HasShape.exists_shape (h : r.HasShape shapes) {f : RecordField α} (hf : f ∈ r.fields) :
    ∃ s ∈ shapes, f.HasShape s := by
  obtain ⟨i, hi, rfl⟩ := List.getElem_of_mem hf
  have hj : i < shapes.length := h.length_eq ▸ hi
  exact ⟨shapes[i], List.getElem_mem hj, h.get hi hj⟩

theorem HasShape.exists_field (h : r.HasShape shapes) {s : FieldShape} (hs : s ∈ shapes) :
    ∃ f ∈ r.fields, f.HasShape s := by
  obtain ⟨i, hi, rfl⟩ := List.getElem_of_mem hs
  have hj : i < r.fields.length := h.length_eq.symm ▸ hi
  exact ⟨r.fields[i], List.getElem_mem hj, h.get hj hi⟩

/-- What a field reads is of its type. -/
theorem HasShape.admits_of_read (h : r.HasShape shapes) (hKeys : (r.fields.map (·.key)).Nodup)
    {f : RecordField α} (hf : f ∈ r.fields) {s : FieldShape} (hs : s ∈ shapes)
    (hKey : s.key = f.key) {x : Value} {change : α → α} (hRead : f.read (.ofValue x) = .ok change) :
    s.type.admits x = true := by
  obtain ⟨g, hg, hShape⟩ := h.exists_field hs
  obtain rfl : g = f := List.inj_on_of_nodup_map hKeys hg hf (hShape.key.trans hKey)
  by_contra hNot
  obtain ⟨left, hError⟩ := hShape.refuses x (Bool.eq_false_iff.mpr hNot)
  exact nomatch hRead.symm.trans hError

/-- One member is passed over or read, or it is refused because it is not of its field's type. -/
theorem HasShape.readMembers_step (h : r.HasShape shapes) (hKeys : (r.fields.map (·.key)).Nodup)
    (b : α) {given : List String} {k : String} (hNew : k ∉ given) (x : Value) :
    (∃ b' given', (∀ ms : Members, r.readMembers b given (Node.ofMembers ((k, x) :: ms)) =
        r.readMembers b' given' (Node.ofMembers ms)) ∧
      given' ⊆ k :: given ∧ (∀ f ∈ r.fields, f.key ∈ given' ↔ f.key ∈ k :: given) ∧
      ∀ s ∈ shapes, s.key = k → s.type.admits x = true) ∨
    ∃ s ∈ shapes, s.key = k ∧ s.type.admits x = false ∧
      ∃ left, ∀ ms : Members, r.readMembers b given (Node.ofMembers ((k, x) :: ms)) =
        .error ⟨.mismatch (s.type.mismatch x), left⟩ := by
  -- a member no field has is passed over, and one of a field is read into it or refused
  cases hField : r.field? k with
  | none =>
    have hOther := key_ne_of_field?_eq_none hField
    refine Or.inl ⟨b, given, fun ms => ?_, List.subset_cons_self _ _, fun f hf => ?_,
      fun s hs hKey => ?_⟩
    · rw [Node.ofMembers, readMembers_other rfl (Node.holds_ofValue x) hField]
    · simp [hOther f hf]
    · obtain ⟨f, hf, hShape⟩ := h.exists_field hs
      exact (hOther f hf (hShape.key.trans hKey)).elim
  | some f =>
    obtain ⟨hf, rfl⟩ := mem_of_field? hField
    obtain ⟨s, hs, hShape⟩ := h.exists_shape hf
    cases hAdmits : s.type.admits x with
    | true =>
      obtain ⟨change, hRead⟩ := hShape.accepts x hAdmits
      refine Or.inl ⟨change b, f.key :: given, fun ms => ?_, List.Subset.refl _, fun _ _ => Iff.rfl,
        fun s hs hKey => h.admits_of_read hKeys hf hs hKey hRead⟩
      rw [Node.ofMembers, readMembers_field rfl hField hNew hRead]
    | false =>
      obtain ⟨left, hRead⟩ := hShape.refuses x hAdmits
      refine Or.inr ⟨s, hs, hShape.key.symm, hAdmits, left, fun ms => ?_⟩
      rw [Node.ofMembers, readMembers_fault rfl hField hNew hRead]

/-- Members are read to their end, if each is of its field's type, or one that is not is
    refused. -/
theorem HasShape.readMembers_run (h : r.HasShape shapes) (hKeys : (r.fields.map (·.key)).Nodup)
    (b : α) {given : List String} (hDistinct : (Members.keys ms).Nodup)
    (hNew : ∀ k ∈ Members.keys ms, k ∉ given) :
    (∃ a given', r.readMembers b given (Node.ofMembers ms) = .ok (a, given') ∧
      (∀ f ∈ r.fields, f.key ∈ given' ↔ f.key ∈ given ∨ f.key ∈ Members.keys ms) ∧
      ∀ s ∈ shapes, ∀ x, (s.key, x) ∈ ms → s.type.admits x = true) ∨
    ∃ s ∈ shapes, ∃ x left, (s.key, x) ∈ ms ∧ s.type.admits x = false ∧
      r.readMembers b given (Node.ofMembers ms) =
        .error ⟨.mismatch (s.type.mismatch x), left⟩ := by
  -- the members are read in turn: one step, then the rest with the keys given so far
  induction ms generalizing b given with
  | nil =>
    refine Or.inl ⟨b, given, rfl, fun f _ => ?_, fun _ _ _ hx => (nomatch hx)⟩
    simp [Members.keys]
  | cons m ms ih =>
    obtain ⟨k, x⟩ := m
    simp only [Members.keys, List.map_cons, List.nodup_cons] at hDistinct
    rcases h.readMembers_step hKeys b (hNew k List.mem_cons_self) x with
      ⟨b', given', hStep, hSubset, hGiven, hFirst⟩ | ⟨s, hs, rfl, hRefused, left, hStep⟩
    -- a key given is one from before or the head's, and neither is among the rest
    · have hNewMore : ∀ l ∈ Members.keys ms, l ∉ given' := by
        intro l hl hMem
        rcases List.mem_cons.mp (hSubset hMem) with rfl | hBefore
        · exact hDistinct.1 hl
        · exact hNew l (List.mem_cons_of_mem _ hl) hBefore
      rw [hStep]
      rcases ih b' hDistinct.2 hNewMore with
        ⟨a, given'', hRead, hMore, hAdmits⟩ | ⟨s, hs, y, left, hy, hRefused⟩
      · refine Or.inl ⟨a, given'', hRead, fun f hf => ?_, fun s hs y hy => ?_⟩
        · rw [hMore f hf, hGiven f hf]
          simp only [Members.keys, List.map_cons, List.mem_cons]
          tauto
        · rcases List.mem_cons.mp hy with hSame | hRest
          · cases hSame
            exact hFirst s hs rfl
          · exact hAdmits s hs y hRest
      · exact Or.inr ⟨s, hs, y, left, List.mem_cons_of_mem _ hy, hRefused⟩
    · exact Or.inr ⟨s, hs, x, left, List.mem_cons_self, hRefused, hStep ms⟩

/-- The field that is said to be missing must be given and was not. -/
theorem exists_of_missing?_eq_some {given : List String} {key : String}
    (h : r.missing? given = some key) :
    ∃ f ∈ r.fields, f.presence = .required ∧ f.key ∉ given ∧ f.key = key := by
  obtain ⟨f, hFound, rfl⟩ := Option.map_eq_some_iff.mp h
  have hWant := List.find?_some hFound
  simp only [Bool.and_eq_true, beq_iff_eq, Bool.not_eq_true', List.contains_eq_mem,
    decide_eq_false_iff_not] at hWant
  exact ⟨f, List.mem_of_find?_eq_some hFound, hWant.1, hWant.2, rfl⟩

/-- Members that do not fit the shape are refused, and the refusal is about one of the fields. -/
theorem HasShape.ofValue_refused (h : r.HasShape shapes) (hKeys : (r.fields.map (·.key)).Nodup)
    (hDistinct : (Members.keys ms).Nodup) (hNot : ¬ Fits shapes ms) :
    ∃ s ∈ shapes, ∃ m, s.Wrong ms m ∧ r.ofValue (.object ms) = .error (.mismatch m) := by
  rw [ofValue, Node.ofValue, ofNode, readObject]
  have hNone : ∀ k ∈ Members.keys ms, k ∉ ([] : List String) := fun _ _ => List.not_mem_nil
  rcases h.readMembers_run hKeys r.blank hDistinct hNone with
    ⟨a, given, hRead, hGiven, hAdmits⟩ | ⟨s, hs, x, left, hx, hRefused, hRead⟩
  · rw [hRead]
    cases hMissing : r.missing? given with
    | none =>
      -- nothing is missing and nothing is of another type, so that the members fit
      refine (hNot fun s hs => ?_).elim
      rw [FieldShape.Met]
      cases hFound : Members.last? s.key ms with
      | some x => exact hAdmits s hs x ((Members.last?_eq_some_iff hDistinct).mp hFound)
      | none =>
        obtain ⟨f, hf, hShape⟩ := h.exists_field hs
        rw [Members.last?_eq_none_iff, ← hShape.key] at hFound
        rw [FieldShape.Allows, ← Bool.not_eq_true, ← hShape.required]
        intro hRequired
        have hIn := (hGiven f hf).mp (missing?_eq_none_iff.mp hMissing f hf hRequired)
        exact hFound (hIn.resolve_left List.not_mem_nil)
    | some key =>
      obtain ⟨f, hf, hRequired, hAbsent, rfl⟩ := exists_of_missing?_eq_some hMissing
      obtain ⟨s, hs, hShape⟩ := h.exists_shape hf
      rw [hGiven f hf, not_or, ← Members.last?_eq_none_iff, hShape.key] at hAbsent
      refine ⟨s, hs, .missing s.key, .missing (hShape.required.mp hRequired) hAbsent.2, ?_⟩
      simp only [bind, Except.bind, hMissing]
      rw [hShape.key]
      rfl
  · rw [hRead]
    exact ⟨s, hs, _, .refused ((Members.last?_eq_some_iff hDistinct).mpr hx) hRefused, rfl⟩

end Record

end RunnerPool.Json
