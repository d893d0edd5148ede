import RunnerPool.Proofs.Json.Record

/-!
# Fields that are left out

A record may leave out what is empty or zero.  That concerns the writer alone: reading is as of the
record that writes every field, and what is written of it are the members that are not blank.

* `Value.isBlank`           an empty text or zero
* `Record.omittingBlank`    the record with its blank fields left out
* `Record.ofValue_omittingBlank`, `Record.members_omittingBlank`   what is read and written of it
* `Record.Lawful.omittingBlank`   it reads what it writes
-/

namespace RunnerPool.Json

/-- An empty text, or zero. -/
def Value.isBlank : Value → Bool
  | .text s => s == ""
  | .number (.int n) => n == 0
  | _ => false

/-- The field, left out where it is blank. -/
def RecordField.omittingBlank (f : RecordField α) : RecordField α :=
  f.omitting fun a => (f.write a).any Value.isBlank

theorem RecordField.write_omittingBlank (f : RecordField α) (a : α) :
    f.omittingBlank.write a = (f.write a).filter fun x => !x.isBlank := by
  have hWrite : f.omittingBlank.write a =
      if (f.write a).any Value.isBlank then none else f.write a := rfl
  rw [hWrite]
  cases f.write a with
  | none => rfl
  | some x => cases hBlank : x.isBlank <;> simp [Option.filter, hBlank]

namespace Record

/-- The record with its blank fields left out. -/
def omittingBlank (r : Record α) : Record α :=
  { r with fields := r.fields.map .omittingBlank }

variable (r : Record α)

/-! ### Reading -/

theorem field?_omittingBlank (key : String) :
    r.omittingBlank.field? key = (r.field? key).map .omittingBlank := by
  rw [field?, omittingBlank, List.find?_map]
  rfl

theorem missing?_omittingBlank (given : List String) :
    r.omittingBlank.missing? given = r.missing? given := by
  rw [missing?, omittingBlank, List.find?_map, Option.map_map]
  rfl

theorem readMembers_omittingBlank (a : α) (given : List String) (ms : List (Key × Node)) :
    r.omittingBlank.readMembers a given ms = r.readMembers a given ms := by
  induction ms generalizing a given with
  | nil => rfl
  | cons m ms ih =>
    obtain ⟨k, n⟩ := m
    rw [readMembers, readMembers]
    simp only [field?_omittingBlank]
    -- a field that leaves blanks out is written in another way, but read in the same
    cases k.value.mapError Fault.ofFlaw with
    | error fault => rfl
    | ok key =>
      cases hField : r.field? key with
      | none => simp only [bind, Except.bind, hField, Option.map_none, ih]
      | some f =>
        have hRead : f.omittingBlank.read = f.read := rfl
        simp only [bind, Except.bind, hField, Option.map_some, hRead, ih]

theorem readItems_omittingBlank (given : Nat) (a : α) (fs : List (RecordField α)) (ns : List Node)
    (e : Ending) :
    r.omittingBlank.readItems given a (fs.map .omittingBlank) ns e =
      r.readItems given a fs ns e := by
  have hCount : r.omittingBlank.fields.length = r.fields.length := List.length_map ..
  induction fs generalizing given a ns with
  | nil => rfl
  | cons f fs ih =>
    have hRead : f.omittingBlank.read = f.read := rfl
    have hPresence : f.omittingBlank.presence = f.presence := rfl
    have hName : r.omittingBlank.name = r.name := rfl
    cases ns with
    | cons n ns => simp only [List.map_cons, readItems, hRead, ih]
    | nil =>
      -- of what is missing only the presence counts, and that is the same too
      cases e with
      | closed rest => simp only [List.map_cons, readItems, hPresence, hName, hCount, ih]
      | broken why => rfl

/-- Reading does not ask what would be left out. -/
theorem ofNode_omittingBlank (n : Node) : r.omittingBlank.ofNode n = r.ofNode n := by
  cases n with
  | object start ms e =>
    cases e with
    | closed rest =>
      simp only [ofNode, readObject, readMembers_omittingBlank, missing?_omittingBlank]
      rfl
    | broken why =>
      simp only [ofNode, readObject, readMembers_omittingBlank]
      rfl
  | array start ns e => exact r.readItems_omittingBlank 0 r.blank r.fields ns e
  | _ => rfl

theorem ofValue_omittingBlank (v : Value) : r.omittingBlank.ofValue v = r.ofValue v := by
  rw [ofValue, ofValue, ofNode_omittingBlank]

/-! ### Writing -/

/-- What is written are the members that are not blank. -/
theorem members_omittingBlank (a : α) :
    r.omittingBlank.members a = (r.members a).filter fun m => !m.2.isBlank := by
  rw [members, members, omittingBlank, List.filterMap_map, List.filter_filterMap]
  congr 1
  funext f
  have hKey : f.omittingBlank.key = f.key := rfl
  rw [Function.comp, f.write_omittingBlank, hKey]
  cases f.write a with
  | none => rfl
  | some x => cases hBlank : x.isBlank <;> simp [Option.filter, hBlank]

/-- A field may be left out, and is where it has the value of the blank record. -/
def OmitsBlank (r : Record α) : Prop :=
  ∀ f ∈ r.fields, f.presence ≠ .required ∧
    ∀ a, f.omittingBlank.write a = none ↔ f.write a = f.write r.blank

variable {r : Record α}

/-- The record that leaves out its blank fields reads what it writes: a field that is left out is
    as in the blank record. -/
theorem Lawful.omittingBlank (h : r.Lawful) (hOmits : r.OmitsBlank) : r.omittingBlank.Lawful where
  distinct := by
    have hKeys : r.omittingBlank.fields.map (·.key) = r.fields.map (·.key) := by
      rw [Record.omittingBlank, List.map_map]
      rfl
    rw [hKeys]
    exact h.distinct
  sets := by
    intro _ hMem a x hx n hn
    obtain ⟨f, hf, rfl⟩ := List.mem_map.mp hMem
    rw [f.write_omittingBlank, Option.filter_eq_some_iff] at hx
    obtain ⟨change, hRead, hChange⟩ := h.sets f hf a x hx.1 n hn
    refine ⟨change, hRead, fun b _ hMem' => ?_⟩
    obtain ⟨g, hg, rfl⟩ := List.mem_map.mp hMem'
    have hKeys : (g.omittingBlank.key = f.omittingBlank.key) = (g.key = f.key) := rfl
    rw [g.write_omittingBlank, g.write_omittingBlank, g.write_omittingBlank, hChange b g hg]
    simp only [hKeys]
    split <;> rfl
  omitted := by
    intro _ hMem a _
    obtain ⟨f, hf, rfl⟩ := List.mem_map.mp hMem
    obtain ⟨hPresence, hBlank⟩ := hOmits f hf
    exact ⟨hPresence, (hBlank r.blank).mpr rfl⟩
  ext := by
    intro a b hSame
    refine h.ext a b fun f hf => ?_
    have hWritten := hSame f.omittingBlank (List.mem_map_of_mem hf)
    cases hA : f.omittingBlank.write a with
    | none =>
      -- both leave the field out, so both have it as the blank record has
      rw [hA] at hWritten
      rw [((hOmits f hf).2 a).mp hA, ((hOmits f hf).2 b).mp hWritten.symm]
    | some x =>
      rw [hA] at hWritten
      rw [f.write_omittingBlank, Option.filter_eq_some_iff] at hA
      rw [f.write_omittingBlank, eq_comm, Option.filter_eq_some_iff] at hWritten
      rw [hA.1, hWritten.1]

end Record

end RunnerPool.Json
