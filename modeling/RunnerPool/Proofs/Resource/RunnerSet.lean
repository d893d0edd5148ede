import RunnerPool.Cluster.Request
import RunnerPool.Proofs.Json.Members
import RunnerPool.Proofs.Json.Node
import RunnerPool.Resource.RunnerSet

/-!
# The patch of a runner set on the wire

What the text of a request says that sets the size and the decision number of a runner set, read
as any receiver of the text would read it.

* `Cluster.Request.specMember?`     a member of the specification that a request's text sets
* `RunnerSetSpec.compact_patch`     the text of a patch that leaves out neither field
* `RunnerSetSpec.read_patch`        the text of the patch says what the patch says
-/

namespace RunnerPool

open Json

/-- A member of the specification that the text of a request sets. -/
def Cluster.Request.specMember? (r : Cluster.Request) (key : String) : Option Value :=
  match Value.read r.body.toList with
  | .error _ => none
  | .ok v => (v.member? "spec").bind (Value.member? key)

namespace RunnerSetSpec

/-- A field as a member, left out if it equals the baseline. -/
def changed (key : String) (n : Int32) : Members :=
  if n = -1 then [] else [(key, .int n.toInt)]

/-- The members that a patch sets. -/
def patchMembers (replicas patchId : Int32) : Members :=
  changed "patchID" patchId ++ changed "replicas" replicas

theorem sortedValue_eq (s : RunnerSetSpec) :
    s.sortedValue =
      .object [("patchID", .int s.patchId.toInt), ("replicas", .int s.replicas.toInt)] := by
  have hMembers : record.members s =
      [("replicas", .int s.replicas.toInt), ("patchID", .int s.patchId.toInt)] := rfl
  have hOrder : "patchID" < "replicas" := by decide
  rw [sortedValue, hMembers, Members.ofList, List.foldl_cons, List.foldl_cons, List.foldl_nil,
    Members.insert, Members.insert, if_pos hOrder]

/-- A field is among the changes unless it equals the baseline. -/
theorem changes_cons (key : String) (n : Int32) (old new : Members)
    (h : Members.get? key old = some (.int (-1))) :
    MergePatch.changes old ((key, .int n.toInt) :: new) =
      changed key n ++ MergePatch.changes old new := by
  have hSame : (Value.int (-1) == .int n.toInt) = true ↔ n = -1 := by
    have hInt : (Value.int (-1) == .int n.toInt) = ((-1 : Int32).toInt == n.toInt) := rfl
    rw [hInt, beq_iff_eq, Int32.toInt_inj, eq_comm]
  rw [MergePatch.changes, h, changed]
  simp only [hSame]
  split <;> rfl

/-- The patch sets the specification's fields that differ from the baseline. -/
theorem patch_eq (replicas patchId : Int32) :
    patch replicas patchId = .object [("spec", .object (patchMembers replicas patchId))] := by
  rw [patch, sortedValue_eq, sortedValue_eq, MergePatch.diff, changes_cons _ _ _ _ rfl,
    changes_cons _ _ _ _ rfl, MergePatch.changes, List.append_nil]
  rfl

theorem isPlain_of_mem_changed {key : String} {n : Int32} :
    ∀ m ∈ changed key n, m.2.IsPlain := by
  rw [changed]
  split
  · exact nofun
  · rw [List.forall_mem_singleton]
    exact Value.isPlain_int32 n

theorem isPlain_of_mem_patchMembers (replicas patchId : Int32) :
    ∀ m ∈ patchMembers replicas patchId, m.2.IsPlain :=
  List.forall_mem_append.mpr ⟨isPlain_of_mem_changed, isPlain_of_mem_changed⟩

/-- The text that sets the size and the number of a runner set, and nothing else. -/
def patchText (replicas patchId : Int) : String :=
  "\x7b\"spec\":\x7b\"patchID\":" ++ toString patchId ++ ",\"replicas\":" ++
    toString replicas ++ "\x7d\x7d"

theorem compact_eq_patchText (replicas patchId : Int) :
    (Value.object [("spec",
        .object [("patchID", .int patchId), ("replicas", .int replicas)])]).compact =
      patchText replicas patchId := by
  -- the keys hold nothing that is escaped
  have hSpec : textChars "spec" = ['"', 's', 'p', 'e', 'c', '"'] := by decide
  have hPatchId : textChars "patchID" = ['"', 'p', 'a', 't', 'c', 'h', 'I', 'D', '"'] := by decide
  have hReplicas : textChars "replicas" = ['"', 'r', 'e', 'p', 'l', 'i', 'c', 'a', 's', '"'] := by
    decide
  delta patchText
  rw [← String.toList_inj]
  simp only [Value.compact, Value.chars, Value.membersChars, Value.int, Number.chars, hSpec,
    hPatchId, hReplicas, String.toList_ofList, String.toList_append, ← ofList_ofInt,
    List.cons_append, List.nil_append, List.append_assoc]
  rfl

/-- The text of a patch that leaves out neither field. -/
theorem compact_patch {replicas patchId : Int32} (hReplicas : replicas ≠ unset.replicas)
    (hPatchId : patchId ≠ unset.patchId) :
    (patch replicas patchId).compact = patchText replicas.toInt patchId.toInt := by
  have hSize : changed "replicas" replicas = [("replicas", .int replicas.toInt)] :=
    if_neg hReplicas
  have hNumber : changed "patchID" patchId = [("patchID", .int patchId.toInt)] :=
    if_neg hPatchId
  rw [patch_eq, patchMembers, hSize, hNumber, List.singleton_append, compact_eq_patchText]

/-- The text of a patch says what the patch says. -/
theorem read_patch (replicas patchId : Int32) :
    Value.read (patch replicas patchId).chars =
      .ok (.object [("spec", .object (Members.ofList (patchMembers replicas patchId)))]) := by
  have hPlain := isPlain_of_mem_patchMembers replicas patchId
  -- two members with whole numbers, so the text is read back whatever they are
  have hIntegral : (patch replicas patchId).IsIntegral := by
    rw [patch_eq]
    exact ⟨Value.membersIntegral_of_plain hPlain, trivial⟩
  have hDepth : (patch replicas patchId).depth ≤ Node.depthLimit := by
    rw [patch_eq, Value.depth, Value.membersDepth, Value.membersDepth, Value.depth,
      Value.membersDepth_of_plain hPlain]
    decide
  rw [Value.read_chars hIntegral hDepth, patch_eq, Value.sorted, Value.sortedMembers,
    Value.sortedMembers, Value.sorted, Value.sortedMembers_of_plain hPlain]
  rfl

variable {r : Cluster.Request} {replicas patchId : Int32}

theorem nodup_keys_patchMembers (replicas patchId : Int32) :
    (Members.keys (patchMembers replicas patchId)).Nodup := by
  rw [patchMembers, changed, changed]
  split <;> split <;> simp [Members.keys]

private theorem specMember?_eq (h : r.patch = patch replicas patchId) (key : String) :
    r.specMember? key = Members.get? key (patchMembers replicas patchId) := by
  rw [Cluster.Request.specMember?, Cluster.Request.body, h, Value.compact, String.toList_ofList,
    read_patch, ← Members.get?_ofList_of_nodup key (nodup_keys_patchMembers replicas patchId)]
  rfl

/-- The decision number that a request's text sets. -/
theorem specMember?_patchID (h : r.patch = patch replicas patchId) :
    r.specMember? "patchID" = if patchId = -1 then none else some (.int patchId.toInt) := by
  rw [specMember?_eq h, patchMembers, changed, changed]
  split <;> split <;> simp [Members.get?]

/-- The size that a request's text sets. -/
theorem specMember?_replicas (h : r.patch = patch replicas patchId) :
    r.specMember? "replicas" = if replicas = -1 then none else some (.int replicas.toInt) := by
  rw [specMember?_eq h, patchMembers, changed, changed]
  split <;> split <;> simp [Members.get?]

end RunnerSetSpec

end RunnerPool
