import RunnerPool.Proofs.Number.Spelling
import RunnerPool.Proofs.Settings.Loading
import RunnerPool.Proofs.Settings.Tree

/-!
# Text settings from the environment

A variable of the environment takes the place of a key of the file.  What it says is given a type
before it is taken as a text again, so that a text setting is not always what the variable says.

* `Settings.TextKey`      the keys whose settings are texts
* `Settings.IsTruthWord`  a text that reads as a truth value
* `Settings.Unchanged`    a text that is the same after it was given a type

## Main statement

- `override_of_load`: what a text setting is under a variable, and when it is what the variable says
-/

namespace RunnerPool.Settings

/-! ### Texts as values -/

/-- A text that reads as a truth value, in any case. -/
def IsTruthWord (s : String) : Prop := lower s = "true" ∨ lower s = "false"

/-- A text that is the same after it was given a type and taken as a text again: a truth value in
    lower case, the digits of an integer of 64 bits, a number in the one form that is shown of it,
    or none of these in any spelling. -/
inductive Unchanged (s : String) : Prop
  | truth (h : s = "true" ∨ s = "false")
  | integer {n : Int} (range : isInt64 n = true) (h : s = toString n)
  | number {x : Floating} (notInteger : parseInt64? s.toList = none)
    (read : Floating.parse? s.toList = some x) (h : s = x.shown)
  | other (notTruth : ¬ IsTruthWord s) (notNumber : ¬ NumberText s.toList)

/-- No number is a truth value. -/
theorem not_isTruthWord_of_number {s : String} (h : NumberText s.toList) : ¬ IsTruthWord s := by
  obtain ⟨c, r, hHead, hTrue, hFalse⟩ := h.exists_head
  rintro (hWord | hWord) <;> rw [lower, hHead, ← String.toList_inj, String.toList_ofList] at hWord
  · exact hTrue (List.cons.inj hWord).1
  · exact hFalse (List.cons.inj hWord).1

theorem ofText_of_not_truth {s : String} (h : ¬ IsTruthWord s) :
    Setting.Plain.ofText s =
      match parseInt64? s.toList with
      | some n => .int n
      | none =>
        match Floating.parse? s.toList with
        | some x => .float x
        | none => .text s := by
  obtain ⟨hTrue, hFalse⟩ := not_or.mp h
  exact (if_neg hTrue).trans (if_neg hFalse)

theorem parseInt64?_of_toString {n : Int} (h : isInt64 n = true) :
    parseInt64? (toString n).toList = some n := by
  rw [← Json.ofList_ofInt, String.toList_ofList, parseInt64?, parseInteger?_ofInt,
    Option.filter_some, if_pos h]

theorem isInt64_of_parseInt64? {cs : List Char} {n : Int} (h : parseInt64? cs = some n) :
    isInt64 n = true ∧ NumberText cs := by
  obtain ⟨hRead, hRange⟩ := Option.filter_eq_some_iff.mp h
  exact ⟨hRange, ((isSome_parseInteger?_iff cs).mp (by rw [hRead]; rfl)).numberText⟩

/-- A text comes back as it is from being given a type if and only if it is one of these. -/
theorem text?_ofText_eq_iff (s : String) : text? (.ofText s) = some s ↔ Unchanged s := by
  constructor
  -- a text is retyped as a truth value first, then as an integer, then as a number
  · intro h
    by_cases hTruth : IsTruthWord s
    · rcases hTruth with hWord | hWord
      · have hTrue : Setting.Plain.ofText s = .bool true := if_pos hWord
        rw [hTrue] at h
        exact .truth (Or.inl (Option.some.inj h).symm)
      · have hFalse : Setting.Plain.ofText s = .bool false :=
          (if_neg (by rw [lower] at hWord; rw [hWord]; decide)).trans (if_pos hWord)
        rw [hFalse] at h
        exact .truth (Or.inr (Option.some.inj h).symm)
    · rw [ofText_of_not_truth hTruth] at h
      split at h
      · rename_i n hInt
        exact .integer (isInt64_of_parseInt64? hInt).1 (Option.some.inj h).symm
      · rename_i hInt
        split at h
        · rename_i x hRead
          exact .number hInt hRead (Option.some.inj h).symm
        · rename_i hNone
          refine .other hTruth fun hNumber => ?_
          rw [← Floating.isSome_parse?_iff, hNone] at hNumber
          exact nomatch hNumber
  -- in each of the four cases the retyped value is printed as the text was
  · rintro (hWord | ⟨hRange, hText⟩ | ⟨hInt, hRead, hText⟩ | ⟨hTruth, hNumber⟩)
    · rcases hWord with rfl | rfl <;> rfl
    · have hInt := hText ▸ parseInt64?_of_toString hRange
      rw [ofText_of_not_truth (not_isTruthWord_of_number (isInt64_of_parseInt64? hInt).2), hInt]
      exact congrArg some hText.symm
    · have hNumber := (Floating.isSome_parse?_iff s.toList).mp (by rw [hRead]; rfl)
      rw [ofText_of_not_truth (not_isTruthWord_of_number hNumber), hInt, hRead]
      exact congrArg some hText.symm
    · have hNone : Floating.parse? s.toList = none := by
        rwa [← Floating.isSome_parse?_iff, Option.not_isSome_iff_eq_none] at hNumber
      -- an integer would be a number too
      have hInt : parseInt64? s.toList = none := by
        cases hInt : parseInt64? s.toList with
        | none => rfl
        | some n => exact (hNumber (isInt64_of_parseInt64? hInt).2).elim
      rw [ofText_of_not_truth hTruth, hInt, hNone]
      rfl

/-! ### Text settings -/

/-- The keys whose settings are texts. -/
inductive TextKey
  | ns
  | name
  | scaleSet
  | logLevel
  | metricsAddress
  | metricsEndpoint
deriving Repr, DecidableEq

namespace TextKey

/-- The key as it is written. -/
def key : TextKey → String
  | .ns => "ephemeral_runner_set_namespace"
  | .name => "ephemeral_runner_set_name"
  | .scaleSet => "runner_scale_set_name"
  | .logLevel => "log_level"
  | .metricsAddress => "metrics_addr"
  | .metricsEndpoint => "metrics_endpoint"

/-- The setting of the key. -/
def get (s : Settings) : TextKey → String
  | .ns => s.ns
  | .name => s.name
  | .scaleSet => s.scaleSet
  | .logLevel => s.logLevel
  | .metricsAddress => s.metricsAddress
  | .metricsEndpoint => s.metricsEndpoint

/-- The variable that stands for the key. -/
def variableName (k : TextKey) : String :=
  "LISTENER_" ++ String.ofList (k.key.toList.map Char.toUpper)

theorem key_mem_keys (k : TextKey) : k.key ∈ keys := by
  cases k <;> decide

theorem keyOf?_variableName (k : TextKey) : keyOf? k.variableName = some k.key :=
  keyOf?_variableOf k.key_mem_keys

theorem path?_key (k : TextKey) : (Setting.path? k.key).getD [.key k.key] = [.key k.key] :=
  path?_of_mem_keys k.key_mem_keys

end TextKey

/-- What is taken for a text is a single value. -/
theorem exists_of_asText {key : String} {v : Setting} {s : String} (h : asText key v = .ok s) :
    ∃ origin p, v = .plain origin p ∧ text? p = some s := by
  cases v with
  | plain origin p =>
    rw [asText] at h
    split at h
    · rename_i hText
      exact ⟨origin, p, rfl, hText.trans (congrArg some (Except.ok.inj h))⟩
    · exact nomatch h
  | _ => exact nomatch h

/-- A text setting is what lies under its key. -/
theorem asText_of_ofTree {t v : Setting} {s : Settings} {k : TextKey} (h : ofTree t = .ok s)
    (hValue : value? k.key t = some v) : asText k.key v = .ok (k.get s) := by
  have hRead := ofTree_eq_ok_iff.mp h
  -- the first two have no default, the others one that is not used here
  cases k with
  | ns => exact taken_of_read? hValue hRead.ns
  | name => exact taken_of_read? hValue hRead.name
  | scaleSet => exact taken_of_read?_getD hValue hRead.scaleSet
  | logLevel => exact taken_of_read?_getD hValue hRead.logLevel
  | metricsAddress => exact taken_of_read?_getD hValue hRead.metricsAddress
  | metricsEndpoint => exact taken_of_read?_getD hValue hRead.metricsEndpoint

/-! ### Loading -/

/-- Where settings are loaded and a variable is the last one that stands for the key of a text
    setting, the setting is what the variable says after that was given a type and taken as a text
    again, whatever the file and the other variables say.  It is what the variable says, character
    for character, if and only if that is unchanged: no truth value but in lower case, no integer
    but in its own digits, and no other number but in the form that is shown of it. -/
theorem override_of_load {files : String → Option (List UInt8)} {path : String}
    {env before after : List (String × String)} {s : Settings} (h : load files path env = .ok s)
    (k : TextKey) {varName v : String} (hEnv : env = before ++ (varName, v) :: after)
    (hName : keyOf? varName = some k.key) (hLast : ∀ w ∈ after, keyOf? w.1 ≠ some k.key) :
    text? (.ofText v) = some (k.get s) ∧ (k.get s = v ↔ Unchanged v) := by
  -- the last variable for the key decides, since those after it are for other keys
  have hLoaded : text? (.ofText v) = some (k.get s) := by
    obtain ⟨file, hTyped, -⟩ := exists_of_load h
    obtain ⟨kept, hKept⟩ := environmentMembers_split hEnv hName hLast
    rw [hKept] at hTyped
    obtain ⟨x, hValue, hGiven⟩ := Setting.given_putAll k.path?_key kept
      (environmentMembers after) (some environmentName) (.ofText v)
      (ne_of_mem_environmentMembers hLast) file
    obtain ⟨origin, p, rfl, hText⟩ := exists_of_asText (asText_of_ofTree hTyped hValue)
    -- a plain value replaces what was there, so the file has no say
    rcases hGiven with hGiven | hComposite
    · obtain ⟨-, rfl⟩ := Setting.plain.inj hGiven
      exact hText
    · exact (hComposite origin p rfl).elim
  refine ⟨hLoaded, ?_⟩
  rw [← text?_ofText_eq_iff, hLoaded, Option.some.injEq]

/-! A pool whose name is a number, named by two variables of which the last one counts. -/

private def poolFile : String → Option (List UInt8)
  | "config.json" => some (Utf8.encode
      "\x7b\"ephemeral_runner_set_namespace\":\"ns\",\"ephemeral_runner_set_name\":\"pool\"\x7d".toList)
  | _ => none

private def namedTwice : List (String × String) :=
  [("listener_ephemeral_runner_set_name", "other"), (TextKey.name.variableName, "007"),
    ("LISTENER_MIN_RUNNERS", "1")]

private theorem load_namedTwice :
    load poolFile "config" namedTwice = .ok { ns := "ns", name := "7", minRunners := 1 } := by
  decide +kernel

theorem override_of_load_digits :
    load poolFile "config" namedTwice = .ok { ns := "ns", name := "7", minRunners := 1 } ∧
      keyOf? TextKey.name.variableName = some TextKey.name.key ∧
      (∀ w ∈ [("LISTENER_MIN_RUNNERS", "1")], keyOf? w.1 ≠ some TextKey.name.key) ∧
      text? (.ofText "007") = some "7" ∧ ("7" = "007" ↔ Unchanged "007") := by
  have hSplit : namedTwice = [("listener_ephemeral_runner_set_name", "other")] ++
      (TextKey.name.variableName, "007") :: [("LISTENER_MIN_RUNNERS", "1")] := rfl
  have hName := TextKey.keyOf?_variableName .name
  have hLast : ∀ w ∈ [("LISTENER_MIN_RUNNERS", "1")], keyOf? w.1 ≠ some TextKey.name.key := by
    decide +kernel
  exact ⟨load_namedTwice, hName, hLast,
    override_of_load load_namedTwice .name hSplit hName hLast⟩

/-- The name that a variable gives is changed to that of another pool. -/
theorem numeral_name_changed :
    ∃ s, load poolFile "config" namedTwice = .ok s ∧
      (TextKey.name.variableName, "007") ∈ namedTwice ∧ TextKey.name.get s ≠ "007" :=
  ⟨_, load_namedTwice, by decide, by decide⟩

end RunnerPool.Settings
