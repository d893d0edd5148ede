import RunnerPool.Proofs.Json.Form
import RunnerPool.Proofs.Json.Literal
import RunnerPool.Proofs.Settings.Check
import RunnerPool.Proofs.Settings.Loading
import RunnerPool.Proofs.Settings.Tree

/-!
# Bounds from a file

A bound of the pool that stands in a file as an integer literal goes through a number of 64 bits or
of floating point before it is given 32 bits.  None of these steps changes it: it is loaded as the
integer that is written, or nothing is loaded.

* `Settings.BoundKey`            the keys of the two bounds
* `Settings.toInt_of_asInt32`    what a literal is taken for
* `Settings.bound_of_load`       a bound that is loaded is the one that is written

## Main statement

- `bounds_of_literals`: the bounds of a file are loaded as they are written, or not at all
-/

namespace RunnerPool.Settings

open Json (Form Marked Members Numeral exists_of_bind_eq_ok textChars)

/-! ### Integers of 32 bits -/

/-- The integer has 32 bits. -/
def InInt32 (n : Int) : Prop := Int32.minValue.toInt ≤ n ∧ n ≤ Int32.maxValue.toInt

instance (n : Int) : Decidable (InInt32 n) := inferInstanceAs (Decidable (_ ∧ _))

theorem inInt32_toInt (a : Int32) : InInt32 a.toInt := ⟨a.minValue_le_toInt, a.toInt_le⟩

/-! ### Literals as values -/

/-- Numbers far beyond 32 bits are no integers of 32 bits. -/
theorem not_inInt32_of_isAtLeast {x : Binary64} (h : x.IsAtLeast 60) :
    ¬ InInt32 (Floating.finite x).toInt64 := by
  have hAmount := h.roundedAmount
  have hMin : Int64.minValue.toInt = -9223372036854775808 := rfl
  have hMax : Int64.maxValue.toInt = 9223372036854775807 := rfl
  have hMin' : Int32.minValue.toInt = -2147483648 := rfl
  have hMax' : Int32.maxValue.toInt = 2147483647 := rfl
  simp only [InInt32, Floating.toInt64, hMin, hMax, hMin', hMax']
  generalize x.roundedAmount = n at hAmount
  split <;> omega

/-- What an integer literal stands for is taken for the integer that is written, if for any. -/
theorem toInt_of_asInt32 {n : Numeral} {x : Json.Number} (h : n.Literally x)
    {origin : Option String} {key : String} {a : Int32}
    (hRead : asInt32 key (Setting.ofJson origin (.number x)) = .ok a) : a.toInt = n.integer := by
  obtain ⟨m, hWide, hRead⟩ := exists_of_bind_eq_ok hRead
  split at hRead
  · rename_i hRange
    obtain rfl := Except.ok.inj hRead
    -- what passed the range has 32 bits, so that the conversion keeps it
    have hExact : (Int32.ofInt m).toInt = m :=
      Int32.toInt_ofInt_of_le hRange.1 (Int.lt_of_le_of_lt hRange.2 (by decide))
    rw [hExact]
    cases h with
    | exact =>
      rw [Setting.ofJson, asInt64] at hWide
      split at hWide
      · exact (Except.ok.inj hWide).symm
      · cases hWide
    | zero hZero =>
      have hNone : (Floating.finite (.zero n.negative)).toInt64 = 0 := by
        cases n.negative <;> decide +kernel
      obtain rfl := Except.ok.inj hWide
      rw [hZero, hNone]
    | far _ hFar =>
      obtain rfl := Except.ok.inj hWide
      exact (not_inInt32_of_isAtLeast hFar hRange).elim
  · cases hRead

/-! ### The two bounds -/

/-- The keys of the two bounds. -/
inductive BoundKey
  | min
  | max
deriving Repr, DecidableEq

namespace BoundKey

/-- The key as it is written. -/
def key : BoundKey → String
  | .min => "min_runners"
  | .max => "max_runners"

/-- The setting of the key. -/
def get (s : Settings) : BoundKey → Int32
  | .min => s.minRunners
  | .max => s.maxRunners

theorem key_mem_keys (k : BoundKey) : k.key ∈ keys := by
  cases k <;> decide

end BoundKey

/-- A bound is what lies under its key. -/
theorem asInt32_of_ofTree {t v : Setting} {s : Settings} {k : BoundKey} (h : ofTree t = .ok s)
    (hValue : value? k.key t = some v) : asInt32 k.key v = .ok (k.get s) := by
  have hRead := ofTree_eq_ok_iff.mp h
  cases k with
  | min => exact taken_of_read?_getD hValue hRead.minRunners
  | max => exact taken_of_read?_getD hValue hRead.maxRunners

/-- What is taken for a bound is a single value. -/
theorem not_isComposite_of_asInt32 {key : String} {v : Setting} {a : Int32}
    (h : asInt32 key v = .ok a) : ¬ v.IsComposite := by
  intro hComposite
  cases v with
  | plain origin p => exact hComposite origin p rfl
  | _ => exact nomatch h

/-! ### The file -/

/-- A number of the file lies under its key, unless a table or a list does, if no variable stands
    for the key. -/
theorem given_overlaid {K file : String} {ms : Members} {x : Json.Number}
    {env : List (String × String)} (hKey : K ∈ keys) (hKeys : (Members.keys ms).Nodup)
    (hFound : Members.get? K ms = some (.number x)) (hEnv : ∀ w ∈ env, keyOf? w.1 ≠ some K) :
    Setting.Given K (Setting.ofJson (some file) (.number x)) (overlaid file ms env) := by
  obtain ⟨before, after, rfl⟩ := List.append_of_mem (Members.mem_of_get? K _ ms hFound)
  -- the keys of an object differ, so that no later member takes the place of the number
  have hLast : ∀ m ∈ after.map fun m => (m.1, Setting.ofJson (some file) m.2), m.1 ≠ K := by
    intro m hMem hSame
    obtain ⟨m', hm, rfl⟩ := List.mem_map.mp hMem
    rw [Members.keys, List.map_append, List.map_cons] at hKeys
    have hOnce := (List.nodup_cons.mp (List.nodup_append.mp hKeys).2.1).1
    exact hOnce (List.mem_map.mpr ⟨m', hm, hSame⟩)
  refine Setting.Given.putAll ?_ (ne_of_mem_environmentMembers hEnv)
  rw [ofMembers_eq_map, List.map_append, List.map_cons]
  cases x with
  | int n => exact Setting.given_putAll (path?_of_mem_keys hKey) _ _ _ _ hLast _
  | float x => exact Setting.given_putAll (path?_of_mem_keys hKey) _ _ _ _ hLast _

section

variable {files : String → Option (List UInt8)} {path file : String} {bytes : List UInt8}
  {env : List (String × String)} {fs : List (String × Form)} {s : Settings}

/-- A bound that stands in the file as an integer literal is loaded as the integer that is written,
    if no variable stands for its key. -/
theorem bound_of_load (hFile : findFile files path = .ok (file, bytes))
    (hText : (Form.object fs).Spelled (fileText bytes)) {k : BoundKey} {n : Numeral}
    (hLast : Form.last? k.key fs = some (.numeral n)) (hLiteral : n.IsLiteral)
    (hEnv : ∀ w ∈ env, keyOf? w.1 ≠ some k.key) (h : load files path env = .ok s) :
    (k.get s).toInt = n.integer := by
  obtain ⟨t, hTree, hTyped, -⟩ := load_eq_ok_iff.mp h
  obtain ⟨ms, hRead, rfl⟩ := exists_of_tree hFile hTree
  obtain ⟨hAscending, w, x, hWritten, hValue, hFound⟩ := hText.exists_number hRead hLast
  -- the literal's number is what lies under the key, as a table or a list is no bound
  obtain ⟨v, hLies, hGiven⟩ := given_overlaid k.key_mem_keys hAscending.nodup_keys hFound hEnv
  have hBound := asInt32_of_ofTree hTyped hLies
  rcases hGiven with rfl | hComposite
  · have hLiterally := Numeral.literally_of_value hLiteral hWritten.isDigit_whole hValue
    exact toInt_of_asInt32 hLiterally hBound
  · exact (not_isComposite_of_asInt32 hBound hComposite).elim

/-- Take a file whose object has integer literals, of any size, as both bounds, the last members
    with their keys, and an environment without a variable for either.  If settings are loaded,
    their bounds are the integers that are written, and so these make sense as bounds; and a literal
    beyond 32 bits makes the loading fail. -/
theorem bounds_of_literals (hFile : findFile files path = .ok (file, bytes))
    (hText : (Form.object fs).Spelled (fileText bytes)) {low high : Numeral}
    (hLow : Form.last? "min_runners" fs = some (.numeral low)) (hLowLiteral : low.IsLiteral)
    (hHigh : Form.last? "max_runners" fs = some (.numeral high)) (hHighLiteral : high.IsLiteral)
    (hEnv : ∀ w ∈ env, keyOf? w.1 ≠ some "min_runners" ∧ keyOf? w.1 ≠ some "max_runners") :
    (∀ s, load files path env = .ok s →
      s.minRunners.toInt = low.integer ∧ s.maxRunners.toInt = high.integer ∧
        0 ≤ low.integer ∧ low.integer ≤ high.integer) ∧
      ((¬ InInt32 low.integer ∨ ¬ InInt32 high.integer) →
        ∃ e, load files path env = .error e) := by
  have hBounds (s : Settings) (h : load files path env = .ok s) :
      s.minRunners.toInt = low.integer ∧ s.maxRunners.toInt = high.integer :=
    ⟨bound_of_load hFile hText (k := .min) hLow hLowLiteral (fun w hw => (hEnv w hw).1) h,
      bound_of_load hFile hText (k := .max) hHigh hHighLiteral (fun w hw => (hEnv w hw).2) h⟩
  refine ⟨fun s h => ?_, fun hBeyond => ?_⟩
  · obtain ⟨hMin, hMax⟩ := hBounds s h
    obtain ⟨-, -, -, hCheck⟩ := load_eq_ok_iff.mp h
    have hSense := bounds_of_check hCheck
    rw [bounds, hMin, hMax] at hSense
    exact ⟨hMin, hMax, hSense⟩
  · cases hLoad : load files path env with
    | error e => exact ⟨e, rfl⟩
    | ok s =>
      -- what is loaded has 32 bits
      obtain ⟨hMin, hMax⟩ := hBounds s hLoad
      rw [← hMin, ← hMax] at hBeyond
      exact (hBeyond.elim (· (inInt32_toInt _)) (· (inInt32_toInt _))).elim

end

/-! A file with its bounds as literals: one that is loaded, and one with a bound beyond 64 bits. -/

private def literalForm (low high : Numeral) : List (String × Form) := [
  ("ephemeral_runner_set_namespace", .text "ns"), ("ephemeral_runner_set_name", .text "pool"),
  ("min_runners", .numeral low), ("max_runners", .numeral high)]

private def literalText (low high : List Char) : List Char :=
  '{' :: (textChars "ephemeral_runner_set_namespace" ++ ':' :: (textChars "ns" ++
    ',' :: (textChars "ephemeral_runner_set_name" ++ ':' :: (textChars "pool" ++
    ',' :: (textChars "min_runners" ++ ':' :: (low ++
    ',' :: (textChars "max_runners" ++ ':' :: (high ++ ['}']))))))))

private theorem literalForm_spelled {low high : Numeral} {w w' : List Char} (h : low.Spelled w)
    (h' : high.Spelled w') : (Form.object (literalForm low high)).Spelled (literalText w w') := by
  -- from the closing brace to the front, one member after the other
  have hEnd : Marked [.lexeme .closeBrace] ['}'] :=
    .lexeme_append (r := []) .closeBrace trivial (.nil (List.forall_mem_nil _))
  have hMax := Marked.text_append "max_runners" (.lexeme_append .colon trivial
    (.numeral_append h' (Numeral.endsNumber_cons _ (by decide)) hEnd))
  have hMin := Marked.text_append "min_runners" (.lexeme_append .colon trivial
    (.numeral_append h (Numeral.endsNumber_cons _ (by decide))
      (.lexeme_append .comma trivial hMax)))
  have hName := Marked.text_append "ephemeral_runner_set_name" (.lexeme_append .colon trivial
    (.text_append "pool" (.lexeme_append .comma trivial hMin)))
  have hNs := Marked.text_append "ephemeral_runner_set_namespace" (.lexeme_append .colon trivial
    (.text_append "ns" (.lexeme_append .comma trivial hName)))
  exact .lexeme_append .openBrace trivial hNs

private def literalFile (low high : Int) : String → Option (List UInt8)
  | "config.json" => some (Utf8.encode (literalText (Digits.ofInt low) (Digits.ofInt high)))
  | _ => none

theorem bounds_of_literals_beyond :
    (∃ s, load (literalFile 2 7) "config" [] = .ok s ∧
      s.minRunners.toInt = (Numeral.ofInt 2).integer ∧
      s.maxRunners.toInt = (Numeral.ofInt 7).integer) ∧
      ∃ e, load (literalFile 2 99999999999999999999) "config" [] = .error e := by
  -- the file whose numbers fit is loaded as a whole
  have hLoad : load (literalFile 2 7) "config" [] =
      .ok { ns := "ns", name := "pool", minRunners := 2, maxRunners := 7 } := by decide +kernel
  have hText : fileText (Utf8.encode (literalText (Digits.ofInt 2) (Digits.ofInt 7))) =
      literalText (Digits.ofInt 2) (Digits.ofInt 7) := by decide +kernel
  have hText' : fileText (Utf8.encode (literalText (Digits.ofInt 2)
      (Digits.ofInt 99999999999999999999))) =
      literalText (Digits.ofInt 2) (Digits.ofInt 99999999999999999999) := by decide +kernel
  -- both files spell their numbers, of any size, in the same form
  have hSpelled := literalForm_spelled (Numeral.spelled_ofInt 2) (Numeral.spelled_ofInt 7)
  have hSpelled' := literalForm_spelled (Numeral.spelled_ofInt 2)
    (Numeral.spelled_ofInt 99999999999999999999)
  rw [← hText] at hSpelled
  rw [← hText'] at hSpelled'
  have hFile : findFile (literalFile 2 7) "config" = .ok ("config.json", _) := rfl
  have hFile' : findFile (literalFile 2 99999999999999999999) "config" =
      .ok ("config.json", _) := rfl
  have hNone : ∀ w ∈ ([] : List (String × String)),
      keyOf? w.1 ≠ some "min_runners" ∧ keyOf? w.1 ≠ some "max_runners" := nofun
  -- no variable overrides either bound
  obtain ⟨hLoaded, -⟩ :=
    bounds_of_literals hFile hSpelled rfl ⟨rfl, rfl⟩ rfl ⟨rfl, rfl⟩ hNone
  obtain ⟨-, hRefused⟩ :=
    bounds_of_literals hFile' hSpelled' rfl ⟨rfl, rfl⟩ rfl ⟨rfl, rfl⟩ hNone
  obtain ⟨hMin, hMax, -⟩ := hLoaded _ hLoad
  refine ⟨⟨_, hLoad, hMin, hMax⟩, hRefused (Or.inr ?_)⟩
  decide +kernel

end RunnerPool.Settings
