import Mathlib.Data.List.TakeWhile
import RunnerPool.Proofs.Number.Spelling

/-!
# The text format of a collector

How a collector reads a text of metrics, apart from how one is written.  Each line ends with a
newline.  Blanks and tabs stand between the words of a line, and a line without words says nothing.
A line that begins with a number sign is a help line, a type line or a comment; any other line is a
sample, of a series with its labels, if any, a value and a time, if any.

* `Exposition.quoted?`   the value of a label, which ends at the first quote that is not escaped
* `Exposition.line?`     what a line says
* `Exposition.read`      what the lines of a text say

## Main statement

- `read_lines`: the lines of a text are read one by one
-/

namespace RunnerPool.Exposition

/-- What a line says.  The values that are read here are integers. -/
inductive Line
  | blank
  | comment
  | help (series text : String)
  | type (series kind : String)
  | sample (series : String) (labels : List (String × String)) (value : Int) (time : Option Int)
deriving Repr, DecidableEq

/-! ### Words -/

/-- What stands between words. -/
def isGap (c : Char) : Bool := c == ' ' || c == '\t'

/-- The text from its first word on. -/
def skipGaps (cs : List Char) : List Char := cs.dropWhile isGap

/-- The text up to a gap, and the text from the next word on. -/
def word (cs : List Char) : List Char × List Char :=
  (cs.takeWhile (!isGap ·), skipGaps (cs.dropWhile (!isGap ·)))

/-- A character of the name of a series. -/
def isSeriesChar (c : Char) : Bool := c.isAlphanum || c == '_' || c == ':'

/-- A character of the name of a label. -/
def isLabelChar (c : Char) : Bool := c.isAlphanum || c == '_'

/-- A name of such characters, which does not begin with a digit, and what remains. -/
def name? (isNameChar : Char → Bool) (cs : List Char) : Option (String × List Char) :=
  match cs.takeWhile isNameChar with
  | [] => none
  | c :: name =>
    if c.isDigit then none else some (String.ofList (c :: name), cs.dropWhile isNameChar)

/-! ### Labels -/

/-- The rest of a quoted value up to the first quote that is not escaped, and what remains.  A
    backslash stands before a backslash, before a quote, and before the letter of a newline. -/
def quoted? : List Char → Option (List Char × List Char)
  | [] => none
  | '"' :: cs => some ([], cs)
  | '\\' :: '\\' :: cs => (quoted? cs).map fun (value, rest) => ('\\' :: value, rest)
  | '\\' :: '"' :: cs => (quoted? cs).map fun (value, rest) => ('"' :: value, rest)
  | '\\' :: 'n' :: cs => (quoted? cs).map fun (value, rest) => ('\n' :: value, rest)
  | '\\' :: _ => none
  | c :: cs => (quoted? cs).map fun (value, rest) => (c :: value, rest)

/-- A label with its value, and what remains. -/
def label? (cs : List Char) : Option ((String × String) × List Char) := do
  let (name, cs) ← name? isLabelChar cs
  match skipGaps cs with
  | '=' :: cs =>
    match skipGaps cs with
    | '"' :: cs =>
      let (value, cs) ← quoted? cs
      some ((name, String.ofList value), skipGaps cs)
    | _ => none
  | _ => none

/-- The labels up to the closing brace, at most so many, and what remains.  A comma stands between
    them, and may stand behind the last one. -/
def labels? : Nat → List Char → Option (List (String × String) × List Char)
  | 0, _ => none
  | most + 1, cs =>
    match label? cs, cs with
    | some (label, ',' :: cs), _ =>
      (labels? most (skipGaps cs)).map fun (labels, rest) => (label :: labels, rest)
    | some (label, '}' :: cs), _ => some ([label], cs)
    | none, '}' :: cs => some ([], cs)
    | _, _ => none

/-! ### Lines -/

/-- A sample.  No text has more labels than characters. -/
def sample? (cs : List Char) : Option Line := do
  let (series, cs) ← name? isSeriesChar cs
  let (labels, cs) ←
    match skipGaps cs with
    | '{' :: cs => labels? (cs.length + 1) (skipGaps cs)
    | cs => some ([], cs)
  let (valueWord, cs) := word (skipGaps cs)
  let value ← parseInteger? valueWord
  if cs = [] then some (.sample series labels value none)
  else
    let (timeWord, cs) := word cs
    let time ← parseInteger? timeWord
    if cs = [] then some (.sample series labels value (some time)) else none

/-- The text of a help line, in which backslashes and newlines are escaped. -/
def helpText? : List Char → Option (List Char)
  | [] => some []
  | '\\' :: '\\' :: cs => (helpText? cs).map ('\\' :: ·)
  | '\\' :: 'n' :: cs => (helpText? cs).map ('\n' :: ·)
  | '\\' :: _ => none
  | c :: cs => (helpText? cs).map (c :: ·)

/-- The kinds of a series. -/
def kinds : List String := ["counter", "gauge", "histogram", "summary", "untyped"]

/-- What stands behind the number sign of a line. -/
def remark? (cs : List Char) : Option Line :=
  match word (skipGaps cs) with
  | (['H', 'E', 'L', 'P'], cs) => do
    let (series, cs) ← name? isSeriesChar cs
    let text ← helpText? (skipGaps cs)
    some (.help series (String.ofList text))
  | (['T', 'Y', 'P', 'E'], cs) => do
    let (series, cs) ← name? isSeriesChar cs
    let (kind, cs) := word (skipGaps cs)
    if cs = [] ∧ String.ofList kind ∈ kinds then some (.type series (String.ofList kind)) else none
  | _ => some .comment

/-- What a line without its newline says. -/
def line? (cs : List Char) : Option Line :=
  match skipGaps cs with
  | [] => some .blank
  | '#' :: cs => remark? cs
  | cs => sample? cs

/-- What the lines of a text say; none if one of them cannot be read, or the last one does not end
    with a newline. -/
def read (text : String) : Option (List Line) :=
  let pieces := text.toList.splitOn '\n'
  if pieces.getLast? = some [] then pieces.dropLast.mapM line? else none

/-! ### Reading what is written -/

/-- Lines that are each ended with a newline are what stands between the newlines. -/
theorem splitOn_lines {ls : List (List Char)} (h : ∀ l ∈ ls, '\n' ∉ l) :
    (ls.flatMap (· ++ ['\n'])).splitOn '\n' = ls ++ [[]] := by
  induction ls with
  | nil => rfl
  | cons l ls ih =>
    obtain ⟨hFirst, hRest⟩ := List.forall_mem_cons.mp h
    have hNone : ∀ c ∈ l, (c == '\n') = false := fun c hc =>
      beq_false_of_ne fun hNewline => hFirst (hNewline ▸ hc)
    rw [List.flatMap_cons, List.append_assoc, List.singleton_append, List.splitOn,
      List.splitOnP_append_cons_of_forall_mem hNone '\n' (beq_self_eq_true '\n'), List.cons_append]
    exact congrArg (l :: ·) (ih hRest)

/-- The lines of a text are read one by one. -/
theorem read_lines {ls : List (List Char)} (h : ∀ l ∈ ls, '\n' ∉ l) :
    read (String.ofList (ls.flatMap (· ++ ['\n']))) = ls.mapM line? := by
  simp only [read, String.toList_ofList, splitOn_lines h, List.getLast?_concat, ↓reduceIte,
    List.dropLast_concat]

section

variable {isNameChar : Char → Bool} {name : String}

/-- A name has at least one character, no digit at its beginning, and only characters of names. -/
theorem exists_of_name? (h : name? isNameChar name.toList = some (name, [])) :
    ∃ c cs, name.toList = c :: cs ∧ c.isDigit = false ∧ ∀ d ∈ c :: cs, isNameChar d = true := by
  rw [name?] at h
  split at h
  · exact nomatch h
  · rename_i c cs hTake
    split at h
    · exact nomatch h
    · rename_i hDigit
      obtain ⟨hName, hDrop⟩ := Prod.mk.inj (Option.some.inj h)
      -- nothing is left over, so the whole name is of the characters taken
      have hAll := List.dropWhile_eq_nil_iff.mp hDrop
      have hWhole : name.toList = c :: cs := (List.takeWhile_eq_self_iff.mpr hAll).symm.trans hTake
      exact ⟨c, cs, hWhole, Bool.eq_false_iff.mpr hDigit, hWhole ▸ hAll⟩

/-- A name is read as far as its characters go. -/
theorem name?_append {cs : List Char} (hName : name? isNameChar name.toList = some (name, []))
    (hStop : ∀ c ∈ cs.head?, isNameChar c = false) :
    name? isNameChar (name.toList ++ cs) = some (name, cs) := by
  have hRest : cs.takeWhile isNameChar = [] ∧ cs.dropWhile isNameChar = cs := by
    cases cs with
    | nil => exact ⟨rfl, rfl⟩
    | cons c cs => simp [hStop c rfl]
  obtain ⟨c, more, hWhole, hDigit, hAll⟩ := exists_of_name? hName
  rw [name?, hWhole, List.takeWhile_append_of_pos hAll, List.dropWhile_append_of_pos hAll, hRest.1,
    hRest.2, List.append_nil]
  simp [hDigit, ← hWhole]

end

/-- A text without gaps is one word. -/
theorem word_of_forall {cs : List Char} (h : ∀ c ∈ cs, isGap c = false) : word cs = (cs, []) := by
  have hWord : ∀ c ∈ cs, (!isGap c) = true := fun c hc => by rw [h c hc]; rfl
  rw [word, List.takeWhile_eq_self_iff.mpr hWord, List.dropWhile_eq_nil_iff.mpr hWord]
  rfl

theorem skipGaps_cons {c : Char} (cs : List Char) (h : isGap c = false) :
    skipGaps (c :: cs) = c :: cs := by
  rw [skipGaps, List.dropWhile_cons, if_neg (by rw [h]; decide)]

/-- A class of characters without a blank and a tab has no gap. -/
theorem isGap_of_class {p : Char → Bool} {c : Char} (hBlank : p ' ' = false) (hTab : p '\t' = false)
    (h : p c = true) : isGap c = false := by
  by_contra hGap
  rw [Bool.not_eq_false, isGap, Bool.or_eq_true, beq_iff_eq, beq_iff_eq] at hGap
  rcases hGap with rfl | rfl
  · exact nomatch hBlank.symm.trans h
  · exact nomatch hTab.symm.trans h

theorem isGap_ofInt {n : Int} : ∀ c ∈ Digits.ofInt n, isGap c = false := by
  intro c hc
  rcases Json.mem_ofInt hc with rfl | hDigit
  · rfl
  · exact isGap_of_class rfl rfl hDigit

/-- An integer at the end of a line is read as it is. -/
theorem word_ofInt (n : Int) : word (skipGaps (' ' :: Digits.ofInt n)) = (Digits.ofInt n, []) := by
  have hStart : skipGaps (' ' :: Digits.ofInt n) = Digits.ofInt n := by
    obtain ⟨c, cs, hCons⟩ := List.exists_cons_of_ne_nil (Json.ofInt_ne_nil n)
    have hFirst : isGap c = false := isGap_ofInt c (hCons ▸ List.mem_cons_self)
    rw [hCons]
    exact skipGaps_cons cs hFirst
  rw [hStart, word_of_forall isGap_ofInt]

theorem isGap_and_ne_of_isSeriesChar {c : Char} (h : isSeriesChar c = true) :
    isGap c = false ∧ c ≠ '#' := by
  refine ⟨isGap_of_class rfl rfl h, ?_⟩
  rintro rfl
  exact nomatch h

/-- A text in which nothing is escaped is read as it is. -/
theorem helpText?_of_notMem {cs : List Char} (h : '\\' ∉ cs) : helpText? cs = some cs := by
  induction cs with
  | nil => rfl
  | cons c cs ih =>
    have hc : c = '\\' → False := fun hMark => h (hMark ▸ List.mem_cons_self)
    rw [helpText?, ih (List.not_mem_of_not_mem_cons h)]
    · rfl
    all_goals first | exact hc | exact fun _ hMark => (hc hMark).elim

section

variable {series : String} (hSeries : name? isSeriesChar series.toList = some (series, []))
include hSeries

theorem skipGaps_series (cs : List Char) :
    skipGaps (series.toList ++ cs) = series.toList ++ cs := by
  obtain ⟨c, more, hWhole, -, hAll⟩ := exists_of_name? hSeries
  rw [hWhole]
  exact skipGaps_cons (more ++ cs) (isGap_and_ne_of_isSeriesChar (hAll c List.mem_cons_self)).1

/-- A line that begins with the name of a series is a sample. -/
theorem line?_of_series (cs : List Char) :
    line? (series.toList ++ cs) = sample? (series.toList ++ cs) := by
  obtain ⟨c, more, hWhole, -, hAll⟩ := exists_of_name? hSeries
  have hHead := (isGap_and_ne_of_isSeriesChar (hAll c List.mem_cons_self)).2
  rw [line?, skipGaps_series hSeries, hWhole]
  simp [hHead]

/-- A help line in whose text nothing is escaped is read with the text as it is. -/
theorem line?_help {text : String} (hPlain : '\\' ∉ text.toList)
    (hStart : text.toList.head?.any isGap = false) :
    line? ("# HELP ".toList ++ series.toList ++ ' ' :: text.toList) = some (.help series text) := by
  -- to rewrite with the lemma itself would open the literal
  have hText : "# HELP ".toList ++ series.toList ++ ' ' :: text.toList =
      "# HELP ".toList ++ (series.toList ++ ' ' :: text.toList) := List.append_assoc _ _ _
  have hLine (cs : List Char) : line? ("# HELP ".toList ++ cs) = (do
      let (series, cs) ← name? isSeriesChar (skipGaps cs)
      let text ← helpText? (skipGaps cs)
      some (.help series (String.ofList text))) := rfl
  have hGap : skipGaps (' ' :: text.toList) = text.toList := by
    cases hCons : text.toList with
    | nil => rfl
    | cons c cs =>
      rw [hCons] at hStart
      exact skipGaps_cons cs hStart
  rw [hText, hLine, skipGaps_series hSeries, name?_append hSeries (by rintro c ⟨⟩; rfl)]
  simp only [Option.bind_eq_bind, Option.bind_some, hGap, helpText?_of_notMem hPlain,
    String.ofList_toList]

/-- A type line is read. -/
theorem line?_type {kind : String} (hKind : kind ∈ kinds) :
    line? ("# TYPE ".toList ++ series.toList ++ ' ' :: kind.toList) = some (.type series kind) := by
  have hText : "# TYPE ".toList ++ series.toList ++ ' ' :: kind.toList =
      "# TYPE ".toList ++ (series.toList ++ ' ' :: kind.toList) := List.append_assoc _ _ _
  have hLine (cs : List Char) : line? ("# TYPE ".toList ++ cs) = (do
      let (series, cs) ← name? isSeriesChar (skipGaps cs)
      let (kind, cs) := word (skipGaps cs)
      if cs = [] ∧ String.ofList kind ∈ kinds then some (.type series (String.ofList kind))
      else none) := rfl
  -- each of the kinds is one word
  have hWord : word (skipGaps (' ' :: kind.toList)) = (kind.toList, []) := by
    simp only [kinds, List.mem_cons, List.not_mem_nil, or_false] at hKind
    rcases hKind with rfl | rfl | rfl | rfl | rfl <;> rfl
  rw [hText, hLine, skipGaps_series hSeries, name?_append hSeries (by rintro c ⟨⟩; rfl)]
  simp only [Option.bind_eq_bind, Option.bind_some, hWord, String.ofList_toList, hKind, and_self,
    ↓reduceIte]

end

end RunnerPool.Exposition
