import RunnerPool.Proofs.Listener.Cancellation
import RunnerPool.Proofs.Metrics.Format

/-!
# What a collector reads of the metrics

Whatever the labels are and whatever was recorded, the text of the metrics is a text of lines that
a collector reads as the six series, each with the labels as they are and with its number.  Nothing
that stands in a label is taken for a part of the text around it.

* `Metrics.Update`    what can be recorded
* `Metrics.after`     the metrics after some updates
* `Metrics.shown`     the number of a series after some updates

## Main statement

- `read_render_after`: the text after any updates as a collector reads it; no other metrics have
  the same text
-/

namespace RunnerPool

open Exposition
open Listener (Recording lastDesired?)

/-! ### Labels -/

namespace Labels

/-- A text with other text in the place of a character. -/
def replaced (c : Char) (text : List Char) (cs : List Char) : List Char :=
  cs.flatMap fun d => if d = c then text else [d]

/-- Escaping is to replace the backslashes of the whole text, then the quotes, then the newlines:
    what is put in the place of one of them has none of those that come after it. -/
theorem escaped_eq_replaced (s : String) :
    escaped s = replaced '\n' ['\\', 'n'] (replaced '"' ['\\', '"']
      (replaced '\\' ['\\', '\\'] s.toList)) := by
  rw [escaped, replaced, replaced, replaced, List.flatMap_assoc, List.flatMap_assoc]
  congr 1
  funext c
  rw [escapedChar.eq_def]
  -- the three characters are replaced one at a time, and none of the texts put in is replaced again
  split
  · rfl
  · rfl
  · rfl
  · rename_i hBackslash hQuote hNewline
    rw [if_neg hBackslash, List.flatMap_singleton, if_neg hQuote, List.flatMap_singleton,
      if_neg hNewline]

theorem newline_notMem_escapedChar (c : Char) : '\n' ∉ escapedChar c := by
  rw [escapedChar.eq_def]
  split
  · decide
  · decide
  · decide
  · rename_i hNewline
    exact fun h => hNewline (List.mem_singleton.mp h).symm

theorem newline_notMem_pair (key value : String) (h : '\n' ∉ key.toList) :
    '\n' ∉ pair key value := by
  have hValue : '\n' ∉ escaped value := fun hMem =>
    let ⟨c, _, hc⟩ := List.mem_flatMap.mp hMem
    newline_notMem_escapedChar c hc
  simp [pair, h, hValue]

/-- No newline of a label stands in the labels. -/
theorem newline_notMem_chars (l : Labels) : '\n' ∉ l.chars := by
  have hName := newline_notMem_pair "name" l.name (by decide)
  have hNs := newline_notMem_pair "namespace" l.ns (by decide)
  have hScaleSet := newline_notMem_pair "runner_scale_set" l.scaleSet (by decide)
  simp [chars, hName, hNs, hScaleSet]

/-- What is escaped is read back up to the quote behind it, whatever stands there. -/
theorem quoted?_escaped (cs rest : List Char) :
    quoted? (cs.flatMap escapedChar ++ '"' :: rest) = some (cs, rest) := by
  induction cs with
  | nil => rfl
  | cons c cs ih =>
    rw [List.flatMap_cons, List.append_assoc, escapedChar.eq_def]
    split
    · exact congrArg (Option.map _) ih
    · exact congrArg (Option.map _) ih
    · exact congrArg (Option.map _) ih
    · rename_i hBackslash hQuote hNewline
      rw [List.singleton_append, quoted?, ih]
      · rfl
      -- no other clause of the reader is for this character
      · exact hQuote
      all_goals first | exact hBackslash | exact fun _ h => (hBackslash h).elim

/-- A label is read back with what stands behind it. -/
theorem label?_pair {key : String} (hKey : name? isLabelChar key.toList = some (key, []))
    (value : String) (next : Char) (hNext : isGap next = false) (rest : List Char) :
    label? (pair key value ++ next :: rest) = some ((key, value), next :: rest) := by
  have hText : pair key value ++ next :: rest =
      key.toList ++ '=' :: '"' :: (value.toList.flatMap escapedChar ++ '"' :: next :: rest) := by
    simp [pair, escaped]
  rw [label?, hText, name?_append hKey (by rintro d ⟨⟩; rfl)]
  simp only [Option.bind_eq_bind, Option.bind_some]
  rw [skipGaps_cons _ (by rfl)]
  simp only
  rw [skipGaps_cons _ (by rfl)]
  simp only [quoted?_escaped, Option.bind_some, String.ofList_toList, skipGaps_cons _ hNext]

/-- A label is read with those behind its comma. -/
theorem labels?_pair_comma {key : String} (hKey : name? isLabelChar key.toList = some (key, []))
    (value : String) (most : Nat) (cs : List Char) :
    labels? (most + 1) (pair key value ++ ',' :: cs) =
      (labels? most (skipGaps cs)).map fun (labels, rest) => ((key, value) :: labels, rest) := by
  simp only [labels?, label?_pair hKey value ',' rfl cs]

/-- A label is the last one before a brace. -/
theorem labels?_pair_brace {key : String} (hKey : name? isLabelChar key.toList = some (key, []))
    (value : String) (most : Nat) (cs : List Char) :
    labels? (most + 1) (pair key value ++ '}' :: cs) = some ([(key, value)], cs) := by
  simp only [labels?, label?_pair hKey value '}' rfl cs]

/-- The labels of a sample, each under its name. -/
def named (l : Labels) : List (String × String) :=
  [("name", l.name), ("namespace", l.ns), ("runner_scale_set", l.scaleSet)]

/-- The labels are read back up to the brace behind them. -/
theorem labels?_chars (l : Labels) {most : Nat} (h : 3 ≤ most) (rest : List Char) :
    labels? most (l.chars ++ '}' :: rest) = some (l.named, rest) := by
  obtain ⟨most, rfl⟩ := Nat.exists_eq_add_of_le' h
  have hText : l.chars ++ '}' :: rest = pair "name" l.name ++ ',' :: (pair "namespace" l.ns ++
      ',' :: (pair "runner_scale_set" l.scaleSet ++ '}' :: rest)) := by
    simp [chars]
  have hNs (cs : List Char) :
      skipGaps (pair "namespace" l.ns ++ cs) = pair "namespace" l.ns ++ cs :=
    rfl
  have hScaleSet (cs : List Char) : skipGaps (pair "runner_scale_set" l.scaleSet ++ cs) =
      pair "runner_scale_set" l.scaleSet ++ cs := rfl
  -- the first two labels end at a comma, the last at the closing brace
  rw [hText, labels?_pair_comma rfl, hNs, labels?_pair_comma rfl, hScaleSet, labels?_pair_brace rfl]
  rfl

end Labels

/-! ### Lines -/

namespace Metrics

theorem name?_series (s : Series) : name? isSeriesChar s.name.toList = some (s.name, []) := by
  cases s <;> decide +kernel

/-- Nothing in a help needs to be escaped. -/
theorem plain_help (s : Series) : ∀ c ∈ s.help.toList, c ≠ '\\' ∧ c ≠ '\n' := by
  have hPlain : s.help.toList.all (fun c => c != '\\' && c != '\n') = true := by
    cases s <;> decide +kernel
  simpa using hPlain

theorem newline_notMem_name (s : Series) : '\n' ∉ s.name.toList := by
  obtain ⟨c, cs, hWhole, -, hAll⟩ := exists_of_name? (name?_series s)
  exact fun hMem => nomatch hAll '\n' (hWhole ▸ hMem)

/-- No line has a newline before its end. -/
theorem newline_notMem_lines (m : Metrics) : ∀ l ∈ m.lines, '\n' ∉ l := by
  intro l hl
  obtain ⟨s, -, hLine⟩ := List.mem_flatMap.mp hl
  have hName := newline_notMem_name s
  have hBehind {cs : List Char} (h : '\n' ∉ cs) : '\n' ∉ ' ' :: cs :=
    List.not_mem_cons_of_ne_of_not_mem (by decide) h
  simp only [seriesLines, List.mem_cons, List.not_mem_nil, or_false] at hLine
  -- each of the three lines of a series: help and kind are fixed texts, the value has digits only
  rcases hLine with rfl | rfl | rfl
  · have hHelp : '\n' ∉ s.help.toList := fun hMem => (plain_help s _ hMem).2 rfl
    exact List.not_mem_append (List.not_mem_append (by decide) hName) (hBehind hHelp)
  · have hKind : '\n' ∉ s.kind.toList := by cases s <;> decide
    exact List.not_mem_append (List.not_mem_append (by decide) hName) (hBehind hKind)
  · have hValue : '\n' ∉ Digits.ofInt (m.value s) := fun hMem => by
      rcases Json.mem_ofInt hMem with h | h <;> exact nomatch h
    simp [sampleLine, hName, m.labels.newline_notMem_chars, hValue]

/-- What a collector reads of a series. -/
def exposed (m : Metrics) (s : Series) : List Line :=
  [.help s.name s.help, .type s.name s.kind, .sample s.name m.labels.named (m.value s) none]

theorem line?_helpLine (s : Series) : line? (helpLine s) = some (.help s.name s.help) := by
  have hPlain : '\\' ∉ s.help.toList := fun hMem => (plain_help s _ hMem).1 rfl
  have hStart : s.help.toList.head?.any isGap = false := by cases s <;> decide +kernel
  exact line?_help (name?_series s) hPlain hStart

theorem line?_typeLine (s : Series) : line? (typeLine s) = some (.type s.name s.kind) := by
  have hKind : s.kind ∈ kinds := by cases s <;> decide +kernel
  exact line?_type (name?_series s) hKind

/-- A sample is read with the labels as they are and with its number. -/
theorem line?_sampleLine (m : Metrics) (s : Series) :
    line? (m.sampleLine s) = some (.sample s.name m.labels.named (m.value s) none) := by
  have hMost : 3 ≤ (m.labels.chars ++ '}' :: ' ' :: Digits.ofInt (m.value s)).length + 1 := by
    simp only [List.length_append, List.length_cons]
    omega
  have hStart : skipGaps (m.labels.chars ++ '}' :: ' ' :: Digits.ofInt (m.value s)) =
      -- no gap stands before the labels
      m.labels.chars ++ '}' :: ' ' :: Digits.ofInt (m.value s) := rfl
  rw [sampleLine, line?_of_series (name?_series s), sample?,
    name?_append (name?_series s) (by rintro c ⟨⟩; rfl)]
  simp only [Option.bind_eq_bind, Option.bind_some,
    skipGaps_cons _ (show isGap '{' = false from rfl), hStart, Labels.labels?_chars m.labels hMost,
    word_ofInt, parseInteger?_ofInt, ↓reduceIte]

theorem mapM_flatMap {f : α → List (List Char)} {g : α → List Line} (as : List α)
    (h : ∀ a ∈ as, (f a).mapM line? = some (g a)) :
    (as.flatMap f).mapM line? = some (as.flatMap g) := by
  induction as with
  | nil => rfl
  | cons a as ih =>
    obtain ⟨hFirst, hRest⟩ := List.forall_mem_cons.mp h
    rw [List.flatMap_cons, List.mapM_append, hFirst, ih hRest]
    rfl

/-- The text of the metrics is read as the six series. -/
theorem read_render (m : Metrics) : read m.render = some (Series.all.flatMap m.exposed) := by
  rw [render, read_lines m.newline_notMem_lines, lines]
  refine mapM_flatMap Series.all fun s _ => ?_
  simp only [seriesLines, List.mapM_cons, List.mapM_nil, line?_helpLine, line?_typeLine,
    line?_sampleLine]
  rfl

/-- Metrics that are read alike are the same. -/
theorem eq_of_exposed {m m' : Metrics}
    (h : Series.all.flatMap m'.exposed = Series.all.flatMap m.exposed) : m' = m := by
  -- the six samples show the labels and all six numbers
  simp only [Series.all, List.flatMap_cons, List.flatMap_nil, exposed, List.cons_append,
    List.nil_append, List.cons.injEq, Line.sample.injEq, true_and, and_true, Labels.named,
    Prod.mk.injEq, value] at h
  obtain ⟨⟨⟨hName, hNs, hScaleSet⟩, hMin⟩, ⟨-, hMax⟩, ⟨-, hAssigned⟩, ⟨-, hDesired⟩,
    ⟨-, hStarted⟩, -, hCompleted⟩ := h
  obtain ⟨⟨name, ns, scaleSet⟩, minRunners, maxRunners, assigned, desired, started, completed⟩ := m'
  obtain rfl := UInt64.toNat_inj.mp (Int.ofNat.inj hStarted)
  obtain rfl := UInt64.toNat_inj.mp (Int.ofNat.inj hCompleted)
  obtain rfl := hName
  obtain rfl := hNs
  obtain rfl := hScaleSet
  obtain rfl := hMin
  obtain rfl := hMax
  obtain rfl := hAssigned
  obtain rfl := hDesired
  rfl

/-! ### Updates -/

/-- What can be recorded. -/
inductive Update
  | bounds (min max : Int32)
  | recording (r : Recording)
deriving Repr, DecidableEq

/-- The metrics with an update. -/
def Update.apply (m : Metrics) : Update → Metrics
  | .bounds min max => m.recordStatic min max
  | .recording r => r.apply m

/-- The bounds, if they are what is recorded. -/
def Update.bounds? : Update → Option (Int32 × Int32)
  | .bounds min max => some (min, max)
  | .recording _ => none

/-- Anything else that is recorded. -/
def Update.recording? : Update → Option Recording
  | .bounds _ _ => none
  | .recording r => some r

/-- The metrics of some labels after some updates. -/
def after (l : Labels) (us : List Update) : Metrics :=
  us.foldl Update.apply (new l)

/-- The last bounds that were recorded. -/
def lastBounds? (us : List Update) : Option (Int32 × Int32) :=
  us.reverse.findSome? Update.bounds?

/-- The number of a series after some updates: the bounds and the counts that were recorded last,
    or how many jobs were recorded as started or completed, from 0 on again at each multiple of
    2 ^ 64, which is `UInt64.size`. -/
def shown (us : List Update) : Series → Int
  | .minRunners => ((lastBounds? us).map fun b => b.1.toInt).getD 0
  | .maxRunners => ((lastBounds? us).map fun b => b.2.toInt).getD 0
  | .assignedJobs => ((lastDesired? (us.filterMap Update.recording?)).map fun d =>
      (d.1.toNat : Int)).getD 0
  | .desiredRunners => ((lastDesired? (us.filterMap Update.recording?)).map fun d =>
      d.2.toInt).getD 0
  | .startedJobs => (us.count (.recording .started) % UInt64.size : Nat)
  | .completedJobs => (us.count (.recording .completed) % UInt64.size : Nat)

theorem lastBounds?_concat (us : List Update) (u : Update) :
    lastBounds? (us ++ [u]) = u.bounds?.or (lastBounds? us) := by
  rw [lastBounds?, List.reverse_concat, List.findSome?_cons]
  cases u.bounds? <;> rfl

/-- Updates one after the other come to the last bounds and to the other recordings, by induction
    from the last one. -/
theorem after_eq (l : Labels) (us : List Update) :
    after l us = { (new l).recorded (us.filterMap Update.recording?) with
      minRunners := ((lastBounds? us).map fun b => b.1.toInt).getD 0
      maxRunners := ((lastBounds? us).map fun b => b.2.toInt).getD 0 } := by
  induction us using List.reverseRecOn with
  | nil => simp [after, new, recorded, lastBounds?, lastDesired?]
  | append_singleton us u ih =>
    rw [after, List.foldl_append, ← after, ih, List.filterMap_append]
    -- bounds touch the two limits only, and a recording only the rest
    cases u with
    | bounds min max =>
      have hNone : [Update.bounds min max].filterMap Update.recording? = [] := rfl
      rw [hNone, List.append_nil]
      simp [Update.apply, recordStatic, lastBounds?_concat, Update.bounds?]
    | recording r =>
      have hRest : [Update.recording r].filterMap Update.recording? = [r] := rfl
      rw [hRest, ← Listener.foldl_apply, ← Listener.foldl_apply, List.foldl_append]
      cases r <;> simp [Update.apply, Recording.apply, recordStarted, recordCompleted,
        recordDesired, lastBounds?_concat, Update.bounds?]

theorem count_recordings (us : List Update) (r : Recording) :
    (us.filterMap Update.recording?).count r = us.count (.recording r) := by
  induction us with
  | nil => rfl
  | cons u us ih =>
    cases u with
    | bounds min max => simp [Update.recording?, List.filterMap_cons, ih]
    | recording r' => simp [Update.recording?, List.count_cons, ih]

/-- The numbers after some updates are what is to be shown. -/
theorem value_after (l : Labels) (us : List Update) (s : Series) :
    (after l us).value s = shown us s := by
  rw [after_eq]
  cases s <;> simp [value, recorded, new, shown, count_recordings]

/-- Whatever the labels are and whatever was recorded, the text is 18 lines that each end with a
    newline.  A collector reads in them the six series in their order, each with its help, its type
    and one sample, which has the three labels as they are, character for character, and the last
    bounds and counts that were recorded or the number of jobs.  No other metrics, with whatever
    labels or numbers, have the same text. -/
theorem read_render_after (l : Labels) (us : List Update) :
    (∃ ls : List (List Char), ls.length = 18 ∧ (∀ line ∈ ls, '\n' ∉ line) ∧
      (after l us).render = String.ofList (ls.flatMap (· ++ ['\n']))) ∧
    read (after l us).render = some (Series.all.flatMap fun s =>
      [.help s.name s.help, .type s.name s.kind,
        .sample s.name [("name", l.name), ("namespace", l.ns), ("runner_scale_set", l.scaleSet)]
          (shown us s) none]) ∧
    ∀ m : Metrics, m.render = (after l us).render → m = after l us := by
  refine ⟨⟨_, rfl, newline_notMem_lines _, rfl⟩, ?_, fun m hAlike => eq_of_exposed ?_⟩
  · have hLabels : (after l us).labels = l := by rw [after_eq]; rfl
    have hSeries : (after l us).exposed = fun s => [.help s.name s.help, .type s.name s.kind,
        .sample s.name l.named (shown us s) none] := by
      funext s
      rw [exposed, hLabels, value_after]
    rw [read_render, hSeries]
    rfl
  -- what is read off two equal texts is the same, and it has all the numbers
  · have hRead := congrArg read hAlike
    rw [read_render, read_render] at hRead
    exact Option.some.inj hRead

end Metrics

end RunnerPool
