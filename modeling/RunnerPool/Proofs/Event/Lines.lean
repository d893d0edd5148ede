import Mathlib.Data.List.Forall2
import RunnerPool.Proofs.Event.Stream

/-!
# Any bytes as lines of events

What successive reads give for bytes that nobody need have written as events: the events of the
lines up to the first that is at fault, and at that line a failure that names its cause, and its
number if it is a text that holds no event.

* `lineContents bytes`   the lines of the bytes without what ends them
* `EventLines.Sound`     lines without a fault, and their events

## Main statement

- `drawn_of_contents`: the reads of a stream, whatever its bytes are
-/

namespace RunnerPool

open Text (Blank)

/-! ### Lines without their ends -/

/-- The bytes of a line without a carriage return at their end. -/
def dropReturn (line : List UInt8) : List UInt8 :=
  if line.getLast? = some 13 then line.dropLast else line

/-- The lines of the bytes without what ends them, which is a newline with or without a carriage
    return before it.  Bytes after the last newline are a line too, as they are. -/
def lineContents (bytes : List UInt8) : List (List UInt8) :=
  let pieces := bytes.splitOn 10
  pieces.dropLast.map dropReturn ++ (pieces.getLast?.filter (· ≠ [])).toList

/-- A line is its content and what ends it, if anything does. -/
def Ends (line content : List UInt8) : Prop :=
  line = content ∨ line = content ++ [10] ∨ line = content ++ [13, 10]

/-- The lines with their ends are the pieces between the newlines. -/
theorem physicalLines_eq_splitOn (bytes : List UInt8) :
    physicalLines bytes = (bytes.splitOn 10).dropLast.map (· ++ [10]) ++
      ((bytes.splitOn 10).getLast?.filter (· ≠ [])).toList := by
  induction bytes with
  | nil => rfl
  | cons b bs ih =>
    obtain ⟨piece, pieces, hPieces⟩ := List.exists_cons_of_ne_nil (List.splitOn_ne_nil 10 bs)
    rw [physicalLines, ih, List.splitOn_cons_eq_if_modifyHead, hPieces]
    split
    · rename_i hNewline
      simp [hNewline]
    · -- the byte goes to the first of the pieces, which may be the only one
      rename_i hOther
      simp only [beq_iff_eq, hOther, ↓reduceIte, List.modifyHead_cons]
      cases pieces with
      | nil => by_cases hEmpty : piece = [] <;> simp [hEmpty, Option.filter]
      | cons next pieces => simp

theorem ends_dropReturn (piece : List UInt8) : Ends (piece ++ [10]) (dropReturn piece) := by
  rw [dropReturn]
  split
  · rename_i hReturn
    obtain ⟨content, rfl⟩ := List.getLast?_eq_some_iff.mp hReturn
    rw [List.dropLast_concat]
    exact Or.inr (Or.inr (by simp))
  · exact Or.inr (Or.inl rfl)

/-- The lines and their contents. -/
theorem forall₂_ends (bytes : List UInt8) :
    List.Forall₂ Ends (physicalLines bytes) (lineContents bytes) := by
  rw [physicalLines_eq_splitOn, lineContents]
  refine List.rel_append ?_ (List.forall₂_same.mpr fun line _ => Or.inl rfl)
  rw [List.forall₂_map_left_iff, List.forall₂_map_right_iff]
  exact List.forall₂_same.mpr fun piece _ => ends_dropReturn piece

/-! ### The text of a line -/

/-- What ends a line makes no difference to whether the line is a text, and is blank if it is. -/
theorem Ends.toOption_decode {line content : List UInt8} (h : Ends line content) :
    ∃ tail, Blank tail ∧
      (Utf8.decode line).toOption = (Utf8.decode content).toOption.map (· ++ tail) := by
  -- a line ends with nothing, a newline, or a return and a newline
  rcases h with rfl | rfl | rfl
  · exact ⟨[], Text.blank_nil, by simp⟩
  · exact ⟨['\n'], by decide, Utf8.toOption_decode_concat (by decide) content⟩
  · refine ⟨['\r', '\n'], by decide, ?_⟩
    rw [List.append_cons, Utf8.toOption_decode_concat (by decide),
      Utf8.toOption_decode_concat (by decide), Option.map_map]
    congr 1
    funext cs
    exact List.append_assoc cs _ _

theorem Ends.decode_eq_ok {line content : List UInt8} {cs : List Char} (h : Ends line content)
    (hText : Utf8.decode content = .ok cs) :
    ∃ ds, Utf8.decode line = .ok ds ∧ Text.trim ds = Text.trim cs := by
  obtain ⟨tail, hTail, hRead⟩ := h.toOption_decode
  rw [hText] at hRead
  cases hLine : Utf8.decode line with
  | error cause => rw [hLine] at hRead; exact nomatch hRead
  | ok ds =>
    rw [hLine] at hRead
    obtain rfl : ds = cs ++ tail := Option.some.inj hRead
    exact ⟨_, rfl, Text.trim_append_of_blank cs hTail⟩

theorem Ends.decode_eq_error {line content : List UInt8} {cause : Utf8.Fault}
    (h : Ends line content) (hNone : Utf8.decode content = .error cause) :
    ∃ cause', Utf8.decode line = .error cause' := by
  obtain ⟨tail, -, hRead⟩ := h.toOption_decode
  rw [hNone] at hRead
  cases hLine : Utf8.decode line with
  | error cause' => exact ⟨cause', rfl⟩
  | ok ds => rw [hLine] at hRead; exact nomatch hRead

namespace EventLines

/-! ### Lines without a fault -/

/-- Lines without a fault, and their events: each line is a text, and is blank or, apart from the
    blanks at its ends, an event. -/
inductive Sound : List (List UInt8) → List Event → Prop
  | nil : Sound [] []
  | blank {line : List UInt8} {lines : List (List UInt8)} {es : List Event} {cs : List Char}
      (hText : Utf8.decode line = .ok cs) (hBlank : Text.trim cs = []) (more : Sound lines es) :
      Sound (line :: lines) es
  | event {line : List UInt8} {lines : List (List UInt8)} {e : Event} {es : List Event}
      {cs : List Char} (hText : Utf8.decode line = .ok cs) (hKept : Text.trim cs ≠ [])
      (hRead : Event.read (Text.trim cs) = .ok e) (more : Sound lines es) :
      Sound (line :: lines) (e :: es)

/-- What is wrong with a line, the outermost first, if it has this number. -/
inductive Faulty (number : Nat) (line : List UInt8) : List String → Prop
  | notText (hNone : ∀ cs, Utf8.decode line ≠ .ok cs) (cause : Utf8.Fault) :
      Faulty number line ["reading event stream", cause.message]
  | refused {cs : List Char} {refusal : Event.Refusal} (hText : Utf8.decode line = .ok cs)
      (hKept : Text.trim cs ≠ []) (hRead : Event.read (Text.trim cs) = .error refusal) :
      Faulty number line ["decoding event on line " ++ toString number, refusal.message]

theorem Sound.append {lines lines' : List (List UInt8)} {es es' : List Event}
    (h : Sound lines es) (h' : Sound lines' es') : Sound (lines ++ lines') (es ++ es') := by
  induction h with
  | nil => exact h'
  | blank hText hBlank _ ih => exact .blank hText hBlank ih
  | event hText hKept hRead _ ih => exact .event hText hKept hRead ih

/-- Lines have no fault, or there is a first one that does. -/
theorem sound_or_first_fault (lines : List (List UInt8)) :
    ∃ es, Sound lines es ∨ ∃ before line after, lines = before ++ line :: after ∧
      Sound before es ∧ ∀ es', ¬ Sound [line] es' := by
  induction lines with
  | nil => exact ⟨[], Or.inl .nil⟩
  | cons line lines ih =>
    -- the first line that is not sound is the one that fails
    by_cases hLine : ∃ es, Sound [line] es
    · obtain ⟨es, hLine⟩ := hLine
      obtain ⟨es', hAll | ⟨before, bad, after, rfl, hBefore, hBad⟩⟩ := ih
      · exact ⟨es ++ es', Or.inl (hLine.append hAll)⟩
      · exact ⟨es ++ es', Or.inr ⟨line :: before, bad, after, rfl, hLine.append hBefore, hBad⟩⟩
    · exact ⟨[], Or.inr ⟨[], line, lines, rfl, .nil, not_exists.mp hLine⟩⟩

/-! ### One line -/

section

variable {line content : List UInt8} {cs : List Char}

theorem countAfter_of_text (h : Ends line content) (hText : Utf8.decode content = .ok cs)
    (count : Nat) : countAfter count line = count + 1 := by
  obtain ⟨ds, hLine, -⟩ := h.decode_eq_ok hText
  rw [countAfter, hLine]

/-- A line of blanks gives nothing, whatever ends it. -/
theorem ofLine_of_blank (h : Ends line content) (hText : Utf8.decode content = .ok cs)
    (hBlank : Text.trim cs = []) (count : Nat) : ofLine count line = none := by
  obtain ⟨ds, hLine, hTrim⟩ := h.decode_eq_ok hText
  rw [ofLine, hLine]
  simp only [trim_dropTerminator, hTrim, hBlank]

/-- Any other line of text gives what stands between its blanks, whatever ends it. -/
theorem ofLine_of_kept (h : Ends line content) (hText : Utf8.decode content = .ok cs)
    (hKept : Text.trim cs ≠ []) (count : Nat) :
    ofLine count line = some ((Event.read (Text.trim cs)).mapError (.refused (count + 1))) := by
  obtain ⟨ds, hLine, hTrim⟩ := h.decode_eq_ok hText
  obtain ⟨c, r, hFirst⟩ := List.exists_cons_of_ne_nil hKept
  rw [ofLine, hLine]
  simp only [trim_dropTerminator, hTrim, hFirst]

/-- A line with a fault fails with what is wrong with it. -/
theorem ofLine_of_fault (h : Ends line content) (hFault : ∀ es, ¬ Sound [content] es)
    (count : Nat) :
    ∃ fault, ofLine count line = some (.error fault) ∧
      Faulty (count + 1) content fault.chain := by
  -- no text at all, or a text that is refused, since a blank line would be sound
  cases hText : Utf8.decode content with
  | error cause =>
    obtain ⟨cause', hLine⟩ := h.decode_eq_error hText
    refine ⟨.notText cause', by rw [ofLine, hLine], .notText ?_ cause'⟩
    simp [hText]
  | ok cs =>
    have hKept : Text.trim cs ≠ [] := fun hBlank => hFault [] (.blank hText hBlank .nil)
    cases hRead : Event.read (Text.trim cs) with
    | ok e => exact (hFault [e] (.event hText hKept hRead .nil)).elim
    | error refusal =>
      refine ⟨.refused (count + 1) refusal, ?_, .refused hText hKept hRead⟩
      rw [ofLine_of_kept h hText hKept, hRead]
      rfl

end

/-! ### Successive reads -/

section

variable {line : List UInt8} {pending : List (List UInt8)} {count : Nat}

theorem drawn_of_ofLine_none (h : ofLine count line = none) (k : Nat) :
    drawn k ⟨line :: pending, count⟩ = drawn k ⟨pending, countAfter count line⟩ := by
  cases k with
  | zero => rfl
  | succ k => simp only [drawn, next, nextFrom, h]

theorem drawn_of_ofLine_some {r : Except LineFault Event} (h : ofLine count line = some r)
    (k : Nat) :
    drawn (k + 1) ⟨line :: pending, count⟩ =
      some r :: drawn k ⟨pending, countAfter count line⟩ := by
  simp only [drawn, next, nextFrom, h]

theorem drawn_ended (count k : Nat) : drawn k ⟨[], count⟩ = List.replicate k none := by
  simpa [toList, collect] using drawn_length_add ⟨[], count⟩ k

/-- The reads of lines without a fault give their events, and each line counts. -/
theorem Sound.drawn_append {contents : List (List UInt8)} {es : List Event}
    (h : Sound contents es) {lines : List (List UInt8)} (hLines : List.Forall₂ Ends lines contents)
    (rest : List (List UInt8)) (count k : Nat) :
    drawn (es.length + k) ⟨lines ++ rest, count⟩ =
      es.map (fun e => some (.ok e)) ++ drawn k ⟨rest, count + contents.length⟩ := by
  -- by induction on the lines: whatever ends one of them, it is read and counted
  induction h generalizing lines count with
  | nil =>
    cases hLines
    rw [List.length_nil, Nat.zero_add]
    rfl
  | blank hText hBlank _ ih =>
    obtain _ | ⟨hEnds, hMore⟩ := hLines
    rw [List.cons_append, drawn_of_ofLine_none (ofLine_of_blank hEnds hText hBlank count),
      countAfter_of_text hEnds hText, ih hMore, List.length_cons, Nat.add_right_comm,
      Nat.add_assoc]
  | event hText hKept hRead _ ih =>
    obtain _ | ⟨hEnds, hMore⟩ := hLines
    have hLine := ofLine_of_kept hEnds hText hKept count
    rw [hRead] at hLine
    rw [List.cons_append, List.length_cons, Nat.add_right_comm, drawn_of_ofLine_some hLine,
      countAfter_of_text hEnds hText, ih hMore, List.length_cons, Nat.add_right_comm,
      Nat.add_assoc]
    rfl

end

/-- Whatever the bytes of a stream are: its lines have no fault, and then the reads give their
    events in order and the end for ever; or there is a first line with a fault, and then the reads
    give the events of the lines before it and fail.  The failure tells that a line is not text, or
    gives the number of the line, counted from one over all lines, and why it is no event. -/
theorem drawn_of_contents (bytes : List UInt8) :
    ∃ es,
      (Sound (lineContents bytes) es ∧
        ∀ k, drawn (es.length + k) (.ofBytes bytes) =
          es.map (fun e => some (.ok e)) ++ List.replicate k none) ∨
      ∃ before line after fault, lineContents bytes = before ++ line :: after ∧
        Sound before es ∧ Faulty (before.length + 1) line fault.chain ∧
        drawn (es.length + 1) (.ofBytes bytes) =
          es.map (fun e => some (.ok e)) ++ [some (.error fault)] := by
  have hLines := forall₂_ends bytes
  obtain ⟨es, hAll | ⟨before, line, after, hContents, hBefore, hFault⟩⟩ :=
    sound_or_first_fault (lineContents bytes)
  · refine ⟨es, Or.inl ⟨hAll, fun k => ?_⟩⟩
    have hDrawn := hAll.drawn_append hLines [] 0 k
    rwa [List.append_nil, drawn_ended] at hDrawn
  · -- the lines before the fault are used up when the line with it is read
    rw [hContents] at hLines
    have hGood := List.forall₂_take_append _ _ _ hLines
    have hRest := List.forall₂_drop_append _ _ _ hLines
    generalize hPending : (physicalLines bytes).drop before.length = pending at hRest
    cases hRest with
    | cons hEnds hMore =>
      obtain ⟨fault, hLine, hFaulty⟩ := ofLine_of_fault hEnds hFault before.length
      refine ⟨es, Or.inr ⟨before, line, after, fault, hContents, hBefore, hFaulty, ?_⟩⟩
      have hDrawn := hBefore.drawn_append hGood ((physicalLines bytes).drop before.length) 0 1
      rw [List.take_append_drop, hPending, Nat.zero_add, drawn_of_ofLine_some hLine] at hDrawn
      exact hDrawn

/-! Blank lines, one of them with a carriage return of its own, a count, and a last line that ends
    too early. -/

private def brokenLines : List UInt8 :=
  Utf8.encode "\r\r\n\u3000\n\x7b\"type\":\"desired_count\",\"count\":3\x7d\r\n[".toList

example :
    (drawn 2 (.ofBytes brokenLines)).map (Option.map (Except.mapError LineFault.chain)) =
      [some (.ok (.desiredCount 3)),
        some (.error ["decoding event on line 4",
          "serialization error: EOF while parsing a list at line 1 column 1"])] := by
  decide +kernel

end EventLines

end RunnerPool
