import RunnerPool.Listener.Source
import RunnerPool.Proofs.Event.Wire
import RunnerPool.Proofs.Text.Blank
import RunnerPool.Proofs.Text.Utf8

/-!
# Events written as lines

A transcript is a stream of events as someone may write it: a line for each event, lines without
any, blanks around the events, and a terminator of either kind after every line but the last.

* `Transcript.bytes`      the bytes of a transcript
* `Transcript.events`     its events
* `EventLines.drawn`      what successive reads of a stream give

## Main statements

- `drawn_bytes`: the reads of a transcript give its events, and then the end
- `drawn_of_prefix`: the reads of a transcript that was cut anywhere give the first of its events,
  and then the end or a fault
-/

namespace RunnerPool

open Text (Blank)

/-! ### Lines of bytes -/

theorem physicalLines_append {line : List UInt8} (h : 10 ∉ line) (rest : List UInt8) :
    physicalLines (line ++ 10 :: rest) = (line ++ [10]) :: physicalLines rest := by
  induction line with
  | nil => rfl
  | cons b bs ih =>
    obtain ⟨hb, hbs⟩ := not_or.mp (mt List.mem_cons.mpr h)
    rw [List.cons_append, physicalLines, if_neg (Ne.symm hb), ih hbs]
    rfl

theorem physicalLines_of_not_mem {line : List UInt8} (h : 10 ∉ line) :
    physicalLines line = if line = [] then [] else [line] := by
  induction line with
  | nil => rfl
  | cons b bs ih =>
    obtain ⟨hb, hbs⟩ := not_or.mp (mt List.mem_cons.mpr h)
    rw [physicalLines, if_neg (Ne.symm hb), ih hbs]
    cases bs <;> rfl

namespace EventLines

/-! ### Successive reads -/

/-- What so many reads give, one after the other. -/
def drawn : Nat → EventLines → List (Option (Except LineFault Event))
  | 0, _ => []
  | k + 1, s => s.next.1 :: drawn k s.next.2

/-- What the next read does not give is left for the ones after it. -/
theorem toList_eq_next (s : EventLines) : s.toList = s.next.1.toList ++ s.next.2.toList := by
  obtain ⟨pending, count⟩ := s
  induction pending generalizing count with
  | nil => rfl
  | cons line pending ih =>
    simp only [toList, collect, next, nextFrom]
    cases ofLine count line with
    | none => exact ih (countAfter count line)
    | some r => rfl

/-- The reads give everything that there is, and then nothing for ever. -/
theorem drawn_length_add (s : EventLines) (k : Nat) :
    drawn (s.toList.length + k) s = s.toList.map some ++ List.replicate k none := by
  generalize hAll : s.toList = rs
  induction rs generalizing s with
  | nil =>
    -- the end of a stream stays its end
    rw [List.length_nil, Nat.zero_add, List.map_nil, List.nil_append]
    induction k generalizing s with
    | zero => rfl
    | succ k ih =>
      have hNext : s.next.1 = none := by rw [← head?_toList, hAll]; rfl
      have hRest := toList_eq_next s
      rw [hAll, hNext] at hRest
      rw [drawn, hNext, ih _ hRest.symm, List.replicate_succ]
  | cons r rs ih =>
    have hNext : s.next.1 = some r := by rw [← head?_toList, hAll]; rfl
    have hRest := toList_eq_next s
    rw [hAll, hNext] at hRest
    rw [List.length_cons, Nat.add_right_comm, drawn, hNext, ih _ (List.cons.inj hRest).2.symm]
    rfl

/-! ### One line -/

/-- A line's terminator is blank as its other ends are. -/
theorem trim_dropTerminator (cs : List Char) : Text.trim (dropTerminator cs) = Text.trim cs := by
  rw [dropTerminator]
  split
  · rename_i r hEnd
    rw [List.reverse_eq_iff.mp hEnd, List.reverse_cons, List.reverse_cons,
      Text.trim_append_of_blank _ (by decide),
      Text.trim_append_of_blank _ (by decide)]
  · rename_i r _ hEnd
    rw [List.reverse_eq_iff.mp hEnd, List.reverse_cons,
      Text.trim_append_of_blank _ (by decide)]
  · rfl

/-- A line of blanks gives nothing. -/
theorem ofLine_of_trim_nil (count : Nat) {cs : List Char} (h : Text.trim cs = []) :
    ofLine count (Utf8.encode cs) = none := by
  rw [ofLine, Utf8.decode_encode]
  simp only [trim_dropTerminator, h]

/-- Any other line gives what stands between its blanks. -/
theorem ofLine_of_trim_cons (count : Nat) {cs r : List Char} {c : Char}
    (h : Text.trim cs = c :: r) :
    ofLine count (Utf8.encode cs) =
      some ((Event.read (c :: r)).mapError (.refused (count + 1))) := by
  rw [ofLine, Utf8.decode_encode]
  simp only [trim_dropTerminator, h]

/-- The bytes of one line, without a newline. -/
theorem collect_of_not_mem {line : List UInt8} (h : 10 ∉ line) (count : Nat) :
    collect (physicalLines line) count = (ofLine count line).toList := by
  rw [physicalLines_of_not_mem h]
  split
  · rename_i hEmpty
    rw [hEmpty]
    rfl
  · rw [collect, collect, List.append_nil]

/-- The bytes of a line with its newline, and those after it. -/
theorem collect_append {line : List UInt8} (h : 10 ∉ line) (rest : List UInt8) (count : Nat) :
    collect (physicalLines (line ++ 10 :: rest)) count =
      (ofLine count (line ++ [10])).toList ++
        collect (physicalLines rest) (countAfter count (line ++ [10])) := by
  rw [physicalLines_append h, collect]

end EventLines

/-! ### Transcripts -/

/-- A line of a transcript: an event, or nothing, between blanks. -/
structure PaddedLine where
  before : List Char
  event : Option Event
  after : List Char
  blank : Blank (before ++ after)
  oneLine : '\n' ∉ before ++ after

/-- How a line is terminated. -/
inductive Terminator
  | newline
  | returnNewline
deriving DecidableEq

/-- What comes before the newline of a terminator. -/
def Terminator.lead : Terminator → List Char
  | .newline => []
  | .returnNewline => ['\r']

/-- A stream of events as someone may write it: terminated lines, and a last line that is not,
    which may be empty. -/
structure Transcript where
  lines : List (PaddedLine × Terminator)
  last : PaddedLine

namespace PaddedLine

/-- The text of a line. -/
def chars (l : PaddedLine) : List Char :=
  l.before ++ (l.event.elim [] fun e => e.encode.toList) ++ l.after

/-- The line with the beginning of a terminator as more blanks at its end. -/
def followedBy (l : PaddedLine) (t : Terminator) : PaddedLine where
  before := l.before
  event := l.event
  after := l.after ++ t.lead
  blank := by
    rw [← List.append_assoc]
    refine Text.blank_append.mpr ⟨l.blank, ?_⟩
    cases t <;> decide
  oneLine := by
    rw [← List.append_assoc, List.mem_append]
    refine not_or.mpr ⟨l.oneLine, ?_⟩
    cases t <;> decide

theorem chars_followedBy (l : PaddedLine) (t : Terminator) :
    (l.followedBy t).chars = l.chars ++ t.lead := by
  simp [chars, followedBy]

end PaddedLine

namespace Transcript

/-- The text of a transcript. -/
def chars (t : Transcript) : List Char :=
  (t.lines.flatMap fun (l, e) => l.chars ++ e.lead ++ ['\n']) ++ t.last.chars

/-- The bytes of a transcript. -/
def bytes (t : Transcript) : List UInt8 := Utf8.encode t.chars

/-- The events of a transcript. -/
def events (t : Transcript) : List Event :=
  (t.lines.flatMap fun (l, _) => l.event.toList) ++ t.last.event.toList

end Transcript

namespace PaddedLine

open EventLines

/-! ### Reading a line -/

theorem newline_not_mem_chars (l : PaddedLine) : '\n' ∉ l.chars := by
  have hEvent : '\n' ∉ l.event.elim [] fun e => e.encode.toList := by
    cases l.event with
    | none => exact List.not_mem_nil
    | some e =>
      rw [Option.elim, e.toList_encode]
      exact e.newline_not_mem_chars
  have hPadding := l.oneLine
  rw [List.mem_append, not_or] at hPadding
  simp only [chars, List.mem_append, not_or]
  exact ⟨⟨hPadding.1, hEvent⟩, hPadding.2⟩

/-- An event's text stands between braces. -/
theorem bounded_event (e : Event) : Text.Bounded e.toValue.chars := by
  obtain ⟨cs, hcs⟩ := Json.Value.exists_chars_object_eq (("type", .text e.tag.name) :: e.members)
  rw [Event.toValue_eq, hcs]
  exact ⟨⟨'{', cs ++ ['}'], rfl, by decide⟩, ⟨'{' :: cs, '}', rfl, by decide⟩⟩

/-- What a line gives. -/
theorem ofLine_chars (l : PaddedLine) (count : Nat) (more : List Char) (hMore : Blank more) :
    ofLine count (Utf8.encode (l.chars ++ more)) = l.event.map .ok := by
  obtain ⟨hBefore, hAfter⟩ := Text.blank_append.mp l.blank
  have hTrim := Text.trim_append_of_blank l.chars hMore
  -- without an event the line is blank, and with one trimming leaves the event alone
  cases hEvent : l.event with
  | none =>
    have hChars : l.chars = l.before ++ l.after := by
      rw [chars, hEvent, Option.elim, List.append_nil]
    rw [hChars, Text.trim_of_blank l.blank, ← hChars] at hTrim
    exact ofLine_of_trim_nil count hTrim
  | some e =>
    have hChars : l.chars = l.before ++ e.toValue.chars ++ l.after := by
      rw [chars, hEvent, Option.elim, e.toList_encode]
    obtain ⟨c, r, hFirst, -⟩ := (bounded_event e).first
    rw [hChars, Text.trim_padded hBefore (bounded_event e) hAfter, ← hChars, hFirst] at hTrim
    rw [ofLine_of_trim_cons count hTrim, ← hFirst, e.read_chars]
    rfl

/-- A line that is cut among the blanks after its event. -/
def cutAfter (l : PaddedLine) (after : List Char) (h : after <+: l.after) : PaddedLine where
  before := l.before
  event := l.event
  after := after
  blank := by
    obtain ⟨hBefore, hAfter⟩ := Text.blank_append.mp l.blank
    exact Text.blank_append.mpr ⟨hBefore, fun c hc => hAfter c (h.mem hc)⟩
  oneLine := by
    intro hMem
    refine l.oneLine (List.mem_append.mpr ?_)
    exact (List.mem_append.mp hMem).imp_right h.mem

/-- What a part of an event's text gives: nothing if it is blank, else a fault. -/
theorem ofLine_torn (l : PaddedLine) (count : Nat) {e : Event} {cut : List Char}
    (hCut : cut <+: e.toValue.chars) (hProper : cut ≠ e.toValue.chars) :
    ofLine count (Utf8.encode (l.before ++ cut)) = none ∨
      ∃ fault, ofLine count (Utf8.encode (l.before ++ cut)) = some (.error fault) := by
  have hBefore := (Text.blank_append.mp l.blank).1
  have hTrim := Text.trim_of_prefix (bounded_event e) hCut
  -- what is left of the event is a proper prefix of it, which is never read
  have hShorter : Text.trim cut ≠ e.toValue.chars := by
    intro hAll
    rw [hAll] at hTrim
    exact hProper (hCut.eq_of_length_le hTrim.length_le)
  obtain ⟨refusal, hRefused⟩ := Event.read_torn (hTrim.trans hCut) hShorter
  have hPadding := Text.trim_append_of_blank_left hBefore cut
  -- the tear came before the event's first character, or in the midst of it
  cases hRest : Text.trim cut with
  | nil =>
    rw [hRest] at hPadding
    exact Or.inl (ofLine_of_trim_nil count hPadding)
  | cons c r =>
    rw [hRest] at hPadding hRefused
    refine Or.inr ⟨.refused (count + 1) refusal, ?_⟩
    rw [ofLine_of_trim_cons count hPadding, hRefused]
    rfl

/-- What a line gives that is cut short: nothing, its event, or a fault. -/
theorem ofLine_of_prefix (l : PaddedLine) (count : Nat) {cut : List UInt8}
    (hCut : cut <+: Utf8.encode l.chars) :
    ofLine count cut = none ∨ (∃ e, l.event = some e ∧ ofLine count cut = some (.ok e)) ∨
      ∃ fault, ofLine count cut = some (.error fault) := by
  rcases Utf8.decode_of_prefix_encode hCut with ⟨ds, hds, rfl⟩ | ⟨fault, hFault⟩
  · have hBefore := (Text.blank_append.mp l.blank).1
    rw [chars, List.append_assoc] at hds
    rcases prefix_append_cases hds with ⟨hWithin, -⟩ | ⟨ds, rfl, hMore⟩
    · -- the cut is among the blanks before the event
      have hBlank : Blank ds := fun c hc => hBefore c (hWithin.mem hc)
      exact Or.inl (ofLine_of_trim_nil count (Text.trim_of_blank hBlank))
    rcases prefix_append_cases hMore with ⟨hWithin, hProper⟩ | ⟨after, rfl, hAfter⟩
    · -- the cut is in the event's text
      cases hEvent : l.event with
      | none =>
        rw [hEvent, Option.elim] at hWithin hProper
        exact (hProper (List.prefix_nil.mp hWithin)).elim
      | some e =>
        rw [hEvent, Option.elim, e.toList_encode] at hWithin hProper
        exact (l.ofLine_torn count hWithin hProper).imp_right Or.inr
    · -- the event's text is all there
      have hLine : ofLine count (Utf8.encode (l.before ++
          ((l.event.elim [] fun e => e.encode.toList) ++ after))) = l.event.map .ok := by
        have hCutLine := (l.cutAfter after hAfter).ofLine_chars count [] Text.blank_nil
        rwa [List.append_nil, chars, List.append_assoc] at hCutLine
      rw [hLine]
      cases l.event with
      | none => exact Or.inl rfl
      | some e => exact Or.inr (Or.inl ⟨e, rfl, rfl⟩)
  · -- the cut is inside a character
    refine Or.inr (Or.inr ⟨.notText fault, ?_⟩)
    rw [ofLine, hFault]

end PaddedLine

namespace Transcript

open EventLines

/-! ### Reading a transcript -/

/-- The bytes of a transcript, its first line apart. -/
theorem bytes_cons (l : PaddedLine) (e : Terminator) (lines : List (PaddedLine × Terminator))
    (last : PaddedLine) :
    bytes ⟨(l, e) :: lines, last⟩ =
      Utf8.encode (l.followedBy e).chars ++ 10 :: bytes ⟨lines, last⟩ := by
  simp only [bytes, chars, List.flatMap_cons, Utf8.encode_append, l.chars_followedBy,
    List.append_assoc]
  rfl

/-- The events of a transcript, those of its first line apart. -/
theorem events_cons (l : PaddedLine) (e : Terminator) (lines : List (PaddedLine × Terminator))
    (last : PaddedLine) :
    events ⟨(l, e) :: lines, last⟩ = l.event.toList ++ events ⟨lines, last⟩ := by
  rw [events, List.flatMap_cons, List.append_assoc]
  rfl

/-- A line holds no newline but the one in its terminator. -/
theorem newline_not_mem_line (l : PaddedLine) : 10 ∉ Utf8.encode l.chars :=
  mt (Utf8.newline_mem_encode l.chars).mp l.newline_not_mem_chars

/-- What the last line gives, which has no terminator. -/
theorem collect_last (l : PaddedLine) (count : Nat) :
    collect (physicalLines (Utf8.encode l.chars)) count = l.event.toList.map .ok := by
  have hLine := l.ofLine_chars count [] Text.blank_nil
  rw [List.append_nil] at hLine
  rw [collect_of_not_mem (newline_not_mem_line l), hLine, Option.toList_map]

/-- What a terminated line gives, and then the bytes after it. -/
theorem collect_line (l : PaddedLine) (rest : List UInt8) (count : Nat) :
    ∃ count', collect (physicalLines (Utf8.encode l.chars ++ 10 :: rest)) count =
      l.event.toList.map .ok ++ collect (physicalLines rest) count' := by
  have hLine := l.ofLine_chars count ['\n'] (by decide)
  rw [Utf8.encode_append] at hLine
  refine ⟨countAfter count (Utf8.encode l.chars ++ [10]), ?_⟩
  rw [collect_append (newline_not_mem_line l), ← Option.toList_map, ← hLine]
  rfl

/-- A transcript gives its events, however many lines were read before it. -/
theorem collect_bytes (t : Transcript) (count : Nat) :
    collect (physicalLines t.bytes) count = t.events.map .ok := by
  obtain ⟨lines, last⟩ := t
  induction lines generalizing count with
  | nil => exact collect_last last count
  | cons line lines ih =>
    obtain ⟨l, e⟩ := line
    obtain ⟨count', hLine⟩ := collect_line (l.followedBy e) (bytes ⟨lines, last⟩) count
    rw [bytes_cons, hLine, ih, events_cons, List.map_append]
    rfl

/-- What one line gives that is cut short, as part of what a transcript does. -/
theorem collect_of_prefix_line (l : PaddedLine) (events : List Event) (count : Nat)
    {cut : List UInt8} (hCut : cut <+: Utf8.encode l.chars) :
    ∃ es, es <+: l.event.toList ++ events ∧
      (collect (physicalLines cut) count = es.map .ok ∨
        ∃ fault, collect (physicalLines cut) count = es.map .ok ++ [.error fault]) := by
  have hNewline : 10 ∉ cut := fun hMem => newline_not_mem_line l (hCut.mem hMem)
  rw [collect_of_not_mem hNewline]
  -- of a single line there may be nothing yet, the whole event, or a fault
  rcases l.ofLine_of_prefix count hCut with hNone | ⟨e, hEvent, hOk⟩ | ⟨fault, hFault⟩
  · exact ⟨[], List.nil_prefix, Or.inl (by rw [hNone]; rfl)⟩
  · refine ⟨[e], ?_, Or.inl (by rw [hOk]; rfl)⟩
    rw [hEvent]
    exact List.prefix_append _ _
  · exact ⟨[], List.nil_prefix, Or.inr ⟨fault, by rw [hFault]; rfl⟩⟩

/-- A transcript that is cut anywhere gives the first of its events, and possibly a fault. -/
theorem collect_of_prefix (t : Transcript) (count : Nat) {cut : List UInt8}
    (hCut : cut <+: t.bytes) :
    ∃ es, es <+: t.events ∧
      (collect (physicalLines cut) count = es.map .ok ∨
        ∃ fault, collect (physicalLines cut) count = es.map .ok ++ [.error fault]) := by
  obtain ⟨lines, last⟩ := t
  induction lines generalizing count cut with
  | nil =>
    obtain ⟨es, hes, hAll⟩ := collect_of_prefix_line last [] count hCut
    rw [List.append_nil] at hes
    exact ⟨es, hes, hAll⟩
  | cons line lines ih =>
    obtain ⟨l, e⟩ := line
    rw [bytes_cons, ← List.singleton_append, ← List.append_assoc] at hCut
    rw [events_cons]
    rcases prefix_append_cases hCut with ⟨hWithin, hProper⟩ | ⟨more, rfl, hMore⟩
    · -- the cut is in the first line, so its newline is missing
      have hLine := (List.prefix_concat_iff.mp hWithin).resolve_left hProper
      exact collect_of_prefix_line (l.followedBy e) _ count hLine
    · -- the first line is all there
      obtain ⟨count', hLine⟩ := collect_line (l.followedBy e) more count
      obtain ⟨es, hes, hAll⟩ := ih count' hMore
      refine ⟨l.event.toList ++ es, (List.prefix_append_right_inj _).mpr hes, ?_⟩
      rw [List.append_assoc, List.singleton_append, hLine, List.map_append]
      rcases hAll with hOk | ⟨fault, hFault⟩
      · exact Or.inl (by rw [hOk]; rfl)
      · exact Or.inr ⟨fault, by rw [hFault, List.append_assoc]; rfl⟩

/-- However a list of events is written, reading gives them back in order, and then the end for
    ever: blank lines and blanks around the events are passed over, and the last line needs no
    terminator.  So a run over the bytes is a run over the events. -/
theorem drawn_bytes (t : Transcript) (k : Nat) :
    drawn (t.events.length + k) (.ofBytes t.bytes) =
        t.events.map (fun e => some (.ok e)) ++ List.replicate k none ∧
      Read.ofLines t.bytes = Read.ofEvents t.events .closed := by
  have hAll : (ofBytes t.bytes).toList = t.events.map .ok := t.collect_bytes 0
  constructor
  · have hDrawn := drawn_length_add (.ofBytes t.bytes) k
    rwa [hAll, List.length_map, List.map_map] at hDrawn
  · rw [Read.ofLines, hAll, List.map_map]
    rfl

/-- However a list of events is written and wherever the bytes are cut, inside a line, an escape
    or a character, reading gives the first of the events, and then the end or one fault and the
    end.  No event is given that is not the one written at its place. -/
theorem drawn_of_prefix (t : Transcript) (cut : List UInt8) (hCut : cut <+: t.bytes) :
    ∃ es, es <+: t.events ∧
      ((∀ k, drawn (es.length + k) (.ofBytes cut) =
          es.map (fun e => some (.ok e)) ++ List.replicate k none) ∨
        ∃ fault, ∀ k, drawn (es.length + 1 + k) (.ofBytes cut) =
          es.map (fun e => some (.ok e)) ++ some (.error fault) :: List.replicate k none) := by
  obtain ⟨es, hes, hAll⟩ := t.collect_of_prefix 0 hCut
  have hDrawn := drawn_length_add (.ofBytes cut)
  -- the events are those of whole lines, and a fault comes last if there is one
  refine ⟨es, hes, hAll.imp ?_ ?_⟩
  · intro hOk k
    have hDrawn := hDrawn k
    rwa [toList, ofBytes, hOk, List.length_map, List.map_map] at hDrawn
  · rintro ⟨fault, hFault⟩
    refine ⟨fault, fun k => ?_⟩
    have hDrawn := hDrawn k
    rw [toList, ofBytes, hFault, List.length_append, List.length_map, List.map_append,
      List.map_map, List.append_assoc] at hDrawn
    exact hDrawn

/-! A count between blanks, a line of blanks, and an ended job whose result is not all ASCII, cut
    inside a character of the result. -/

private def sampleTranscript : Transcript where
  lines := [
    (⟨[' '], some (.desiredCount 3), ['\t', '\u3000'], by decide, by decide⟩, .returnNewline),
    (⟨['\r'], none, [], by decide, by decide⟩, .newline)]
  last :=
    ⟨[], some (.jobCompleted { JobCompleted.blank with result := "a\n\u00e9" }), [],
      by decide, by decide⟩

private def sampleCut : List UInt8 := sampleTranscript.bytes.take 132

theorem drawn_of_prefix_inside_character :
    sampleCut <+: sampleTranscript.bytes ∧
      (drawn 3 (.ofBytes sampleCut)).map (Option.map Except.toOption) =
        [some (some (.desiredCount 3)), some none, none] ∧
      ∃ es, es <+: sampleTranscript.events ∧
        ((∀ k, drawn (es.length + k) (.ofBytes sampleCut) =
            es.map (fun e => some (.ok e)) ++ List.replicate k none) ∨
          ∃ fault, ∀ k, drawn (es.length + 1 + k) (.ofBytes sampleCut) =
            es.map (fun e => some (.ok e)) ++
              some (.error fault) :: List.replicate k none) := by
  have hCut : sampleCut <+: sampleTranscript.bytes := List.take_prefix _ _
  exact ⟨hCut, by decide +kernel, drawn_of_prefix sampleTranscript sampleCut hCut⟩

end Transcript

end RunnerPool
