import RunnerPool.Proofs.Json.Numeral
import RunnerPool.Proofs.Text.Utf8
import RunnerPool.Json.Token

/-!
# Reading a text

What stands between quotes is read by its grammar.  A written text is read back, and one whose
closing quote is cut off is not read at all, neither by a reader that wants the text nor by one
that passes over it.

* `CharSpelled`, `TextSpelled`    the ways in which a text can be written
* `TextSpelled.readText_append`   what is written so is read
* `textSpelled_of_readText`       what is read is written so
* `Escaped`                       the three ways in which a character is written here
* `readText_escaped`              reading gives back what was written
* `isTorn_of_prefix`              a text without its end is refused
-/

namespace RunnerPool.Json

/-! ### How a text is written -/

/-- The ways in which a character is written between quotes: as it is, by a letter, by its number,
    or by the two numbers of a pair. -/
inductive CharSpelled : Char → List Char → Prop
  | plain {c : Char} (notQuote : c ≠ '"') (notBackslash : c ≠ '\\')
    (printable : ¬ c.toNat < 0x20) : CharSpelled c [c]
  | letter {c e : Char} (named : unescape? e = some c) : CharSpelled c ['\\', e]
  | unit {p q r s : Char} {n : Nat} (single : unit? p q r s = some n)
    (notTrailing : isTrailing n = false) (notLeading : isLeading n = false) :
    CharSpelled (Char.ofNat n) ['\\', 'u', p, q, r, s]
  | pair {p q r s p' q' r' s' : Char} {n m : Nat} (first : unit? p q r s = some n)
    (leading : isLeading n = true) (second : unit? p' q' r' s' = some m)
    (trailing : isTrailing m = true) :
    CharSpelled (pairedChar n m) ['\\', 'u', p, q, r, s, '\\', 'u', p', q', r', s']

/-- The characters between quotes, each in one of its ways. -/
inductive TextSpelled : List Char → List Char → Prop
  | nil : TextSpelled [] []
  | cons {c : Char} {w cs ws : List Char} (first : CharSpelled c w) (more : TextSpelled cs ws) :
    TextSpelled (c :: cs) (w ++ ws)

/-- No code unit is of both kinds. -/
theorem isTrailing_of_isLeading {n : Nat} (h : isLeading n = true) : isTrailing n = false := by
  simp only [isLeading, isTrailing, Bool.and_eq_true, decide_eq_true_eq, Bool.and_eq_false_iff,
    decide_eq_false_iff_not] at h ⊢
  omega

/-- A character is read in whatever way it is written. -/
theorem CharSpelled.readText_append {c : Char} {w : List Char} (h : CharSpelled c w)
    (r : List Char) :
    readText (w ++ r) = (readText r).map fun (s, rest) => (c :: s, rest) := by
  -- four ways to write a character: itself, a letter, one unit, or two
  cases h with
  | plain notQuote notBackslash printable =>
    rw [List.singleton_append, readText.eq_def]
    simp [printable]
  | @letter _ e named =>
    have hMark : e ≠ 'u' := fun hu => nomatch hu ▸ named
    rw [List.cons_append, List.singleton_append, readText.eq_def]
    simp [named]
  | unit single notTrailing notLeading =>
    simp only [List.cons_append, List.nil_append]
    rw [readText.eq_def]
    simp [single, notTrailing, notLeading]
  | pair first leading second trailing =>
    simp only [List.cons_append, List.nil_append]
    rw [readText.eq_def]
    simp [first, leading, isTrailing_of_isLeading leading, second, trailing]

theorem TextSpelled.readText_append {s w : List Char} (h : TextSpelled s w) (r : List Char) :
    readText (w ++ '"' :: r) = .ok (s, r) := by
  induction h with
  | nil => rfl
  | cons first more ih =>
    rw [List.append_assoc, first.readText_append, ih]
    rfl

/-- A character and what is read after it. -/
private theorem textSpelled_of_map {c : Char} {w r s rest : List Char} (hc : CharSpelled c w)
    (ih : ∀ {s rest}, readText r = .ok (s, rest) → ∃ v, r = v ++ '"' :: rest ∧ TextSpelled s v)
    (h : (readText r).map (fun (s, rest) => (c :: s, rest)) = .ok (s, rest)) :
    ∃ v, w ++ r = v ++ '"' :: rest ∧ TextSpelled s v := by
  obtain ⟨_, hRead, hPair⟩ := exists_of_map_eq_ok h
  cases hPair
  obtain ⟨v, rfl, hv⟩ := ih hRead
  exact ⟨w ++ v, by rw [List.append_assoc], .cons hc hv⟩

/-- What is read up to the closing quote is spelled so. -/
theorem textSpelled_of_readText {cs s rest : List Char} (h : readText cs = .ok (s, rest)) :
    ∃ w, cs = w ++ '"' :: rest ∧ TextSpelled s w := by
  -- a case for each way a character was read; the others have failed
  fun_induction readText cs generalizing s rest with
  | case2 =>
    cases h
    exact ⟨[], rfl, .nil⟩
  | case7 p q r s' n hSingle hTrailing hLeading p' q' r' s'' r'' m hSecond hSecondTrailing ih =>
    exact textSpelled_of_map (.pair hSingle hLeading hSecond hSecondTrailing) ih h
  | case10 p q r s' r' n hSingle hTrailing hLeading ih =>
    exact textSpelled_of_map
      (.unit hSingle (by simpa using hTrailing) (by simpa using hLeading)) ih h
  | case12 e r hNot c hNamed ih => exact textSpelled_of_map (.letter hNamed) ih h
  | case15 c r hQuote hBackslash hPrintable ih =>
    exact textSpelled_of_map
      (.plain (by simpa using hQuote) (by simpa using hBackslash) hPrintable) ih h
  | case1 | case3 | case4 | case5 | case6 | case8 | case9 | case11 | case13 | case14 => cases h

/-! ### One character -/

/-- The three ways in which a character is written here: as it is, by a letter, or by its
    number. -/
inductive Escaped (c : Char) : List Char → Prop
  | plain (notQuote : c ≠ '"') (notBackslash : c ≠ '\\') (printable : ¬ c.toNat < 0x20) :
    Escaped c [c]
  | letter (e : Char) (named : unescape? e = some c) (notUnit : e ≠ 'u') : Escaped c ['\\', e]
  | number (a b : Char) (unit : unit? '0' '0' a b = some c.toNat) (control : c.toNat < 0x20) :
    Escaped c ['\\', 'u', '0', '0', a, b]

private theorem unit?_hexDigits :
    ∀ n < 32, unit? '0' '0' (hexDigit (n / 16)) (hexDigit (n % 16)) = some n := by decide

/-- Every character is written in one of the three ways. -/
theorem escaped_escapedChar (c : Char) : Escaped c (escapedChar c) := by
  rw [escapedChar.eq_def]
  split
  -- the characters that have a letter
  iterate 7 exact .letter _ rfl (by decide)
  split
  · exact .number _ _ (unit?_hexDigits _ ‹_›) ‹_›
  · exact .plain ‹_› ‹_› ‹_›

section

variable {c : Char} {w : List Char}

/-- These are ways to write a character. -/
theorem Escaped.charSpelled (h : Escaped c w) : CharSpelled c w := by
  cases h with
  | plain notQuote notBackslash printable => exact .plain notQuote notBackslash printable
  | letter e named => exact .letter named
  -- a control character is no half of a pair, so its unit stands alone
  | number a b unit control =>
    have hTrailing : isTrailing c.toNat = false := by
      simp only [isTrailing, Bool.and_eq_false_iff, decide_eq_false_iff_not]
      omega
    have hLeading : isLeading c.toNat = false := by
      simp only [isLeading, Bool.and_eq_false_iff, decide_eq_false_iff_not]
      omega
    have hSpelled := CharSpelled.unit unit hTrailing hLeading
    rwa [Char.ofNat_toNat] at hSpelled

/-- A written character is passed over. -/
theorem Escaped.skipText_append (h : Escaped c w) (r : List Char) :
    skipText (w ++ r) = skipText r := by
  cases h with
  | plain notQuote notBackslash printable =>
    rw [List.singleton_append, skipText.eq_def]
    simp [printable]
  | letter e named notUnit =>
    rw [List.cons_append, List.singleton_append, skipText.eq_def]
    simp [named]
  | number a b unit control =>
    simp only [List.cons_append, List.nil_append]
    rw [skipText.eq_def]
    simp [unit]

/-! ### Cut texts -/

/-- The text breaks off before its closing quote, for every reader. -/
def IsTorn (cs : List Char) : Prop :=
  (∃ f, readText cs = .error f) ∧ ∃ f, skipText cs = .error f

/-- A cut within a written character. -/
theorem Escaped.isTorn_of_prefix (h : Escaped c w) {cut : List Char} (hCut : cut <+: w)
    (hProper : cut ≠ w) : IsTorn cut := by
  cases h with
  | plain =>
    simp only [List.prefix_cons_iff, List.prefix_nil] at hCut
    rcases hCut with rfl | ⟨_, rfl, rfl⟩
    · exact ⟨⟨_, rfl⟩, ⟨_, rfl⟩⟩
    · exact (hProper rfl).elim
  | letter e =>
    simp only [List.prefix_cons_iff, List.prefix_nil] at hCut
    rcases hCut with rfl | ⟨_, rfl, rfl | ⟨_, rfl, rfl⟩⟩
    · exact ⟨⟨_, rfl⟩, ⟨_, rfl⟩⟩
    · exact ⟨⟨_, rfl⟩, ⟨_, rfl⟩⟩
    · exact (hProper rfl).elim
  | number a b =>
    simp only [List.prefix_cons_iff, List.prefix_nil] at hCut
    rcases hCut with rfl | ⟨_, rfl, rfl | ⟨_, rfl, rfl | ⟨_, rfl, rfl | ⟨_, rfl, rfl |
      ⟨_, rfl, rfl | ⟨_, rfl, rfl⟩⟩⟩⟩⟩⟩
    -- fewer than four digits are left after the mark
    iterate 6 exact ⟨⟨_, rfl⟩, ⟨_, rfl⟩⟩
    exact (hProper rfl).elim

/-- A cut after a written character. -/
theorem Escaped.isTorn_append (h : Escaped c w) {r : List Char} (hr : IsTorn r) :
    IsTorn (w ++ r) := by
  obtain ⟨⟨f, hRead⟩, g, hSkip⟩ := hr
  exact ⟨⟨f, by rw [h.charSpelled.readText_append, hRead]; rfl⟩, g,
    by rw [h.skipText_append, hSkip]⟩

/-- A written character holds no newline. -/
theorem Escaped.newline_not_mem (h : Escaped c w) : '\n' ∉ w := by
  intro hMem
  cases h with
  | plain _ _ printable =>
    cases List.mem_singleton.mp hMem
    exact printable (by decide)
  | letter e named =>
    simp only [List.mem_cons, List.not_mem_nil, or_false] at hMem
    rcases hMem with hMem | rfl
    · exact nomatch hMem
    · exact nomatch named
  | number a b unit =>
    simp only [List.mem_cons, List.not_mem_nil, or_false] at hMem
    have hHex : hexValue? '\n' = none := rfl
    rcases hMem with hMem | hMem | hMem | hMem | rfl | rfl
    -- the mark and the two leading digits
    iterate 4 exact nomatch hMem
    · exact nomatch unit
    · simp [unit?, hHex] at unit

end

/-! ### Whole texts -/

/-- A text between quotes holds no newline. -/
theorem newline_not_mem_textChars (s : String) : '\n' ∉ textChars s := by
  simp only [textChars, List.mem_cons, List.mem_append, List.mem_flatMap, List.not_mem_nil,
    or_false, not_or]
  refine ⟨by decide, ?_, by decide⟩
  rintro ⟨c, -, hMem⟩
  exact (escaped_escapedChar c).newline_not_mem hMem

/-- What is written of a text is a spelling of it. -/
theorem textSpelled_escaped (cs : List Char) : TextSpelled cs (cs.flatMap escapedChar) := by
  induction cs with
  | nil => exact .nil
  | cons c cs ih => exact .cons (escaped_escapedChar c).charSpelled ih

/-- A text and its closing quote are read as the text. -/
theorem readText_escaped (cs r : List Char) :
    readText (cs.flatMap escapedChar ++ '"' :: r) = .ok (cs, r) :=
  (textSpelled_escaped cs).readText_append r

/-- A text that is cut before the end of its closing quote is refused. -/
theorem isTorn_of_prefix {cut cs : List Char} (hCut : cut <+: cs.flatMap escapedChar ++ ['"'])
    (hProper : cut ≠ cs.flatMap escapedChar ++ ['"']) : IsTorn cut := by
  induction cs generalizing cut with
  | nil =>
    simp only [List.flatMap_nil, List.nil_append, List.prefix_cons_iff, List.prefix_nil] at hCut
    rcases hCut with rfl | ⟨_, rfl, rfl⟩
    · exact ⟨⟨_, rfl⟩, ⟨_, rfl⟩⟩
    · exact (hProper rfl).elim
  | cons c cs ih =>
    rw [List.flatMap_cons, List.append_assoc] at hCut hProper
    have hChar := escaped_escapedChar c
    -- the cut is in what is written of the first character, or after it
    rcases prefix_append_cases hCut with ⟨hWithin, hPart⟩ | ⟨more, rfl, hMore⟩
    · exact hChar.isTorn_of_prefix hWithin hPart
    · exact hChar.isTorn_append (ih hMore fun hAll => hProper (by rw [hAll]))

end RunnerPool.Json
