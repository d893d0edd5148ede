import Mathlib.Data.List.Chain
import RunnerPool.Proofs.Json.Token

/-!
# How JSON is spelled

A value can be written in many ways: blanks stand between its tokens as one likes, a character
between quotes can be escaped, and a number can have zeros behind the point.  What its texts have
in common is the sequence of their tokens.  Tokens that are spelled by the grammar are those that
are read.

* `Lexeme.Spelled`    how a token is written
* `Lexed`             tokens with blanks around them
* `Value.Spelled`     how a value is written
* `Respaced`          a text with other blanks between its tokens

## Main statements

- `lexemes_of_lexed`: a text that is written so has these tokens
- `lexed_of_lexemes`: a text with these tokens is written so
- `Value.Spelled.respaced`: other blanks between the tokens spell the same value
-/

namespace RunnerPool.Json

/-! ### Tokens -/

/-- How a token is written. -/
inductive Lexeme.Spelled : Lexeme → List Char → Prop
  | openBrace : Spelled .openBrace ['{']
  | closeBrace : Spelled .closeBrace ['}']
  | openBracket : Spelled .openBracket ['[']
  | closeBracket : Spelled .closeBracket [']']
  | colon : Spelled .colon [':']
  | comma : Spelled .comma [',']
  | text {s w : List Char} (h : TextSpelled s w) :
    Spelled (.text (.ok (String.ofList s))) ('"' :: (w ++ ['"']))
  | null : Spelled (.scalar (.ok .null)) ['n', 'u', 'l', 'l']
  | yes : Spelled (.scalar (.ok (.bool true))) ['t', 'r', 'u', 'e']
  | no : Spelled (.scalar (.ok (.bool false))) ['f', 'a', 'l', 's', 'e']
  | number {n : Numeral} {w : List Char} {x : Number} (h : n.Spelled w)
    (inRange : n.value = .ok x) : Spelled (.scalar (.ok (.number x))) w

/-- The token ends before the text: a number goes on as far as it can. -/
def Lexeme.EndsBefore (r : List Char) : Lexeme → Prop
  | .scalar (.ok (.number _)) => Numeral.EndsNumber r
  | _ => True

/-- The token says something. -/
def Lexeme.isSound : Lexeme → Bool
  | .text (.error _) | .scalar (.error _) | .broken _ _ | .stray => false
  | _ => true

/-- Tokens with blanks around them. -/
inductive Lexed : List Lexeme → List Char → Prop
  | nil {ws : List Char} (blank : ∀ c ∈ ws, isSpace c = true) : Lexed [] ws
  | cons {l : Lexeme} {ls : List Lexeme} {ws w r : List Char} (blank : ∀ c ∈ ws, isSpace c = true)
    (first : l.Spelled w) (ends : l.EndsBefore r) (more : Lexed ls r) :
    Lexed (l :: ls) (ws ++ (w ++ r))

section

variable {l : Lexeme} {ls : List Lexeme} {c : Char} {cs ws w r rest : List Char}

theorem Numeral.Spelled.exists_cons {n : Numeral} (h : n.Spelled w) :
    ∃ c cs, w = c :: cs ∧ (c = '-' ∨ isDigit c = true) := by
  cases h with
  | negative => exact ⟨_, _, rfl, Or.inl rfl⟩
  | positive _ h =>
    cases h with
    | parts digits =>
      obtain ⟨d, ds, rfl⟩ := List.exists_cons_of_ne_nil digits.1
      exact ⟨d, _, rfl, Or.inr (digits.2 d List.mem_cons_self)⟩

/-- A token begins with no blank, and with nothing by which a number could go on but a digit. -/
theorem Lexeme.Spelled.exists_cons (h : l.Spelled w) :
    ∃ c cs, w = c :: cs ∧ isSpace c = false ∧ c ≠ '.' ∧ c ≠ 'e' ∧ c ≠ 'E' := by
  cases h with
  | number h =>
    obtain ⟨c, cs, rfl, hc⟩ := h.exists_cons
    refine ⟨c, cs, rfl, isSpace_of_number hc, ?_, ?_, ?_⟩ <;>
      rintro rfl <;> exact absurd hc (by decide)
  | _ => exact ⟨_, _, rfl, by decide, by decide, by decide, by decide⟩

/-- A written token is the first of the text. -/
theorem Lexeme.Spelled.lexemes_append (h : l.Spelled w) (hEnds : l.EndsBefore r) :
    lexemes (w ++ r) = l :: lexemes r := by
  -- a text ends at its own quote and a word at its last letter, only a number looks further
  cases h with
  | text h =>
    rw [List.cons_append, List.append_assoc, List.singleton_append]
    refine lexemes_cons_of_scan rfl ?_
    rw [scan, ofText, h.readText_append]
  | null | yes | no =>
    refine lexemes_cons_of_scan rfl ?_
    rw [scan, ofWord, List.append_eq, readWord_append]
  | @number n w x h inRange =>
    obtain ⟨c, cs, rfl, hc⟩ := h.exists_cons
    refine lexemes_cons_of_scan (isSpace_of_number hc) ((scan_number _ hc).trans ?_)
    have hRead := h.read_append hEnds
    rw [List.cons_append] at hRead
    rw [ofNumber, List.append_eq, hRead]
    simp only [inRange]
  | _ => exact lexemes_cons_of_scan rfl rfl

theorem lexemes_blank_append (h : ∀ c ∈ ws, isSpace c = true) (r : List Char) :
    lexemes (ws ++ r) = lexemes r := by
  induction ws with
  | nil => rfl
  | cons c ws ih =>
    obtain ⟨hc, hws⟩ := List.forall_mem_cons.mp h
    rw [List.cons_append, lexemes, tokens_cons, if_pos hc]
    exact ih hws

/-- A text that is written so has these tokens. -/
theorem lexemes_of_lexed (h : Lexed ls cs) : lexemes cs = ls := by
  induction h with
  | nil blank =>
    have hNone := lexemes_blank_append blank []
    rwa [List.append_nil] at hNone
  | cons blank first ends more ih =>
    rw [lexemes_blank_append blank, first.lexemes_append ends, ih]

/-! ### What is read -/

/-- A word that is read is written so. -/
private theorem spelled_of_ofWord {letters : List Char} {v : Scalar}
    (h : Lexeme.ofWord letters v cs = (l, rest)) (hSound : l.isSound = true)
    (hWord : (Lexeme.scalar (.ok v)).Spelled (c :: letters))
    (hEnds : (Lexeme.scalar (.ok v)).EndsBefore rest ∨ Numeral.EndsDigits rest) :
    ∃ w, c :: cs = w ++ rest ∧ l.Spelled w ∧ (l.EndsBefore rest ∨ Numeral.EndsDigits rest) := by
  rw [Lexeme.ofWord] at h
  split at h
  · rename_i hRead
    cases h
    exact ⟨c :: letters, by rw [eq_append_of_readWord hRead, List.cons_append], hWord, hEnds⟩
  · cases h
    cases hSound

/-- A token that says something is written so, and a number is followed by no digit. -/
theorem spelled_of_scan (h : Lexeme.scan c cs = (l, rest)) (hSound : l.isSound = true) :
    ∃ w, c :: cs = w ++ rest ∧ l.Spelled w ∧ (l.EndsBefore rest ∨ Numeral.EndsDigits rest) := by
  rw [Lexeme.scan.eq_def] at h
  -- the structural characters first, then a text, the three words, and a number
  split at h
  · cases h; exact ⟨_, rfl, .openBrace, Or.inl trivial⟩
  · cases h; exact ⟨_, rfl, .closeBrace, Or.inl trivial⟩
  · cases h; exact ⟨_, rfl, .openBracket, Or.inl trivial⟩
  · cases h; exact ⟨_, rfl, .closeBracket, Or.inl trivial⟩
  · cases h; exact ⟨_, rfl, .colon, Or.inl trivial⟩
  · cases h; exact ⟨_, rfl, .comma, Or.inl trivial⟩
  · rw [Lexeme.ofText] at h
    split at h
    · rename_i hRead
      cases h
      obtain ⟨w, rfl, hw⟩ := textSpelled_of_readText hRead
      exact ⟨'"' :: (w ++ ['"']), by simp, .text hw, Or.inl trivial⟩
    -- the other branches give a lexeme that is not sound
    · split at h <;> cases h <;> cases hSound
  · exact spelled_of_ofWord h hSound .null (Or.inl trivial)
  · exact spelled_of_ofWord h hSound .yes (Or.inl trivial)
  · exact spelled_of_ofWord h hSound .no (Or.inl trivial)
  · split at h
    · rw [Lexeme.ofNumber] at h
      split at h
      · cases h
        cases hSound
      · rename_i hRead
        obtain ⟨w, hParts, hw, hEnds⟩ := Numeral.spelled_of_read hRead
        split at h
        · rename_i hValue
          cases h
          exact ⟨w, hParts, .number hw hValue, Or.inr hEnds⟩
        · cases h
          cases hSound
    · cases h
      cases hSound

theorem Numeral.EndsNumber.endsBefore (h : Numeral.EndsNumber r) (l : Lexeme) :
    l.EndsBefore r := by
  rw [Lexeme.EndsBefore.eq_def]
  split
  · exact h
  · trivial

/-- A text begins with a blank or with its first token. -/
theorem Lexed.head_cases (h : Lexed ls r) (hc : c ∈ r.head?) :
    isSpace c = true ∨ ∃ l w, l ∈ ls.head? ∧ l.Spelled (c :: w) := by
  cases h with
  | nil blank => exact Or.inl (blank c (List.mem_of_head? hc))
  | @cons l ls ws w r blank first =>
    -- the first character is a blank, or without one the first lexeme's
    cases ws with
    | nil =>
      obtain ⟨d, w, rfl, -⟩ := first.exists_cons
      obtain rfl : d = c := by simpa using hc
      exact Or.inr ⟨l, w, rfl, first⟩
    | cons d ws =>
      obtain rfl : d = c := by simpa using hc
      exact Or.inl (blank d List.mem_cons_self)

/-- Where tokens follow, a number that no digit goes on with is at its end. -/
theorem Lexed.endsNumber (h : Lexed ls r) (hDigits : Numeral.EndsDigits r) :
    Numeral.EndsNumber r := by
  have hBlank (c : Char) (hc : isSpace c = true) : c ≠ '.' ∧ c ≠ 'e' ∧ c ≠ 'E' := by
    refine ⟨?_, ?_, ?_⟩ <;> rintro rfl <;> exact absurd hc (by decide)
  intro c hc
  refine ⟨hDigits c hc, ?_⟩
  rcases h.head_cases hc with hSpace | ⟨l, w, -, first⟩
  · exact hBlank c hSpace
  · obtain ⟨d, w', hw, -, hd⟩ := first.exists_cons
    cases hw
    exact hd

theorem Lexed.cons_blank (hc : isSpace c = true) (h : Lexed ls cs) : Lexed ls (c :: cs) := by
  have hBlank {ws : List Char} (blank : ∀ d ∈ ws, isSpace d = true) :
      ∀ d ∈ c :: ws, isSpace d = true := List.forall_mem_cons.mpr ⟨hc, blank⟩
  cases h with
  | nil blank => exact .nil (hBlank blank)
  | cons blank first ends more =>
    rw [← List.cons_append]
    exact .cons (hBlank blank) first ends more

/-- A text with these tokens is written so, if each of them says something; by induction on the
    length of the text. -/
theorem lexed_of_lexemes (hSound : ∀ l ∈ lexemes cs, l.isSound = true) :
    Lexed (lexemes cs) cs := by
  -- on the length, since the scanner takes a whole lexeme off at once
  induction hLength : cs.length using Nat.strongRecOn generalizing cs with
  | ind n ih =>
    subst hLength
    cases cs with
    | nil => exact .nil (List.forall_mem_nil _)
    | cons c cs =>
      rw [lexemes, tokens_cons] at hSound ⊢
      split at hSound
      · rename_i hSpace
        rw [if_pos hSpace]
        exact (ih cs.length (Nat.lt_succ_self _) hSound rfl).cons_blank hSpace
      · rename_i hSpace
        rw [if_neg hSpace]
        rw [List.map_cons] at hSound ⊢
        obtain ⟨hFirst, hMore⟩ := List.forall_mem_cons.mp hSound
        have hRest := ih _ (Nat.lt_succ_of_le (Lexeme.suffix_scan c cs).length_le) hMore rfl
        obtain ⟨w, hParts, hw, hEnds⟩ := spelled_of_scan (Prod.eta _).symm hFirst
        -- a number needs more than its digits ending: what follows must not go on with it
        have hBefore := hEnds.elim id fun hDigits => (hRest.endsNumber hDigits).endsBefore _
        have hAll := Lexed.cons (List.forall_mem_nil _) hw hBefore hRest
        rw [List.nil_append, ← hParts] at hAll
        exact hAll

end

/-! ### Values -/

mutual

/-- The tokens of a value say something. -/
theorem Value.isSound_lexemes : (v : Value) → ∀ l ∈ v.lexemes, l.isSound = true
  | .null => by simp [lexemes, Lexeme.isSound]
  | .bool b => by simp [lexemes, Lexeme.isSound]
  | .number n => by simp [lexemes, Lexeme.isSound]
  | .text s => by simp [lexemes, Lexeme.isSound]
  | .array [] => by simp [lexemes, Lexeme.isSound]
  | .array (x :: xs) => by
    simp only [lexemes, List.forall_mem_cons, List.forall_mem_append]
    exact ⟨rfl, isSound_lexemes x, isSound_itemsLexemes xs⟩
  | .object [] => by simp [lexemes, Lexeme.isSound]
  | .object ((k, x) :: ms) => by
    simp only [lexemes, List.forall_mem_cons, List.forall_mem_append]
    exact ⟨rfl, rfl, rfl, isSound_lexemes x, isSound_membersLexemes ms⟩
termination_by structural v => v

theorem Value.isSound_itemsLexemes :
    (xs : List Value) → ∀ l ∈ itemsLexemes xs, l.isSound = true
  | [] => by simp [itemsLexemes, Lexeme.isSound]
  | x :: xs => by
    simp only [itemsLexemes, List.forall_mem_cons, List.forall_mem_append]
    exact ⟨rfl, isSound_lexemes x, isSound_itemsLexemes xs⟩
termination_by structural xs => xs

theorem Value.isSound_membersLexemes :
    (ms : List (String × Value)) → ∀ l ∈ membersLexemes ms, l.isSound = true
  | [] => by simp [membersLexemes, Lexeme.isSound]
  | (k, x) :: ms => by
    simp only [membersLexemes, List.forall_mem_cons, List.forall_mem_append]
    exact ⟨rfl, rfl, rfl, isSound_lexemes x, isSound_membersLexemes ms⟩
termination_by structural ms => ms

end

/-- How a value is written: the tokens of its form, with blanks around them. -/
def Value.Spelled (v : Value) (cs : List Char) : Prop := Lexed v.lexemes cs

theorem Value.spelled_iff {v : Value} {cs : List Char} :
    v.Spelled cs ↔ Json.lexemes cs = v.lexemes := by
  constructor
  · exact lexemes_of_lexed
  · intro h
    rw [Value.Spelled, ← h]
    exact lexed_of_lexemes (h ▸ v.isSound_lexemes)

/-! ### Other blanks -/

/-- The second text has the tokens of the first, as they are written there, with other blanks around
    them. -/
inductive Respaced : List Char → List Char → Prop
  | nil {ws ws' : List Char} (blank : ∀ c ∈ ws, isSpace c = true)
    (blank' : ∀ c ∈ ws', isSpace c = true) : Respaced ws ws'
  | cons {l : Lexeme} {ws ws' w r r' : List Char} (blank : ∀ c ∈ ws, isSpace c = true)
    (blank' : ∀ c ∈ ws', isSpace c = true) (first : l.Spelled w) (ends : l.EndsBefore r)
    (more : Respaced r r') : Respaced (ws ++ (w ++ r)) (ws' ++ (w ++ r'))

theorem Lexed.respaced_self {ls : List Lexeme} {cs : List Char} (h : Lexed ls cs) :
    Respaced cs cs := by
  induction h with
  | nil blank => exact .nil blank blank
  | cons blank first ends _ ih => exact .cons blank blank first ends ih

/-- More blanks may stand in front. -/
theorem Lexed.respaced_append {ls : List Lexeme} {ws cs : List Char} (h : Lexed ls cs)
    (hBlank : ∀ c ∈ ws, isSpace c = true) : Respaced cs (ws ++ cs) := by
  cases h with
  | nil blank => exact .nil blank (List.forall_mem_append.mpr ⟨hBlank, blank⟩)
  | cons blank first ends more =>
    have hCons := Respaced.cons blank (List.forall_mem_append.mpr ⟨hBlank, blank⟩) first ends
      more.respaced_self
    rwa [List.append_assoc] at hCons

/-- The token is a number. -/
def Lexeme.isNumber : Lexeme → Bool
  | .scalar (.ok (.number _)) => true
  | _ => false

/-- No number stands directly before another. -/
def Apart (ls : List Lexeme) : Prop :=
  ls.IsChain fun l m => l.isNumber = false ∨ m.isNumber = false

theorem Value.head_itemsLexemes (xs : List Value) :
    ∀ l ∈ (itemsLexemes xs).head?, l.isNumber = false := by
  cases xs <;> simp [itemsLexemes, Lexeme.isNumber]

theorem Value.head_membersLexemes (ms : List (String × Value)) :
    ∀ l ∈ (membersLexemes ms).head?, l.isNumber = false := by
  cases ms with
  | nil => simp [membersLexemes, Lexeme.isNumber]
  | cons m ms => simp [membersLexemes, Lexeme.isNumber]

theorem Apart.cons {l : Lexeme} {ls : List Lexeme} (h : Apart ls) (hl : l.isNumber = false) :
    Apart (l :: ls) := by
  rw [Apart, List.isChain_cons]
  exact ⟨fun _ _ => Or.inl hl, h⟩

theorem Apart.append {ls ls' : List Lexeme} (h : Apart ls) (h' : Apart ls')
    (hHead : ∀ l ∈ ls'.head?, l.isNumber = false) : Apart (ls ++ ls') := by
  rw [Apart, List.isChain_append]
  exact ⟨h, h', fun _ _ m hm => Or.inr (hHead m hm)⟩

mutual

/-- Between the numbers of a value there is a comma or a bracket. -/
theorem Value.apart_lexemes : (v : Value) → Apart v.lexemes
  | .null => List.isChain_singleton _
  | .bool _ => List.isChain_singleton _
  | .number _ => List.isChain_singleton _
  | .text _ => List.isChain_singleton _
  | .array [] => List.isChain_pair.mpr (Or.inl rfl)
  | .array (x :: xs) =>
    ((apart_lexemes x).append (apart_itemsLexemes xs) (head_itemsLexemes xs)).cons rfl
  | .object [] => List.isChain_pair.mpr (Or.inl rfl)
  | .object ((_, x) :: ms) =>
    ((((apart_lexemes x).append (apart_membersLexemes ms) (head_membersLexemes ms)).cons rfl).cons
      rfl).cons rfl
termination_by structural v => v

theorem Value.apart_itemsLexemes : (xs : List Value) → Apart (itemsLexemes xs)
  | [] => List.isChain_singleton _
  | x :: xs =>
    ((apart_lexemes x).append (apart_itemsLexemes xs) (head_itemsLexemes xs)).cons rfl
termination_by structural xs => xs

theorem Value.apart_membersLexemes : (ms : List (String × Value)) → Apart (membersLexemes ms)
  | [] => List.isChain_singleton _
  | (_, x) :: ms =>
    ((((apart_lexemes x).append (apart_membersLexemes ms) (head_membersLexemes ms)).cons rfl).cons
      rfl).cons rfl
termination_by structural ms => ms

end

/-- A token that is no number begins with no digit. -/
theorem Lexeme.Spelled.exists_cons_of_not_number {l : Lexeme} {w : List Char} (h : l.Spelled w)
    (hNot : l.isNumber = false) : ∃ c cs, w = c :: cs ∧ isDigit c = false := by
  cases h with
  | number => exact nomatch hNot
  | _ => exact ⟨_, _, rfl, by decide⟩

/-- No digit begins a text whose first token is no number. -/
theorem Lexed.endsDigits {ls : List Lexeme} {r : List Char} (h : Lexed ls r)
    (hHead : ∀ l ∈ ls.head?, l.isNumber = false) : Numeral.EndsDigits r := by
  have hBlank (c : Char) (hc : isSpace c = true) : isDigit c = false := by
    refine Bool.eq_false_iff.mpr fun hDigit => ?_
    rw [isSpace_of_number (Or.inr hDigit)] at hc
    exact nomatch hc
  intro c hc
  -- a blank is no digit, and no lexeme but a number starts with one
  rcases h.head_cases hc with hSpace | ⟨l, w, hl, first⟩
  · exact hBlank c hSpace
  · obtain ⟨d, w', hw, hd⟩ := first.exists_cons_of_not_number (hHead l hl)
    cases hw
    exact hd

/-- Tokens that are apart are the same with other blanks around them. -/
theorem Respaced.exists_lexed {cs cs' : List Char} (h : Respaced cs cs') :
    ∃ ls, Lexed ls cs ∧ (Apart ls → Lexed ls cs') := by
  -- along the first text's lexemes, each spelled the same in the second
  induction h with
  | nil blank blank' => exact ⟨[], .nil blank, fun _ => .nil blank'⟩
  | @cons l ws ws' w r r' blank blank' first ends more ih =>
    obtain ⟨ls, hBefore, hAfter⟩ := ih
    refine ⟨l :: ls, .cons blank first ends hBefore, fun hApart => ?_⟩
    rw [Apart, List.isChain_cons] at hApart
    have hRest := hAfter hApart.2
    refine .cons blank' first ?_ hRest
    -- only a number could run into what follows, and then a blank stands between
    cases hNumber : l.isNumber with
    | true =>
      have hHead : ∀ m ∈ ls.head?, m.isNumber = false := fun m hm =>
        (hApart.1 m hm).resolve_left (by simp [hNumber])
      exact (hRest.endsNumber (hRest.endsDigits hHead)).endsBefore l
    | false =>
      rw [Lexeme.EndsBefore.eq_def]
      split
      · exact nomatch hNumber
      · trivial

/-- Other blanks around its tokens make a text spell the same value. -/
theorem Value.Spelled.respaced {v : Value} {cs cs' : List Char} (h : v.Spelled cs)
    (hRespaced : Respaced cs cs') : v.Spelled cs' := by
  obtain ⟨ls, hBefore, hAfter⟩ := hRespaced.exists_lexed
  obtain rfl : ls = v.lexemes := (lexemes_of_lexed hBefore).symm.trans (lexemes_of_lexed h)
  exact hAfter v.apart_lexemes

end RunnerPool.Json
