import RunnerPool.Proofs.Json.Numeral
import RunnerPool.Proofs.Json.Text

/-!
# The tokens of a written value

Where the tokens of a text stand does not matter for what the text says, so a text is known by
what its tokens are.

* `tokens_cons`             the tokens of a text are its first one and those of the rest
* `lexemes_chars_append`    a written value has the tokens that its form says
* `closeBrace_not_mem_of`   a text without a closing brace has no token that is one
-/

namespace RunnerPool.Json

/-! ### What remains after a token -/

theorem suffix_readText {cs s rest : List Char} (h : readText cs = .ok (s, rest)) :
    rest <:+ cs := by
  obtain ⟨w, rfl, -⟩ := textSpelled_of_readText h
  exact (List.suffix_cons _ _).trans (List.suffix_append w _)

theorem suffix_skipText {cs rest : List Char} (h : skipText cs = .ok rest) : rest <:+ cs := by
  fun_induction skipText cs with
  | case2 =>
    cases h
    exact List.suffix_cons _ _
  | case4 _ _ _ _ _ _ ih | case7 _ _ _ _ ih | case10 _ _ _ _ _ ih =>
    refine (ih h).trans ?_
    simp [List.suffix_cons_iff]
  | case1 | case3 | case5 | case6 | case8 | case9 => exact nomatch h

/-- A word is read letter by letter. -/
theorem readWord_append (letters r : List Char) : readWord letters (letters ++ r) = .ok r := by
  induction letters with
  | nil => rfl
  | cons w ws ih => rw [List.cons_append, readWord, if_pos rfl, ih]

theorem eq_append_of_readWord {letters cs rest : List Char}
    (h : readWord letters cs = .ok rest) : cs = letters ++ rest := by
  induction letters generalizing cs with
  | nil =>
    cases h
    rfl
  | cons w ws ih =>
    cases cs with
    | nil => exact nomatch h
    | cons c cs =>
      rw [readWord] at h
      split at h
      · rename_i hSame
        rw [hSame, ih h, List.cons_append]
      · exact nomatch h

namespace Lexeme

theorem suffix_ofText (cs : List Char) : (ofText cs).2 <:+ cs := by
  rw [ofText]
  split
  · exact suffix_readText ‹_›
  · split
    · exact suffix_skipText ‹_›
    · exact List.nil_suffix

theorem suffix_ofWord (letters : List Char) (value : Scalar) (cs : List Char) :
    (ofWord letters value cs).2 <:+ cs := by
  rw [ofWord]
  split
  · rename_i hRead
    rw [eq_append_of_readWord hRead]
    exact List.suffix_append letters _
  · exact List.nil_suffix

theorem suffix_ofNumber (c : Char) (cs : List Char) : (ofNumber (c :: cs)).2 <:+ cs := by
  rw [ofNumber]
  split
  · exact List.nil_suffix
  · have hRest := Numeral.suffix_read ‹_›
    split <;> exact hRest

/-- What remains after a token is an end of the text after its first character. -/
theorem suffix_scan (c : Char) (cs : List Char) : (scan c cs).2 <:+ cs := by
  rw [scan.eq_def]
  split
  iterate 6 exact List.suffix_rfl
  · exact suffix_ofText cs
  iterate 3 exact suffix_ofWord _ _ cs
  · split
    · exact suffix_ofNumber c cs
    · exact List.nil_suffix

/-- Only a closing brace is the token of one. -/
theorem scan_eq_closeBrace {c : Char} {cs : List Char} (h : (scan c cs).1 = .closeBrace) :
    c = '}' := by
  -- every other branch of the scanner gives another lexeme
  rw [scan.eq_def] at h
  split at h
  · exact nomatch h
  · rfl
  iterate 4 exact nomatch h
  · rw [ofText] at h
    split at h
    · exact nomatch h
    · split at h <;> exact nomatch h
  iterate 3
    rw [ofWord] at h
    split at h <;> exact nomatch h
  · split at h
    · rw [ofNumber] at h
      split at h
      · exact nomatch h
      · split at h <;> exact nomatch h
    · exact nomatch h

end Lexeme

/-! ### Token by token -/

/-- The tokens of a text are bounded by its length, so enough fuel makes no difference. -/
theorem tokensWithin_of_le (fuel : Nat) (cs : List Char) (h : cs.length ≤ fuel) :
    tokensWithin fuel cs = tokens cs := by
  have hFuel (fuel more : Nat) (cs : List Char) (h : cs.length ≤ fuel) :
      tokensWithin (fuel + more) cs = tokensWithin fuel cs := by
    -- each step takes at least one character and at most one unit of fuel
    induction fuel generalizing cs with
    | zero =>
      cases List.length_eq_zero_iff.mp (Nat.le_zero.mp h)
      cases more <;> rfl
    | succ fuel ih =>
      rw [Nat.add_right_comm]
      cases cs with
      | nil => rfl
      | cons c cs =>
        have hLength := Nat.le_of_succ_le_succ h
        have hRest := (Lexeme.suffix_scan c cs).length_le
        simp only [tokensWithin, ih cs hLength, ih _ (Nat.le_trans hRest hLength)]
  obtain ⟨more, rfl⟩ := Nat.exists_eq_add_of_le h
  exact hFuel cs.length more cs (Nat.le_refl _)

@[simp] theorem tokens_nil : tokens [] = [] := rfl

/-- The tokens of a text are its first one and those of the rest; blanks before them are none. -/
theorem tokens_cons (c : Char) (cs : List Char) :
    tokens (c :: cs) =
      if isSpace c then tokens cs
      else
        ⟨(Lexeme.scan c cs).1, c :: cs, (Lexeme.scan c cs).2⟩ ::
          tokens (Lexeme.scan c cs).2 := by
  rw [tokens, List.length_cons, tokensWithin]
  split
  · exact tokensWithin_of_le _ cs (Nat.le_refl _)
  · exact congrArg _ (tokensWithin_of_le _ _ (Lexeme.suffix_scan c cs).length_le)

/-- What the tokens of a text are. -/
def lexemes (cs : List Char) : List Lexeme := (tokens cs).map (·.lexeme)

@[simp] theorem lexemes_nil : lexemes [] = [] := rfl

theorem lexemes_cons_of_scan {c : Char} {cs rest : List Char} {l : Lexeme}
    (hSpace : isSpace c = false) (hScan : Lexeme.scan c cs = (l, rest)) :
    lexemes (c :: cs) = l :: lexemes rest := by
  rw [lexemes, tokens_cons, hSpace, hScan]
  rfl

/-- A text without a closing brace has no token that is one. -/
theorem closeBrace_not_mem_of {cs : List Char} (h : '}' ∉ cs) : .closeBrace ∉ lexemes cs := by
  -- on the length: a scan takes a suffix, which has no brace either
  induction hLength : cs.length using Nat.strongRecOn generalizing cs with
  | ind n ih =>
    subst hLength
    cases cs with
    | nil => exact List.not_mem_nil
    | cons c cs =>
      rw [List.mem_cons, not_or] at h
      obtain ⟨hc, hcs⟩ := h
      rw [lexemes, tokens_cons]
      split
      · exact ih _ (Nat.lt_succ_self _) hcs rfl
      · have hRest := Lexeme.suffix_scan c cs
        rw [List.map_cons, List.mem_cons, not_or]
        refine ⟨fun hScan => hc (Lexeme.scan_eq_closeBrace hScan.symm).symm, ?_⟩
        exact ih _ (Nat.lt_succ_of_le hRest.length_le) (fun hMem => hcs (hRest.mem hMem)) rfl

/-! ### Marks -/

theorem lexemes_openBrace (r : List Char) : lexemes ('{' :: r) = .openBrace :: lexemes r :=
  lexemes_cons_of_scan rfl rfl

theorem lexemes_closeBrace (r : List Char) : lexemes ('}' :: r) = .closeBrace :: lexemes r :=
  lexemes_cons_of_scan rfl rfl

theorem lexemes_openBracket (r : List Char) : lexemes ('[' :: r) = .openBracket :: lexemes r :=
  lexemes_cons_of_scan rfl rfl

theorem lexemes_closeBracket (r : List Char) : lexemes (']' :: r) = .closeBracket :: lexemes r :=
  lexemes_cons_of_scan rfl rfl

theorem lexemes_colon (r : List Char) : lexemes (':' :: r) = .colon :: lexemes r :=
  lexemes_cons_of_scan rfl rfl

theorem lexemes_comma (r : List Char) : lexemes (',' :: r) = .comma :: lexemes r :=
  lexemes_cons_of_scan rfl rfl

/-! ### Written values -/

namespace Value

mutual

/-- Every number in the value is an integer of 64 bits, with a sign or without. -/
def IsIntegral : Value → Prop
  | .number (.int n) => Numeral.IsExact n
  | .number (.float _) => False
  | .array xs => ItemsIntegral xs
  | .object ms => MembersIntegral ms
  | _ => True
termination_by structural v => v

/-- Every number in the items is such an integer. -/
def ItemsIntegral : List Value → Prop
  | [] => True
  | x :: xs => IsIntegral x ∧ ItemsIntegral xs
termination_by structural xs => xs

/-- Every number in the members is such an integer. -/
def MembersIntegral : List (String × Value) → Prop
  | [] => True
  | (_, x) :: ms => IsIntegral x ∧ MembersIntegral ms
termination_by structural ms => ms

end

mutual

/-- The tokens of a value's text. -/
def lexemes : Value → List Lexeme
  | .null => [.scalar (.ok .null)]
  | .bool b => [.scalar (.ok (.bool b))]
  | .number n => [.scalar (.ok (.number n))]
  | .text s => [.text (.ok s)]
  | .array [] => [.openBracket, .closeBracket]
  | .array (x :: xs) => .openBracket :: (lexemes x ++ itemsLexemes xs)
  | .object [] => [.openBrace, .closeBrace]
  | .object ((k, x) :: ms) =>
    .openBrace :: .text (.ok k) :: .colon :: (lexemes x ++ membersLexemes ms)
termination_by structural v => v

/-- The tokens of the items after the first. -/
def itemsLexemes : List Value → List Lexeme
  | [] => [.closeBracket]
  | x :: xs => .comma :: (lexemes x ++ itemsLexemes xs)
termination_by structural xs => xs

/-- The tokens of the members after the first. -/
def membersLexemes : List (String × Value) → List Lexeme
  | [] => [.closeBrace]
  | (k, x) :: ms => .comma :: .text (.ok k) :: .colon :: (lexemes x ++ membersLexemes ms)
termination_by structural ms => ms

end

end Value

theorem lexemes_textChars (s : String) (r : List Char) :
    lexemes (textChars s ++ r) = .text (.ok s) :: lexemes r := by
  rw [textChars, List.cons_append, List.append_assoc]
  refine lexemes_cons_of_scan rfl ?_
  rw [Lexeme.scan, Lexeme.ofText, List.singleton_append, readText_escaped]
  simp

/-- A sign or a digit begins a number. -/
theorem Lexeme.scan_number {c : Char} (cs : List Char) (hc : c = '-' ∨ isDigit c = true) :
    scan c cs = ofNumber (c :: cs) := by
  rw [scan.eq_def]
  split
  -- no mark, quote or letter is a sign or a digit
  iterate 10 exact absurd hc (by decide)
  exact if_pos hc

theorem isSpace_of_number {c : Char} (hc : c = '-' ∨ isDigit c = true) : isSpace c = false := by
  cases hSpace : isSpace c with
  | false => rfl
  | true =>
    simp only [isSpace, Bool.or_eq_true, beq_iff_eq] at hSpace
    obtain ((rfl | rfl) | rfl) | rfl := hSpace <;> exact absurd hc (by decide)

theorem lexemes_ofInt {n : Int} (hn : Numeral.IsExact n) {r : List Char}
    (hr : Numeral.EndsNumber r) :
    lexemes (Digits.ofInt n ++ r) = .scalar (.ok (.number (.int n))) :: lexemes r := by
  have hToken : Lexeme.ofNumber (Digits.ofInt n ++ r) =
      (.scalar (.ok (.number (.int n))), r) := by
    rw [Lexeme.ofNumber, Numeral.read_ofInt n hr]
    simp only [Numeral.value_ofInt hn]
  -- the scanner decides by the first character alone
  cases hDigits : Digits.ofInt n with
  | nil => exact (ofInt_ne_nil n hDigits).elim
  | cons c cs =>
    have hc : c = '-' ∨ isDigit c = true := mem_ofInt (hDigits ▸ List.mem_cons_self)
    rw [hDigits, List.cons_append] at hToken
    exact lexemes_cons_of_scan (isSpace_of_number hc) ((Lexeme.scan_number _ hc).trans hToken)

theorem endsNumber_itemsChars (xs : List Value) (r : List Char) :
    Numeral.EndsNumber (Value.itemsChars xs ++ r) := by
  cases xs with
  | nil => exact Numeral.endsNumber_cons _ (by decide)
  | cons x xs => exact Numeral.endsNumber_cons _ (by decide)

theorem endsNumber_membersChars (ms : List (String × Value)) (r : List Char) :
    Numeral.EndsNumber (Value.membersChars ms ++ r) := by
  cases ms with
  | nil => exact Numeral.endsNumber_cons _ (by decide)
  | cons m ms => exact Numeral.endsNumber_cons _ (by decide)

mutual

/-- A written value has the tokens of its form. -/
theorem lexemes_chars_append : (v : Value) → v.IsIntegral → (r : List Char) →
    Numeral.EndsNumber r → lexemes (v.chars ++ r) = v.lexemes ++ lexemes r
  -- by recursion over the value: what follows its text never goes on with a number
  | .null, _, r, _ => by
    rw [Value.chars]
    exact lexemes_cons_of_scan rfl rfl
  | .bool true, _, r, _ => by
    rw [Value.chars]
    exact lexemes_cons_of_scan rfl rfl
  | .bool false, _, r, _ => by
    rw [Value.chars]
    exact lexemes_cons_of_scan rfl rfl
  | .number (.int n), hv, r, hr => lexemes_ofInt hv hr
  | .number (.float _), hv, _, _ => hv.elim
  | .text s, _, r, _ => lexemes_textChars s r
  | .array [], _, r, _ => by
    rw [Value.chars, List.cons_append, lexemes_openBracket, List.singleton_append,
      lexemes_closeBracket]
    rfl
  | .array (x :: xs), hv, r, _ => by
    rw [Value.chars, List.cons_append, lexemes_openBracket, List.append_assoc,
      lexemes_chars_append x hv.1 _ (endsNumber_itemsChars xs r), lexemes_itemsChars_append xs hv.2,
      Value.lexemes, List.cons_append, List.append_assoc]
  | .object [], _, r, _ => by
    rw [Value.chars, List.cons_append, lexemes_openBrace, List.singleton_append,
      lexemes_closeBrace]
    rfl
  | .object ((k, x) :: ms), hv, r, _ => by
    simp only [Value.chars, Value.lexemes, List.cons_append, List.append_assoc, lexemes_openBrace,
      lexemes_textChars, lexemes_colon, lexemes_membersChars_append ms hv.2,
      lexemes_chars_append x hv.1 _ (endsNumber_membersChars ms r)]
termination_by structural v => v

/-- The same of the items after the first. -/
theorem lexemes_itemsChars_append : (xs : List Value) → Value.ItemsIntegral xs → (r : List Char) →
    lexemes (Value.itemsChars xs ++ r) = Value.itemsLexemes xs ++ lexemes r
  | [], _, r => by
    rw [Value.itemsChars, List.singleton_append, lexemes_closeBracket]
    rfl
  | x :: xs, hv, r => by
    simp only [Value.itemsChars, Value.itemsLexemes, List.cons_append, List.append_assoc,
      lexemes_comma, lexemes_itemsChars_append xs hv.2,
      lexemes_chars_append x hv.1 _ (endsNumber_itemsChars xs r)]
termination_by structural xs => xs

/-- The same of the members after the first. -/
theorem lexemes_membersChars_append : (ms : List (String × Value)) → Value.MembersIntegral ms →
    (r : List Char) → lexemes (Value.membersChars ms ++ r) = Value.membersLexemes ms ++ lexemes r
  | [], _, r => by
    rw [Value.membersChars, List.singleton_append, lexemes_closeBrace]
    rfl
  | (k, x) :: ms, hv, r => by
    simp only [Value.membersChars, Value.membersLexemes, List.cons_append, List.append_assoc,
      lexemes_comma, lexemes_textChars, lexemes_colon, lexemes_membersChars_append ms hv.2,
      lexemes_chars_append x hv.1 _ (endsNumber_membersChars ms r)]
termination_by structural ms => ms

end

/-! ### Cut values -/

/-- No beginning of the text has a token that is a closing brace, unless it is the whole text. -/
def ClosesLast (cs : List Char) : Prop :=
  ∀ cut, cut <+: cs → cut ≠ cs → .closeBrace ∉ lexemes cut

theorem closesLast_closeBrace : ClosesLast ['}'] := by
  intro cut hCut hProper
  simp only [List.prefix_cons_iff, List.prefix_nil] at hCut
  rcases hCut with rfl | ⟨_, rfl, rfl⟩
  · exact List.not_mem_nil
  · exact (hProper rfl).elim

/-- A mark that closes nothing may stand before. -/
theorem ClosesLast.cons {r : List Char} (h : ClosesLast r) {c : Char} {l : Lexeme}
    (hMark : ∀ r, lexemes (c :: r) = l :: lexemes r) (hOpen : l ≠ .closeBrace) :
    ClosesLast (c :: r) := by
  intro cut hCut hProper
  rcases List.prefix_cons_iff.mp hCut with rfl | ⟨more, rfl, hMore⟩
  · exact List.not_mem_nil
  · rw [hMark, List.mem_cons, not_or]
    exact ⟨hOpen.symm, h more hMore fun hAll => hProper (by rw [hAll])⟩

/-- A text may stand before, whatever it holds. -/
theorem ClosesLast.textChars_append {r : List Char} (h : ClosesLast r) (s : String) :
    ClosesLast (textChars s ++ r) := by
  intro cut hCut hProper
  rcases prefix_append_cases hCut with ⟨hWithin, hPart⟩ | ⟨more, rfl, hMore⟩
  · rw [textChars] at hWithin hPart
    rcases List.prefix_cons_iff.mp hWithin with rfl | ⟨inner, rfl, hInner⟩
    · exact List.not_mem_nil
    · -- the closing quote is missing, so the text is broken and nothing comes after it
      obtain ⟨⟨f, hRead⟩, g, hSkip⟩ := isTorn_of_prefix hInner fun hAll => hPart (by rw [hAll])
      have hScan : Lexeme.scan '"' inner = (.broken true ⟨f, g⟩, []) := by
        rw [Lexeme.scan, Lexeme.ofText, hRead, hSkip]
      rw [lexemes_cons_of_scan rfl hScan]
      simp
  · rw [lexemes_textChars, List.mem_cons, not_or]
    exact ⟨by simp, h more hMore fun hAll => hProper (by rw [hAll])⟩

/-- An integer may stand before. -/
theorem ClosesLast.ofInt_append {r : List Char} (h : ClosesLast r) {n : Int}
    (hn : Numeral.IsExact n) (hr : Numeral.EndsNumber r) : ClosesLast (Digits.ofInt n ++ r) := by
  intro cut hCut hProper
  rcases prefix_append_cases hCut with ⟨hWithin, -⟩ | ⟨more, rfl, hMore⟩
  · -- there is no brace among the digits
    refine closeBrace_not_mem_of fun hMem => ?_
    exact absurd (mem_ofInt (hWithin.mem hMem)) (by decide)
  · -- the digits are all there, and what is left of the rest ends the number as the rest does
    have hEnds : Numeral.EndsNumber more := by
      intro c hc
      obtain ⟨rest, rfl⟩ := hMore
      refine hr c ?_
      cases more with
      | nil => exact nomatch hc
      | cons d more => exact hc
    rw [lexemes_ofInt hn hEnds, List.mem_cons, not_or]
    exact ⟨by simp, h more hMore fun hAll => hProper (by rw [hAll])⟩

/-- The value is a text or an integer of 64 bits. -/
inductive Value.IsPlain : Value → Prop
  | text (s : String) : IsPlain (.text s)
  | int {n : Int} (h : Numeral.IsExact n) : IsPlain (.int n)

theorem Value.isPlain_int64 (n : Int64) : (Value.int n.toInt).IsPlain :=
  .int ⟨n.minValue_le_toInt, Int.lt_of_le_of_lt n.toInt_le (by decide)⟩

theorem Value.isPlain_int32 (n : Int32) : (Value.int n.toInt).IsPlain :=
  .int ⟨Int.le_trans (by decide) n.minValue_le_toInt, Int.lt_of_le_of_lt n.toInt_le (by decide)⟩

theorem ClosesLast.chars_append {r : List Char} (h : ClosesLast r) {v : Value} (hv : v.IsPlain)
    (hr : Numeral.EndsNumber r) : ClosesLast (v.chars ++ r) := by
  cases hv with
  | text s => exact h.textChars_append s
  | int hn => exact h.ofInt_append hn hr

/-- A member with such a value may stand before. -/
theorem ClosesLast.member_append {r : List Char} (h : ClosesLast r) (k : String) {v : Value}
    (hv : v.IsPlain) (hr : Numeral.EndsNumber r) :
    ClosesLast (textChars k ++ ':' :: (v.chars ++ r)) :=
  ((h.chars_append hv hr).cons lexemes_colon nofun).textChars_append k

theorem closesLast_membersChars (ms : List (String × Value)) (h : ∀ m ∈ ms, m.2.IsPlain) :
    ClosesLast (Value.membersChars ms) := by
  induction ms with
  | nil => exact closesLast_closeBrace
  | cons m ms ih =>
    have hMore := ih fun m hm => h m (List.mem_cons_of_mem _ hm)
    have hEnds : Numeral.EndsNumber (Value.membersChars ms) := by
      simpa using endsNumber_membersChars ms []
    exact (hMore.member_append m.1 (h m List.mem_cons_self) hEnds).cons lexemes_comma nofun

/-- An object whose members hold texts and integers has its closing brace at the end. -/
theorem closesLast_chars (ms : List (String × Value)) (h : ∀ m ∈ ms, m.2.IsPlain) :
    ClosesLast (Value.object ms).chars := by
  cases ms with
  | nil => exact closesLast_closeBrace.cons lexemes_openBrace nofun
  | cons m ms =>
    have hMore := closesLast_membersChars ms fun m hm => h m (List.mem_cons_of_mem _ hm)
    have hEnds : Numeral.EndsNumber (Value.membersChars ms) := by
      simpa using endsNumber_membersChars ms []
    exact (hMore.member_append m.1 (h m List.mem_cons_self) hEnds).cons lexemes_openBrace nofun

end RunnerPool.Json
