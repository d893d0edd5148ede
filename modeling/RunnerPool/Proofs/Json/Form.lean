import RunnerPool.Proofs.Json.Language
import RunnerPool.Proofs.Json.Members
import RunnerPool.Proofs.Json.Shape

/-!
# Values as they are written

What a text says before any number in it is made out: a form has numerals where a value has
numbers, so that it tells literals apart that stand for one number, and literals that stand for
none.  A text that spells a form is read, if it is, as the value that the form denotes.

* `Form`            a value with its numerals
* `Form.Spelled`    how a form is written
* `Form.Denotes`    the value that a form stands for, if all its numerals are in range

## Main statements

- `Form.Spelled.exists_denoted`: what is read of a text that spells a form
-/

namespace RunnerPool.Json

/-- A value as it is written, its members as they stand. -/
inductive Form
  | null
  | bool (b : Bool)
  | numeral (n : Numeral)
  | text (s : String)
  | array (items : List Form)
  | object (members : List (String × Form))

/-! ### Tokens with numerals -/

/-- A token as it is written: a numeral, or a token that is no number. -/
inductive Mark
  | lexeme (l : Lexeme)
  | numeral (n : Numeral)

namespace Mark

/-- How a mark is written. -/
def Spelled : Mark → List Char → Prop
  | .lexeme l => l.Spelled
  | .numeral n => n.Spelled

/-- The mark ends before the text. -/
def EndsBefore (r : List Char) : Mark → Prop
  | .lexeme l => l.EndsBefore r
  | .numeral _ => Numeral.EndsNumber r

/-- The token that is read of a mark. -/
inductive Means : Mark → Lexeme → Prop
  | lexeme (l : Lexeme) : Means (.lexeme l) l
  | numeral {n : Numeral} {w : List Char} {x : Number} (written : n.Spelled w)
    (h : n.value = .ok x) : Means (.numeral n) (.scalar (.ok (.number x)))

end Mark

/-- Marks with blanks around them. -/
inductive Marked : List Mark → List Char → Prop
  | nil {ws : List Char} (blank : ∀ c ∈ ws, isSpace c = true) : Marked [] ws
  | cons {m : Mark} {ms : List Mark} {ws w r : List Char} (blank : ∀ c ∈ ws, isSpace c = true)
    (first : m.Spelled w) (ends : m.EndsBefore r) (more : Marked ms r) :
    Marked (m :: ms) (ws ++ (w ++ r))

/-- Marks may stand without blanks between them. -/
theorem Marked.lexeme_append {l : Lexeme} {ms : List Mark} {w r : List Char} (first : l.Spelled w)
    (ends : l.EndsBefore r) (more : Marked ms r) : Marked (.lexeme l :: ms) (w ++ r) :=
  .cons (List.forall_mem_nil _) first ends more

theorem Marked.text_append (s : String) {ms : List Mark} {r : List Char} (more : Marked ms r) :
    Marked (.lexeme (.text (.ok s)) :: ms) (textChars s ++ r) := by
  have hText := Lexeme.Spelled.text (textSpelled_escaped s.toList)
  rw [String.ofList_toList] at hText
  exact .lexeme_append hText trivial more

theorem Marked.numeral_append {n : Numeral} {ms : List Mark} {w r : List Char} (first : n.Spelled w)
    (ends : Numeral.EndsNumber r) (more : Marked ms r) : Marked (.numeral n :: ms) (w ++ r) :=
  .cons (List.forall_mem_nil _) first ends more

/-- A written numeral is the first token of the text, which says something only if the numeral is
    in range. -/
theorem Numeral.Spelled.exists_lexemes_eq {n : Numeral} {w r : List Char} (h : n.Spelled w)
    (hEnds : Numeral.EndsNumber r) :
    ∃ l, lexemes (w ++ r) = l :: lexemes r ∧ (l.isSound = true → Mark.Means (.numeral n) l) := by
  obtain ⟨c, cs, rfl, hc⟩ := h.exists_cons
  have hRead := h.read_append hEnds
  rw [List.cons_append] at hRead ⊢
  have hScan : Lexeme.scan c (cs ++ r) = Lexeme.ofNumber (c :: (cs ++ r)) := Lexeme.scan_number _ hc
  rw [Lexeme.ofNumber, hRead] at hScan
  -- a numeral out of range is one lexeme too, which is not sound
  cases hValue : n.value with
  | ok x =>
    simp only [hValue] at hScan
    exact ⟨_, lexemes_cons_of_scan (isSpace_of_number hc) hScan, fun _ => .numeral h hValue⟩
  | error unread =>
    simp only [hValue] at hScan
    exact ⟨_, lexemes_cons_of_scan (isSpace_of_number hc) hScan, (Bool.false_ne_true · |>.elim)⟩

/-- Where all tokens of a text say something, they are those of its marks. -/
theorem Marked.means {ms : List Mark} {cs : List Char} (h : Marked ms cs)
    (hSound : ∀ l ∈ lexemes cs, l.isSound = true) : List.Forall₂ Mark.Means ms (lexemes cs) := by
  -- along the marks, each with the blanks before it
  induction h with
  | nil blank =>
    have hNone := lexemes_blank_append blank []
    rw [List.append_nil] at hNone
    rw [hNone]
    exact .nil
  | @cons m ms ws w r blank first ends more ih =>
    rw [lexemes_blank_append blank] at hSound ⊢
    obtain ⟨l, hFirst, hMeans⟩ :
        ∃ l, lexemes (w ++ r) = l :: lexemes r ∧ (l.isSound = true → m.Means l) := by
      -- a lexeme is read back as itself, a numeral as the number it denotes if it has one
      cases m with
      | lexeme l => exact ⟨l, Lexeme.Spelled.lexemes_append first ends, fun _ => .lexeme l⟩
      | numeral n => exact Numeral.Spelled.exists_lexemes_eq first ends
    rw [hFirst] at hSound ⊢
    obtain ⟨hHead, hMore⟩ := List.forall_mem_cons.mp hSound
    exact .cons (hMeans hHead) (ih hMore)

/-! ### Forms -/

namespace Form

mutual

/-- The marks of a form. -/
def marks : Form → List Mark
  | .null => [.lexeme (.scalar (.ok .null))]
  | .bool b => [.lexeme (.scalar (.ok (.bool b)))]
  | .numeral n => [.numeral n]
  | .text s => [.lexeme (.text (.ok s))]
  | .array [] => [.lexeme .openBracket, .lexeme .closeBracket]
  | .array (f :: fs) => .lexeme .openBracket :: (marks f ++ itemsMarks fs)
  | .object [] => [.lexeme .openBrace, .lexeme .closeBrace]
  | .object ((k, f) :: ms) =>
    .lexeme .openBrace :: .lexeme (.text (.ok k)) :: .lexeme .colon :: (marks f ++ membersMarks ms)
termination_by structural f => f

/-- The marks of the items after the first. -/
def itemsMarks : List Form → List Mark
  | [] => [.lexeme .closeBracket]
  | f :: fs => .lexeme .comma :: (marks f ++ itemsMarks fs)
termination_by structural fs => fs

/-- The marks of the members after the first. -/
def membersMarks : List (String × Form) → List Mark
  | [] => [.lexeme .closeBrace]
  | (k, f) :: ms =>
    .lexeme .comma :: .lexeme (.text (.ok k)) :: .lexeme .colon :: (marks f ++ membersMarks ms)
termination_by structural ms => ms

end

/-- How a form is written: its marks, with blanks around them. -/
def Spelled (f : Form) (cs : List Char) : Prop := Marked f.marks cs

mutual

/-- The form stands for the value: each numeral can be written and is in range, and stands for its
    number. -/
inductive Denotes : Form → Value → Prop
  | null : Denotes .null .null
  | bool (b : Bool) : Denotes (.bool b) (.bool b)
  | numeral {n : Numeral} {w : List Char} {x : Number} (written : n.Spelled w)
    (h : n.value = .ok x) : Denotes (.numeral n) (.number x)
  | text (s : String) : Denotes (.text s) (.text s)
  | array {fs : List Form} {xs : List Value} (items : ItemsDenote fs xs) :
    Denotes (.array fs) (.array xs)
  | object {fs : List (String × Form)} {ms : List (String × Value)}
    (members : MembersDenote fs ms) : Denotes (.object fs) (.object ms)

/-- The same of items, one by one. -/
inductive ItemsDenote : List Form → List Value → Prop
  | nil : ItemsDenote [] []
  | cons {f : Form} {x : Value} {fs : List Form} {xs : List Value} (first : Denotes f x)
    (more : ItemsDenote fs xs) : ItemsDenote (f :: fs) (x :: xs)

/-- The same of members. -/
inductive MembersDenote : List (String × Form) → List (String × Value) → Prop
  | nil : MembersDenote [] []
  | cons {f : Form} {x : Value} {fs : List (String × Form)} {ms : List (String × Value)}
    (k : String) (first : Denotes f x) (more : MembersDenote fs ms) :
    MembersDenote ((k, f) :: fs) ((k, x) :: ms)

end

/-- A token that is no number is read as itself. -/
theorem exists_of_means_lexeme {l : Lexeme} {ms : List Mark} {ls : List Lexeme}
    (h : List.Forall₂ Mark.Means (.lexeme l :: ms) ls) :
    ∃ ls', ls = l :: ls' ∧ List.Forall₂ Mark.Means ms ls' := by
  cases h with
  | cons first more =>
    cases first
    exact ⟨_, rfl, more⟩

mutual

/-- The tokens that are read of a form's marks, with others behind them, are those of the value that
    the form denotes, with the others behind them. -/
theorem exists_of_means : (f : Form) → (ms : List Mark) → (ls : List Lexeme) →
    List.Forall₂ Mark.Means (f.marks ++ ms) ls →
    ∃ v ls', f.Denotes v ∧ ls = v.lexemes ++ ls' ∧ List.Forall₂ Mark.Means ms ls'
  -- by recursion over the form: its marks come off the front, and what is left is `ms`
  | .null, ms, ls, h => by
    obtain ⟨ls', rfl, hMore⟩ := exists_of_means_lexeme h
    exact ⟨.null, ls', .null, rfl, hMore⟩
  | .bool b, ms, ls, h => by
    obtain ⟨ls', rfl, hMore⟩ := exists_of_means_lexeme h
    exact ⟨.bool b, ls', .bool b, rfl, hMore⟩
  | .text s, ms, ls, h => by
    obtain ⟨ls', rfl, hMore⟩ := exists_of_means_lexeme h
    exact ⟨.text s, ls', .text s, rfl, hMore⟩
  | .numeral n, ms, _, .cons (.numeral written hValue) hMore =>
    ⟨.number _, _, .numeral written hValue, rfl, hMore⟩
  | .array [], ms, ls, h => by
    simp only [marks, List.cons_append, List.nil_append] at h
    obtain ⟨_, rfl, hClose⟩ := exists_of_means_lexeme h
    obtain ⟨ls', rfl, hMore⟩ := exists_of_means_lexeme hClose
    exact ⟨.array [], ls', .array .nil, rfl, hMore⟩
  -- an opening bracket, the first item, then the rest of the items up to the closing one
  | .array (f :: fs), ms, ls, h => by
    simp only [marks, List.cons_append, List.append_assoc] at h
    obtain ⟨_, rfl, hItem⟩ := exists_of_means_lexeme h
    obtain ⟨x, _, hFirst, rfl, hRest⟩ := exists_of_means f _ _ hItem
    obtain ⟨xs, ls', hItems, rfl, hMore⟩ := exists_of_itemsMeans fs _ _ hRest
    exact ⟨.array (x :: xs), ls', .array (.cons hFirst hItems), by simp [Value.lexemes], hMore⟩
  | .object [], ms, ls, h => by
    simp only [marks, List.cons_append, List.nil_append] at h
    obtain ⟨_, rfl, hClose⟩ := exists_of_means_lexeme h
    obtain ⟨ls', rfl, hMore⟩ := exists_of_means_lexeme hClose
    exact ⟨.object [], ls', .object .nil, rfl, hMore⟩
  -- a member is its key, a colon and the value
  | .object ((k, f) :: fs), ms, ls, h => by
    simp only [marks, List.cons_append, List.append_assoc] at h
    obtain ⟨_, rfl, hKey⟩ := exists_of_means_lexeme h
    obtain ⟨_, rfl, hColon⟩ := exists_of_means_lexeme hKey
    obtain ⟨_, rfl, hValue⟩ := exists_of_means_lexeme hColon
    obtain ⟨x, _, hFirst, rfl, hRest⟩ := exists_of_means f _ _ hValue
    obtain ⟨xs, ls', hMembers, rfl, hMore⟩ := exists_of_membersMeans fs _ _ hRest
    exact ⟨.object ((k, x) :: xs), ls', .object (.cons k hFirst hMembers), by simp [Value.lexemes],
      hMore⟩
termination_by structural f => f

theorem exists_of_itemsMeans : (fs : List Form) → (ms : List Mark) → (ls : List Lexeme) →
    List.Forall₂ Mark.Means (itemsMarks fs ++ ms) ls →
    ∃ xs ls', ItemsDenote fs xs ∧ ls = Value.itemsLexemes xs ++ ls' ∧
      List.Forall₂ Mark.Means ms ls'
  | [], ms, ls, h => by
    obtain ⟨ls', rfl, hMore⟩ := exists_of_means_lexeme h
    exact ⟨[], ls', .nil, rfl, hMore⟩
  | f :: fs, ms, ls, h => by
    simp only [itemsMarks, List.cons_append, List.append_assoc] at h
    obtain ⟨_, rfl, hItem⟩ := exists_of_means_lexeme h
    obtain ⟨x, _, hFirst, rfl, hRest⟩ := exists_of_means f _ _ hItem
    obtain ⟨xs, ls', hItems, rfl, hMore⟩ := exists_of_itemsMeans fs _ _ hRest
    exact ⟨x :: xs, ls', .cons hFirst hItems, by simp [Value.itemsLexemes], hMore⟩
termination_by structural fs => fs

theorem exists_of_membersMeans : (fs : List (String × Form)) → (ms : List Mark) →
    (ls : List Lexeme) → List.Forall₂ Mark.Means (membersMarks fs ++ ms) ls →
    ∃ xs ls', MembersDenote fs xs ∧ ls = Value.membersLexemes xs ++ ls' ∧
      List.Forall₂ Mark.Means ms ls'
  | [], ms, ls, h => by
    obtain ⟨ls', rfl, hMore⟩ := exists_of_means_lexeme h
    exact ⟨[], ls', .nil, rfl, hMore⟩
  | (k, f) :: fs, ms, ls, h => by
    simp only [membersMarks, List.cons_append, List.append_assoc] at h
    obtain ⟨_, rfl, hKey⟩ := exists_of_means_lexeme h
    obtain ⟨_, rfl, hColon⟩ := exists_of_means_lexeme hKey
    obtain ⟨_, rfl, hValue⟩ := exists_of_means_lexeme hColon
    obtain ⟨x, _, hFirst, rfl, hRest⟩ := exists_of_means f _ _ hValue
    obtain ⟨xs, ls', hMembers, rfl, hMore⟩ := exists_of_membersMeans fs _ _ hRest
    exact ⟨(k, x) :: xs, ls', .cons k hFirst hMembers, by simp [Value.membersLexemes], hMore⟩
termination_by structural fs => fs

end

/-- A text that spells a form is read, if it is, as the value that the form denotes, its objects in
    order. -/
theorem Spelled.exists_denoted {f : Form} {cs : List Char} {w : Value} (h : f.Spelled cs)
    (hRead : Value.read cs = .ok w) : ∃ v, f.Denotes v ∧ w = v.sorted := by
  obtain ⟨v, hSpelled, -, rfl⟩ := Value.read_eq_ok_iff.mp hRead
  rw [Value.spelled_iff] at hSpelled
  have hMeans := Marked.means h (hSpelled ▸ v.isSound_lexemes)
  rw [← List.append_nil f.marks] at hMeans
  obtain ⟨v', ls, hDenotes, hTokens, hMore⟩ := exists_of_means f _ _ hMeans
  cases hMore
  rw [List.append_nil] at hTokens
  exact ⟨v', hDenotes, by rw [Value.eq_of_lexemes hSpelled hTokens]⟩

/-! ### Members -/

/-- The form of the last member with the key. -/
def last? (key : String) : List (String × Form) → Option Form
  | [] => none
  | (k, f) :: fs => (last? key fs).or (if k = key then some f else none)

/-- The last member with a key denotes the last one of the value's, if there is one. -/
theorem MembersDenote.rel_last? {fs : List (String × Form)} {ms : Members}
    (h : MembersDenote fs ms) (key : String) :
    Option.Rel Denotes (Form.last? key fs) (Members.last? key ms) := by
  induction fs generalizing ms with
  | nil =>
    cases h
    exact .none
  | cons m fs ih =>
    cases h with
    -- the last member of a key is looked for in the rest first
    | cons k first more =>
      have hMore := ih more
      rw [Form.last?, Members.last?]
      generalize Form.last? key fs = f', Members.last? key _ = x' at hMore
      cases hMore with
      | some hMore => exact .some hMore
      | none =>
        by_cases hKey : k = key
        · rw [if_pos hKey, if_pos hKey]
          exact .some first
        · rw [if_neg hKey, if_neg hKey]
          exact .none

/-- Where an object is read of a text that spells a form, a numeral that is the last member with its
    key is in range, and its number is found for the key. -/
theorem Spelled.exists_number {fs : List (String × Form)} {cs : List Char} {ms : Members}
    (h : (Form.object fs).Spelled cs) (hRead : Value.read cs = .ok (.object ms)) {key : String}
    {n : Numeral} (hLast : last? key fs = some (.numeral n)) :
    Members.Ascending ms ∧
      ∃ w x, n.Spelled w ∧ n.value = .ok x ∧ Members.get? key ms = some (.number x) := by
  obtain ⟨_, hDenotes, hSorted⟩ := h.exists_denoted hRead
  -- the value read is the denoted one with its members sorted
  cases hDenotes with
  | @object _ vs members =>
    rw [Value.sorted, Value.object.injEq] at hSorted
    subst hSorted
    have hRel := members.rel_last? key
    rw [hLast] at hRel
    -- a numeral denotes a number, so the key is among the members denoted
    rcases hFound : Members.last? key vs with _ | y
    · rw [hFound] at hRel
      exact nomatch hRel
    · rw [hFound] at hRel
      cases hRel with
      | some hNumeral =>
        cases hNumeral with
        | numeral written hValue =>
          refine ⟨Members.ascending_ofList _, _, _, written, hValue, ?_⟩
          rw [Members.get?_ofList, Value.last?_sortedMembers, hFound]
          rfl

end Form

end RunnerPool.Json
