import RunnerPool.Proofs.Json.Node
import RunnerPool.Proofs.Json.Spelling

/-!
# The language of the reader

A text is read as a generic value if and only if it spells a value that is not nested too deeply,
and then the generic value is that one with its objects put in order.  That a spelled value is
read is known; here it is shown that what is read is spelled, by going back from the generic value
through the tree to the tokens.

* `Token.meaning`   what a token says in the place of a value
* `Value.Reads`     the tokens of a value, and what remains of them

## Main statement

- `Value.read_eq_ok_iff`: which texts are read, and as what
-/

namespace RunnerPool.Json

/-! ### One step of a reader -/

/-- What a sequence of two readers was made of. -/
theorem exists_of_bind_eq_ok {x : Except ε α} {f : α → Except ε β} {b : β}
    (h : (x >>= f) = .ok b) : ∃ a, x = .ok a ∧ f a = .ok b := by
  cases x with
  | error e => exact nomatch h
  | ok a => exact ⟨a, rfl, h⟩

theorem Ending.exists_rest_of_check {e : Ending} (h : e.check = .ok ()) :
    ∃ rest, e = .closed rest := by
  cases e with
  | closed rest => exact ⟨rest, rfl⟩
  | broken why => exact nomatch h

namespace Node

section

variable {room : Nat} {start rest : List Char} {ns : List Node} {ms : List (Key × Node)}
  {e : Ending} {w : Value} {acc out : Members} {n : Node}

/-- There is room for an array whose items and end are read. -/
theorem exists_of_valueWithin_array (h : valueWithin room (.array start ns e) = .ok w) :
    ∃ inner ws, room = inner + 1 ∧ itemsWithin inner ns = .ok ws ∧ e.check = .ok () ∧
      .array ws = w := by
  cases room with
  | zero => exact nomatch h
  | succ inner =>
    obtain ⟨ws, hItems, h⟩ := exists_of_bind_eq_ok h
    obtain ⟨⟨⟩, hEnd, h⟩ := exists_of_bind_eq_ok h
    exact ⟨inner, ws, rfl, hItems, hEnd, Except.ok.inj h⟩

/-- There is room for an object whose members and end are read. -/
theorem exists_of_valueWithin_object (h : valueWithin room (.object start ms e) = .ok w) :
    ∃ inner out, room = inner + 1 ∧ membersWithin inner [] ms = .ok out ∧ e.check = .ok () ∧
      .object out = w := by
  cases room with
  | zero => exact nomatch h
  | succ inner =>
    obtain ⟨out, hMembers, h⟩ := exists_of_bind_eq_ok h
    obtain ⟨⟨⟩, hEnd, h⟩ := exists_of_bind_eq_ok h
    exact ⟨inner, out, rfl, hMembers, hEnd, Except.ok.inj h⟩

theorem exists_of_itemsWithin_cons {ws : List Value} (h : itemsWithin room (n :: ns) = .ok ws) :
    ∃ x xs, valueWithin room n = .ok x ∧ itemsWithin room ns = .ok xs ∧ x :: xs = ws := by
  obtain ⟨x, hFirst, h⟩ := exists_of_bind_eq_ok h
  obtain ⟨xs, hMore, h⟩ := exists_of_bind_eq_ok h
  exact ⟨x, xs, hFirst, hMore, Except.ok.inj h⟩

theorem exists_of_membersWithin_cons {key : Key}
    (h : membersWithin room acc ((key, n) :: ms) = .ok out) :
    ∃ k x, key.value = .ok k ∧ valueWithin room n = .ok x ∧
      membersWithin room (Members.insert k x acc) ms = .ok out := by
  obtain ⟨k, hKey, h⟩ := exists_of_bind_eq_ok h
  obtain ⟨x, hFirst, h⟩ := exists_of_bind_eq_ok h
  exact ⟨k, x, hKey, hFirst, h⟩

theorem exists_of_valueWithin_scalar {v : Except (Fault Flaw) Scalar}
    (h : valueWithin room (.scalar start rest v) = .ok w) : ∃ s, v = .ok s ∧ s.toValue = w := by
  have hMap : v.map Scalar.toValue = .ok w := by
    cases room <;> exact h
  exact exists_of_map_eq_ok hMap

theorem valueWithin_missing (why : Break) : valueWithin room (.missing start why) ≠ .ok w := by
  cases room <;> exact nofun

end

end Node

/-! ### What is read is spelled -/

/-- What a token says in the place of a value. -/
def Token.meaning (t : Token) : Lexeme :=
  match t.lexeme with
  | .scalar (.ok (.text s)) => .text (.ok s)
  | l => l

/-- What tokens say. -/
def meanings (ts : List Token) : List Lexeme := ts.map Token.meaning

theorem meanings_cons (t : Token) (ts : List Token) :
    meanings (t :: ts) = t.meaning :: meanings ts := rfl

namespace Node

open Value

/-- The tokens are those of a value which is no deeper than there is room and is delivered as `w`;
    some may remain. -/
def ReadsValue (room : Nat) (w : Value) (ls : List Lexeme) (after? : Except Break (List Token)) :
    Prop :=
  ∃ (v : Value) (after : List Token), after? = .ok after ∧ v.depth ≤ room ∧ v.sorted = w ∧
    ls = v.lexemes ++ meanings after

/-- The same of items behind a comma. -/
def ReadsItems (room : Nat) (ws : List Value) (ls : List Lexeme)
    (after? : Except Break (List Token)) : Prop :=
  ∃ xs after, after? = .ok after ∧ itemsDepth xs ≤ room ∧ sortedItems xs = ws ∧
    ls = itemsLexemes xs ++ meanings after

/-- The same of members behind a comma, which are put in order among others. -/
def ReadsMembers (room : Nat) (acc out : Members) (ls : List Lexeme)
    (after? : Except Break (List Token)) : Prop :=
  ∃ ms after, after? = .ok after ∧ membersDepth ms ≤ room ∧
    (sortedMembers ms).foldl (fun acc m => Members.insert m.1 m.2 acc) acc = out ∧
    ls = membersLexemes ms ++ meanings after

section

variable {room : Nat} {w : Value} {ws : List Value} {acc out : Members} {k : String}
  {ls : List Lexeme} {t : Token} {ts : List Token} {a : Except Break (List Token)}

/-- A value before the closing bracket is the last item. -/
theorem ReadsValue.lastItem (h : ReadsValue room w ls (.ok (t :: ts)))
    (hClose : t.meaning = .closeBracket) : ReadsItems room [w] (.comma :: ls) (.ok ts) := by
  obtain ⟨v, _, hAfter, hDepth, rfl, rfl⟩ := h
  cases hAfter
  refine ⟨[v], ts, rfl, Nat.max_le.mpr ⟨hDepth, Nat.zero_le room⟩, rfl, ?_⟩
  simp [itemsLexemes, meanings_cons, hClose]

/-- A value before a comma is an item, and more follow. -/
theorem ReadsItems.cons (h : ReadsItems room ws (.comma :: meanings ts) a)
    (hFirst : ReadsValue room w ls (.ok (t :: ts))) (hComma : t.meaning = .comma) :
    ReadsItems room (w :: ws) (.comma :: ls) a := by
  obtain ⟨v, _, hAfter, hDepth, rfl, rfl⟩ := hFirst
  cases hAfter
  obtain ⟨xs, after, rfl, hDepths, rfl, hTokens⟩ := h
  refine ⟨v :: xs, after, rfl, Nat.max_le.mpr ⟨hDepth, hDepths⟩, rfl, ?_⟩
  simp [itemsLexemes, meanings_cons, hComma, hTokens]

/-- Items behind an opening bracket are an array. -/
theorem ReadsItems.array (h : ReadsItems room ws (.comma :: ls) a) :
    ReadsValue (room + 1) (.array ws) (.openBracket :: ls) a := by
  obtain ⟨xs, after, rfl, hDepth, rfl, hTokens⟩ := h
  refine ⟨.array xs, after, rfl, Nat.succ_le_succ hDepth, rfl, ?_⟩
  cases xs with
  | nil => cases hTokens
  | cons x xs =>
    simp only [itemsLexemes, List.cons_append, List.cons.injEq, true_and] at hTokens
    simp only [Value.lexemes, hTokens, List.cons_append]

/-- A value behind its key and before the closing brace is the last member. -/
theorem ReadsValue.lastMember (h : ReadsValue room w ls (.ok (t :: ts)))
    (hClose : t.meaning = .closeBrace) :
    ReadsMembers room acc (Members.insert k w acc) (.comma :: .text (.ok k) :: .colon :: ls)
      (.ok ts) := by
  obtain ⟨v, _, hAfter, hDepth, rfl, rfl⟩ := h
  cases hAfter
  refine ⟨[(k, v)], ts, rfl, Nat.max_le.mpr ⟨hDepth, Nat.zero_le room⟩, rfl, ?_⟩
  simp [membersLexemes, meanings_cons, hClose]

/-- A value behind its key and before a comma is a member, and more follow. -/
theorem ReadsMembers.cons
    (h : ReadsMembers room (Members.insert k w acc) out (.comma :: meanings ts) a)
    (hFirst : ReadsValue room w ls (.ok (t :: ts))) (hComma : t.meaning = .comma) :
    ReadsMembers room acc out (.comma :: .text (.ok k) :: .colon :: ls) a := by
  obtain ⟨v, _, hAfter, hDepth, rfl, rfl⟩ := hFirst
  cases hAfter
  obtain ⟨ms, after, rfl, hDepths, rfl, hTokens⟩ := h
  refine ⟨(k, v) :: ms, after, rfl, Nat.max_le.mpr ⟨hDepth, hDepths⟩, rfl, ?_⟩
  simp [membersLexemes, meanings_cons, hComma, hTokens]

/-- Members behind an opening brace are an object. -/
theorem ReadsMembers.object (h : ReadsMembers room [] out (.comma :: ls) a) :
    ReadsValue (room + 1) (.object out) (.openBrace :: ls) a := by
  obtain ⟨ms, after, rfl, hDepth, rfl, hTokens⟩ := h
  refine ⟨.object ms, after, rfl, Nat.succ_le_succ hDepth, rfl, ?_⟩
  cases ms with
  | nil => cases hTokens
  | cons m ms =>
    simp only [membersLexemes, List.cons_append, List.cons.injEq, true_and] at hTokens
    simp only [Value.lexemes, hTokens, List.cons_append]

end

/-- With so much fuel, what the readers that call one another make of their tokens is spelled by
    them, if it is a value. -/
private structure Spelled (fuel : Nat) : Prop where
  value : ∀ {ts n a}, read fuel ts = (n, a) → ∀ {room w}, valueWithin room n = .ok w →
    ReadsValue room w (meanings ts) a
  items : ∀ {ts ns rest a}, readItems fuel ts = (ns, .closed rest, a) →
    ∀ {room ws}, itemsWithin room ns = .ok ws →
    ReadsValue (room + 1) (.array ws) (.openBracket :: meanings ts) a
  moreItems : ∀ {ts ns rest a}, readMoreItems fuel ts = (ns, .closed rest, a) →
    ∀ {room ws}, itemsWithin room ns = .ok ws →
    ReadsItems room ws (.comma :: meanings ts) a
  members : ∀ {ts ms rest a}, readMembers fuel ts = (ms, .closed rest, a) →
    ∀ {room out}, membersWithin room [] ms = .ok out →
    ReadsValue (room + 1) (.object out) (.openBrace :: meanings ts) a
  moreMembers : ∀ {ts ms rest a}, readMoreMembers fuel ts = (ms, .closed rest, a) →
    ∀ {room acc out}, membersWithin room acc ms = .ok out →
    ReadsMembers room acc out (.comma :: meanings ts) a
  memberValue : ∀ {ts n a}, readMemberValue fuel ts = (n, a) →
    ∀ {room w}, valueWithin room n = .ok w →
    ∃ ls, meanings ts = .colon :: ls ∧ ReadsValue room w ls a

theorem lexemes_toValue {t : Token} {s : Scalar} (h : t.lexeme = .scalar (.ok s)) :
    s.toValue.lexemes = [t.meaning] := by
  cases s <;> simp [Token.meaning, h, Scalar.toValue, Value.lexemes]

theorem depth_toValue (s : Scalar) (room : Nat) : s.toValue.depth ≤ room := by
  cases s <;> exact Nat.zero_le room

theorem sorted_toValue (s : Scalar) : s.toValue.sorted = s.toValue := by
  cases s <;> rfl

namespace Spelled

variable {fuel room : Nat} {t : Token} {ts : List Token} {n : Node} {ns : List Node}
  {ms : List (Key × Node)} {rest : List Char} {a : Except Break (List Token)} {w : Value}
  {ws : List Value} {acc out : Members}

private theorem value_succ (ih : Spelled fuel) (h : read (fuel + 1) (t :: ts) = (n, a))
    (hValue : valueWithin room n = .ok w) : ReadsValue room w (meanings (t :: ts)) a := by
  -- along the branches of `read`: a scalar, a text, an array, an object, and two with no value
  simp only [read] at h
  split at h
  · rename_i v hToken
    cases h
    obtain ⟨s, rfl, rfl⟩ := exists_of_valueWithin_scalar hValue
    exact ⟨s.toValue, ts, rfl, depth_toValue s room, sorted_toValue s, by
      rw [lexemes_toValue hToken]; rfl⟩
  · rename_i v hToken
    cases h
    obtain ⟨s, hText, rfl⟩ := exists_of_valueWithin_scalar hValue
    obtain ⟨s, rfl, rfl⟩ := exists_of_map_eq_ok hText
    refine ⟨.text s, ts, rfl, Nat.zero_le room, rfl, ?_⟩
    simp [meanings, Token.meaning, hToken, Value.lexemes]
  · rename_i hToken
    rcases hItems : readItems fuel ts with ⟨ns, e, after⟩
    -- the items end at a bracket of their own, which the check of the ending has seen
    rw [hItems] at h
    cases h
    obtain ⟨inner, ws, rfl, hWithin, hEnd, rfl⟩ := exists_of_valueWithin_array hValue
    obtain ⟨rest, rfl⟩ := e.exists_rest_of_check hEnd
    have hMeaning : t.meaning = .openBracket := by simp [Token.meaning, hToken]
    rw [meanings_cons, hMeaning]
    exact ih.items hItems hWithin
  · rename_i hToken
    rcases hMembers : readMembers fuel ts with ⟨ms, e, after⟩
    -- as for an array, with the members in place of the items
    rw [hMembers] at h
    cases h
    obtain ⟨inner, out, rfl, hWithin, hEnd, rfl⟩ := exists_of_valueWithin_object hValue
    obtain ⟨rest, rfl⟩ := e.exists_rest_of_check hEnd
    have hMeaning : t.meaning = .openBrace := by simp [Token.meaning, hToken]
    rw [meanings_cons, hMeaning]
    exact ih.members hMembers hWithin
  -- a token no value starts with leaves the value missing
  · cases h
    exact (valueWithin_missing _ hValue).elim
  · cases h
    exact (valueWithin_missing _ hValue).elim

private theorem items_succ (ih : Spelled fuel)
    (h : readItems (fuel + 1) (t :: ts) = (ns, .closed rest, a))
    (hItems : itemsWithin room ns = .ok ws) :
    ReadsValue (room + 1) (.array ws) (.openBracket :: meanings (t :: ts)) a := by
  simp only [readItems] at h
  -- the closing bracket at once, or a first item
  split at h
  · rename_i hToken
    cases h
    cases hItems
    refine ⟨.array [], ts, rfl, Nat.succ_le_succ (Nat.zero_le room), rfl, ?_⟩
    simp [meanings, Token.meaning, hToken, Value.lexemes]
  · exact (ih.moreItems h hItems).array

private theorem moreItems_succ (ih : Spelled fuel)
    (h : readMoreItems (fuel + 1) ts = (ns, .closed rest, a))
    (hItems : itemsWithin room ns = .ok ws) :
    ReadsItems room ws (.comma :: meanings ts) a := by
  simp only [readMoreItems] at h
  split at h
  · cases h
  · cases h
  · rename_i n t next hRead
    split at h
    · -- the last item
      rename_i hToken
      cases h
      obtain ⟨x, _, hFirst, hNone, rfl⟩ := exists_of_itemsWithin_cons hItems
      cases hNone
      exact (ih.value hRead hFirst).lastItem (by simp [Token.meaning, hToken])
    · rename_i hToken
      split at h
      · cases h
      · rcases hMore : readMoreItems fuel next with ⟨ns', e, after⟩
        rw [hMore] at h
        cases h
        obtain ⟨x, ws, hFirst, hRest, rfl⟩ := exists_of_itemsWithin_cons hItems
        exact (ih.moreItems hMore hRest).cons (ih.value hRead hFirst)
          (by simp [Token.meaning, hToken])
    · cases h

private theorem members_succ (ih : Spelled fuel)
    (h : readMembers (fuel + 1) (t :: ts) = (ms, .closed rest, a))
    (hMembers : membersWithin room [] ms = .ok out) :
    ReadsValue (room + 1) (.object out) (.openBrace :: meanings (t :: ts)) a := by
  simp only [readMembers] at h
  -- the closing brace at once, or a first member
  split at h
  · rename_i hToken
    cases h
    cases hMembers
    refine ⟨.object [], ts, rfl, Nat.succ_le_succ (Nat.zero_le room), rfl, ?_⟩
    simp [meanings, Token.meaning, hToken, Value.lexemes]
  · exact (ih.moreMembers h hMembers).object

private theorem moreMembers_succ (ih : Spelled fuel)
    (h : readMoreMembers (fuel + 1) (t :: ts) = (ms, .closed rest, a))
    (hMembers : membersWithin room acc ms = .ok out) :
    ReadsMembers room acc out (.comma :: meanings (t :: ts)) a := by
  simp only [readMoreMembers] at h
  split at h
  · rename_i key hKey
    split at h
    · cases h
    · cases h
    · rename_i n u next hValue
      split at h
      · -- the last member
        rename_i hToken
        cases h
        obtain ⟨k, x, rfl, hFirst, hNone⟩ := exists_of_membersWithin_cons hMembers
        cases hNone
        obtain ⟨ls, hColon, hRead⟩ := ih.memberValue hValue hFirst
        have hText : t.meaning = .text (.ok k) := by simp [Token.meaning, hKey]
        rw [meanings_cons, hText, hColon]
        exact hRead.lastMember (by simp [Token.meaning, hToken])
      · rename_i hToken
        rcases hMore : readMoreMembers fuel next with ⟨ms', e, after⟩
        rw [hMore] at h
        cases h
        obtain ⟨k, x, rfl, hFirst, hRest⟩ := exists_of_membersWithin_cons hMembers
        obtain ⟨ls, hColon, hRead⟩ := ih.memberValue hValue hFirst
        have hText : t.meaning = .text (.ok k) := by simp [Token.meaning, hKey]
        rw [meanings_cons, hText, hColon]
        exact (ih.moreMembers hMore hRest).cons hRead (by simp [Token.meaning, hToken])
      · cases h
  · cases h
  · cases h
  · cases h

private theorem memberValue_succ (ih : Spelled fuel)
    (h : readMemberValue (fuel + 1) (t :: ts) = (n, a)) (hValue : valueWithin room n = .ok w) :
    ∃ ls, meanings (t :: ts) = .colon :: ls ∧ ReadsValue room w ls a := by
  simp only [readMemberValue] at h
  split at h
  · rename_i hToken
    refine ⟨meanings ts, ?_, ih.value h hValue⟩
    simp [meanings, Token.meaning, hToken]
  · cases h
    exact (valueWithin_missing _ hValue).elim

end Spelled

private theorem spelled (fuel : Nat) : Spelled fuel := by
  induction fuel with
  | zero =>
    refine ⟨?_, (nomatch ·), (nomatch ·), (nomatch ·), (nomatch ·), ?_⟩
    · rintro ts n a h room w hValue
      cases h
      exact (valueWithin_missing _ hValue).elim
    · rintro ts n a h room w hValue
      cases h
      exact (valueWithin_missing _ hValue).elim
  | succ fuel ih =>
    -- each reader but that of more items needs a token
    refine ⟨?_, ?_, fun h => ih.moreItems_succ h, ?_, ?_, ?_⟩
    · rintro (_ | ⟨t, ts⟩) n a h room w hValue
      · cases h
        exact (valueWithin_missing _ hValue).elim
      · exact ih.value_succ h hValue
    · rintro (_ | ⟨t, ts⟩) ns rest a h
      · exact nomatch h
      · exact ih.items_succ h
    · rintro (_ | ⟨t, ts⟩) ms rest a h
      · exact nomatch h
      · exact ih.members_succ h
    · rintro (_ | ⟨t, ts⟩) ms rest a h
      · exact nomatch h
      · exact ih.moreMembers_succ h
    · rintro (_ | ⟨t, ts⟩) n a h room w hValue
      · cases h
        exact (valueWithin_missing _ hValue).elim
      · exact ih.memberValue_succ h hValue

end Node

/-! ### Whole texts -/

/-- A token of a text is no word that stands for a text. -/
theorem Lexeme.scan_ne_text (c : Char) (cs : List Char) (s : String) :
    (scan c cs).1 ≠ .scalar (.ok (.text s)) := by
  intro h
  obtain ⟨w, -, hw, -⟩ := spelled_of_scan (Prod.eta _).symm (by rw [h]; rfl)
  rw [h] at hw
  exact nomatch hw

theorem meanings_tokens (cs : List Char) : meanings (tokens cs) = lexemes cs := by
  -- on the length, since a token may take many characters at once
  induction hLength : cs.length using Nat.strongRecOn generalizing cs with
  | ind n ih =>
    subst hLength
    cases cs with
    | nil => rfl
    | cons c cs =>
      -- a blank is skipped by both, and any other character starts a token
      rw [lexemes, tokens_cons]
      split
      · exact ih cs.length (Nat.lt_succ_self _) cs rfl
      · have hRest := ih _ (Nat.lt_succ_of_le (Lexeme.suffix_scan c cs).length_le) _ rfl
        have hFirst : Token.meaning ⟨(Lexeme.scan c cs).1, c :: cs, (Lexeme.scan c cs).2⟩ =
            (Lexeme.scan c cs).1 := by
          rw [Token.meaning]
          -- the scanner gives a text no meaning of its own, so the meaning is the lexeme
          split
          · rename_i s hText
            exact (Lexeme.scan_ne_text c cs s hText).elim
          · rfl
        rw [meanings, List.map_cons, List.map_cons, hFirst]
        exact congrArg _ hRest

/-- A text is read if and only if it spells a value that is nested no deeper than the limit, and
    it is read as that value with its objects put in order. -/
theorem Value.read_eq_ok_iff {cs : List Char} {w : Value} :
    Value.read cs = .ok w ↔
      ∃ v : Value, v.Spelled cs ∧ v.depth ≤ Node.depthLimit ∧ v.sorted = w := by
  constructor
  -- what was read has a spelling: its tokens mean the value's lexemes and nothing is left over
  · intro h
    obtain ⟨w', hValue, h⟩ := exists_of_bind_eq_ok h
    obtain ⟨⟨⟩, hAfter, h⟩ := exists_of_bind_eq_ok h
    cases h
    rcases hRead : Node.read (3 * (tokens cs).length + 3) (tokens cs) with ⟨root, after?⟩
    have hRoot : (Document.read cs).root = root := by rw [Document.read, hRead]
    rw [hRoot] at hValue
    obtain ⟨v, after, rfl, hDepth, rfl, hTokens⟩ := (Node.spelled _).value hRead hValue
    rw [Document.read, hRead] at hAfter
    -- a token after the root fails the last check
    cases after with
    | nil =>
      refine ⟨v, Value.spelled_iff.mpr ?_, hDepth, rfl⟩
      rw [← meanings_tokens, hTokens]
      exact List.append_nil _
    | cons t after => cases hAfter
  -- a spelled value is read as its lexemes say
  · rintro ⟨v, hSpelled, hDepth, rfl⟩
    exact Value.read_of_lexemes (Value.spelled_iff.mp hSpelled) hDepth

end RunnerPool.Json
