import RunnerPool.Json.Node
import RunnerPool.Proofs.Json.Token

/-!
# The tree of a written value

A tree holds a value if it has the form of the value and the text broke off nowhere in it.  A
text with the tokens of a value is read as such a tree (`Document.read_of_lexemes`), and every
reader of trees passes through it without meeting a fault of the text.

* `Node.Holds`               the tree holds the value
* `Node.holds_ofValue`       so does the tree of the value without places
* `Document.read_of_lexemes` reading the tokens of a value
* `Value.read_chars`         the generic value of a written value
* `Value.read_unclosed`      an object whose closing brace is missing is no value
-/

namespace RunnerPool.Json

namespace Node

mutual

/-- The tree has the form of the value, and the text broke off nowhere in it. -/
inductive Holds : Node → Value → Prop
  | null (start rest : List Char) : Holds (.scalar start rest (.ok .null)) .null
  | bool (start rest : List Char) (b : Bool) : Holds (.scalar start rest (.ok (.bool b))) (.bool b)
  | number (start rest : List Char) (n : Number) :
    Holds (.scalar start rest (.ok (.number n))) (.number n)
  | text (start rest : List Char) (s : String) :
    Holds (.scalar start rest (.ok (.text s))) (.text s)
  | array (start rest : List Char) {ns : List Node} {xs : List Value} (items : ItemsHold ns xs) :
    Holds (.array start ns (.closed rest)) (.array xs)
  | object (start rest : List Char) {ns : List (Key × Node)} {ms : List (String × Value)}
    (members : MembersHold ns ms) : Holds (.object start ns (.closed rest)) (.object ms)

/-- The same of items, one by one. -/
inductive ItemsHold : List Node → List Value → Prop
  | nil : ItemsHold [] []
  | cons {n : Node} {x : Value} {ns : List Node} {xs : List Value} (first : Holds n x)
    (more : ItemsHold ns xs) : ItemsHold (n :: ns) (x :: xs)

/-- The same of members, whose keys are texts without a fault. -/
inductive MembersHold : List (Key × Node) → List (String × Value) → Prop
  | nil : MembersHold [] []
  | cons {key : Key} {k : String} {n : Node} {x : Value} {ns : List (Key × Node)}
    {ms : List (String × Value)} (named : key.value = .ok k) (first : Holds n x)
    (more : MembersHold ns ms) : MembersHold ((key, n) :: ns) ((k, x) :: ms)

end

mutual

/-- The tree of a value without places holds the value. -/
theorem holds_ofValue : (v : Value) → Holds (ofValue v) v
  | .null => .null [] []
  | .bool b => .bool [] [] b
  | .number n => .number [] [] n
  | .text s => .text [] [] s
  | .array xs => .array [] [] (itemsHold_ofItems xs)
  | .object ms => .object [] [] (membersHold_ofMembers ms)
termination_by structural v => v

theorem itemsHold_ofItems : (xs : List Value) → ItemsHold (ofItems xs) xs
  | [] => .nil
  | x :: xs => .cons (holds_ofValue x) (itemsHold_ofItems xs)
termination_by structural xs => xs

theorem membersHold_ofMembers : (ms : List (String × Value)) → MembersHold (ofMembers ms) ms
  | [] => .nil
  | (_, x) :: ms => .cons rfl (holds_ofValue x) (membersHold_ofMembers ms)
termination_by structural ms => ms

end

mutual

/-- A tree holds one value at most. -/
theorem eq_of_holds : (v : Value) → (n : Node) → Holds n v → (v' : Value) → Holds n v' → v = v'
  | .null, _, .null _ _, _, h => by cases h; rfl
  | .bool _, _, .bool _ _ _, _, h => by cases h; rfl
  | .number _, _, .number _ _ _, _, h => by cases h; rfl
  | .text _, _, .text _ _ _, _, h => by cases h; rfl
  | .array xs, _, .array _ _ items, _, h => by
    cases h with
    | array _ _ items' => rw [eq_of_itemsHold xs _ items _ items']
  | .object ms, _, .object _ _ members, _, h => by
    cases h with
    | object _ _ members' => rw [eq_of_membersHold ms _ members _ members']
termination_by structural v => v

theorem eq_of_itemsHold : (xs : List Value) → (ns : List Node) → ItemsHold ns xs →
    (xs' : List Value) → ItemsHold ns xs' → xs = xs'
  | [], _, .nil, _, h => by cases h; rfl
  | x :: xs, _, .cons first more, _, h => by
    cases h with
    | cons first' more' => rw [eq_of_holds x _ first _ first', eq_of_itemsHold xs _ more _ more']
termination_by structural xs => xs

theorem eq_of_membersHold : (ms : List (String × Value)) → (ns : List (Key × Node)) →
    MembersHold ns ms → (ms' : List (String × Value)) → MembersHold ns ms' → ms = ms'
  | [], _, .nil, _, h => by cases h; rfl
  | (_, x) :: ms, _, .cons named first more, _, h => by
    cases h with
    | cons named' first' more' =>
      rw [Except.ok.inj (named.symm.trans named'), eq_of_holds x _ first _ first',
        eq_of_membersHold ms _ more _ more']
termination_by structural ms => ms

end

/-! ### Readers of trees -/

mutual

/-- A tree that holds a value is passed over without a fault. -/
theorem skip_of_holds : (v : Value) → (n : Node) → Holds n v → n.skip = .ok ()
  | .null, _, .null _ _ => rfl
  | .bool _, _, .bool _ _ _ => rfl
  | .number _, _, .number _ _ _ => rfl
  | .text _, _, .text _ _ _ => rfl
  | .array xs, _, .array _ _ items => by
    rw [skip, skipItems_of_hold xs _ items]
    rfl
  | .object ms, _, .object _ _ members => by
    rw [skip, skipMembers_of_hold ms _ members]
    rfl
termination_by structural v => v

theorem skipItems_of_hold : (xs : List Value) → (ns : List Node) → ItemsHold ns xs →
    skipItems ns = .ok ()
  | [], _, .nil => rfl
  | x :: xs, _, .cons first more => by
    rw [skipItems, skip_of_holds x _ first, skipItems_of_hold xs _ more]
    rfl
termination_by structural xs => xs

theorem skipMembers_of_hold : (ms : List (String × Value)) → (ns : List (Key × Node)) →
    MembersHold ns ms → skipMembers ns = .ok ()
  | [], _, .nil => rfl
  | (_, x) :: ms, _, .cons _ first more => by
    rw [skipMembers, skip_of_holds x _ first, skipMembers_of_hold ms _ more]
    rfl
termination_by structural ms => ms

end

/-! ### From tokens -/

/-- No value begins with a closing bracket. -/
theorem lexemes_eq_cons (v : Value) : ∃ l ls, v.lexemes = l :: ls ∧ l ≠ .closeBracket := by
  cases v with
  | array xs => cases xs <;> exact ⟨_, _, rfl, nofun⟩
  | object ms => cases ms <;> exact ⟨_, _, rfl, nofun⟩
  | _ => exact ⟨_, _, rfl, nofun⟩

theorem exists_cons_of_map_lexeme {ts : List Token} {l : Lexeme} {ls : List Lexeme}
    (h : ts.map (·.lexeme) = l :: ls) :
    ∃ start rest more, ts = ⟨l, start, rest⟩ :: more ∧ more.map (·.lexeme) = ls := by
  obtain ⟨⟨l, start, rest⟩, more, rfl, rfl, hMore⟩ := List.map_eq_cons_iff.mp h
  exact ⟨start, rest, more, rfl, hMore⟩

/-- What does not begin with a closing bracket begins with an item. -/
theorem readItems_of_open {l : Lexeme} (h : l ≠ .closeBracket) (fuel : Nat)
    (start rest : List Char) (ts : List Token) :
    readItems (fuel + 1) (⟨l, start, rest⟩ :: ts) =
      readMoreItems fuel (⟨l, start, rest⟩ :: ts) := by
  rw [readItems]
  split
  · exact (h ‹_›).elim
  · rfl

private theorem itemsLexemes_length_pos (xs : List Value) :
    0 < (Value.itemsLexemes xs).length := by
  cases xs <;> exact Nat.succ_pos _

private theorem membersLexemes_length_pos (ms : List (String × Value)) :
    0 < (Value.membersLexemes ms).length := by
  cases ms <;> exact Nat.succ_pos _

mutual

/-- The tokens of a value are read as a tree that holds it, whatever follows. -/
theorem read_lexemes : (v : Value) → (fuel : Nat) → (ts : List Token) → (ls : List Lexeme) →
    3 * v.lexemes.length ≤ fuel → ts.map (·.lexeme) = v.lexemes ++ ls →
    ∃ n after, read fuel ts = (n, .ok after) ∧ Holds n v ∧ after.map (·.lexeme) = ls
  | .null, fuel + 1, ts, ls, _, hts => by
    obtain ⟨start, rest, more, rfl, hMore⟩ := exists_cons_of_map_lexeme hts
    exact ⟨_, more, rfl, .null start rest, hMore⟩
  | .bool b, fuel + 1, ts, ls, _, hts => by
    obtain ⟨start, rest, more, rfl, hMore⟩ := exists_cons_of_map_lexeme hts
    exact ⟨_, more, rfl, .bool start rest b, hMore⟩
  | .number n, fuel + 1, ts, ls, _, hts => by
    obtain ⟨start, rest, more, rfl, hMore⟩ := exists_cons_of_map_lexeme hts
    exact ⟨_, more, rfl, .number start rest n, hMore⟩
  | .text s, fuel + 1, ts, ls, _, hts => by
    obtain ⟨start, rest, more, rfl, hMore⟩ := exists_cons_of_map_lexeme hts
    exact ⟨_, more, rfl, .text start rest s, hMore⟩
  | .array [], fuel + 2, ts, ls, _, hts => by
    obtain ⟨start, _, more, rfl, hMore⟩ := exists_cons_of_map_lexeme hts
    obtain ⟨_, rest, after, rfl, hAfter⟩ := exists_cons_of_map_lexeme hMore
    exact ⟨_, after, rfl, .array start rest .nil, hAfter⟩
  | .array (x :: xs), fuel + 2, ts, ls, hFuel, hts => by
    obtain ⟨start, _, more, rfl, hMore⟩ := exists_cons_of_map_lexeme hts
    have hEnough : 3 * (Value.itemsLexemes (x :: xs)).length ≤ fuel + 3 := by
      simp only [Value.lexemes, Value.itemsLexemes, List.length_cons] at hFuel ⊢
      omega
    obtain ⟨ns, rest, after, hItems, hHold, hAfter⟩ :=
      readMoreItems_lexemes (x :: xs) fuel more ls hEnough (congrArg (List.cons .comma) hMore)
    -- the first item begins with no closing bracket
    obtain ⟨l, ls', hl, hOpen⟩ := lexemes_eq_cons x
    rw [hl] at hMore
    obtain ⟨_, _, _, rfl, -⟩ := exists_cons_of_map_lexeme hMore
    refine ⟨.array start ns (.closed rest), after, ?_, .array start rest hHold, hAfter⟩
    simp only [read, readItems_of_open hOpen, hItems]
  | .object [], fuel + 2, ts, ls, _, hts => by
    obtain ⟨start, _, more, rfl, hMore⟩ := exists_cons_of_map_lexeme hts
    obtain ⟨_, rest, after, rfl, hAfter⟩ := exists_cons_of_map_lexeme hMore
    exact ⟨_, after, rfl, .object start rest .nil, hAfter⟩
  | .object ((k, x) :: ms), fuel + 2, ts, ls, hFuel, hts => by
    obtain ⟨start, _, more, rfl, hMore⟩ := exists_cons_of_map_lexeme hts
    have hEnough : 3 * (Value.membersLexemes ((k, x) :: ms)).length ≤ fuel + 3 := by
      simp only [Value.lexemes, Value.membersLexemes, List.length_cons] at hFuel ⊢
      omega
    obtain ⟨ns, rest, after, hMembers, hHold, hAfter⟩ :=
      readMoreMembers_lexemes ((k, x) :: ms) fuel more ls hEnough
        (congrArg (List.cons .comma) hMore)
    obtain ⟨_, _, _, rfl, -⟩ := exists_cons_of_map_lexeme hMore
    refine ⟨.object start ns (.closed rest), after, ?_, .object start rest hHold, hAfter⟩
    simp only [read, readMembers, hMembers]
termination_by structural v => v

/-- The same of items behind a comma. -/
theorem readMoreItems_lexemes : (xs : List Value) → (fuel : Nat) → (ts : List Token) →
    (ls : List Lexeme) → 3 * (Value.itemsLexemes xs).length ≤ fuel + 3 →
    .comma :: ts.map (·.lexeme) = Value.itemsLexemes xs ++ ls →
    ∃ ns rest after, readMoreItems fuel ts = (ns, .closed rest, .ok after) ∧
      ItemsHold ns xs ∧ after.map (·.lexeme) = ls
  | [], _, _, _, _, hts => nomatch hts
  | x :: xs, 0, _, _, hFuel, _ => by
    obtain ⟨l, ls', hl, -⟩ := lexemes_eq_cons x
    simp only [Value.itemsLexemes, hl, List.length_cons, List.length_append] at hFuel
    omega
  | x :: xs, fuel + 1, ts, ls, hFuel, hts => by
    rw [Value.itemsLexemes, List.cons_append, List.append_assoc] at hts
    simp only [Value.itemsLexemes, List.length_cons, List.length_append] at hFuel
    have hRest := itemsLexemes_length_pos xs
    obtain ⟨n, more, hRead, hFirst, hMore⟩ :=
      read_lexemes x fuel ts (Value.itemsLexemes xs ++ ls) (by omega) (List.cons.inj hts).2
    cases xs with
    | nil =>
      obtain ⟨_, rest, after, rfl, hAfter⟩ := exists_cons_of_map_lexeme hMore
      refine ⟨[n], rest, after, ?_, .cons hFirst .nil, hAfter⟩
      simp only [readMoreItems, hRead]
    | cons y ys =>
      obtain ⟨_, _, next, rfl, hNext⟩ := exists_cons_of_map_lexeme hMore
      obtain ⟨ns, rest, after, hItems, hHold, hAfter⟩ :=
        readMoreItems_lexemes (y :: ys) fuel next ls (by omega) (congrArg (List.cons .comma) hNext)
      -- what follows the comma is no closing bracket
      obtain ⟨l, ls', hl, hOpen⟩ := lexemes_eq_cons y
      rw [hl] at hNext
      obtain ⟨start, after', next', rfl, -⟩ := exists_cons_of_map_lexeme hNext
      refine ⟨n :: ns, rest, after, ?_, .cons hFirst hHold, hAfter⟩
      simp only [readMoreItems, hRead, hItems]
      split
      · rename_i hClose
        cases hClose
        exact (hOpen rfl).elim
      · rfl
termination_by structural xs => xs

/-- The same of members behind a comma. -/
theorem readMoreMembers_lexemes : (ms : List (String × Value)) → (fuel : Nat) →
    (ts : List Token) → (ls : List Lexeme) → 3 * (Value.membersLexemes ms).length ≤ fuel + 3 →
    .comma :: ts.map (·.lexeme) = Value.membersLexemes ms ++ ls →
    ∃ ns rest after, readMoreMembers fuel ts = (ns, .closed rest, .ok after) ∧
      MembersHold ns ms ∧ after.map (·.lexeme) = ls
  | [], _, _, _, _, hts => nomatch hts
  -- the fuel bound leaves two steps for each member, so these two cases cannot be
  | (k, x) :: ms, 0, _, _, hFuel, _ => by
    simp only [Value.membersLexemes, List.length_cons] at hFuel
    omega
  | (k, x) :: ms, 1, _, _, hFuel, _ => by
    simp only [Value.membersLexemes, List.length_cons] at hFuel
    omega
  | (k, x) :: ms, fuel + 2, ts, ls, hFuel, hts => by
    rw [Value.membersLexemes] at hts
    simp only [List.cons_append, List.append_assoc] at hts
    simp only [Value.membersLexemes, List.length_cons, List.length_append] at hFuel
    have hRest := membersLexemes_length_pos ms
    -- a comma was taken, and a key, a colon and a value are next
    obtain ⟨keyStart, keyRest, afterKey, rfl, hKey⟩ :=
      exists_cons_of_map_lexeme (List.cons.inj hts).2
    obtain ⟨_, _, afterColon, rfl, hColon⟩ := exists_cons_of_map_lexeme hKey
    obtain ⟨n, more, hRead, hFirst, hMore⟩ :=
      read_lexemes x fuel afterColon (Value.membersLexemes ms ++ ls) (by omega) hColon
    -- the closing brace follows the last member, another comma any other
    cases ms with
    | nil =>
      obtain ⟨_, rest, after, rfl, hAfter⟩ := exists_cons_of_map_lexeme hMore
      refine ⟨[(⟨.ok k, keyRest.dropWhile isSpace⟩, n)], rest, after, ?_,
        .cons rfl hFirst .nil, hAfter⟩
      simp only [readMoreMembers, readMemberValue, hRead]
    | cons m ms =>
      obtain ⟨_, _, next, rfl, hNext⟩ := exists_cons_of_map_lexeme hMore
      obtain ⟨ns, rest, after, hMembers, hHold, hAfter⟩ :=
        readMoreMembers_lexemes (m :: ms) (fuel + 1) next ls (by omega)
          (congrArg (List.cons .comma) hNext)
      refine ⟨(⟨.ok k, keyRest.dropWhile isSpace⟩, n) :: ns, rest, after, ?_,
        .cons rfl hFirst hHold, hAfter⟩
      simp only [readMoreMembers, readMemberValue, hRead, hMembers]
termination_by structural ms => ms

end

/-! ### Missing braces -/

/-- With so much fuel, each of the readers that call one another leaves an end of its tokens. -/
private structure LeavesSuffix (fuel : Nat) : Prop where
  value : ∀ {ts after}, (read fuel ts).2 = .ok after → after <:+ ts
  items : ∀ {ts after}, (readItems fuel ts).2.2 = .ok after → after <:+ ts
  moreItems : ∀ {ts after}, (readMoreItems fuel ts).2.2 = .ok after → after <:+ ts
  members : ∀ {ts after}, (readMembers fuel ts).2.2 = .ok after → after <:+ ts
  moreMembers : ∀ {ts after}, (readMoreMembers fuel ts).2.2 = .ok after → after <:+ ts
  memberValue : ∀ {ts after}, (readMemberValue fuel ts).2 = .ok after → after <:+ ts

namespace LeavesSuffix

variable {fuel : Nat} {t : Token} {ts after : List Token}

private theorem value_succ (ih : LeavesSuffix fuel)
    (h : (read (fuel + 1) (t :: ts)).2 = .ok after) : after <:+ t :: ts := by
  -- a scalar takes one token, and arrays and objects what their parts take
  simp only [read] at h
  split at h
  · cases h
    exact List.suffix_cons _ _
  · cases h
    exact List.suffix_cons _ _
  · exact (ih.items h).trans (List.suffix_cons _ _)
  · exact (ih.members h).trans (List.suffix_cons _ _)
  · exact nomatch h
  · exact nomatch h

private theorem items_succ (ih : LeavesSuffix fuel)
    (h : (readItems (fuel + 1) (t :: ts)).2.2 = .ok after) : after <:+ t :: ts := by
  simp only [readItems] at h
  split at h
  · cases h
    exact List.suffix_cons _ _
  · exact ih.moreItems h

private theorem moreItems_succ (ih : LeavesSuffix fuel)
    (h : (readMoreItems (fuel + 1) ts).2.2 = .ok after) : after <:+ ts := by
  simp only [readMoreItems] at h
  split at h
  · exact nomatch h
  · exact nomatch h
  · -- an item and the token after it are gone
    rename_i hRead
    have hRest := (List.suffix_cons _ _).trans (ih.value (congrArg Prod.snd hRead))
    split at h
    · cases h
      exact hRest
    · split at h
      · exact nomatch h
      · exact (ih.moreItems h).trans hRest
    · exact nomatch h

private theorem members_succ (ih : LeavesSuffix fuel)
    (h : (readMembers (fuel + 1) (t :: ts)).2.2 = .ok after) : after <:+ t :: ts := by
  simp only [readMembers] at h
  split at h
  · cases h
    exact List.suffix_cons _ _
  · exact ih.moreMembers h

private theorem moreMembers_succ (ih : LeavesSuffix fuel)
    (h : (readMoreMembers (fuel + 1) (t :: ts)).2.2 = .ok after) : after <:+ t :: ts := by
  simp only [readMoreMembers] at h
  split at h
  · split at h
    · exact nomatch h
    · exact nomatch h
    · -- a key, its value and the token after it are gone
      rename_i hValue
      have hRest := ((List.suffix_cons _ _).trans
        (ih.memberValue (congrArg Prod.snd hValue))).trans (List.suffix_cons t ts)
      split at h
      · cases h
        exact hRest
      · exact (ih.moreMembers h).trans hRest
      · exact nomatch h
  · exact nomatch h
  · exact nomatch h
  · exact nomatch h

private theorem memberValue_succ (ih : LeavesSuffix fuel)
    (h : (readMemberValue (fuel + 1) (t :: ts)).2 = .ok after) : after <:+ t :: ts := by
  simp only [readMemberValue] at h
  split at h
  · exact (ih.value h).trans (List.suffix_cons _ _)
  · exact nomatch h

end LeavesSuffix

private theorem leavesSuffix (fuel : Nat) : LeavesSuffix fuel := by
  induction fuel with
  | zero => constructor <;> exact fun h => nomatch h
  | succ fuel ih =>
    refine ⟨?_, ?_, ih.moreItems_succ, ?_, ?_, ?_⟩ <;> rintro (_ | ⟨t, ts⟩) after h
    -- each of the others needs a token
    · exact nomatch h
    · exact ih.value_succ h
    · exact nomatch h
    · exact ih.items_succ h
    · exact nomatch h
    · exact ih.members_succ h
    · exact nomatch h
    · exact ih.moreMembers_succ h
    · exact nomatch h
    · exact ih.memberValue_succ h

/-- Where no token is a closing brace, members break off. -/
theorem readMoreMembers_unclosed (fuel : Nat) (ts : List Token)
    (h : ∀ t ∈ ts, t.lexeme ≠ .closeBrace) :
    ∃ why, (readMoreMembers fuel ts).2.1 = .broken why := by
  induction fuel generalizing ts with
  | zero => exact ⟨_, rfl⟩
  | succ fuel ih =>
    cases ts with
    | nil => exact ⟨_, rfl⟩
    | cons t ts =>
      simp only [readMoreMembers]
      split
      · split
        · exact ⟨_, rfl⟩
        · exact ⟨_, rfl⟩
        · rename_i hValue
          have hRest := (leavesSuffix fuel).memberValue (congrArg Prod.snd hValue)
          split
          · -- the closing brace would be among the tokens
            rename_i hClose
            exact (h _ (List.mem_cons_of_mem _ (hRest.mem List.mem_cons_self)) hClose).elim
          · exact ih _ fun t ht =>
              h t (List.mem_cons_of_mem _ (hRest.mem (List.mem_cons_of_mem _ ht)))
          · exact ⟨_, rfl⟩
      · exact ⟨_, rfl⟩
      · exact ⟨_, rfl⟩
      · exact ⟨_, rfl⟩

/-- Where no token is a closing brace, an object breaks off. -/
theorem readMembers_unclosed (fuel : Nat) (ts : List Token)
    (h : ∀ t ∈ ts, t.lexeme ≠ .closeBrace) : ∃ why, (readMembers fuel ts).2.1 = .broken why := by
  cases fuel with
  | zero => exact ⟨_, rfl⟩
  | succ fuel =>
    cases ts with
    | nil => exact ⟨_, rfl⟩
    | cons t ts =>
      simp only [readMembers]
      -- the object could only be closed by a brace, and there is none
      split
      · rename_i hClose
        exact (h t List.mem_cons_self hClose).elim
      · exact readMoreMembers_unclosed fuel _ h

end Node

/-! ### Generic values -/

namespace Value

mutual

/-- How many containers are open at the deepest place of the value. -/
def depth : Value → Nat
  | .array xs => itemsDepth xs + 1
  | .object ms => membersDepth ms + 1
  | _ => 0
termination_by structural v => v

/-- The greatest depth of an item. -/
def itemsDepth : List Value → Nat
  | [] => 0
  | x :: xs => max (depth x) (itemsDepth xs)
termination_by structural xs => xs

/-- The greatest depth of a member's value. -/
def membersDepth : List (String × Value) → Nat
  | [] => 0
  | (_, x) :: ms => max (depth x) (membersDepth ms)
termination_by structural ms => ms

end

mutual

/-- The value as a reader delivers it: the members of every object are put into order, the last of
    each key counts. -/
def sorted : Value → Value
  | .array xs => .array (sortedItems xs)
  | .object ms => .object (Members.ofList (sortedMembers ms))
  | v => v
termination_by structural v => v

/-- The items as a reader delivers them. -/
def sortedItems : List Value → List Value
  | [] => []
  | x :: xs => sorted x :: sortedItems xs
termination_by structural xs => xs

/-- The members with their values as a reader delivers them. -/
def sortedMembers : List (String × Value) → List (String × Value)
  | [] => []
  | (k, x) :: ms => (k, sorted x) :: sortedMembers ms
termination_by structural ms => ms

end

end Value

namespace Node

mutual

/-- The generic value of a tree that holds a value. -/
theorem valueWithin_of_holds : (v : Value) → (n : Node) → Holds n v → (room : Nat) →
    v.depth ≤ room → valueWithin room n = .ok v.sorted
  | .null, _, .null _ _, room, _ => by cases room <;> rfl
  | .bool _, _, .bool _ _ _, room, _ => by cases room <;> rfl
  | .number _, _, .number _ _ _, room, _ => by cases room <;> rfl
  | .text _, _, .text _ _ _, room, _ => by cases room <;> rfl
  | .array xs, _, .array _ _ items, room + 1, hRoom => by
    have hItems := itemsWithin_of_hold xs _ items room (Nat.le_of_succ_le_succ hRoom)
    simp only [valueWithin, hItems, Value.sorted]
    rfl
  | .object ms, _, .object _ _ members, room + 1, hRoom => by
    have hMembers := membersWithin_of_hold ms _ members room (Nat.le_of_succ_le_succ hRoom) []
    simp only [valueWithin, hMembers, Value.sorted]
    rfl
termination_by structural v => v

/-- The same of items. -/
theorem itemsWithin_of_hold : (xs : List Value) → (ns : List Node) → ItemsHold ns xs →
    (room : Nat) → Value.itemsDepth xs ≤ room → itemsWithin room ns = .ok (Value.sortedItems xs)
  | [], _, .nil, _, _ => rfl
  | x :: xs, _, .cons first more, room, hRoom => by
    have hBoth := Nat.max_le.mp hRoom
    rw [itemsWithin, valueWithin_of_holds x _ first room hBoth.1,
      itemsWithin_of_hold xs _ more room hBoth.2]
    rfl
termination_by structural xs => xs

/-- The same of members, after those that were read before. -/
theorem membersWithin_of_hold : (ms : List (String × Value)) → (ns : List (Key × Node)) →
    MembersHold ns ms → (room : Nat) → Value.membersDepth ms ≤ room → (acc : Members) →
    membersWithin room acc ns =
      .ok ((Value.sortedMembers ms).foldl (fun acc m => Members.insert m.1 m.2 acc) acc)
  | [], _, .nil, _, _, _ => rfl
  | (k, x) :: ms, _, .cons named first more, room, hRoom, acc => by
    have hBoth := Nat.max_le.mp hRoom
    rw [membersWithin, named, valueWithin_of_holds x _ first room hBoth.1]
    exact membersWithin_of_hold ms _ more room hBoth.2 _
termination_by structural ms => ms

end

end Node

/-! ### Whole texts -/

namespace Document

/-- A text with the tokens of a value is read as a tree that holds it: the fuel of the reader is
    enough for the tokens of the text. -/
theorem read_of_lexemes {v : Value} {cs : List Char} (h : lexemes cs = v.lexemes) :
    (read cs).root.Holds v ∧ (read cs).after = .ok () := by
  have hLexemes : (tokens cs).map (·.lexeme) = v.lexemes ++ [] := by
    rwa [List.append_nil]
  -- the readers call one another up to three times for a token
  have hLength : 3 * v.lexemes.length ≤ 3 * (tokens cs).length + 3 := by
    have hEq := congrArg List.length hLexemes
    rw [List.length_map, List.append_nil] at hEq
    omega
  obtain ⟨n, after, hRead, hHolds, hAfter⟩ := Node.read_lexemes v _ _ _ hLength hLexemes
  obtain rfl := List.map_eq_nil_iff.mp hAfter
  rw [read, hRead]
  exact ⟨hHolds, rfl⟩

end Document

/-- A text has the tokens of one value at most. -/
theorem Value.eq_of_lexemes {v v' : Value} {cs : List Char} (h : Json.lexemes cs = v.lexemes)
    (h' : Json.lexemes cs = v'.lexemes) : v = v' :=
  Node.eq_of_holds v _ (Document.read_of_lexemes h).1 v' (Document.read_of_lexemes h').1

theorem lexemes_chars {v : Value} (hv : v.IsIntegral) : lexemes v.chars = v.lexemes := by
  have hAll := lexemes_chars_append v hv [] Numeral.endsNumber_nil
  rwa [List.append_nil, lexemes_nil, List.append_nil] at hAll

/-- A text with the tokens of a value is read as the value, its objects in order. -/
theorem Value.read_of_lexemes {v : Value} {cs : List Char} (h : Json.lexemes cs = v.lexemes)
    (hDepth : v.depth ≤ Node.depthLimit) : Value.read cs = .ok v.sorted := by
  obtain ⟨hRoot, hAfter⟩ := Document.read_of_lexemes h
  rw [Value.read, Node.toValue, Node.valueWithin_of_holds v _ hRoot _ hDepth, hAfter]
  rfl

/-- A written value is read as the value, its objects in order. -/
theorem Value.read_chars {v : Value} (hv : v.IsIntegral) (hDepth : v.depth ≤ Node.depthLimit) :
    Value.read v.chars = .ok v.sorted :=
  Value.read_of_lexemes (lexemes_chars hv) hDepth

/-- Where no token is a closing brace, a text that begins with an opening one is no value. -/
theorem Value.read_unclosed {cs : List Char} (h : .closeBrace ∉ Json.lexemes ('{' :: cs)) :
    ∃ f, Value.read ('{' :: cs) = .error f := by
  have hTokens : tokens ('{' :: cs) = ⟨.openBrace, '{' :: cs, cs⟩ :: tokens cs := by
    rw [tokens_cons]
    rfl
  have hOpen : ∀ t ∈ tokens cs, t.lexeme ≠ .closeBrace := by
    intro t ht hClose
    refine h ?_
    rw [Json.lexemes, hTokens, List.map_cons, ← hClose]
    exact List.mem_cons_of_mem _ (List.mem_map_of_mem ht)
  obtain ⟨why, hBroken⟩ := Node.readMembers_unclosed (3 * (tokens cs).length + 5) _ hOpen
  have hRoot : (Document.read ('{' :: cs)).root =
      .object ('{' :: cs) (Node.readMembers (3 * (tokens cs).length + 5) (tokens cs)).1
        (.broken why) := by
    rw [Document.read, hTokens, ← hBroken]
    rfl
  rw [Value.read, hRoot, Node.toValue, Node.depthLimit, Node.valueWithin]
  -- a fault in the members comes first, and after them the break
  cases Node.membersWithin 126 [] _ with
  | error f => exact ⟨f, rfl⟩
  | ok members => exact ⟨why.reading, rfl⟩

/-! ### Objects of plain members -/

namespace Value

private theorem exists_membersChars_eq (ms : List (String × Value)) :
    ∃ cs, membersChars ms = cs ++ ['}'] := by
  induction ms with
  | nil => exact ⟨[], rfl⟩
  | cons m ms ih =>
    obtain ⟨cs, hcs⟩ := ih
    exact ⟨',' :: (textChars m.1 ++ ':' :: (chars m.2 ++ cs)), by simp [membersChars, hcs]⟩

/-- An object stands between braces. -/
theorem exists_chars_object_eq (ms : List (String × Value)) :
    ∃ cs, (Value.object ms).chars = '{' :: (cs ++ ['}']) := by
  cases ms with
  | nil => exact ⟨[], rfl⟩
  | cons m ms =>
    obtain ⟨cs, hcs⟩ := exists_membersChars_eq ms
    exact ⟨textChars m.1 ++ ':' :: (chars m.2 ++ cs), by simp [chars, hcs]⟩

theorem membersIntegral_of_plain {ms : List (String × Value)} (h : ∀ m ∈ ms, m.2.IsPlain) :
    MembersIntegral ms := by
  induction ms with
  | nil => exact trivial
  | cons m ms ih =>
    obtain ⟨k, x⟩ := m
    refine ⟨?_, ih fun n hn => h n (List.mem_cons_of_mem _ hn)⟩
    cases h (k, x) List.mem_cons_self with
    | text s => exact trivial
    | int hn => exact hn

theorem membersDepth_of_plain {ms : List (String × Value)} (h : ∀ m ∈ ms, m.2.IsPlain) :
    membersDepth ms = 0 := by
  induction ms with
  | nil => rfl
  | cons m ms ih =>
    obtain ⟨k, x⟩ := m
    have hDepth : depth x = 0 := by cases h (k, x) List.mem_cons_self <;> rfl
    rw [membersDepth, hDepth, ih fun n hn => h n (List.mem_cons_of_mem _ hn)]
    rfl

theorem sortedMembers_of_plain {ms : List (String × Value)} (h : ∀ m ∈ ms, m.2.IsPlain) :
    sortedMembers ms = ms := by
  induction ms with
  | nil => rfl
  | cons m ms ih =>
    obtain ⟨k, x⟩ := m
    have hSorted : sorted x = x := by cases h (k, x) List.mem_cons_self <;> rfl
    rw [sortedMembers, hSorted, ih fun n hn => h n (List.mem_cons_of_mem _ hn)]

theorem IsPlain.newline_not_mem_chars {v : Value} (h : v.IsPlain) : '\n' ∉ v.chars := by
  cases h with
  | text s => exact newline_not_mem_textChars s
  | int =>
    intro hMem
    rcases mem_ofInt hMem with hMem | hMem
    · exact nomatch hMem
    · exact nomatch hMem

theorem newline_not_mem_membersChars {ms : List (String × Value)} (h : ∀ m ∈ ms, m.2.IsPlain) :
    '\n' ∉ membersChars ms := by
  induction ms with
  | nil => decide
  | cons m ms ih =>
    obtain ⟨hFirst, hMore⟩ := List.forall_mem_cons.mp h
    simp [membersChars, newline_not_mem_textChars, hFirst.newline_not_mem_chars, ih hMore]

/-- An object of plain members holds no newline. -/
theorem newline_not_mem_chars {ms : List (String × Value)} (h : ∀ m ∈ ms, m.2.IsPlain) :
    '\n' ∉ (Value.object ms).chars := by
  cases ms with
  | nil => decide
  | cons m ms =>
    obtain ⟨hFirst, hMore⟩ := List.forall_mem_cons.mp h
    simp [chars, newline_not_mem_textChars, hFirst.newline_not_mem_chars,
      newline_not_mem_membersChars hMore]

/-- An object of plain members is read back with the members in order. -/
theorem read_chars_of_plain {ms : List (String × Value)} (h : ∀ m ∈ ms, m.2.IsPlain) :
    Value.read (Value.object ms).chars = .ok (.object (Members.ofList ms)) := by
  have hDepth : (Value.object ms).depth ≤ Node.depthLimit := by
    rw [depth, membersDepth_of_plain h]
    decide
  have hIntegral : (Value.object ms).IsIntegral := membersIntegral_of_plain h
  rw [read_chars hIntegral hDepth, sorted, sortedMembers_of_plain h]

end Value

end RunnerPool.Json
