import RunnerPool.Json.Numeral

/-!
# Reading a number

A number is read by its grammar, whatever follows that is no part of a number.  The digits of an
integer are one numeral, which stands for the integer.

* `Numeral.Spelled`               how a numeral is written
* `Numeral.Spelled.read_append`   what is written so is read
* `Numeral.spelled_of_read`       what is read is written so
* `Numeral.read_ofInt`            the numeral that the digits of an integer are
* `Numeral.value_ofInt`           the integer that it stands for
-/

namespace RunnerPool.Json

/-! ### Digits -/

theorem isDigit_eq (c : Char) : isDigit c = c.isDigit := rfl

theorem isDigit_of_mem_ofNat {n : Nat} {c : Char} (h : c ∈ Digits.ofNat n) : isDigit c = true := by
  rw [isDigit_eq]
  exact Nat.isDigit_of_mem_toDigits (by decide) (by decide) h

theorem ofNat_ne_nil (n : Nat) : Digits.ofNat n ≠ [] := Nat.toDigits_ne_nil

theorem ofInt_ne_nil (n : Int) : Digits.ofInt n ≠ [] := by
  rw [Digits.ofInt]
  split
  · exact List.cons_ne_nil _ _
  · exact ofNat_ne_nil _

/-- An integer is written with a sign and digits. -/
theorem mem_ofInt {n : Int} {c : Char} (h : c ∈ Digits.ofInt n) : c = '-' ∨ isDigit c = true := by
  rw [Digits.ofInt] at h
  split at h
  · exact (List.mem_cons.mp h).imp_right isDigit_of_mem_ofNat
  · exact Or.inr (isDigit_of_mem_ofNat h)

/-- The digits of an integer are its text. -/
theorem ofList_ofInt (n : Int) : String.ofList (Digits.ofInt n) = toString n := by
  cases n with
  | ofNat n => rfl
  | negSucc n =>
    rw [Digits.ofInt, if_pos (Int.negSucc_lt_zero n), String.ofList_cons]
    rfl

/-- Reading digits gives back the number. -/
theorem value_ofNat (n : Nat) : Digits.value (Digits.ofNat n) = n := by
  have hFold (ds : List Char) (m : Nat) :
      ds.foldl (fun n d => n * 10 + Digits.digitValue d) m = Nat.ofDigitChars 10 ds m := by
    induction ds generalizing m with
    | nil => rfl
    | cons d ds ih =>
      rw [List.foldl_cons, ih, Nat.ofDigitChars_cons, Nat.mul_comm]
      rfl
  rw [Digits.value, hFold]
  exact Nat.ofDigitChars_toDigits (by decide) (by decide)

/-- Only the number zero begins with a zero. -/
theorem ofNat_eq_zero_cons {n : Nat} {ds : List Char} (h : Digits.ofNat n = '0' :: ds) :
    ds = [] := by
  induction n using Nat.strongRecOn generalizing ds with
  | ind n ih =>
    rw [Digits.ofNat] at h
    by_cases hSmall : n < 10
    · rw [Nat.toDigits_of_lt_base hSmall] at h
      exact (List.cons.inj h).2.symm
    · rw [Nat.toDigits_of_base_le (by decide) (by omega)] at h
      -- the digits before the last one begin with a zero too, so they stand for nothing
      cases hInit : Nat.toDigits 10 (n / 10) with
      | nil => exact (Nat.toDigits_ne_nil hInit).elim
      | cons d init =>
        rw [hInit, List.cons_append] at h
        obtain ⟨rfl, -⟩ := List.cons.inj h
        obtain rfl := ih (n / 10) (by omega) hInit
        have hZero := value_ofNat (n / 10)
        rw [Digits.ofNat, hInit] at hZero
        have hNone : Digits.value ['0'] = 0 := rfl
        omega

/-- What a mapped result was made of. -/
theorem exists_of_map_eq_ok {f : α → β} {x : Except ε α} {b : β} (h : x.map f = .ok b) :
    ∃ a, x = .ok a ∧ f a = b := by
  cases x with
  | error e => cases h
  | ok a => exact ⟨a, rfl, Except.ok.inj h⟩

namespace Numeral

/-! ### What follows a number -/

/-- The text goes on with nothing that could belong to a number before it. -/
def EndsNumber (r : List Char) : Prop :=
  ∀ c ∈ r.head?, isDigit c = false ∧ c ≠ '.' ∧ c ≠ 'e' ∧ c ≠ 'E'

theorem endsNumber_nil : EndsNumber [] := fun _ h => nomatch h

theorem endsNumber_cons {c : Char} (r : List Char)
    (h : isDigit c = false ∧ c ≠ '.' ∧ c ≠ 'e' ∧ c ≠ 'E') : EndsNumber (c :: r) := by
  intro d hd
  cases hd
  exact h

/-! ### How a number is written -/

/-- Digits, and at least one of them. -/
def IsDigits (ds : List Char) : Prop := ds ≠ [] ∧ ∀ c ∈ ds, isDigit c = true

/-- The digits behind the point, none if there is no point. -/
inductive FractionSpelled : List Char → List Char → Prop
  | none : FractionSpelled [] []
  | some {ds : List Char} (digits : IsDigits ds) : FractionSpelled ds ('.' :: ds)

/-- The exponent behind its letter, with or without a sign. -/
inductive ExponentSpelled : Option (Bool × List Char) → List Char → Prop
  | none : ExponentSpelled none []
  | unsigned {mark : Char} {ds : List Char} (letter : mark = 'e' ∨ mark = 'E')
    (digits : IsDigits ds) : ExponentSpelled (some (false, ds)) (mark :: ds)
  | plus {mark : Char} {ds : List Char} (letter : mark = 'e' ∨ mark = 'E')
    (digits : IsDigits ds) : ExponentSpelled (some (false, ds)) (mark :: '+' :: ds)
  | minus {mark : Char} {ds : List Char} (letter : mark = 'e' ∨ mark = 'E')
    (digits : IsDigits ds) : ExponentSpelled (some (true, ds)) (mark :: '-' :: ds)

/-- The digits of a number, zero only alone in front, then a fraction and an exponent. -/
inductive UnsignedSpelled : Numeral → List Char → Prop
  | parts {negative : Bool} {whole fraction f e : List Char} {exponent : Option (Bool × List Char)}
    (digits : IsDigits whole) (zeroAlone : whole.head? = some '0' → whole = ['0'])
    (hf : FractionSpelled fraction f) (he : ExponentSpelled exponent e) :
    UnsignedSpelled ⟨negative, whole, fraction, exponent⟩ (whole ++ (f ++ e))

/-- A number with its sign. -/
inductive Spelled : Numeral → List Char → Prop
  | positive {n : Numeral} {w : List Char} (sign : n.negative = false) (h : UnsignedSpelled n w) :
    Spelled n w
  | negative {n : Numeral} {w : List Char} (sign : n.negative = true) (h : UnsignedSpelled n w) :
    Spelled n ('-' :: w)

/-- The text goes on with no digit. -/
def EndsDigits (r : List Char) : Prop := ∀ c ∈ r.head?, isDigit c = false

theorem EndsNumber.endsDigits {r : List Char} (h : EndsNumber r) : EndsDigits r :=
  fun c hc => (h c hc).1

theorem endsDigits_cons {c : Char} (r : List Char) (h : isDigit c = false) :
    EndsDigits (c :: r) := by
  intro d hd
  cases hd
  exact h

theorem takeWhile_digits {ds r : List Char} (h : ∀ c ∈ ds, isDigit c = true)
    (hr : EndsDigits r) : (ds ++ r).takeWhile isDigit = ds ∧ (ds ++ r).dropWhile isDigit = r := by
  have hStop : r.takeWhile isDigit = [] ∧ r.dropWhile isDigit = r := by
    cases r with
    | nil => exact ⟨rfl, rfl⟩
    | cons c r => simp [hr c rfl]
  constructor
  · rw [List.takeWhile_append_of_pos h, hStop.1, List.append_nil]
  · rw [List.dropWhile_append_of_pos h, hStop.2]

section

variable {r ds whole fraction e : List Char} {exponent : Option (Bool × List Char)}

private theorem readExponent_unsigned (h : IsDigits ds) (hr : EndsDigits r) :
    readExponent (ds ++ r) = .ok ((false, ds), r) := by
  obtain ⟨hTake, hDrop⟩ := takeWhile_digits h.2 hr
  obtain ⟨d, ds, rfl⟩ := List.exists_cons_of_ne_nil h.1
  have hd : isDigit d = true := h.2 d List.mem_cons_self
  rw [readExponent.eq_def]
  -- no sign is a digit
  split
  rename_i hSign
  split at hSign
  · rename_i hMinus
    rw [(List.cons.inj hMinus).1] at hd
    exact nomatch hd
  · rename_i hPlus
    rw [(List.cons.inj hPlus).1] at hd
    exact nomatch hd
  · cases hSign
    rw [hTake, hDrop]

private theorem readExponent_signed (h : IsDigits ds) (hr : EndsDigits r) :
    readExponent ('+' :: ds ++ r) = .ok ((false, ds), r) ∧
      readExponent ('-' :: ds ++ r) = .ok ((true, ds), r) := by
  obtain ⟨hTake, hDrop⟩ := takeWhile_digits h.2 hr
  obtain ⟨d, ds, rfl⟩ := List.exists_cons_of_ne_nil h.1
  constructor
  · simp only [readExponent, List.cons_append] at hTake hDrop ⊢
    rw [hTake, hDrop]
  · simp only [readExponent, List.cons_append] at hTake hDrop ⊢
    rw [hTake, hDrop]

theorem ExponentSpelled.endsDigits (h : ExponentSpelled exponent e) (hr : EndsNumber r) :
    EndsDigits (e ++ r) := by
  cases h with
  | none => exact hr.endsDigits
  | unsigned letter | plus letter | minus letter =>
    exact endsDigits_cons _ (by rcases letter with rfl | rfl <;> rfl)

/-- The exponent is read, or there is none. -/
private theorem readTail_spelled (he : ExponentSpelled exponent e) (hr : EndsNumber r)
    (negative : Bool) (whole fraction : List Char) :
    readTail negative whole fraction (e ++ r) = .ok (⟨negative, whole, fraction, exponent⟩, r) := by
  have hStop := hr.endsDigits
  -- a case for each way an exponent is spelled
  cases he with
  | none =>
    rw [List.nil_append, readTail.eq_def]
    -- what follows the number starts with neither letter
    split
    · exact ((hr _ rfl).2.2.1 rfl).elim
    · exact ((hr _ rfl).2.2.2 rfl).elim
    · rfl
  | unsigned letter digits =>
    rcases letter with rfl | rfl <;>
      rw [List.cons_append, readTail, readExponent_unsigned digits hStop] <;> rfl
  | plus letter digits =>
    rcases letter with rfl | rfl <;>
      rw [List.cons_append, readTail, (readExponent_signed digits hStop).1] <;> rfl
  | minus letter digits =>
    rcases letter with rfl | rfl <;>
      rw [List.cons_append, readTail, (readExponent_signed digits hStop).2] <;> rfl

/-- A number without its sign is read, whatever ends it. -/
theorem UnsignedSpelled.readUnsigned {n : Numeral} {w : List Char} (h : UnsignedSpelled n w)
    (hr : EndsNumber r) : readUnsigned n.negative (w ++ r) = .ok (n, r) := by
  cases h with
  | @parts negative whole fraction f e exponent digits zeroAlone hf he =>
    have hRest : EndsDigits (f ++ (e ++ r)) := by
      cases hf with
      | none => exact he.endsDigits hr
      | some => exact endsDigits_cons _ rfl
    obtain ⟨hTake, hDrop⟩ := takeWhile_digits digits.2 hRest
    rw [List.append_assoc, List.append_assoc, Numeral.readUnsigned, hTake, hDrop]
    split
    · exact (digits.1 rfl).elim
    · exact nomatch zeroAlone rfl
    · rename_i r' _ _ hPoint
      cases hf with
      | none =>
        -- neither an exponent nor the end of a number begins with a point
        cases he with
        | none =>
          have hStart : r = '.' :: r' := hPoint
          exact ((hr '.' (by rw [hStart]; rfl)).2.1 rfl).elim
        | unsigned letter | plus letter | minus letter =>
          obtain ⟨rfl, -⟩ := List.cons.inj hPoint
          rcases letter with h | h <;> exact nomatch h
      | some hFraction =>
        rw [List.cons_append] at hPoint
        obtain ⟨-, rfl⟩ := List.cons.inj hPoint
        obtain ⟨hTake', hDrop'⟩ := takeWhile_digits hFraction.2 (he.endsDigits hr)
        rw [hTake', hDrop']
        split
        · exact (hFraction.1 rfl).elim
        · exact readTail_spelled he hr _ _ _
    · rename_i _ _ hNoPoint
      cases hf with
      | none => exact readTail_spelled he hr _ _ _
      | some => exact (hNoPoint _ rfl).elim

/-- A number is read, whatever ends it. -/
theorem Spelled.read_append {n : Numeral} {w : List Char} (h : Spelled n w) (hr : EndsNumber r) :
    read (w ++ r) = .ok (n, r) := by
  cases h with
  | negative sign h =>
    rw [List.cons_append, read, ← sign]
    exact h.readUnsigned hr
  | positive sign h =>
    have hRead := h.readUnsigned hr
    rw [sign] at hRead
    rw [read.eq_def]
    split
    · -- digits do not begin with a sign
      rename_i hSign
      cases h with
      | parts digits =>
        obtain ⟨d, ds, rfl⟩ := List.exists_cons_of_ne_nil digits.1
        have hd := digits.2 d List.mem_cons_self
        rw [(List.cons.inj hSign).1] at hd
        exact nomatch hd
    · exact hRead

end

/-! ### What is read -/

section

variable {cs rest whole fraction : List Char} {n : Numeral}

theorem endsDigits_dropWhile (cs : List Char) : EndsDigits (cs.dropWhile isDigit) := by
  intro c hc
  have hHead := List.head?_dropWhile_not isDigit cs
  rw [hc] at hHead
  exact hHead

/-- The digits in front of a text, if there are any. -/
theorem isDigits_takeWhile (h : cs.takeWhile isDigit ≠ []) : IsDigits (cs.takeWhile isDigit) :=
  ⟨h, fun c hc => by simpa using List.all_eq_true.mp (List.all_takeWhile) c hc⟩

private theorem spelled_of_readExponent {e : Bool × List Char} {mark : Char}
    (letter : mark = 'e' ∨ mark = 'E') (h : readExponent cs = .ok (e, rest)) :
    ∃ w, mark :: cs = w ++ rest ∧ ExponentSpelled (some e) w ∧ EndsDigits rest := by
  -- the sign comes off first, then at least one digit must be there
  rw [readExponent.eq_def] at h
  split at h
  rename_i negative ds hSign
  split at h
  · cases h
  · rename_i hSome
    cases h
    have hDigits := isDigits_takeWhile hSome
    have hParts : ds.takeWhile isDigit ++ ds.dropWhile isDigit = ds :=
      List.takeWhile_append_dropWhile
    -- three ways to write the sign: a minus, a plus, or none
    split at hSign
    · cases hSign
      exact ⟨mark :: '-' :: ds.takeWhile isDigit, by simp [hParts], .minus letter hDigits,
        endsDigits_dropWhile _⟩
    · cases hSign
      exact ⟨mark :: '+' :: ds.takeWhile isDigit, by simp [hParts], .plus letter hDigits,
        endsDigits_dropWhile _⟩
    · cases hSign
      exact ⟨mark :: cs.takeWhile isDigit, by simp, .unsigned letter hDigits,
        endsDigits_dropWhile _⟩

/-- The exponent that is read, if there is one. -/
private theorem spelled_of_readTail {negative : Bool} (hEnds : EndsDigits cs)
    (h : readTail negative whole fraction cs = .ok (n, rest)) :
    ∃ exponent e, cs = e ++ rest ∧ ExponentSpelled exponent e ∧ EndsDigits rest ∧
      n = ⟨negative, whole, fraction, exponent⟩ := by
  -- an exponent is read after either letter, and there is none otherwise
  rw [readTail.eq_def] at h
  split at h
  · obtain ⟨_, hRead, hPair⟩ := exists_of_map_eq_ok h
    cases hPair
    obtain ⟨e, hParts, he, hRest⟩ := spelled_of_readExponent (Or.inl rfl) hRead
    exact ⟨_, e, hParts, he, hRest, rfl⟩
  · obtain ⟨_, hRead, hPair⟩ := exists_of_map_eq_ok h
    cases hPair
    obtain ⟨e, hParts, he, hRest⟩ := spelled_of_readExponent (Or.inr rfl) hRead
    exact ⟨_, e, hParts, he, hRest, rfl⟩
  · cases h
    exact ⟨none, [], rfl, .none, hEnds, rfl⟩

private theorem spelled_of_readUnsigned {negative : Bool}
    (h : readUnsigned negative cs = .ok (n, rest)) :
    ∃ w, cs = w ++ rest ∧ UnsignedSpelled n w ∧ n.negative = negative ∧ EndsDigits rest := by
  have hParts : cs.takeWhile isDigit ++ cs.dropWhile isDigit = cs :=
    List.takeWhile_append_dropWhile
  -- a whole part with a leading zero is that zero alone
  have hZero (hNone : ∀ d ds, cs.takeWhile isDigit = '0' :: d :: ds → False)
      (hHead : (cs.takeWhile isDigit).head? = some '0') : cs.takeWhile isDigit = ['0'] := by
    cases hWhole : cs.takeWhile isDigit with
    | nil => simp [hWhole] at hHead
    | cons c ds =>
      rw [hWhole] at hHead
      obtain rfl : c = '0' := by simpa using hHead
      cases ds with
      | nil => rfl
      | cons d ds => exact (hNone d ds hWhole).elim
  rw [readUnsigned] at h
  -- || the branches: no digit, a leading zero, a point after the whole part, and no point
  split at h
  · exact nomatch h
  · exact nomatch h
  -- a point is there, so the fraction must have a digit too
  · rename_i r hPoint hSome hNotZero
    rw [hPoint] at hParts
    split at h
    · exact nomatch h
    · rename_i hFraction
      have hRest : r.takeWhile isDigit ++ r.dropWhile isDigit = r :=
        List.takeWhile_append_dropWhile
      obtain ⟨exponent, e, hTail, he, hEnds, rfl⟩ :=
        spelled_of_readTail (endsDigits_dropWhile r) h
      have hAll : cs.takeWhile isDigit ++ '.' :: (r.takeWhile isDigit ++ (e ++ rest)) = cs := by
        rw [← hTail, hRest, hParts]
      refine ⟨_, ?_, .parts (isDigits_takeWhile hSome) (hZero hNotZero)
        (.some (isDigits_takeWhile hFraction)) he, rfl, hEnds⟩
      simpa using hAll.symm
  -- without a point only the exponent can follow
  · rename_i hSome hNotZero _
    obtain ⟨exponent, e, hTail, he, hEnds, rfl⟩ :=
      spelled_of_readTail (endsDigits_dropWhile cs) h
    refine ⟨_, ?_, .parts (isDigits_takeWhile hSome) (hZero hNotZero) .none he, rfl, hEnds⟩
    rw [List.nil_append, List.append_assoc, ← hTail, hParts]

/-- What is read as a number is spelled so, and no digit follows. -/
theorem spelled_of_read (h : read cs = .ok (n, rest)) :
    ∃ w, cs = w ++ rest ∧ Spelled n w ∧ EndsDigits rest := by
  rw [read.eq_def] at h
  split at h
  · obtain ⟨w, rfl, hw, hSign, hEnds⟩ := spelled_of_readUnsigned h
    exact ⟨'-' :: w, rfl, .negative hSign hw, hEnds⟩
  · obtain ⟨w, hParts, hw, hSign, hEnds⟩ := spelled_of_readUnsigned h
    exact ⟨w, hParts, .positive hSign hw, hEnds⟩

end

/-- The numeral that the digits of an integer are. -/
def ofInt (n : Int) : Numeral := ⟨decide (n < 0), Digits.ofNat n.natAbs, [], none⟩

/-- The digits of an integer are a spelling of its numeral. -/
theorem spelled_ofInt (n : Int) : Spelled (ofInt n) (Digits.ofInt n) := by
  have hUnsigned : UnsignedSpelled (ofInt n) (Digits.ofNat n.natAbs ++ ([] ++ [])) := by
    refine .parts ⟨ofNat_ne_nil _, fun c hc => isDigit_of_mem_ofNat hc⟩ ?_ .none .none
    -- the digits of a number begin with a zero for zero only
    intro hHead
    cases hDigits : Digits.ofNat n.natAbs with
    | nil => exact (ofNat_ne_nil _ hDigits).elim
    | cons d ds =>
      rw [hDigits] at hHead
      obtain rfl := Option.some.inj hHead
      rw [ofNat_eq_zero_cons hDigits]
  rw [List.append_nil, List.append_nil] at hUnsigned
  rw [Digits.ofInt]
  -- the sign is written by the printer, and read back as the numeral's own
  split
  · exact .negative (decide_eq_true ‹_›) hUnsigned
  · exact .positive (decide_eq_false ‹_›) hUnsigned

/-- The digits of an integer are read as one numeral. -/
theorem read_ofInt (n : Int) {r : List Char} (h : EndsNumber r) :
    read (Digits.ofInt n ++ r) = .ok (ofInt n, r) :=
  (spelled_ofInt n).read_append h

/-- Whether an integer is read as an integer: it has 64 bits, with a sign or without. -/
def IsExact (n : Int) : Prop := Int64.minValue.toInt ≤ n ∧ n < UInt64.size

/-- The numeral of an integer of 64 bits stands for the integer. -/
theorem value_ofInt {n : Int} (h : IsExact n) : (ofInt n).value = .ok (.int n) := by
  have hMin : Int64.minValue.toInt = -9223372036854775808 := rfl
  obtain ⟨hLow, hHigh⟩ := h
  rw [hMin] at hLow
  simp only [value, ofInt, value_ofNat, List.isEmpty_nil, Option.isNone_none, Bool.true_and, hMin,
    decide_eq_true_eq]
  by_cases hn : n < 0
  · -- the sign is put before the size again
    have hAbs : -(n.natAbs : Int) = n := by omega
    have hFits : 0 < n.natAbs ∧ -9223372036854775808 ≤ -(n.natAbs : Int) := by omega
    simp only [hn, ↓reduceIte, hAbs]
    simp
    omega
  · have hAbs : (n.natAbs : Int) = n := by omega
    simp only [hn, ↓reduceIte, hAbs]
    simp
    omega

/-! ### What remains after a number -/

theorem Spelled.ne_nil {n : Numeral} {w : List Char} (h : Spelled n w) : w ≠ [] := by
  cases h with
  | negative => exact List.cons_ne_nil _ _
  | positive _ h =>
    cases h with
    | parts digits => exact List.append_ne_nil_of_left_ne_nil digits.1 _

/-- What remains after a numeral is an end of the text after its first character. -/
theorem suffix_read {c : Char} {cs rest : List Char} {n : Numeral}
    (h : read (c :: cs) = .ok (n, rest)) : rest <:+ cs := by
  obtain ⟨w, hParts, hw, -⟩ := spelled_of_read h
  obtain ⟨d, ds, rfl⟩ := List.exists_cons_of_ne_nil hw.ne_nil
  rw [List.cons_append] at hParts
  rw [(List.cons.inj hParts).2]
  exact List.suffix_append ds rest

end Numeral

end RunnerPool.Json
