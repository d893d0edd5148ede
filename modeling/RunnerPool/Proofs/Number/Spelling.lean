import RunnerPool.Number.Floating
import RunnerPool.Proofs.Json.Numeral

/-!
# Texts that are numbers

Which texts are read as an integer, and which as a number of any kind, told by their grammar.  The
digits of an integer are read back.

* `IntegerText cs`   a sign, if any, and digits
* `NumberText cs`    a sign, if any, and a word for what is no finite number, or digits with a point
  and an exponent, if any

## Main statements

- `parseInteger?_ofInt`: the digits of an integer are read as that integer
- `isSome_parseInteger?_iff`, `Floating.isSome_parse?_iff`: what is read is what the grammar says
-/

namespace RunnerPool

open Json.Numeral (IsDigits EndsDigits endsDigits_cons takeWhile_digits)

/-! ### Signs -/

/-- A sign, which may be left out. -/
def IsSign (s : List Char) : Prop := s = [] ∨ s = ['+'] ∨ s = ['-']

/-- The text begins with no sign. -/
def Unsigned (cs : List Char) : Prop := ∀ c ∈ cs.head?, c ≠ '+' ∧ c ≠ '-'

namespace Floating

theorem exists_sign (cs : List Char) : ∃ s, IsSign s ∧ cs = s ++ (sign cs).2 := by
  rw [sign.eq_def]
  split
  · exact ⟨['-'], Or.inr (Or.inr rfl), rfl⟩
  · exact ⟨['+'], Or.inr (Or.inl rfl), rfl⟩
  · exact ⟨[], Or.inl rfl, rfl⟩

theorem sign_of_unsigned {cs : List Char} (h : Unsigned cs) : sign cs = (false, cs) := by
  rw [sign.eq_def]
  split
  · exact ((h '-' rfl).2 rfl).elim
  · exact ((h '+' rfl).1 rfl).elim
  · rfl

theorem sign_append {s cs : List Char} (hSign : IsSign s) (hUnsigned : Unsigned cs) :
    (sign (s ++ cs)).2 = cs := by
  rcases hSign with rfl | rfl | rfl
  · rw [List.nil_append, sign_of_unsigned hUnsigned]
  · rfl
  · rfl

end Floating

theorem unsigned_cons {c : Char} (cs : List Char) (h : c ≠ '+' ∧ c ≠ '-') : Unsigned (c :: cs) := by
  intro d hd
  cases hd
  exact h

theorem ne_sign_of_isDigit {c : Char} (h : c.isDigit = true) : c ≠ '+' ∧ c ≠ '-' := by
  constructor <;> rintro rfl <;> exact nomatch h

theorem Unsigned.of_digits {ds : List Char} (h : IsDigits ds) (cs : List Char) :
    Unsigned (ds ++ cs) := by
  obtain ⟨hSome, hAll⟩ := h
  obtain ⟨d, ds, rfl⟩ := List.exists_cons_of_ne_nil hSome
  exact unsigned_cons (ds ++ cs) (ne_sign_of_isDigit (hAll d List.mem_cons_self))

/-! ### Integers -/

/-- A sign, which may be left out, and digits. -/
inductive IntegerText : List Char → Prop
  | signed {s ds : List Char} (sign : IsSign s) (digits : IsDigits ds) : IntegerText (s ++ ds)

theorem isDigits_iff (ds : List Char) :
    (ds.isEmpty || !ds.all Char.isDigit) = false ↔ IsDigits ds := by
  rw [Bool.or_eq_false_iff, Bool.not_eq_false', List.isEmpty_eq_false_iff, List.all_eq_true]
  rfl

private theorem isSome_parseInteger?_eq (cs : List Char) :
    (parseInteger? cs).isSome = true ↔ IsDigits (Floating.sign cs).2 := by
  rw [← isDigits_iff, parseInteger?]
  cases hTest : (Floating.sign cs).2.isEmpty || !(Floating.sign cs).2.all Char.isDigit <;>
    simp [hTest]

/-- A text is read as an integer if and only if it is a sign, which may be left out, and digits. -/
theorem isSome_parseInteger?_iff (cs : List Char) :
    (parseInteger? cs).isSome = true ↔ IntegerText cs := by
  rw [isSome_parseInteger?_eq]
  constructor
  · intro hDigits
    obtain ⟨s, hSign, hSplit⟩ := Floating.exists_sign cs
    rw [hSplit]
    exact .signed hSign hDigits
  -- digits have no sign of their own, so the one before them is taken alone
  · rintro ⟨hSign, hDigits⟩
    have hUnsigned := Unsigned.of_digits hDigits []
    rw [List.append_nil] at hUnsigned
    rwa [Floating.sign_append hSign hUnsigned]

/-- The digits of an integer are read as that integer. -/
theorem parseInteger?_ofInt (n : Int) : parseInteger? (Digits.ofInt n) = some n := by
  have hDigits (k : Nat) : IsDigits (Digits.ofNat k) :=
    ⟨Json.ofNat_ne_nil k, fun c hc => Json.isDigit_of_mem_ofNat hc⟩
  have hRead (k : Nat) := (isDigits_iff _).mpr (hDigits k)
  -- a minus and digits, or digits alone
  rw [Digits.ofInt]
  split
  · rename_i hNegative
    simp only [parseInteger?, Floating.sign, hRead, Bool.false_eq_true, ↓reduceIte,
      Json.value_ofNat]
    congr 1
    omega
  · rename_i hNatural
    have hSign : Floating.sign (Digits.ofNat n.natAbs) = (false, Digits.ofNat n.natAbs) :=
      Floating.sign_of_unsigned (by simpa using Unsigned.of_digits (hDigits n.natAbs) [])
    simp only [parseInteger?, hSign, hRead, Bool.false_eq_true, ↓reduceIte, Json.value_ofNat]
    congr 1
    omega

/-! ### Numbers of any kind -/

/-- The exponent of a number, which may be left out. -/
inductive ExponentText : List Char → Prop
  | none : ExponentText []
  | some {mark : Char} {cs : List Char} (letter : mark = 'e' ∨ mark = 'E') (h : IntegerText cs) :
    ExponentText (mark :: cs)

/-- A point and the digits behind it, if there are any; the point may be left out if there are
    none. -/
inductive FractionText : List Char → List Char → Prop
  | none : FractionText [] []
  | some {ds : List Char} (digits : ∀ c ∈ ds, c.isDigit = true) : FractionText ds ('.' :: ds)

/-- The words for what is no finite number. -/
def numberWords : List String := ["nan", "inf", "infinity"]

/-- A text that is a number: a sign, which may be left out, and a word in any case, or digits before
    or behind a point. -/
inductive NumberText : List Char → Prop
  | word {s w : List Char} (sign : IsSign s)
    (h : String.ofList (w.map Char.toLower) ∈ numberWords) : NumberText (s ++ w)
  | digits {s whole fraction f e : List Char} (sign : IsSign s)
    (digits : ∀ c ∈ whole, c.isDigit = true) (hf : FractionText fraction f)
    (some : whole ++ fraction ≠ []) (he : ExponentText e) : NumberText (s ++ (whole ++ (f ++ e)))

theorem IntegerText.numberText {cs : List Char} (h : IntegerText cs) : NumberText cs := by
  obtain ⟨hSign, hSome, hAll⟩ := h
  have hText := NumberText.digits hSign hAll .none (by rwa [List.append_nil]) .none
  rwa [List.append_nil, List.append_nil] at hText

theorem toLower_of_isDigit {c : Char} (h : c.isDigit = true) : c.toLower = c := by
  refine dif_neg ?_
  simp only [Char.isDigit, Bool.and_eq_true, decide_eq_true_eq] at h
  rintro ⟨hLower, -⟩
  exact absurd (UInt32.le_trans hLower h.2) (by decide)

/-- No number begins like a truth value. -/
theorem NumberText.exists_head {cs : List Char} (h : NumberText cs) :
    ∃ c r, cs = c :: r ∧ c.toLower ≠ 't' ∧ c.toLower ≠ 'f' := by
  -- a sign, a point or a digit has no case, so the letter is no obstacle
  have hPlain {c : Char} (hc : c.toLower = c) (h : c ≠ 't' ∧ c ≠ 'f') (r : List Char) :
      ∃ d r', c :: r = d :: r' ∧ d.toLower ≠ 't' ∧ d.toLower ≠ 'f' :=
    ⟨c, r, rfl, by rwa [hc]⟩
  -- the first character is a sign, a word's letter, a digit or the point
  cases h with
  | @word s w sign h =>
    rcases sign with rfl | rfl | rfl
    · cases w with
      | nil => exact absurd h (by decide)
      | cons c w =>
        refine ⟨c, w, rfl, ?_⟩
        simp only [numberWords, List.map_cons, List.mem_cons, ← String.toList_inj,
          String.toList_ofList, List.not_mem_nil, or_false] at h
        -- `infinity`, `inf` and `nan` start with neither letter
        rcases h with h | h | h <;> rw [(List.cons.inj h).1] <;> decide
    · exact hPlain (by decide) (by decide) w
    · exact hPlain (by decide) (by decide) w
  | @digits s whole fraction f e sign digits hf some he =>
    rcases sign with rfl | rfl | rfl
    · cases whole with
      | cons d whole =>
        have hDigit := digits d List.mem_cons_self
        refine hPlain (toLower_of_isDigit hDigit) ?_ _
        constructor <;> rintro rfl <;> exact nomatch hDigit
      | nil =>
        cases hf with
        -- no digit before the point, so there is a point
        | none => exact (some rfl).elim
        | some => exact hPlain (by decide) (by decide) _
    · exact hPlain (by decide) (by decide) _
    · exact hPlain (by decide) (by decide) _

namespace Floating

theorem exponent?_eq (cs : List Char) : exponent? cs = parseInteger? cs := rfl

/-- The digits behind a point, and what remains. -/
private def fractionOf : List Char → List Char × List Char
  | '.' :: r => (r.takeWhile Char.isDigit, r.dropWhile Char.isDigit)
  | r => ([], r)

private theorem isDigit_of_mem_takeWhile {cs : List Char} :
    ∀ c ∈ cs.takeWhile Char.isDigit, c.isDigit = true :=
  List.all_eq_true.mp List.all_takeWhile

private theorem exists_fraction (r : List Char) :
    ∃ f, r = f ++ (fractionOf r).2 ∧ FractionText (fractionOf r).1 f := by
  rw [fractionOf.eq_def]
  split
  · rename_i r
    refine ⟨'.' :: r.takeWhile Char.isDigit, ?_, .some isDigit_of_mem_takeWhile⟩
    rw [List.cons_append, List.takeWhile_append_dropWhile]
  · exact ⟨[], rfl, .none⟩

private theorem endsDigits_of_exponent {e : List Char} (h : ExponentText e) : EndsDigits e := by
  cases h with
  | none => exact nofun
  | some letter h => rcases letter with rfl | rfl <;> exact endsDigits_cons _ (by decide)

private theorem fractionOf_append {fraction f e : List Char} (hf : FractionText fraction f)
    (he : ExponentText e) : fractionOf (f ++ e) = (fraction, e) := by
  cases hf with
  | none =>
    cases he with
    | none => rfl
    | some letter h => rcases letter with rfl | rfl <;> rfl
  | some digits =>
    obtain ⟨hTake, hDrop⟩ := takeWhile_digits digits (endsDigits_of_exponent he)
    exact Prod.ext hTake hDrop

private theorem endsDigits_of_fraction {fraction f e : List Char} (hf : FractionText fraction f)
    (he : ExponentText e) : EndsDigits (f ++ e) := by
  cases hf with
  | none => exact endsDigits_of_exponent he
  | some digits => exact endsDigits_cons _ (by decide)

/-- Digits are a number if there are any, and nothing but an exponent is behind them. -/
private theorem isSome_behind_iff (negative : Bool) (whole fraction e : List Char) :
    (if whole.isEmpty && fraction.isEmpty then none else
      let build (n : Int) :=
        ofDecimal negative (Digits.value (whole ++ fraction)) (n - fraction.length)
      match e with
      | [] => some (build 0)
      | 'e' :: r | 'E' :: r => (exponent? r).map build
      | _ => none).isSome = true ↔ whole ++ fraction ≠ [] ∧ ExponentText e := by
  -- there must be a digit somewhere, and after the digits nothing or an exponent
  split
  · rename_i hNone
    rw [Bool.and_eq_true, List.isEmpty_iff, List.isEmpty_iff] at hNone
    obtain ⟨rfl, rfl⟩ := hNone
    exact iff_of_false Bool.false_ne_true fun h => h.1 rfl
  · rename_i hSome
    rw [and_iff_right (by simpa [List.append_eq_nil_iff] using hSome)]
    dsimp only
    split
    · exact iff_of_true rfl .none
    · rw [Option.isSome_map, exponent?_eq, isSome_parseInteger?_iff]
      exact ⟨.some (Or.inl rfl), fun | .some _ h => h⟩
    · rw [Option.isSome_map, exponent?_eq, isSome_parseInteger?_iff]
      exact ⟨.some (Or.inr rfl), fun | .some _ h => h⟩
    · rename_i hNil hSmall hLarge
      refine iff_of_false Bool.false_ne_true ?_
      rintro (_ | ⟨rfl | rfl, _⟩)
      · exact hNil rfl
      · exact hSmall _ rfl
      · exact hLarge _ rfl

private theorem isSome_digits?_eq (negative : Bool) (cs : List Char) :
    (digits? negative cs).isSome = true ↔
      cs.takeWhile Char.isDigit ++ (fractionOf (cs.dropWhile Char.isDigit)).1 ≠ [] ∧
        ExponentText (fractionOf (cs.dropWhile Char.isDigit)).2 := by
  rw [digits?]
  generalize cs.dropWhile Char.isDigit = r
  dsimp only
  split
  · exact isSome_behind_iff negative _ _ _
  · rename_i hOther
    -- without a point all that follows the digits stands for the exponent
    have hPlain : fractionOf r = ([], r) := by
      rw [fractionOf.eq_def]
      split
      · exact (hOther _ rfl).elim
      · rfl
    rw [hPlain]
    exact isSome_behind_iff negative _ [] r

theorem parse?_of_word {cs : List Char}
    (h : String.ofList ((sign cs).2.map Char.toLower) ∈ numberWords) :
    (parse? cs).isSome = true := by
  simp only [numberWords, List.mem_cons, List.not_mem_nil, or_false] at h
  rw [parse?]
  dsimp only
  split
  · rfl
  · rw [if_pos (h.resolve_left ‹_›)]
    rfl

theorem parse?_of_digits {cs : List Char} (h : (digits? (sign cs).1 (sign cs).2).isSome = true) :
    (parse? cs).isSome = true := by
  rw [parse?]
  dsimp only
  split
  · rfl
  · split
    · rfl
    · exact h

/-- No word for a number begins with a sign. -/
private theorem unsigned_of_word {w : List Char}
    (h : String.ofList (w.map Char.toLower) ∈ numberWords) : Unsigned w := by
  cases w with
  | nil => exact nofun
  | cons c w =>
    refine unsigned_cons w ⟨?_, ?_⟩ <;> rintro rfl <;>
      simp [numberWords, ← String.toList_inj] at h

/-- No digits with a point begin with a sign. -/
private theorem unsigned_of_fraction {whole fraction f e : List Char}
    (hWhole : ∀ c ∈ whole, c.isDigit = true) (hf : FractionText fraction f)
    (hSome : whole ++ fraction ≠ []) : Unsigned (whole ++ (f ++ e)) := by
  cases whole with
  | cons d whole => exact unsigned_cons _ (ne_sign_of_isDigit (hWhole d List.mem_cons_self))
  | nil =>
    cases hf with
    | none => exact (hSome rfl).elim
    | some digits => exact unsigned_cons _ (by decide)

/-- A text is read as a number if and only if it is one by the grammar. -/
theorem isSome_parse?_iff (cs : List Char) : (parse? cs).isSome = true ↔ NumberText cs := by
  -- reading finds a sign, then a word or digits, and the parts spell the text
  constructor
  · intro hRead
    obtain ⟨s, hSign, hSplit⟩ := exists_sign cs
    rw [parse?] at hRead
    dsimp only at hRead
    rw [hSplit]
    generalize (sign cs).1 = negative at hRead
    generalize (sign cs).2 = r at hRead
    split at hRead
    · rename_i hWord
      exact .word hSign (by rw [hWord]; decide)
    · split at hRead
      · rename_i hWord
        exact .word hSign (by rcases hWord with hWord | hWord <;> rw [hWord] <;> decide)
      · obtain ⟨hSome, he⟩ := (isSome_digits?_eq negative r).mp hRead
        obtain ⟨f, hRest, hf⟩ := exists_fraction (r.dropWhile Char.isDigit)
        have hText := NumberText.digits hSign isDigit_of_mem_takeWhile hf hSome he
        rwa [← hRest, List.takeWhile_append_dropWhile] at hText
  -- the parts of a spelling are the ones reading takes off, one after the other
  · rintro (⟨hSign, hWord⟩ | ⟨hSign, hWhole, hf, hSome, he⟩)
    · refine parse?_of_word ?_
      rwa [sign_append hSign (unsigned_of_word hWord)]
    · rename_i s whole fraction f e
      refine parse?_of_digits ((isSome_digits?_eq _ _).mpr ?_)
      obtain ⟨hTake, hDrop⟩ : (whole ++ (f ++ e)).takeWhile Char.isDigit = whole ∧
          (whole ++ (f ++ e)).dropWhile Char.isDigit = f ++ e :=
        takeWhile_digits hWhole (endsDigits_of_fraction hf he)
      rw [sign_append hSign (unsigned_of_fraction hWhole hf hSome), hTake, hDrop,
        fractionOf_append hf he]
      exact ⟨hSome, he⟩

end Floating

end RunnerPool
