import RunnerPool.Text.Blank

/-!
# Trimming

Blank characters at the ends of a text make no difference to what trimming leaves, and a text
without them is left as it is (`trim_padded`).  A text that is cut short loses its end
(`trim_of_prefix`).
-/

namespace RunnerPool.Text

/-- Every character of the text is blank. -/
def Blank (cs : List Char) : Prop := ∀ c ∈ cs, isBlank c = true

instance (cs : List Char) : Decidable (Blank cs) :=
  decidable_of_iff (cs.all isBlank = true) List.all_eq_true

theorem blank_nil : Blank [] := nofun

theorem blank_append {cs ds : List Char} : Blank (cs ++ ds) ↔ Blank cs ∧ Blank ds :=
  List.forall_mem_append

/-! ### The beginning -/

theorem trimStart_append_of_blank {before : List Char} (h : Blank before) (cs : List Char) :
    trimStart (before ++ cs) = trimStart cs :=
  List.dropWhile_append_of_pos h

theorem trimStart_cons {c : Char} (h : isBlank c = false) (cs : List Char) :
    trimStart (c :: cs) = c :: cs :=
  List.dropWhile_cons_of_neg (by rw [h]; exact Bool.false_ne_true)

/-! ### The end -/

theorem trimEnd_prefix (cs : List Char) : trimEnd cs <+: cs := by
  induction cs with
  | nil => exact List.prefix_rfl
  | cons c cs ih =>
    rw [trimEnd]
    split
    · split
      · exact List.nil_prefix
      · exact List.cons_prefix_cons.mpr ⟨rfl, List.nil_prefix⟩
    · exact List.cons_prefix_cons.mpr ⟨rfl, ih⟩

theorem trimEnd_of_blank {cs : List Char} (h : Blank cs) : trimEnd cs = [] := by
  induction cs with
  | nil => rfl
  | cons c cs ih =>
    obtain ⟨hFirst, hMore⟩ := List.forall_mem_cons.mp h
    rw [trimEnd, ih hMore]
    exact if_pos hFirst

theorem trimEnd_append_of_blank (cs : List Char) {after : List Char} (h : Blank after) :
    trimEnd (cs ++ after) = trimEnd cs := by
  induction cs with
  | nil => exact trimEnd_of_blank h
  | cons c cs ih => rw [List.cons_append, trimEnd, trimEnd, ih]

theorem trimEnd_append_of_not_blank (cs : List Char) {c : Char} (h : isBlank c = false) :
    trimEnd (cs ++ [c]) = cs ++ [c] := by
  induction cs with
  | nil => simp [trimEnd, h]
  | cons d cs ih =>
    rw [List.cons_append, trimEnd, ih]
    split
    · rename_i hEmpty
      simp at hEmpty
    · rfl

/-! ### Both ends -/

theorem trim_of_blank {cs : List Char} (h : Blank cs) : trim cs = [] := by
  have hStart := trimStart_append_of_blank h []
  rw [List.append_nil] at hStart
  rw [trim, hStart]
  rfl

theorem trim_append_of_blank (cs : List Char) {after : List Char} (h : Blank after) :
    trim (cs ++ after) = trim cs := by
  rw [trim, trim, trimStart, List.dropWhile_append]
  split
  · -- nothing but blanks before the end
    rename_i hEmpty
    rw [List.isEmpty_iff] at hEmpty
    have hAfter := trim_of_blank h
    rw [trim, trimStart] at hAfter
    rw [hAfter, trimStart, hEmpty]
    rfl
  · exact trimEnd_append_of_blank _ h

theorem trim_append_of_blank_left {before : List Char} (h : Blank before) (cs : List Char) :
    trim (before ++ cs) = trim cs := by
  rw [trim, trimStart_append_of_blank h, trim]

/-- A text between characters that are not blank. -/
structure Bounded (cs : List Char) : Prop where
  first : ∃ c r, cs = c :: r ∧ isBlank c = false
  last : ∃ r c, cs = r ++ [c] ∧ isBlank c = false

theorem trim_of_bounded {cs : List Char} (h : Bounded cs) : trim cs = cs := by
  obtain ⟨⟨c, r, hFirst, hc⟩, ⟨r', d, hLast, hd⟩⟩ := h
  have hStart : trimStart cs = cs := by rw [hFirst, trimStart_cons hc]
  rw [trim, hStart, hLast, trimEnd_append_of_not_blank r' hd]

/-- Trimming finds a text between blanks. -/
theorem trim_padded {before cs after : List Char} (hBefore : Blank before) (hcs : Bounded cs)
    (hAfter : Blank after) : trim (before ++ cs ++ after) = cs := by
  rw [trim_append_of_blank _ hAfter, trim_append_of_blank_left hBefore, trim_of_bounded hcs]

/-- Trimming a beginning of such a text takes away at its end only. -/
theorem trim_of_prefix {cs cut : List Char} (h : Bounded cs) (hCut : cut <+: cs) :
    trim cut <+: cut := by
  obtain ⟨c, r, rfl, hc⟩ := h.first
  cases cut with
  | nil => exact List.nil_prefix
  | cons d cut =>
    obtain ⟨rfl, -⟩ := List.cons_prefix_cons.mp hCut
    rw [trim, trimStart_cons hc]
    exact trimEnd_prefix _

end RunnerPool.Text
