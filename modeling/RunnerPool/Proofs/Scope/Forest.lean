import Mathlib.Data.List.Infix
import Mathlib.Logic.Relation

/-!
# Forests of scopes

Which scope lies in which, as the calls tell that made them.  Calls are made on tokens, each of
which stands for a scope; both are numbered in the order in which they are made.

* `Tokens.Call`        a call on tokens
* `Forest`             scopes, each told by the scope around it, and tokens, each by its scope
* `Forest.grow`        the forest after a call
* `Forest.Encloses`    a scope is another one or lies around it
* `Forest.Lineage`     the scopes around a scope, itself first and then outwards

## Main statement

- `Lineage.findSome?_eq_some_iff`: the first scope of a lineage that has a mark is the nearest
-/

namespace RunnerPool

/-! ### Calls -/

namespace Tokens

/-- A call on tokens.  Tokens are numbered in the order in which they are made, and a call names
    its token by the number. -/
inductive Call
  /-- Makes a token of a new scope outside all others. -/
  | root
  /-- Makes a token of a new scope inside that of another token. -/
  | child (of : Nat)
  /-- Makes one more token of a scope. -/
  | clone (of : Nat)
  /-- Cancels the scope of a token, for a cause if there is one. -/
  | cancel (of : Nat) (cause : Option String)
deriving Repr, DecidableEq

end Tokens

/-! ### Forests -/

/-- The scopes that calls make, each told by the scope around it, and the scope of each token.
    Scopes too are numbered in the order in which they are made. -/
structure Forest where
  parents : List (Option Nat)
  tokens : List Nat
  /-- The scopes of the tokens exist. -/
  made : ∀ s ∈ tokens, s < parents.length
  /-- The scope around another one was made before it. -/
  older : ∀ p s : Nat, parents[s]? = some (some p) → p < s

namespace Forest

/-- No scope and no token. -/
def empty : Forest := ⟨[], [], nofun, nofun⟩

/-- One more scope, inside another one or outside all of them, and a token of it. -/
def plant (f : Forest) (parent? : Option Nat) (h : ∀ p ∈ parent?, p < f.parents.length) :
    Forest where
  parents := f.parents ++ [parent?]
  tokens := f.tokens ++ [f.parents.length]
  made := by
    intro s hs
    rw [List.length_append, List.length_singleton]
    rcases List.mem_append.mp hs with hOld | hNew
    · exact Nat.lt_succ_of_lt (f.made s hOld)
    · rw [List.mem_singleton.mp hNew]
      exact Nat.lt_succ_self _
  older := by
    intro p s hs
    rw [List.getElem?_append] at hs
    split at hs
    · exact f.older p s hs
    · rename_i hNew
      obtain ⟨hZero, hParent⟩ := List.getElem?_eq_some_iff.mp hs
      simp only [List.length_singleton] at hZero
      simp only [List.getElem_singleton] at hParent
      have hLt := h p hParent
      omega

/-- One more token of a scope. -/
def share (f : Forest) (s : Nat) (h : s ∈ f.tokens) : Forest where
  parents := f.parents
  tokens := f.tokens ++ [s]
  made := by
    intro r hr
    rcases List.mem_append.mp hr with hOld | hNew
    · exact f.made r hOld
    · rw [List.mem_singleton.mp hNew]
      exact f.made s h
  older := f.older

/-- The scope of a token exists. -/
theorem made_of_getElem? {f : Forest} {t s : Nat} (h : f.tokens[t]? = some s) :
    ∀ p ∈ some s, p < f.parents.length := by
  rintro p ⟨⟩
  exact f.made s (List.mem_of_getElem? h)

/-- The forest after a call. -/
def grow (f : Forest) : Tokens.Call → Forest
  | .root => f.plant none nofun
  | .child t =>
    match h : f.tokens[t]? with
    | some s => f.plant (some s) (made_of_getElem? h)
    | none => f
  | .clone t =>
    match h : f.tokens[t]? with
    | some s => f.share s (List.mem_of_getElem? h)
    | none => f
  | .cancel _ _ => f

theorem grow_child {f : Forest} {t s : Nat} (h : f.tokens[t]? = some s) :
    f.grow (.child t) = f.plant (some s) (made_of_getElem? h) := by
  rw [grow]
  split
  · rename_i r hr
    cases hr.symm.trans h
    rfl
  · rename_i hNone
    exact nomatch hNone.symm.trans h

theorem grow_clone {f : Forest} {t s : Nat} (h : f.tokens[t]? = some s) :
    f.grow (.clone t) = f.share s (List.mem_of_getElem? h) := by
  rw [grow]
  split
  · rename_i r hr
    cases hr.symm.trans h
    rfl
  · rename_i hNone
    exact nomatch hNone.symm.trans h

/-- A call on a token that does not exist changes nothing. -/
theorem grow_of_none {f : Forest} {t : Nat} (h : f.tokens[t]? = none) :
    f.grow (.child t) = f ∧ f.grow (.clone t) = f := by
  constructor
  all_goals
    rw [grow]
    split
    · rename_i hr
      exact nomatch hr.symm.trans h
    · rfl

/-- The scope `p` is the one right around `s`. -/
def Parent (f : Forest) (p s : Nat) : Prop := f.parents[s]? = some (some p)

/-- The scope `a` is `s` or lies around it. -/
def Encloses (f : Forest) : Nat → Nat → Prop := Relation.ReflTransGen f.Parent

variable {f g : Forest} {a b p s : Nat}

theorem Encloses.le (h : f.Encloses a s) : a ≤ s := by
  induction h with
  | refl => exact Nat.le_refl a
  | tail _ hParent ih => exact Nat.le_of_lt (Nat.lt_of_le_of_lt ih (f.older _ _ hParent))

theorem Encloses.antisymm (h : f.Encloses a b) (h' : f.Encloses b a) : a = b :=
  Nat.le_antisymm h.le h'.le

theorem encloses_of_parent (h : f.Parent p s) : f.Encloses a s ↔ a = s ∨ f.Encloses a p := by
  constructor
  · intro hAround
    rcases Relation.ReflTransGen.cases_tail hAround with hSame | ⟨q, hq, hqs⟩
    · exact Or.inl hSame.symm
    · rw [Parent, h] at hqs
      cases hqs
      exact Or.inr hq
  · rintro (rfl | hAround)
    · exact .refl
    · exact .tail hAround h

theorem encloses_of_outermost (h : f.parents[s]? = some none) : f.Encloses a s ↔ a = s := by
  constructor
  · intro hAround
    rcases Relation.ReflTransGen.cases_tail hAround with hSame | ⟨q, -, hqs⟩
    · exact hSame.symm
    · rw [Parent, h] at hqs
      exact nomatch hqs
  · rintro rfl
    exact .refl

/-- Of two scopes around a third one, one lies around the other. -/
theorem Encloses.total (ha : f.Encloses a s) (hb : f.Encloses b s) :
    f.Encloses a b ∨ f.Encloses b a := by
  induction ha with
  | refl => exact Or.inr hb
  | tail ha hParent ih =>
    rcases (encloses_of_parent hParent).mp hb with rfl | hb
    · exact Or.inl (.tail ha hParent)
    · exact ih hb

/-- More scopes change nothing for those that are there. -/
theorem encloses_iff_of_prefix (h : f.parents <+: g.parents) (hs : s < f.parents.length) :
    g.Encloses a s ↔ f.Encloses a s := by
  obtain ⟨new, hNew⟩ := h
  -- up the ancestors, which are all older and so the same in both forests
  constructor
  · intro hAround
    induction hAround with
    | refl => exact .refl
    | @tail b c _ hParent ih =>
      rw [Parent, ← hNew, List.getElem?_append_left hs] at hParent
      have hOlder := f.older _ _ hParent
      exact .tail (ih (Nat.lt_trans hOlder hs)) hParent
  · intro hAround
    induction hAround with
    | refl => exact .refl
    | @tail b c _ hParent ih =>
      have hOlder := f.older _ _ hParent
      refine .tail (ih (Nat.lt_trans hOlder hs)) ?_
      rw [Parent, ← hNew, List.getElem?_append_left hs]
      exact hParent

/-- The scopes around a scope, itself first and then outwards. -/
inductive Lineage (f : Forest) : Nat → List Nat → Prop
  | outermost {s : Nat} (h : f.parents[s]? = some none) : Lineage f s [s]
  | inside {s p : Nat} {ps : List Nat} (h : f.Parent p s) (hps : Lineage f p ps) :
    Lineage f s (s :: ps)

theorem Lineage.extend {l : List Nat} (h : f.Lineage s l) (hMore : f.parents <+: g.parents) :
    g.Lineage s l := by
  have hKept (r : Nat) (x : Option Nat) (hr : f.parents[r]? = some x) :
      g.parents[r]? = some x := by
    obtain ⟨new, hNew⟩ := hMore
    rw [← hNew, List.getElem?_append_left (List.getElem?_eq_some_iff.mp hr).1, hr]
  induction h with
  | outermost h => exact .outermost (hKept _ _ h)
  | inside h _ ih => exact .inside (hKept _ _ h) ih

theorem Lineage.mem_iff {l : List Nat} (h : f.Lineage s l) : a ∈ l ↔ f.Encloses a s := by
  induction h with
  | outermost h => rw [List.mem_singleton, encloses_of_outermost h]
  | inside h _ ih => rw [List.mem_cons, ih, encloses_of_parent h]

/-- The first scope of a lineage that has a mark is the nearest that has one. -/
theorem Lineage.findSome?_eq_some_iff {α : Type} {l : List Nat} (h : f.Lineage s l)
    (mark : Nat → Option α) (x : α) :
    l.findSome? mark = some x ↔
      ∃ a, f.Encloses a s ∧ mark a = some x ∧
        ∀ b, f.Encloses a b → f.Encloses b s → b ≠ a → mark b = none := by
  induction h with
  | @outermost s h =>
    rw [List.findSome?_singleton]
    constructor
    · intro hMark
      refine ⟨s, .refl, hMark, fun b _ hb hne => (hne ((encloses_of_outermost h).mp hb)).elim⟩
    · rintro ⟨a, ha, hMark, -⟩
      rwa [← (encloses_of_outermost h).mp ha]
  | @inside s p ps h _ ih =>
    rw [List.findSome?_cons]
    cases hOwn : mark s with
    | some y =>
      -- the scope has a mark itself, so it is the nearest one
      constructor
      · intro hSame
        refine ⟨s, .refl, hOwn.trans hSame, fun b hsb hbs hne => (hne ?_).elim⟩
        exact hbs.antisymm hsb
      · rintro ⟨a, ha, hMark, hNone⟩
        by_cases hsa : s = a
        · rw [← hMark, ← hsa, hOwn]
        · have hNot := hNone s ha .refl hsa
          rw [hOwn] at hNot
          exact nomatch hNot
    | none =>
      -- the nearest one is that of the scope right around it
      simp only [ih]
      constructor
      · rintro ⟨a, ha, hMark, hNone⟩
        refine ⟨a, .tail ha h, hMark, fun b hab hbs hne => ?_⟩
        rcases (encloses_of_parent h).mp hbs with rfl | hbp
        · exact hOwn
        · exact hNone b hab hbp hne
      · rintro ⟨a, ha, hMark, hNone⟩
        refine ⟨a, ?_, hMark, fun b hab hbp hne => hNone b hab (.tail hbp h) hne⟩
        refine ((encloses_of_parent h).mp ha).resolve_left ?_
        rintro rfl
        rw [hOwn] at hMark
        exact nomatch hMark

/-- A call only adds scopes and tokens. -/
theorem prefix_grow (f : Forest) (c : Tokens.Call) :
    f.parents <+: (f.grow c).parents ∧ f.tokens <+: (f.grow c).tokens := by
  -- only a root or a child is a new scope, and both they and a clone are a new token
  cases c with
  | root => exact ⟨List.prefix_append _ _, List.prefix_append _ _⟩
  | child t =>
    rw [grow]
    split
    · exact ⟨List.prefix_append _ _, List.prefix_append _ _⟩
    · exact ⟨List.prefix_rfl, List.prefix_rfl⟩
  | clone t =>
    rw [grow]
    split
    · exact ⟨List.prefix_rfl, List.prefix_append _ _⟩
    · exact ⟨List.prefix_rfl, List.prefix_rfl⟩
  | cancel t cause => exact ⟨List.prefix_rfl, List.prefix_rfl⟩

end Forest

end RunnerPool
