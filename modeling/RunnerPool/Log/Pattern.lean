/-! # Patterns for values

A filter may ask for a value by a pattern of the usual kind: alternatives, groups, classes and
repetitions.  Only whether a pattern is well formed is of interest here.

* `Pattern.isWellFormed cs`   every group and class is closed, every repetition has something to
  repeat, and every escape is known -/

namespace RunnerPool.Log.Pattern

/-- Where one stands in a pattern. -/
structure Place where
  /-- How many groups are open. -/
  groups : Nat
  /-- How many classes are open, one within the other. -/
  classes : Nat
  /-- Whether there is something to repeat. -/
  repeatable : Bool
  /-- Whether a class begins here, so that a closing bracket stands for itself. -/
  fresh : Bool
deriving Repr, DecidableEq

/-- Whether a character may follow a backslash: a mark, or a letter with a meaning. -/
def isEscape (c : Char) : Bool :=
  "dDsSwWnrtafvAzpPxuU".toList.contains c || (' ' < c && c ≤ '~' && !c.isAlphanum)

/-- The place after one more character, none if it cannot stand there. -/
def next (p : Place) (c : Char) : Option Place :=
  if 0 < p.classes then
    match c with
    | '[' => some { p with classes := p.classes + 1, fresh := true }
    -- right after its beginning a class may hold the bracket that would end it
    | ']' => if p.fresh then some { p with fresh := false } else
        some { p with classes := p.classes - 1, repeatable := true }
    | '^' => some p
    | _ => some { p with fresh := false }
  else
    match c with
    | '(' => some { p with groups := p.groups + 1, repeatable := false }
    | ')' => if p.groups = 0 then none else
        some { p with groups := p.groups - 1, repeatable := true }
    | '[' => some { p with classes := 1, fresh := true }
    | '|' => some { p with repeatable := false }
    -- a repetition needs something to repeat
    | '*' | '+' | '?' => if p.repeatable then some p else none
    | '{' => none
    | _ => some { p with repeatable := true }

/-- Whether the rest of a pattern is well formed. -/
def continues : Place → List Char → Bool
  | p, [] => p.groups == 0 && p.classes == 0
  | _, ['\\'] => false
  | p, '\\' :: c :: cs =>
    isEscape c && continues { p with repeatable := true, fresh := false } cs
  | p, '(' :: '?' :: cs =>
    continues (if p.classes = 0 then { p with groups := p.groups + 1, repeatable := false }
      else { p with fresh := false }) cs
  | p, c :: cs =>
    match next p c with
    | some p => continues p cs
    | none => false

/-- Whether a text is a pattern. -/
def isWellFormed (cs : List Char) : Bool :=
  continues ⟨0, 0, false, false⟩ cs

end RunnerPool.Log.Pattern
