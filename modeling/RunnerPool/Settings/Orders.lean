import RunnerPool.Settings.Load

/-! # Orders of loading

The members of a table and the variables of an environment are kept in hash tables, whose order
differs from one run to the next: they are set into the tree, and the keys of the tree are read, in
any order.  Where a key is a path through another one, the order decides what lies there; where
several values are of a wrong kind, it decides which of them is the fault.

* `Setting.Arranged v w`      the same value, with the members of its tables in any order
* `Settings.settle order t`   the settings in a tree whose keys are read in an order, checked
* `Settings.Loads … r`        what loading can end with -/

namespace RunnerPool

namespace Setting

mutual

/-- The same value, with the members of each of its tables in any order. -/
inductive Arranged : Setting → Setting → Prop
  | plain (origin : Option String) (p : Plain) : Arranged (.plain origin p) (.plain origin p)
  | list (origin : Option String) {items items' : List Setting} (h : ArrangedItems items items') :
    Arranged (.list origin items) (.list origin items')
  | table {ms ns ks : List (String × Setting)} (h : ArrangedMembers ms ns) (hPerm : ns.Perm ks) :
    Arranged (.table ms) (.table ks)

/-- The same items. -/
inductive ArrangedItems : List Setting → List Setting → Prop
  | nil : ArrangedItems [] []
  | cons {x y : Setting} {xs ys : List Setting} (h : Arranged x y) (hs : ArrangedItems xs ys) :
    ArrangedItems (x :: xs) (y :: ys)

/-- The same members, in the same order. -/
inductive ArrangedMembers : List (String × Setting) → List (String × Setting) → Prop
  | nil : ArrangedMembers [] []
  | cons (key : String) {x y : Setting} {ms ns : List (String × Setting)} (h : Arranged x y)
    (hs : ArrangedMembers ms ns) : ArrangedMembers ((key, x) :: ms) ((key, y) :: ns)

end

end Setting

namespace Settings

/-- What lies under a key, if anything does, is given the type of its setting. -/
def typed (t : Setting) (key : String) : Except LoadFault Unit :=
  if key = "min_runners" ∨ key = "max_runners" then (read? key asInt32 t).map fun _ => ()
  else if key = "log_format" then (read? key (fun _ => asFormat) t).map fun _ => ()
  else (read? key asText t).map fun _ => ()

/-- The settings in a tree, checked.  The values are given their types in the order in which the
    keys are read, and only then a missing one is noticed. -/
def settle (order : List String) (t : Setting) : Except Error Settings := do
  order.forM fun key => (typed t key).mapError .load
  let s ← (ofTree t).mapError .load
  s.check.mapError .refused
  return s

/-- What the loading of a file and an environment can end with: the members of the file and those
    of the environment are set into the tree and the keys are read, each in any order. -/
inductive Loads (files : String → Option (List UInt8)) (path : String)
    (env : List (String × String)) : Except Error Settings → Prop
  | notFound {fault : LoadFault} (hFile : findFile files path = .error fault) :
    Loads files path env (.error (.load fault))
  | notRead {file : String} {bytes : List UInt8} {fault : LoadFault}
    (hFile : findFile files path = .ok (file, bytes))
    (hMembers : fileMembers file bytes = .error fault) :
    Loads files path env (.error (.load fault))
  | read {file : String} {bytes : List UInt8} {ms fromFile fromEnv : List (String × Setting)}
    {order : List String} (hFile : findFile files path = .ok (file, bytes))
    (hMembers : fileMembers file bytes = .ok ms)
    (hFromFile : Setting.Arranged (.table ms) (.table fromFile))
    (hFromEnv : fromEnv.Perm (environmentMembers env)) (hOrder : order.Perm keys) :
    Loads files path env
      (settle order (Setting.putAll fromEnv (Setting.putAll fromFile (.table []))))

end Settings

end RunnerPool
