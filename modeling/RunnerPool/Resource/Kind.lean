/-! # Resource kinds

The two kinds of resource that make up a pool, and where a cluster keeps them. -/

namespace RunnerPool

namespace Resource

/-- The API group of both kinds. -/
def group : String := "actions.github.com"

/-- The version of the group. -/
def version : String := "v1alpha1"

/-- Group and version together. -/
def apiVersion : String := group ++ "/" ++ version

/-- A runner for one job, or the set of runners that makes up a pool. -/
inductive Kind
  | runner
  | runnerSet
deriving Repr, DecidableEq

namespace Kind

/-- The name of a kind. -/
def name : Kind → String
  | .runner => "EphemeralRunner"
  | .runnerSet => "EphemeralRunnerSet"

/-- The name of a kind in paths. -/
def plural : Kind → String
  | .runner => "ephemeralrunners"
  | .runnerSet => "ephemeralrunnersets"

/-- The path of all resources of the kind, of one namespace or of all; nothing in it is
    escaped. -/
def path (k : Kind) (ns : Option String) : String :=
  "/apis/" ++ apiVersion ++ "/" ++
    (match ns with
    | some ns => "namespaces/" ++ ns ++ "/"
    | none => "") ++
    k.plural

end Kind

end Resource

end RunnerPool
