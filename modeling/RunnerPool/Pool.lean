import RunnerPool.Listener.Basic

/-! # A pool and its cluster

The scaler as the listener's handler: each request that it makes is sent to a cluster, and the
answer settles how the handler ends.

* `Cluster.Script`           what a cluster answers, and how long it takes
* `Pool.handler cluster`     the handler over a cluster
* `Pool.sent`                the requests so far, in the order in which they left -/

namespace RunnerPool

/-- A cluster, as the course to its answer for the `n`-th request, counted from zero. -/
abbrev Cluster.Script := Nat → Cluster.Request → Course Cluster.Answer

/-- A pool at work: its scaler and the requests that were sent for it. -/
structure Pool where
  scaler : Scaler
  sent : List Cluster.Request

namespace Pool

/-- A pool before its first event. -/
def new (ns name : String) (bounds : Bounds) : Pool := ⟨.new ns name bounds, []⟩

/-- The end of a handler's work. -/
def conclude (o : Outcome α) : Course (Except HandlerError α) :=
  Course.noting o.entries (.done o.result)

/-- Carries out what a handler wants done: it logs, sends its request if it has one, and ends as
    the answer says.  The request counts as sent whatever becomes of it. -/
def carryOut (cluster : Cluster.Script) (sent : List Cluster.Request) (scaler : Scaler)
    (h : Handling α) : Pool × Course (Except HandlerError α) :=
  match h.exchange with
  | .settled o => (⟨scaler, sent⟩, Course.noting h.entries (conclude o))
  | .ask request settle =>
    (⟨scaler, sent ++ [request]⟩,
      Course.noting h.entries
        ((cluster sent.length request).bind fun answer => conclude (settle answer)))

/-- The scaler's handlers over a cluster. -/
def handler (cluster : Cluster.Script) : Handler Pool where
  jobStarted p job :=
    let (scaler, h) := p.scaler.jobStarted job
    carryOut cluster p.sent scaler h
  jobCompleted p job :=
    let (scaler, h) := p.scaler.jobCompleted job
    carryOut cluster p.sent scaler h
  desiredCount p count :=
    let (scaler, h) := p.scaler.desiredCount count
    carryOut cluster p.sent scaler h

end Pool

end RunnerPool
