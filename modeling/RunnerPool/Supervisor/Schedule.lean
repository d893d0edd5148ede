import RunnerPool.Supervisor.Basic

/-! # Scripted services on one thread

Two services that follow scripts, run by the supervisor on one thread with a clock that jumps to
the next moment at which something is due.  A service goes on until it has to wait; services that
can go on do so in the order in which they became able to; the supervisor takes in tasks that
ended, in the order in which they did, when no service can go on.  Timers that are due at one
moment go off in the order in which they were set, and one that is due at once is not waited for.
A cancelled scope is noticed by the outer service first.  On one thread nobody interrupts a call
that cancels a scope.

* `Schedule.run`   the run to its end, or to the deadline -/

namespace RunnerPool.Supervisor

/-- What a scripted service does. -/
inductive Action
  | sleep (ms : Nat)
  /-- Waits until its scope is cancelled. -/
  | wait
  /-- Waits until its scope is cancelled, but no longer than so. -/
  | sleepOrWait (ms : Nat)
  | cancel (cause : Option String)
  /-- Notes whether its scope is cancelled, and why. -/
  | observe
  | panic (message : String)
deriving Repr, DecidableEq

/-- A service that follows a script and then returns. -/
structure Script where
  name : String
  actions : List Action
  outcome : Outcome
deriving Repr, DecidableEq

namespace Schedule

/-- What a service waits for. -/
inductive Waiting
  /-- Nothing: it is to go on. -/
  | no
  | timer
  | scope
  /-- A timer or its scope, whichever comes first. -/
  | either
  | finished
deriving Repr, DecidableEq

/-- A service within its script. -/
structure Actor where
  service : Service
  actions : List Action
  outcome : Outcome
  waiting : Waiting
  observed : List (Bool × Option String)
deriving Repr

/-- A run within its schedule. -/
structure State where
  clock : Nat
  supervisor : Supervisor.State
  actors : List Actor
  /-- The timers that are set: when they are due and for whom, in the order of their setting. -/
  timers : List (Nat × Service)
  /-- The services that can go on, in turn. -/
  ready : List Service
  /-- The tasks that ended and were not joined, in turn. -/
  ended : List Service
  /-- A cancellation of the root that is still to come. -/
  alarm : Option (Nat × Option String)

/-- The state with a possible step taken. -/
def State.take (st : State) (a : Step) : State :=
  { st with supervisor := (st.supervisor.step a).getD st.supervisor }

/-- The state with a call made, up to and with its last step. -/
def State.call (st : State) (c : Caller) (last : Step) : State :=
  ((st.supervisor.lookAndGive c).foldl take st).take last

/-- The state with a scope cancelled by someone, for a cause if there is one. -/
def State.cancel (st : State) (scope : Scope) : Option String → State
  | none => st.take (.cancel scope none)
  | some why => st.call (.other scope why) (.cancel scope (some why))

/-- The actor of a service. -/
def State.actor? (st : State) (s : Service) : Option Actor :=
  st.actors.find? (·.service == s)

/-- The state with an actor replaced. -/
def State.setActor (st : State) (a : Actor) : State :=
  { st with actors := st.actors.map fun b => if b.service == a.service then a else b }

/-- Whether a service's scope is cancelled. -/
def State.isCancelled (st : State) (s : Service) : Bool :=
  st.supervisor.scopes.isCancelled (st.supervisor.scopeOf s)

/-- A service can go on; a timer that is still set for it is dropped. -/
def State.resume (st : State) (a : Actor) : State :=
  { st.setActor { a with waiting := .no } with
    timers := st.timers.filter (·.2 != a.service)
    ready := st.ready ++ [a.service] }

/-- Wakes the services that wait for a scope which is cancelled now, the outer one first. -/
def State.wake (st : State) : State :=
  st.actors.foldl (fun st a =>
    match a.waiting with
    | .scope | .either => if st.isCancelled a.service then st.resume a else st
    | _ => st) st

/-- A service waits, for a timer among other things. -/
def State.setTimer (st : State) (a : Actor) (ms : Nat) : State :=
  { st.setActor a with timers := st.timers ++ [(st.clock + ms, a.service)] }

/-- A service comes to its end. -/
def State.finish (st : State) (a : Actor) (outcome : Outcome) : State :=
  let ended := st.setActor { a with actions := [], waiting := .finished }
  let st := ended.take (.finish a.service outcome)
  let st :=
    match a.service with
    | .listener => (st.call .listener .tell).wake
    | .telemetry => st
  { st.take (.leave a.service) with ended := st.ended ++ [a.service] }

/-- A service goes on until it has to wait. -/
def State.goOn (st : State) (a : Actor) : List Action → State
  | [] => st.finish a a.outcome
  | .panic message :: _ => st.finish a (.panicked (some message))
  | .sleep ms :: rest =>
    -- no timer is set for a sleep of no length
    if ms = 0 then st.goOn a rest
    else st.setTimer { a with actions := rest, waiting := .timer } ms
  | .wait :: rest =>
    if st.isCancelled a.service then st.goOn a rest
    else st.setActor { a with actions := rest, waiting := .scope }
  | .sleepOrWait ms :: rest =>
    if ms = 0 ∨ st.isCancelled a.service then st.goOn a rest
    else st.setTimer { a with actions := rest, waiting := .either } ms
  | .cancel cause :: rest =>
    (st.cancel (st.supervisor.scopeOf a.service) cause).wake.goOn a rest
  | .observe :: rest =>
    let scope := st.supervisor.scopeOf a.service
    let seen := (st.supervisor.scopes.isCancelled scope, st.supervisor.scopes.cause scope)
    st.goOn { a with observed := a.observed ++ [seen] } rest

/-- The next moment at which something is due. -/
def State.next? (st : State) : Option Nat :=
  (st.alarm.toList.map (·.1) ++ st.timers.map (·.1)).min?

/-- The clock moved on to a moment, with all that is due then. -/
def State.advance (st : State) (now : Nat) : State :=
  let due := (st.timers.filter (·.1 = now)).filterMap fun (_, s) => st.actor? s
  let st := due.foldl State.resume { st with clock := now }
  match st.alarm with
  | some (t, cause) =>
    if t = now then
      (({ st with alarm := none }).cancel st.supervisor.root cause).wake
    else st
  | none => st

/-- One turn, none if nothing can happen any more before the deadline. -/
def State.turn (st : State) (deadline : Nat) : Option State :=
  match st.ready with
  | s :: ready =>
    let st := { st with ready }
    match st.actor? s with
    | some a => some (st.goOn a a.actions)
    | none => some st
  | [] =>
    -- no service can go on: a task that ended is joined, and then the clock moves on
    match st.ended with
    | s :: ended =>
      some ((({ st with ended }).take (.take s)).call (.supervisor s) (.join s)).wake
    | [] =>
      if st.supervisor.isOver then none
      else
        match st.next? with
        | some now => if now < deadline then some (st.advance now) else none
        | none => none

/-- Turns until nothing can happen any more. -/
def State.exhaust (deadline : Nat) : (fuel : Nat) → State → State
  | 0, st => st
  | fuel + 1, st =>
    match st.turn deadline with
    | some st => exhaust deadline fuel st
    | none => st

/-- The ids of the tasks; their numbers are not shown. -/
def taskId : Service → TaskId
  | .listener => ⟨0, "<id>"⟩
  | .telemetry => ⟨1, "<id>"⟩

/-- The run of two scripted services under a root scope, with a cancellation of the root to come
    at a moment. -/
def run (scopes : Scopes) (root : Scope) (listener : Script) (telemetry : Option Script)
    (alarm : Option (Nat × Option String)) (deadline : Nat) : State :=
  let supervisor :=
    Supervisor.State.start scopes root listener.name (telemetry.map (·.name)) taskId
  let actor (s : Service) (p : Script) : Actor := ⟨s, p.actions, p.outcome, .no, []⟩
  let actors := actor .listener listener :: (telemetry.map (actor .telemetry)).toList
  let services := actors.map (·.service)
  let st : State := ⟨0, supervisor, actors, [], services, [], alarm⟩
  let st := services.foldl (fun st s => st.take (.begin s)) st
  let size := actors.foldl (fun n a => n + a.actions.length + 1) 0
  st.exhaust deadline (4 * size + 8)

end Schedule

end RunnerPool.Supervisor
