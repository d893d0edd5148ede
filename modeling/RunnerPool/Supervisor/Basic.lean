import RunnerPool.Listener.Basic

/-! # The supervisor

Runs the listener and, if there is one, the telemetry server, each as a task of its own, and
waits for both.  The supervisor as a system of steps: whatever the order in which the tasks come
to their ends, a run is a sequence of these steps.

The scopes: the root's child is the group, under which the listener runs; the telemetry scope is
a child of the group.  A failure of either task cancels the group; the listener's return cancels
the telemetry scope.

The tasks run beside each other, so a call that cancels a scope for a cause is not one step but
three, and others can come in between: it looks whether the scope is cancelled, gives the scope
the cause if it found it open, and cancels it.

* `State.step`          one step, if it is possible
* `State.runs`          a sequence of steps
* `State.result?`       the result, once both tasks were joined
* `State.lookAndGive`   the first steps of a call that nobody interrupts -/

namespace RunnerPool.Supervisor

/-- The tasks. -/
inductive Service
  | listener
  | telemetry
deriving Repr, DecidableEq

/-- The id of a task: its number, and how that is written. -/
structure TaskId where
  number : Nat
  text : String
deriving Repr, DecidableEq

/-- How a service ends. -/
inductive Outcome
  | ok
  | failed (failure : Failure)
  /-- It panics, with a message if the payload is a text. -/
  | panicked (message : Option String)
deriving Repr, DecidableEq

/-- The wordings of a failure in one. -/
def chainText (failure : Failure) : String :=
  String.intercalate ": " failure

/-- Where a task stands. -/
inductive Task
  /-- There is no such task. -/
  | absent
  | waiting
  | running
  /-- The service returned; the task has not yet told the others. -/
  | returned (outcome : Outcome)
  /-- The telemetry scope was cancelled; the task is about to end. -/
  | told (outcome : Outcome)
  | ended (outcome : Outcome)
  /-- The supervisor has taken in the task and is not done with it. -/
  | taken (outcome : Outcome)
  | joined (outcome : Outcome)
deriving Repr, DecidableEq

/-- Whether there is nothing left to wait for. -/
def Task.isOver : Task → Bool
  | .absent | .joined _ => true
  | _ => false

/-- Whether the supervisor is busy with the task. -/
def Task.isTaken : Task → Bool
  | .taken _ => true
  | _ => false

/-- Who cancels a scope for a cause. -/
inductive Caller
  /-- The task of the listener, once its service has returned. -/
  | listener
  /-- The supervisor, once it has taken in the task of a service that failed. -/
  | supervisor (s : Service)
  /-- Someone else. -/
  | other (scope : Scope) (why : String)
deriving Repr, DecidableEq

/-- Whether the call is someone else's. -/
def Caller.isOther : Caller → Bool
  | .other _ _ => true
  | _ => false

/-- The state of a supervised run. -/
structure State where
  scopes : Scopes
  root : Scope
  group : Scope
  telemetryScope : Scope
  listenerName : String
  telemetryName : String
  listenerId : TaskId
  telemetryId : TaskId
  /-- The names under which the ids of the tasks were noted, the latest first. -/
  names : List (TaskId × String)
  listener : Task
  telemetry : Task
  /-- The calls that found their scope open and have not yet given it their cause. -/
  giving : List Caller
  /-- The calls that have nothing left to do but to cancel their scope. -/
  cancelling : List Caller
  /-- The first failure that was joined. -/
  firstError : Option Failure
  entries : List Log.Entry
deriving Repr

/-- What a task leaves to be joined. -/
inductive Remains
  /-- The task tells its own name, with the result of its service. -/
  | result (name : String) (result : Except Failure Unit)
  /-- The task panicked. -/
  | panic (id : TaskId) (message : Option String)

/-- The wording of a panic. -/
def panicText (id : TaskId) : Option String → String
  | some message => "task " ++ id.text ++ " panicked with message " ++ Text.quoted message
  | none => "task " ++ id.text ++ " panicked"

namespace State

/-- A run under a root scope before its first step: the tasks have got their ids, and these are
    noted with the names of the services. -/
def start (scopes : Scopes) (root : Scope) (listenerName : String)
    (telemetryName : Option String) (ids : Service → TaskId) : State :=
  let (group, scopes) := scopes.child root
  let (telemetryScope, scopes) := scopes.child group
  { scopes, root, group, telemetryScope, listenerName
    telemetryName := telemetryName.getD "telemetry"
    listenerId := ids .listener
    telemetryId := ids .telemetry
    names := (telemetryName.map fun name => (ids .telemetry, name)).toList ++
      [(ids .listener, listenerName)]
    listener := .waiting
    telemetry := if telemetryName.isSome then .waiting else .absent
    giving := []
    cancelling := []
    firstError := none
    entries := [] }

/-- The name of a service. -/
def nameOf (st : State) : Service → String
  | .listener => st.listenerName
  | .telemetry => st.telemetryName

/-- The id of the task of a service. -/
def idOf (st : State) : Service → TaskId
  | .listener => st.listenerId
  | .telemetry => st.telemetryId

/-- The scope of a service. -/
def scopeOf (st : State) : Service → Scope
  | .listener => st.group
  | .telemetry => st.telemetryScope

/-- Where the task of a service stands. -/
def taskOf (st : State) : Service → Task
  | .listener => st.listener
  | .telemetry => st.telemetry

/-- The state with a task moved on. -/
def setTask (st : State) (s : Service) (t : Task) : State :=
  match s with
  | .listener => { st with listener := t }
  | .telemetry => { st with telemetry := t }

/-- The state with one more entry. -/
def note (st : State) (e : Log.Entry) : State :=
  { st with entries := st.entries ++ [e] }

/-- An entry of the supervisor that names a service. -/
def entry (level : Log.Level) (message name : String) : Log.Entry :=
  ⟨level, .supervisor, message, [("service", .quoted name)]⟩

/-- The entry when a task begins. -/
def startEntry (st : State) : Service → Log.Entry
  | .listener => entry .info "Starting listener" st.listenerName
  | .telemetry => entry .info "Starting telemetry server" st.telemetryName

/-! ### Taking in a task -/

/-- What the task of a service leaves that ends so. -/
def remains (st : State) (s : Service) : Outcome → Remains
  | .ok => .result (st.nameOf s) (.ok ())
  | .failed failure => .result (st.nameOf s) (.error failure)
  | .panicked message => .panic (st.idOf s) message

/-- The name and the result that the supervisor makes of it.  A panic is a failure too; it tells
    an id only, and the name is looked up. -/
def verdict (st : State) : Remains → String × Except Failure Unit
  | .result name result => (name, result)
  | .panic id message =>
    let name := (st.names.lookup id).getD "unknown"
    (name, .error [name ++ " task aborted: " ++ panicText id message])

/-- The failure that the task of a service reports, with the name that goes with it. -/
def failure? (st : State) (s : Service) (outcome : Outcome) : Option (String × Failure) :=
  match st.verdict (st.remains s outcome) with
  | (_, .ok ()) => none
  | (name, .error failure) => some (name, failure)

/-- The same, unless a failure is kept already. -/
def firstFailure? (st : State) (s : Service) (outcome : Outcome) : Option (String × Failure) :=
  match st.firstError with
  | some _ => none
  | none => st.failure? s outcome

/-- The entry when a task is taken in. -/
def endEntry (st : State) (s : Service) (outcome : Outcome) : Log.Entry :=
  match st.verdict (st.remains s outcome) with
  | (name, .ok ()) => entry .info "Service exited" name
  | (name, .error failure) =>
    ⟨.error, .supervisor, "Service failed",
      [("service", .quoted name), ("error", .plain (chainText failure))]⟩

/-! ### Calls -/

/-- What the listener's task tells the telemetry server. -/
def farewell : Outcome → String
  | .failed failure => "listener exited: " ++ chainText failure
  | _ => "listener exited: ok"

/-- The scope that a caller cancels. -/
def target (st : State) : Caller → Scope
  | .listener => st.telemetryScope
  | .supervisor _ => st.group
  | .other scope _ => scope

/-- The cause for which a caller is about to cancel its scope; none if it is not. -/
def why? (st : State) : Caller → Option String
  | .listener =>
    match st.listener with
    | .returned outcome => some (farewell outcome)
    | _ => none
  | .supervisor s =>
    match st.taskOf s with
    | .taken outcome => (st.firstFailure? s outcome).map fun (name, failure) =>
      name ++ " failed: " ++ chainText failure
    | _ => none
  | .other _ why => some why

/-- Whether a call is under way. -/
def isCalling (st : State) (c : Caller) : Bool :=
  st.giving.contains c || st.cancelling.contains c

/-- A caller looks at its scope: if it is open it gets the cause next. -/
def look (st : State) (c : Caller) : State :=
  if st.scopes.isCancelled (st.target c) then { st with cancelling := c :: st.cancelling }
  else { st with giving := c :: st.giving }

/-- A caller gives its scope the cause, which the scope takes if it has none. -/
def give (st : State) (c : Caller) (why : String) : State :=
  { st with
    scopes := st.scopes.giveCause (st.target c) why
    giving := st.giving.erase c
    cancelling := c :: st.cancelling }

/-- A caller cancels its scope, and with that its call is over. -/
def cancel (st : State) (c : Caller) : State :=
  { st with
    scopes := st.scopes.cancel (st.target c)
    cancelling := st.cancelling.erase c }

/-- The supervisor is done with a task.  The first failure has cancelled the group and is kept. -/
def join (st : State) (s : Service) (outcome : Outcome) : State :=
  match st.firstFailure? s outcome with
  | none => st.setTask s (.joined outcome)
  | some (_, failure) =>
    { (st.cancel (.supervisor s)).setTask s (.joined outcome) with firstError := some failure }

end State

/-- What can happen in a supervised run. -/
inductive Step
  /-- A task begins. -/
  | begin (s : Service)
  /-- A service writes entries. -/
  | write (entries : List Log.Entry)
  /-- A service returns or panics. -/
  | finish (s : Service) (outcome : Outcome)
  /-- A caller that is about to cancel its scope looks whether it is cancelled. -/
  | look (c : Caller)
  /-- A caller that found its scope open gives it the cause. -/
  | give (c : Caller)
  /-- The listener's task cancels the telemetry scope, and so tells that the listener returned. -/
  | tell
  /-- A task ends after its service returned. -/
  | leave (s : Service)
  /-- The supervisor takes in a task that ended. -/
  | take (s : Service)
  /-- The supervisor is done with a task; for the first failure it cancels the group. -/
  | join (s : Service)
  /-- Someone else cancels a scope; for a cause, this is the last step of the call. -/
  | cancel (scope : Scope) (cause : Option String)
deriving Repr, DecidableEq

namespace State

/-- One step, if it is possible.  A panic ends a task at once: its listener tells nobody.  The
    supervisor takes in one task after the other. -/
def step (st : State) : Step → Option State
  | .begin s =>
    match st.taskOf s with
    | .waiting => some ((st.setTask s .running).note (st.startEntry s))
    | _ => none
  | .write es => some { st with entries := st.entries ++ es }
  | .finish s outcome =>
    match st.taskOf s, outcome with
    -- a panic unwinds the task, so neither the telling nor the leaving comes after it
    | .running, .panicked m => some (st.setTask s (.ended (.panicked m)))
    | .running, outcome => some (st.setTask s (.returned outcome))
    | _, _ => none
  | .look c =>
    match st.why? c with
    -- a service makes one call at a time, and others may make as many as they like
    | some _ => if c.isOther || !st.isCalling c then some (st.look c) else none
    | none => none
  | .give c =>
    match st.why? c with
    | some why => if st.giving.contains c then some (st.give c why) else none
    | none => none
  | .tell =>
    match st.listener with
    | .returned outcome =>
      if st.cancelling.contains .listener then
        some { st.cancel .listener with listener := .told outcome }
      else none
    | _ => none
  | .leave s =>
    match s, st.taskOf s with
    | .listener, .told outcome => some (st.setTask s (.ended outcome))
    | .telemetry, .returned outcome => some (st.setTask s (.ended outcome))
    | _, _ => none
  | .take s =>
    match st.taskOf s with
    | .ended outcome =>
      -- the supervisor is busy with a task until it has joined it
      if st.listener.isTaken || st.telemetry.isTaken then none
      else some ((st.setTask s (.taken outcome)).note (st.endEntry s outcome))
    | _ => none
  | .join s =>
    match st.taskOf s with
    | .taken outcome =>
      -- at a first failure the group is cancelled before the task counts as joined
      if (st.why? (.supervisor s)).isSome && !st.cancelling.contains (.supervisor s) then none
      else some (st.join s outcome)
    | _ => none
  | .cancel scope none => some { st with scopes := st.scopes.cancel scope }
  | .cancel scope (some why) =>
    if st.cancelling.contains (.other scope why) then some (st.cancel (.other scope why))
    else none

/-- A sequence of steps; none if one of them is not possible. -/
def runs (st : State) : List Step → Option State
  | [] => some st
  | a :: as => (st.step a).bind fun st => runs st as

/-- Whether both tasks were joined. -/
def isOver (st : State) : Bool :=
  st.listener.isOver && st.telemetry.isOver

/-- The result, once both tasks were joined: the first failure, if there was one. -/
def result? (st : State) : Option (Except Failure Unit) :=
  if st.isOver then
    some (match st.firstError with
      | some failure => .error failure
      | none => .ok ())
  else none

/-- The steps of a call that nobody interrupts, up to its last one. -/
def lookAndGive (st : State) (c : Caller) : List Step :=
  match st.why? c with
  | none => []
  | some _ => if st.scopes.isCancelled (st.target c) then [.look c] else [.look c, .give c]

end State

end RunnerPool.Supervisor
