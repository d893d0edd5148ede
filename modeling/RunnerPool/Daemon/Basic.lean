import RunnerPool.Listener.Source
import RunnerPool.Pool
import RunnerPool.Settings.Basic
import RunnerPool.Supervisor.Basic

/-! # The services of a process

The listener over a pool, and telemetry if the settings ask for it, both supervised, in given
surroundings.

* `Surroundings`       everything that a process meets
* `Daemon.run s …`    the services from their beginning to their end -/

namespace RunnerPool

/-- A signal that asks a process to end. -/
inductive Signal
  | terminate
  | interrupt
deriving Repr, DecidableEq

/-- Why a process that got a signal ends. -/
def Signal.cause : Signal → String
  | .terminate => "received SIGTERM"
  | .interrupt => "received SIGINT"

/-- The entry when a signal comes. -/
def Signal.entry (s : Signal) : Log.Entry :=
  ⟨.info, .shutdown, "Initiating graceful shutdown", [("cause", .quoted s.cause)]⟩

/-- Everything that a process meets. -/
structure Surroundings where
  input : List UInt8
  /-- The signal that comes when the process waits for more input; the input stays open for
      it. -/
  signal : Option Signal
  cluster : Cluster.Script
  /-- Why an address cannot be bound, if it cannot. -/
  refusal : SocketAddress → Option String

namespace Daemon

open Supervisor (Step)

/-- The scope of the whole process. -/
def root : Scope := Scopes.empty.root.1

/-- What happens when a signal comes. -/
def received (s : Signal) : List Happening :=
  [.note s.entry, .cancel root (some s.cause)]

/-- The reads of the input. -/
def reads (e : Surroundings) : List Read :=
  match e.signal with
  | none => Read.ofLines e.input
  | some s => Read.ofOpenLines e.input (.pause (received s) .stall)

/-- The metrics of a process before its first event. -/
def metrics (s : Settings) : Metrics :=
  (Metrics.new s.labels).recordStatic s.minRunners s.maxRunners

/-- What a run of the services leaves behind. -/
structure Run where
  supervisor : Supervisor.State
  requests : List Cluster.Request
  metrics : Option Metrics

/-- The ids of the tasks.  Neither service panics, so they are not shown. -/
def taskId : Supervisor.Service → Supervisor.TaskId
  | .listener => ⟨0, "0"⟩
  | .telemetry => ⟨1, "1"⟩

/-- The services before their first step. -/
def start (telemetry : Bool) : Supervisor.State :=
  Supervisor.State.start Scopes.empty.root.2 root "listener"
    (if telemetry then some "telemetry" else none) taskId

/-- A state after steps that are possible in it. -/
def after (st : Supervisor.State) (steps : List Step) : Supervisor.State :=
  (st.runs steps).getD st

/-- A state after a call that nobody interrupts. -/
def afterCall (st : Supervisor.State) (c : Supervisor.Caller) (last : Step) : Supervisor.State :=
  after st (st.lookAndGive c ++ [last])

/-- A state after the task of a service was taken in. -/
def afterJoin (st : Supervisor.State) (s : Supervisor.Service) : Supervisor.State :=
  afterCall (after st [.take s]) (.supervisor s) (.join s)

/-- The telemetry server begins; one whose address is refused ends at once. -/
def openTelemetry (st : Supervisor.State) (address : SocketAddress) (endpoint : String) :
    (refusal : Option String) → Supervisor.State
  | none => after st [.begin .telemetry, .write [Telemetry.listening address endpoint]]
  | some why =>
    let failure := Telemetry.bindFailure address why
    afterJoin (after st [.begin .telemetry, .finish .telemetry (.failed failure),
      .leave .telemetry]) .telemetry

/-- The telemetry server ends once its scope is cancelled. -/
def closeTelemetry (st : Supervisor.State) : Supervisor.State :=
  let last := Telemetry.shuttingDown (st.scopes.cause st.telemetryScope)
  afterJoin (after st [.write [last], .finish .telemetry .ok, .leave .telemetry]) .telemetry

/-- The listener comes to its end. -/
def closeListener (st : Supervisor.State) (o : Supervisor.Outcome) : Supervisor.State :=
  let st := afterCall (after st [.finish .listener o]) .listener .tell
  afterJoin (after st [.leave .listener]) .listener

/-- The services after all that the listener reads: its entries are written, and a signal may have
    cancelled the root. -/
def afterReading (st : Supervisor.State) (r : Listener.Report Pool) : Supervisor.State :=
  let st := after st [.write r.entries]
  match r.scopes.isCancelled root, r.scopes.cause root with
  | true, some why => afterCall st (.other root why) (.cancel root (some why))
  | true, none => after st [.cancel root none]
  | false, _ => st

/-- The listener comes to its end, or to a wait without one. -/
def endListener (st : Supervisor.State) (r : Listener.Report Pool) : Supervisor.State :=
  let st := afterReading st r
  match r.ending with
  | .ok => closeListener st .ok
  | .failed failure => closeListener st (.failed failure)
  | .stalled => st

/-- The services once the listener is about to read, under settings that were checked and with the
    address at which telemetry is served. -/
def opened (s : Settings) (address : Option SocketAddress) (e : Surroundings) :
    Supervisor.State :=
  let st := after (start address.isSome) [.begin .listener]
  match address with
  | some a => openTelemetry st a s.metricsEndpoint (e.refusal a)
  | none => st

/-- What the listener reports. -/
def report (s : Settings) (address : Option SocketAddress) (e : Surroundings) :
    Listener.Report Pool :=
  let st := opened s address e
  Listener.run st.group (Pool.handler e.cluster) (reads e) (.new s.ns s.name s.bounds)
    st.scopes (address.map fun _ => metrics s)

/-- The services from their beginning to their end. -/
def run (s : Settings) (address : Option SocketAddress) (e : Surroundings) : Run :=
  let r := report s address e
  let st := endListener (opened s address e) r
  let st :=
    -- the endpoint serves until its scope is cancelled, which the listener's end sees to
    if st.telemetry = .running ∧ st.scopes.isCancelled st.telemetryScope then closeTelemetry st
    else st
  ⟨st, r.handler.sent, r.metrics⟩

end Daemon

end RunnerPool
