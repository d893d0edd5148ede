import RunnerPool.Metrics
import RunnerPool.Route
import RunnerPool.Sequencer
import RunnerPool.SocketAddress
import RunnerPool.Telemetry
import RunnerPool.Text.Quoted

/-! # Settings

What a process is told about its pool and about itself, and which of it makes sense.

* `Settings.check s`     why settings are refused, if they are
* `Settings.address? s`  where telemetry is served, if it is -/

namespace RunnerPool

/-- How entries are printed. -/
inductive LogFormat
  | json
  | text
deriving Repr, DecidableEq

/-- The name of a format. -/
def LogFormat.name : LogFormat → String
  | .json => "json"
  | .text => "text"

/-- The settings of a process. -/
structure Settings where
  ns : String
  name : String
  /-- The scale set as it is registered with the session. -/
  scaleSet : String := ""
  minRunners : Int32 := 0
  maxRunners : Int32 := Int32.maxValue
  logLevel : String := "info"
  logFormat : LogFormat := .json
  /-- Where telemetry is served; nowhere if empty. -/
  metricsAddress : String := ""
  metricsEndpoint : String := "/metrics"
deriving Repr, DecidableEq

namespace Settings

/-- Why settings are refused. -/
inductive Refusal
  | missingRunnerSet (ns name : String)
  | negativeMin (min : Int32)
  | crossedBounds (min max : Int32)
  | logLevel (given : String)
  | endpoint (given : String)
  | address (given : String)
deriving Repr, DecidableEq

/-- The wording of a refusal. -/
def Refusal.message : Refusal → String
  | .missingRunnerSet ns name =>
    "ephemeral_runner_set_namespace " ++ Text.quoted ns ++ " or ephemeral_runner_set_name " ++
      Text.quoted name ++ " is missing"
  | .negativeMin min => "min_runners " ++ toString min.toInt ++ " cannot be negative"
  | .crossedBounds min max =>
    "min_runners " ++ toString min.toInt ++ " cannot be greater than max_runners " ++
      toString max.toInt
  | .logLevel given => "invalid log level: " ++ given
  | .endpoint given =>
    "invalid metrics_endpoint " ++ Text.quoted given ++
      ": must be a static absolute path other than /healthz"
  | .address given =>
    "invalid metrics_addr " ++ Text.quoted given ++ ": invalid socket address syntax"

/-- The levels that can be asked for. -/
def logLevels : List String := ["debug", "info", "warn", "error"]

/-- A text in lower case; only ASCII letters matter where this is used. -/
def lower (s : String) : String :=
  String.ofList (s.toList.map Char.toLower)

/-- Where telemetry is served, if it is; or that the address is none. -/
def address? (s : Settings) : Except Refusal (Option SocketAddress) :=
  if s.metricsAddress = "" then .ok none
  else
    match SocketAddress.parse? s.metricsAddress with
    | some a => .ok (some a)
    | none => .error (.address s.metricsAddress)

/-- Refuses settings that make no sense. -/
def check (s : Settings) : Except Refusal Unit :=
  if s.ns = "" ∨ s.name = "" then .error (.missingRunnerSet s.ns s.name)
  else if s.minRunners < 0 then .error (.negativeMin s.minRunners)
  else if s.maxRunners < s.minRunners then .error (.crossedBounds s.minRunners s.maxRunners)
  else if ¬ lower s.logLevel ∈ logLevels then .error (.logLevel s.logLevel)
  else if !Route.isStatic s.metricsEndpoint ∨ s.metricsEndpoint = Telemetry.healthPath then
    .error (.endpoint s.metricsEndpoint)
  else s.address?.map fun _ => ()

/-- The bounds of the pool. -/
def bounds (s : Settings) : Bounds := ⟨s.minRunners, s.maxRunners⟩

/-- The labels of the metrics. -/
def labels (s : Settings) : Labels := ⟨s.name, s.ns, s.scaleSet⟩

end Settings

end RunnerPool
