import RunnerPool.Log.Filter
import RunnerPool.Log.Line
import RunnerPool.Daemon.Basic
import RunnerPool.Settings.Load

/-! # A process from its start to its exit

Loads the settings, runs the services, and tells how it ended: by the entries that are shown, by
the exit code, and by a report of the failure if there was one.

* `Failure.report c`         a failure with its causes, as text
* `Daemon.transcript …`     all that a process leaves behind -/

namespace RunnerPool

namespace Failure

/-- A text after a mark; further lines of it are set in as far as the mark is wide. -/
def setIn (mark : String) (s : String) : String :=
  let indent := String.ofList (List.replicate mark.length ' ')
  mark ++ String.intercalate ("\n" ++ indent) ((Text.pieces '\n' s.toList).map String.ofList)

/-- The mark of a cause among several. -/
def numberMark (n : Nat) : String :=
  let digits := toString n
  String.ofList (List.replicate (5 - digits.length) ' ') ++ digits ++ ": "

/-- The causes, set in; several are numbered from zero. -/
def causes : List String → List String
  | [cause] => [setIn "    " cause]
  | cs => cs.zipIdx.map fun (cause, n) => setIn (numberMark n) cause

/-- A failure with its causes. -/
def report (failure : Failure) : String :=
  match failure with
  | [] => ""
  | [outer] => outer
  | outer :: rest => outer ++ "\n\nCaused by:\n" ++ String.intercalate "\n" (causes rest)

end Failure

namespace Daemon

/-- The variable that asks for a filter of its own. -/
def filterVariable : String := "RUST_LOG"

/-- The filter of a process: that of the environment, or else that of the settings' level. -/
def filter (env : List (String × String)) (s : Settings) : Log.Filter :=
  match (env.lookup filterVariable).bind Log.Filter.parse? with
  | some f => f
  | none => (Log.Filter.parse? (Settings.lower s.logLevel)).getD (.ofLevel .error)

/-- An entry of the program itself. -/
private def programEntry (level : Log.Level) (message : String)
    (fields : List (String × Log.Datum)) : Log.Entry :=
  ⟨level, .program, message, fields⟩

/-- The entry that tells of the settings. -/
def loaded (s : Settings) : Log.Entry :=
  programEntry .info "Configuration loaded" [
    ("namespace", .plain s.ns),
    ("name", .plain s.name),
    ("min_runners", .int s.minRunners.toInt),
    ("max_runners", .int s.maxRunners.toInt),
    ("metrics_addr", .plain s.metricsAddress)]

/-- The entry once requests can be sent. -/
def clientReady : Log.Entry :=
  programEntry .info "Cluster client ready" [("default_namespace", .plain "default")]

/-- The last entry of a process. -/
def farewell : Except Failure Unit → Log.Entry
  | .ok () => programEntry .info "Listener shutdown complete" []
  | .error failure =>
    programEntry .error "Listener exited with error"
      [("error", .plain (Supervisor.chainText failure))]

/-- All that a process leaves behind. -/
structure Transcript where
  format : LogFormat
  /-- The entries that are shown. -/
  entries : List Log.Entry
  /-- The result, none if the process does not end. -/
  result : Option (Except Failure Unit)

namespace Transcript

/-- An entry as it is shown. -/
def line (t : Transcript) (e : Log.Entry) : String :=
  match t.format with
  | .json => e.toValue.compact
  | .text => e.text

/-- The exit code: one after a failure; none if the process does not end. -/
def exitCode (t : Transcript) : Option UInt32 :=
  t.result.map fun r =>
    match r with
    | .ok () => 0
    | .error _ => 1

/-- What is written to the error output. -/
def complaint (t : Transcript) : String :=
  match t.result with
  | some (.error failure) => "Error: " ++ failure.report ++ "\n"
  | _ => ""

end Transcript

/-- Why a process without settings ends. -/
def unsettled (e : Settings.Error) : Failure :=
  "failed to load listener configuration" :: e.chain

/-- A process under its settings. -/
def settled (env : List (String × String)) (s : Settings) (e : Surroundings) : Transcript :=
  let (entries, result) : List Log.Entry × Option (Except Failure Unit) :=
    match s.address? with
    | .error why => ([], some (.error [why.message]))
    | .ok address =>
      let r := run s address e
      (r.supervisor.entries, r.supervisor.result?)
  let all := loaded s :: clientReady :: (entries ++ (result.map farewell).toList)
  ⟨s.logFormat, all.filter (filter env s).shows, result⟩

/-- A process in its environment: files, variables, and what it meets later. -/
def transcript (files : String → Option (List UInt8)) (env : List (String × String))
    (e : Surroundings) : Transcript :=
  match Settings.fromEnv files env with
  | .error why => ⟨.json, [], some (.error (unsettled why))⟩
  | .ok s => settled env s e

end Daemon

/-- A cluster to which there is no way. -/
def Cluster.unreachable : Cluster.Script := fun _ _ =>
  .done (.lost ["client error (Connect)", "tcp connect error",
    "Network is unreachable (os error 101)"])

end RunnerPool
