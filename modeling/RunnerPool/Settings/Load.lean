import RunnerPool.Settings.Basic
import RunnerPool.Settings.Tree

/-! # Loading settings

Settings come from a JSON file; an environment variable with the right name takes the place of a
key of the file.  Values are given their types generously: a number may stand for a text, and a
word for a number.

* `Settings.ofTree t`       the settings in a tree, or the first fault
* `Settings.load files …`   the settings of a file and an environment, checked
* `Settings.fromEnv`        the same, with the file named by the environment -/

namespace RunnerPool

namespace Settings

/-- The variable that names the file. -/
def pathVariable : String := "LISTENER_CONFIG_PATH"

/-- What the names of the other variables begin with, in any case. -/
def variableStart : String := "listener_"

/-- What the environment is called in faults. -/
def environmentName : String := "the environment"

/-- Why settings cannot be loaded. -/
inductive LoadFault
  | fileNotFound (path : String)
  | notJson (flaw : Json.Flaw) (position : Json.Position) (file : String)
  /-- The file holds no object. -/
  | notTable (found file : String)
  /-- A value of a kind that cannot be taken for the wanted one. -/
  | kind (found expected key : String) (origin : Option String)
  | unknownFormat (name : String)
  | malformedFormat
  | missing (key : String)
deriving DecidableEq

/-- The place of a fault, where there is one. -/
def inOrigin : Option String → String
  | some origin => " in " ++ origin
  | none => ""

/-- The wording of a fault. -/
def LoadFault.message : LoadFault → String
  | .fileNotFound path => "configuration file \"" ++ path ++ "\" not found"
  | .notJson flaw position file => flaw.message ++ position.message ++ " in " ++ file
  | .notTable found file =>
    "invalid type: " ++ found ++ ", expected a map in " ++ file ++ " in " ++ file
  | .kind found expected key origin =>
    "invalid type: " ++ found ++ ", expected " ++ expected ++ " for key `" ++ key ++ "`" ++
      inOrigin origin
  | .unknownFormat name =>
    "enum LogFormat does not have variant constructor " ++ name ++ " for key `log_format`"
  | .malformedFormat =>
    "value of enum LogFormat should be represented by either string or table with exactly one" ++
      " key for key `log_format`"
  | .missing key => "missing configuration field \"" ++ key ++ "\""

/-- Why there are no settings. -/
inductive Error
  /-- The environment names no file. -/
  | missingPath
  | load (fault : LoadFault)
  | refused (why : Refusal)
deriving DecidableEq

/-- The error and what lies behind it, the outermost first. -/
def Error.chain : Error → List String
  | .missingPath => [pathVariable ++ " environment variable is not set"]
  | .load fault => ["failed to load configuration: " ++ fault.message, fault.message]
  | .refused why => [why.message]

/-- The wording of an error. -/
def Error.message (e : Error) : String := e.chain.headD ""

/-! ### Types -/

/-- What was found, as faults tell it. -/
def foundPlain : Setting.Plain → String
  | .nothing => "unit value"
  | .bool b => "boolean `" ++ (if b then "true" else "false") ++ "`"
  | .int n => (if isInt64 n then "64-bit integer `" else "64-bit unsigned integer `") ++
      toString n ++ "`"
  | .float x => "floating point `" ++ x.shown ++ "`"
  | .text s => "string " ++ Text.quoted s

/-- What was found, as faults tell it. -/
def found : Setting → String
  | .plain _ v => foundPlain v
  | .list _ _ => "sequence"
  | .table _ => "map"

/-- Where a value comes from, if it is known. -/
def originOf : Setting → Option String
  | .plain origin _ => origin
  | .list origin _ => origin
  | .table _ => none

/-- The text that a value can be taken for. -/
def text? : Setting.Plain → Option String
  | .nothing => none
  | .bool b => some (if b then "true" else "false")
  | .int n => some (toString n)
  | .float x => some x.shown
  | .text s => some s

/-- The integer that a word or digits stand for. -/
def wordInt? (s : String) : Option Int :=
  let low := lower s
  if low = "true" ∨ low = "on" ∨ low = "yes" then some 1
  else if low = "false" ∨ low = "off" ∨ low = "no" then some 0
  else parseInt64? s.toList

/-- The integer that a value can be taken for. -/
def int? : Setting.Plain → Option Int
  | .nothing => none
  | .bool b => some (if b then 1 else 0)
  | .int n => if isInt64 n then some n else none
  | .float x => some x.toInt64
  | .text s => wordInt? s

/-- A fault of kind. -/
def wrongKind (expected key : String) (v : Setting) : LoadFault :=
  .kind (found v) expected key (originOf v)

/-- A text setting. -/
def asText (key : String) (v : Setting) : Except LoadFault String :=
  match v with
  | .plain _ p =>
    match text? p with
    | some s => .ok s
    | none => .error (wrongKind "a string" key v)
  | _ => .error (wrongKind "a string" key v)

/-- A setting of 64 bits with a sign. -/
def asInt64 (key : String) (v : Setting) : Except LoadFault Int :=
  match v with
  | .plain _ (.int n) =>
    if isInt64 n then .ok n
    else .error (wrongKind "an signed 64 bit or less integer" key v)
  | .plain _ p =>
    match int? p with
    | some n => .ok n
    | none => .error (wrongKind "an integer" key v)
  | _ => .error (wrongKind "an integer" key v)

/-- A setting of 32 bits with a sign. -/
def asInt32 (key : String) (v : Setting) : Except LoadFault Int32 := do
  let n ← asInt64 key v
  if Int32.minValue.toInt ≤ n ∧ n ≤ Int32.maxValue.toInt then return Int32.ofInt n
  else .error (.kind (foundPlain (.int n)) "an signed 32 bit integer" key none)

/-- The format with a name. -/
def formatNamed (name : String) : Except LoadFault LogFormat :=
  if name = LogFormat.json.name then .ok .json
  else if name = LogFormat.text.name then .ok .text
  else .error (.unknownFormat name)

/-- The format of entries: its name, or a table with the name as its only key. -/
def asFormat : Setting → Except LoadFault LogFormat
  | .plain _ (.text name) => formatNamed name
  | .table [(name, _)] => formatNamed name
  | _ => .error .malformedFormat

/-- The value of a key in a tree. -/
def value? (key : String) : Setting → Option Setting
  | .table ms => ms.lookup key
  | _ => none

/-- A setting of a tree, if it is there. -/
def read? (key : String) (as : String → Setting → Except LoadFault α) (t : Setting) :
    Except LoadFault (Option α) :=
  match value? key t with
  | none => .ok none
  | some v => (as key v).map some

/-- A setting that must be there. -/
def must (key : String) : Option α → Except LoadFault α
  | some a => .ok a
  | none => .error (.missing key)

/-- The keys of the settings. -/
def keys : List String := [
  "ephemeral_runner_set_namespace", "ephemeral_runner_set_name", "runner_scale_set_name",
  "min_runners", "max_runners", "log_level", "log_format", "metrics_addr", "metrics_endpoint"]

/-- The settings in a tree, with the keys read in their order.  Every value that is there is given
    its type before a missing one is noticed. -/
def ofTree (t : Setting) : Except LoadFault Settings := do
  let ns ← read? "ephemeral_runner_set_namespace" asText t
  let name ← read? "ephemeral_runner_set_name" asText t
  let scaleSet ← read? "runner_scale_set_name" asText t
  let minRunners ← read? "min_runners" asInt32 t
  let maxRunners ← read? "max_runners" asInt32 t
  let logLevel ← read? "log_level" asText t
  let logFormat ← read? "log_format" (fun _ => asFormat) t
  let metricsAddress ← read? "metrics_addr" asText t
  let metricsEndpoint ← read? "metrics_endpoint" asText t
  -- the two settings without a default
  let ns ← must "ephemeral_runner_set_namespace" ns
  let name ← must "ephemeral_runner_set_name" name
  return {
    ns, name
    scaleSet := scaleSet.getD ""
    minRunners := minRunners.getD 0
    maxRunners := maxRunners.getD Int32.maxValue
    logLevel := logLevel.getD "info"
    logFormat := logFormat.getD .json
    metricsAddress := metricsAddress.getD ""
    metricsEndpoint := metricsEndpoint.getD "/metrics" }

/-! ### Sources -/

/-- The text of a file: a byte order mark is skipped, malformed bytes are replaced. -/
def fileText : List UInt8 → List Char
  | 0xef :: 0xbb :: 0xbf :: bytes => Utf8.repair bytes
  | bytes => Utf8.repair bytes

/-- The members of a file's object. -/
def fileMembers (file : String) (bytes : List UInt8) :
    Except LoadFault (List (String × Setting)) :=
  let cs := fileText bytes
  match Json.Value.read cs with
  | .error f => .error (.notJson f.cause (.ofLeft cs f.left) file)
  | .ok v =>
    match Setting.ofJson (some file) v with
    | .table ms => .ok ms
    | t => .error (.notTable (found t) file)

/-- The key for which a variable stands, if its name begins rightly. -/
def keyOf? (varName : String) : Option String :=
  let low := (lower varName).toList
  let start := variableStart.toList
  if start.isPrefixOf low then some (String.ofList (low.drop start.length)) else none

/-- The last member with each key. -/
def lastOfEach : List (String × α) → List (String × α)
  | [] => []
  | m :: ms => if ms.any (·.1 == m.1) then lastOfEach ms else m :: lastOfEach ms

/-- The members that the environment gives: of the variables for one key, the last counts. -/
def environmentMembers (env : List (String × String)) : List (String × Setting) :=
  lastOfEach <| env.filterMap fun (varName, s) =>
    (keyOf? varName).map fun key => (key, .plain (some environmentName) (.ofText s))

/-- The parts of a path that name something. -/
def pathParts (path : String) : List (List Char) :=
  (Route.segments path.toList).filter fun p => !p.isEmpty && p != ['.']

/-- A path without what names nothing. -/
def plainPath (path : String) : String :=
  String.intercalate "/" ((pathParts path).map String.ofList)

/-- Whether a name has an ending: a point that is not its first character. -/
def hasEnding (name : List Char) : Bool :=
  (name.drop 1).contains '.'

/-- A path with the ending that is tried if nothing has the path itself; a path that does not
    end in a name has none.  Where the name has an ending already, the path is extended as it is
    written, so that slashes behind the name lead to nothing. -/
def withEnding? (path : String) : Option String :=
  match (pathParts path).getLast? with
  | none => none
  | some name =>
    if name = ['.', '.'] then none
    else if hasEnding name then some (path ++ ".json")
    else some (plainPath path ++ ".json")

/-- The file of a path: the name it is called by and its bytes. -/
def findFile (files : String → Option (List UInt8)) (path : String) :
    Except LoadFault (String × List UInt8) :=
  match files path with
  | some bytes => .ok (plainPath path, bytes)
  | none =>
    match (withEnding? path).bind fun p => (files p).map (plainPath p, ·) with
    | some found => .ok found
    | none => .error (.fileNotFound path)

/-- The tree of a file with the environment set over it, the members of each in their order. -/
def tree (files : String → Option (List UInt8)) (path : String) (env : List (String × String)) :
    Except LoadFault Setting := do
  let (file, bytes) ← findFile files path
  let ms ← fileMembers file bytes
  return Setting.putAll (environmentMembers env) (Setting.putAll ms (.table []))

/-- The settings of a file and an environment, checked.  The members of each are set and the keys
    are read in the order in which they are listed; see `Settings.Loads` for the other orders. -/
def load (files : String → Option (List UInt8)) (path : String) (env : List (String × String)) :
    Except Error Settings := do
  let t ← (tree files path env).mapError .load
  let s ← (ofTree t).mapError .load
  s.check.mapError .refused
  return s

/-- The settings of the file that the environment names. -/
def fromEnv (files : String → Option (List UInt8)) (env : List (String × String)) :
    Except Error Settings :=
  match env.lookup pathVariable with
  | none => .error .missingPath
  | some path => load files path env

end Settings

end RunnerPool
