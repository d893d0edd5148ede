/-! # Log entries

What a run says about itself, as data.  Every part of the program that logs returns its entries
in order; only the outermost layer prints them. -/

namespace RunnerPool.Log

/-- How important an entry is, from the least. -/
inductive Level
  | trace
  | debug
  | info
  | warn
  | error
deriving Repr, DecidableEq

namespace Level

/-- The place of a level among the others. -/
def rank : Level → Nat
  | .trace => 0
  | .debug => 1
  | .info => 2
  | .warn => 3
  | .error => 4

/-- The name of a level. -/
def name : Level → String
  | .trace => "TRACE"
  | .debug => "DEBUG"
  | .info => "INFO"
  | .warn => "WARN"
  | .error => "ERROR"

end Level

/-- The part of the program that speaks. -/
inductive Source
  | program
  | supervisor
  | listener
  | scaler
  | sequencer
  | shutdown
  | telemetry
deriving Repr, DecidableEq

/-- The name of a part. -/
def Source.name : Source → String
  | .program => "listener"
  | .supervisor => "poolscale_listener::supervisor"
  | .listener => "poolscale_listener::listener"
  | .scaler => "poolscale_listener::scaler"
  | .sequencer => "poolscale_listener::scaler::sequencer"
  | .shutdown => "poolscale_listener::shutdown"
  | .telemetry => "poolscale_listener::telemetry"

/-- What an entry says about a name. -/
inductive Datum
  /-- A text that is shown as it is. -/
  | plain (s : String)
  /-- A text that is shown quoted where entries are written as text. -/
  | quoted (s : String)
  | int (n : Int)
  | bool (b : Bool)
deriving Repr, DecidableEq

/-- One entry. -/
structure Entry where
  level : Level
  source : Source
  message : String
  fields : List (String × Datum) := []
deriving Repr, DecidableEq

end RunnerPool.Log
