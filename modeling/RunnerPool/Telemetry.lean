import RunnerPool.Log
import RunnerPool.Metrics
import RunnerPool.Route
import RunnerPool.SocketAddress

/-! # Telemetry

Serves the metrics under a route of its own choice, and the health of the process under a fixed
path.

* `Telemetry.table? endpoint`    the routes, none if the metrics cannot be mounted
* `Telemetry.respond t m q`      the response to a request
* `Telemetry.serve`              a server from its beginning to its end -/

namespace RunnerPool.Telemetry

/-- The path of the health of the process. -/
def healthPath : String := "/healthz"

/-- The kind of text that the metrics are. -/
def metricsType : String := "text/plain; version=0.0.4; charset=utf-8"

/-- The kind of text that the health is. -/
def healthType : String := "application/json"

/-- The routes of a server: where the metrics are. -/
structure Table where
  metrics : Route.Parts
deriving Repr, DecidableEq

/-- The routes with the metrics under an endpoint; none if the endpoint is no route, or is that
    of the health. -/
def table? (endpoint : String) : Option Table :=
  if endpoint = healthPath then none else (Route.parse? endpoint).map (⟨·⟩)

/-- What is served at a path. -/
inductive Page
  | metrics
  | health
deriving Repr, DecidableEq

/-- What is served at a path, if anything; the fixed path comes before captures. -/
def Table.page? (t : Table) (path : List Char) : Option Page :=
  if path = healthPath.toList then some .health
  else if Route.accepts t.metrics path then some .metrics
  else none

/-- Whether a path ends before the character. -/
def endsPath (c : Char) : Bool :=
  c == '?' || c == '#'

/-- What follows the scheme of a target and its two slashes, if it has a scheme. -/
def afterScheme? (cs : List Char) : Option (List Char) :=
  match cs.dropWhile fun c => c.isAlphanum || c == '+' || c == '-' || c == '.' with
  | ':' :: '/' :: '/' :: rest => some rest
  | _ => none

/-- The path of a request's target.  A target that begins with a slash begins with its path; behind
    a scheme and an authority the path may be left out; a target that is only an authority has
    none. -/
def pathOf (target : String) : List Char :=
  match target.toList with
  | '/' :: cs => '/' :: cs.takeWhile (!endsPath ·)
  | ['*'] => ['*']
  | cs =>
    match afterScheme? cs with
    | none => []
    | some rest =>
      match (rest.dropWhile fun c => c != '/' && !endsPath c).takeWhile (!endsPath ·) with
      | [] => ['/']
      | path => path

/-- The body of a response. -/
inductive Body
  | empty
  | text (s : String)
  /-- The health of the process, with the moment at which it was asked for. -/
  | health
deriving Repr, DecidableEq

/-- A response. -/
structure Response where
  status : Nat
  contentType : Option String
  allow : Option String
  body : Body
deriving Repr, DecidableEq

/-- A page as it is served. -/
def Page.response (m : Metrics) : Page → Response
  | .metrics => ⟨200, some metricsType, none, .text m.render⟩
  | .health => ⟨200, some healthType, none, .health⟩

/-- Nothing is served there. -/
def notFound : Response := ⟨404, none, none, .empty⟩

/-- Something is served there, but only to be read. -/
def notAllowed : Response := ⟨405, none, some "GET,HEAD", .empty⟩

/-- The response to a request. -/
def respond (t : Table) (m : Metrics) (method target : String) : Response :=
  match t.page? (pathOf target) with
  | none => notFound
  | some p =>
    if method = "GET" then p.response m
    else if method = "HEAD" then { p.response m with body := .empty }
    else notAllowed

/-- The fields of the health; the moment is given as text. -/
def health (timestamp : String) : List (String × String) :=
  [("status", "ok"), ("service", "listener"), ("version", "0.1.0"), ("timestamp", timestamp)]

/-! ### The server -/

/-- The entry when the server begins. -/
def listening (address : SocketAddress) (endpoint : String) : Log.Entry :=
  ⟨.info, .telemetry, "Telemetry server listening",
    [("addr", .plain address.shown), ("endpoint", .plain endpoint)]⟩

/-- The entry when the server's scope is cancelled. -/
def shuttingDown (cause : Option String) : Log.Entry :=
  ⟨.info, .telemetry, "Telemetry server shutting down", [("cause", .plain (cause.getD "canceled"))]⟩

/-- Why a server cannot begin at an address. -/
def bindFailure (address : SocketAddress) (why : String) : List String :=
  ["binding telemetry server to " ++ address.shown, why]

/-- How a server ends. -/
inductive Ending
  | ok
  | failed (failure : List String)
  /-- The endpoint is no route. -/
  | crashed
deriving Repr, DecidableEq

/-- A server under a scope that is cancelled at last for a cause; `refusal` tells why the address
    cannot be bound, if it cannot. -/
def serve (address : SocketAddress) (endpoint : String) (refusal : Option String)
    (cause : Option String) : Ending × List Log.Entry :=
  match refusal with
  | some why => (.failed (bindFailure address why), [])
  | none =>
    match table? endpoint with
    | none => (.crashed, [listening address endpoint])
    | some _ => (.ok, [listening address endpoint, shuttingDown cause])

end RunnerPool.Telemetry
