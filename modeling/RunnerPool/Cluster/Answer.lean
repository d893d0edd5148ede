import RunnerPool.Cluster.Request
import RunnerPool.Json.Record

/-! # Answers of the cluster

What comes back for a request, and what it means: a resource, or an error with its causes.

* `Answer.decode record a`   the resource in an answer, or the error that it is
* `Error.chain e`            an error and what lies behind it, the outermost first -/

namespace RunnerPool.Cluster

open Json

/-- What comes back for a request. -/
inductive Answer
  | response (status : Nat) (body : List UInt8)
  /-- No response: why, the outermost cause first. -/
  | lost (causes : List String)
deriving Repr, DecidableEq

/-- What the cluster says about a request that it refused. -/
structure Refusal where
  status : String
  message : String
  reason : String
  code : Nat
deriving Repr, DecidableEq

namespace Refusal

/-- A refusal as a record. -/
def record : Record Refusal where
  name := "ErrorResponse"
  blank := ⟨"", "", "", 0⟩
  fields := [
    .text "status" .required (·.status) fun s r => { r with status := s },
    .text "message" .defaulted (·.message) fun s r => { r with message := s },
    .text "reason" .defaulted (·.reason) fun s r => { r with reason := s },
    .int "code" .nat16 .required (fun r => (r.code : Int)) fun n r => { r with code := n.toNat }]

/-- The refusal in brief. -/
def brief (r : Refusal) : String := r.message ++ ": " ++ r.reason

/-- The refusal with all its parts. -/
def full (r : Refusal) : String :=
  "ErrorResponse \x7b status: " ++ Text.quoted r.status ++ ", message: " ++
    Text.quoted r.message ++ ", reason: " ++ Text.quoted r.reason ++ ", code: " ++
    toString r.code ++ " \x7d"

end Refusal

/-- The words that go with a status. -/
def reasonPhrase : Nat → String
  | 400 => "Bad Request"
  | 401 => "Unauthorized"
  | 402 => "Payment Required"
  | 403 => "Forbidden"
  | 404 => "Not Found"
  | 405 => "Method Not Allowed"
  | 406 => "Not Acceptable"
  | 407 => "Proxy Authentication Required"
  | 408 => "Request Timeout"
  | 409 => "Conflict"
  | 410 => "Gone"
  | 411 => "Length Required"
  | 412 => "Precondition Failed"
  | 413 => "Payload Too Large"
  | 414 => "URI Too Long"
  | 415 => "Unsupported Media Type"
  | 416 => "Range Not Satisfiable"
  | 417 => "Expectation Failed"
  | 418 => "I'm a teapot"
  | 421 => "Misdirected Request"
  | 422 => "Unprocessable Entity"
  | 423 => "Locked"
  | 424 => "Failed Dependency"
  | 425 => "Too Early"
  | 426 => "Upgrade Required"
  | 428 => "Precondition Required"
  | 429 => "Too Many Requests"
  | 431 => "Request Header Fields Too Large"
  | 451 => "Unavailable For Legal Reasons"
  | 500 => "Internal Server Error"
  | 501 => "Not Implemented"
  | 502 => "Bad Gateway"
  | 503 => "Service Unavailable"
  | 504 => "Gateway Timeout"
  | 505 => "HTTP Version Not Supported"
  | 506 => "Variant Also Negotiates"
  | 507 => "Insufficient Storage"
  | 508 => "Loop Detected"
  | 510 => "Not Extended"
  | 511 => "Network Authentication Required"
  | _ => "<unknown status code>"

/-- Why a request failed. -/
inductive Error
  | unbuildable (why : Unbuildable)
  | lost (causes : List String)
  | refused (refusal : Refusal)
  | notText (fault : Utf8.Fault)
  /-- The body is not the resource; the wording of the fault in it. -/
  | unreadable (why : String)
deriving Repr, DecidableEq

namespace Error

/-- The error and what lies behind it, the outermost first. -/
def chain : Error → List String
  | .unbuildable why => ("Failed to build request: " ++ why.message) :: why.chain
  | .lost causes => ("ServiceError: " ++ causes.headD "") :: causes
  | .refused r => ["ApiError: " ++ r.brief ++ " (" ++ r.full ++ ")", r.brief]
  | .notText fault => ["UTF-8 Error: " ++ fault.message, fault.message]
  | .unreadable why => ["Error deserializing response: " ++ why, why]

/-- The wording of an error. -/
def message (e : Error) : String := e.chain.headD ""

/-- Whether the error says that the resource does not exist. -/
def isNotFound : Error → Bool
  | .refused r => r.code == 404
  | _ => false

end Error

namespace Answer

/-- Whether a status reports an error. -/
def isErrorStatus (status : Nat) : Bool := 400 ≤ status && status < 600

/-- The refusal in an answer of an error status: what its body says, or else what the status
    does. -/
def refusal (status : Nat) (body : List Char) : Refusal :=
  match Refusal.record.ofText body with
  | .ok r => r
  | .error _ =>
    ⟨toString status ++ " " ++ reasonPhrase status, Text.quoted (String.ofList body),
      "Failed to parse error data", status⟩

/-- The resource in an answer, or the error that the answer is. -/
def decode (record : Record α) : Answer → Except Error α
  | .lost causes => .error (.lost causes)
  | .response status bytes =>
    match Utf8.decode bytes with
    | .error fault => .error (.notText fault)
    | .ok body =>
      if isErrorStatus status then .error (.refused (refusal status body))
      else (record.ofText body).mapError fun f => .unreadable (f.messageIn body)

end Answer

end RunnerPool.Cluster
