import NodeFeatureOperator.Json.Basic

/-!
# Requests and responses

What the operator sends to the cluster interface and what comes back: documents as requests, text
as responses.

## Main definitions

* `Http.Request`, `Http.Response`: the messages.
* `Http.statusLine`: a response code with its standard phrase.
-/

namespace NodeFeatureOperator

namespace Http

/-- What a request asks for. -/
inductive Method where
  | get
  | post
  | put
  | patch
  | delete
deriving DecidableEq, Repr, Inhabited

/-- The name of a method. -/
def Method.text : Method → String
  | .get => "GET"
  | .post => "POST"
  | .put => "PUT"
  | .patch => "PATCH"
  | .delete => "DELETE"

/-- A document that is sent. -/
structure Payload where
  contentType : String
  document : Json
deriving DecidableEq, Repr, Inhabited

/-- A request. -/
structure Request where
  method : Method
  target : String
  payload : Option Payload := none
deriving DecidableEq, Repr, Inhabited

/-- A response. -/
structure Response where
  code : Nat
  body : String
deriving DecidableEq, Repr, Inhabited

/-- Whether the code of a response is one of an error. -/
def Response.isError (r : Response) : Bool := 400 ≤ r.code && r.code < 600

/-- The standard phrase of a code of an error. -/
def phrase? : Nat → Option String
  | 400 => some "Bad Request"
  | 401 => some "Unauthorized"
  | 402 => some "Payment Required"
  | 403 => some "Forbidden"
  | 404 => some "Not Found"
  | 405 => some "Method Not Allowed"
  | 406 => some "Not Acceptable"
  | 407 => some "Proxy Authentication Required"
  | 408 => some "Request Timeout"
  | 409 => some "Conflict"
  | 410 => some "Gone"
  | 411 => some "Length Required"
  | 412 => some "Precondition Failed"
  | 413 => some "Payload Too Large"
  | 414 => some "URI Too Long"
  | 415 => some "Unsupported Media Type"
  | 416 => some "Range Not Satisfiable"
  | 417 => some "Expectation Failed"
  | 418 => some "I'm a teapot"
  | 421 => some "Misdirected Request"
  | 422 => some "Unprocessable Entity"
  | 423 => some "Locked"
  | 424 => some "Failed Dependency"
  | 425 => some "Too Early"
  | 426 => some "Upgrade Required"
  | 428 => some "Precondition Required"
  | 429 => some "Too Many Requests"
  | 431 => some "Request Header Fields Too Large"
  | 451 => some "Unavailable For Legal Reasons"
  | 500 => some "Internal Server Error"
  | 501 => some "Not Implemented"
  | 502 => some "Bad Gateway"
  | 503 => some "Service Unavailable"
  | 504 => some "Gateway Timeout"
  | 505 => some "HTTP Version Not Supported"
  | 506 => some "Variant Also Negotiates"
  | 507 => some "Insufficient Storage"
  | 508 => some "Loop Detected"
  | 510 => some "Not Extended"
  | 511 => some "Network Authentication Required"
  | _ => none

/-- A code with its phrase. -/
def statusLine (code : Nat) : String :=
  toString code ++ " " ++ (phrase? code).getD "<unknown status code>"

end Http

end NodeFeatureOperator
