import EventRelay.Envelope
import EventRelay.Stage.Basic

/-!
# The HTTP endpoint

A stage is reached under its own name. Beside it there are a front door, which puts messages into
envelopes and publishes them, a request to publish the reload of rules, and two pages of
information. A request is refused by path, then by method, then by size, before anything is done.
-/

namespace EventRelay

open Text (Bytes)

/-- An HTTP request. -/
structure Request where
  method : String
  /-- The path with the query, if there is one, or a whole address. -/
  target : String
  body : Bytes

/-- What a response carries. -/
inductive ResponseBody
  | empty
  | text (content : String)
  | json (content : Json)

/-- An HTTP response. -/
structure Response where
  status : Nat
  body : ResponseBody
  /-- The methods that the path allows, in a refusal by method. -/
  allow : Option String := none
  /-- The body is described by the headers and left out. -/
  headersOnly : Bool := false

namespace Response

/-- The media type of a response. -/
def contentType (response : Response) : Option String :=
  match response.body with
  | .empty => none
  | .text _ => some "text/plain; charset=utf-8"
  | .json _ => some "application/json"

/-- The bytes of a response. -/
def content (response : Response) : Bytes :=
  if response.headersOnly then []
  else
    match response.body with
    | .empty => []
    | .text content => Text.Utf8.encode content
    | .json content => content.bytes

/-- The response as an answer to a method: a request for the headers gets no body. -/
def answering (response : Response) (method : String) : Response :=
  if method = "HEAD" then { response with headersOnly := true } else response

/-- A response with a report. -/
def ok (content : Json) : Response :=
  { status := 200, body := .json content }

/-- A response with an error. -/
def error (status : Nat) (code message : String) : Response :=
  { status
    body := .json (.object [("error", .text code), ("message", .text message)]) }

/-- The response to a path that leads nowhere. -/
def notFound : Response :=
  { status := 404, body := .empty }

/-- The response to a body that is too large. -/
def tooLarge : Response :=
  { status := 413
    body := .text "Failed to buffer the request body: length limit exceeded" }

end Response

/-- Where a request leads. -/
inductive Route
  /-- Runs the stage. -/
  | stage
  /-- Publishes a message in an envelope. -/
  | ingest
  /-- Publishes a request to reload rules. -/
  | refresh
  /-- Says whether the stage is alive. -/
  | health
  /-- Shows all counters. -/
  | metrics
  deriving DecidableEq, Repr

namespace Route

/-- The names that no stage can be reached under. -/
def reserved : List String :=
  ["ingest", "refreshCache", "health", "metrics"]

/-- Whether a stage can be reached under its name. -/
def isRoutable (stage : String) : Bool :=
  stage ∉ reserved && !stage.toList.any fun c => c = '{' || c = '}'

/-- The characters before a query or a fragment. -/
def beforeQuery (chars : List Char) : List Char :=
  chars.takeWhile fun c => c ≠ '?' && c ≠ '#'

/-- The characters after the scheme of a target, if it begins with one. -/
def afterScheme? (chars : List Char) : Option (List Char) :=
  match chars.dropWhile (· ≠ ':') with
  | ':' :: '/' :: '/' :: rest => some rest
  | _ => none

/-- The path of a request target. It comes first or, in a target with a scheme, after the authority,
where an empty path means the slash alone; a target that is an authority alone has no path. -/
def pathOf (target : String) : String :=
  match target.toList with
  | '/' :: rest => String.ofList (beforeQuery ('/' :: rest))
  | chars =>
    match afterScheme? chars with
    | none => ""
    | some rest =>
      let path := (beforeQuery rest).dropWhile (· ≠ '/')
      if path.isEmpty then "/" else String.ofList path

/-- The route of a path, given the name of the stage. -/
def ofPath? (stage path : String) : Option Route :=
  if path = "/" ++ stage then some .stage
  else if path = "/ingest" then some .ingest
  else if path = "/refreshCache" then some .refresh
  else if path = "/health" then some .health
  else if path = "/metrics" then some .metrics
  else none

/-- The methods that a route allows. -/
def methods : Route → List String
  | .stage => ["POST"]
  | .ingest => ["POST"]
  | .refresh => ["GET", "HEAD", "POST"]
  | .health => ["GET", "HEAD"]
  | .metrics => ["GET", "HEAD"]

/-- Whether a route reads the body of a request. -/
def readsBody : Route → Bool
  | .stage => true
  | .ingest => true
  | _ => false

end Route

/-- A stage that is reached over HTTP. -/
structure Endpoint (Store π : Type) where
  stage : Stage Store π
  /-- The topic of the front door. -/
  ingestTopic : String
  /-- The longest body that is read, in bytes. -/
  maxPayload : Nat

namespace Endpoint

variable {Store π : Type}

/-- The state of a stage as an object. -/
def healthJson (stage : Stage Store π) : Json :=
  .object
    [("status", .text "ok"), ("stage", .text stage.name),
      ("rules", .ofNat stage.book.published.size),
      ("rules_generation", .ofNat stage.book.generation)]

variable [TableStore Store] [Producer π]

/-- All counters of a stage as an object; a producer that is missing has none. -/
def metricsJson (stage : Stage Store π) : Json :=
  .object
    ([("stage", stage.counters.json), ("table_writer", stage.writer.counters.json)] ++
      match stage.producer with
      | none => []
      | some producer => [("producer", (Producer.counters producer).json)])

/-- Publishes bytes under the topic of the front door. -/
def publish (endpoint : Endpoint Store π) (bytes : Bytes) : Response × Endpoint Store π :=
  let stage := endpoint.stage
  let (outcome, producer) :=
    Producer.sendThrough stage.producer endpoint.ingestTopic Stage.messageKey bytes
      stage.sendTimeout
  let response :=
    match outcome with
    | .ok () =>
      .ok (.object [("status", .text "accepted"), ("topic", .text endpoint.ingestTopic)])
    | .error problem => .error 503 "PUBLISH_FAILED" problem.message
  (response, { endpoint with stage := { stage with producer } })

/-- Runs the stage on a body. -/
def invoke (endpoint : Endpoint Store π) (files : FileTree) (body : Bytes) :
    Response × Endpoint Store π × FileTree :=
  let (outcome, stage, after) := endpoint.stage.invoke files body
  let response :=
    match outcome with
    | .ok report => .ok report.json
    | .error (.malformed cause) =>
      .error 400 "PARSE_ERROR" (EventError.malformed cause).message
    | .error (.notAnObject kind) =>
      .error 400 "INVALID_EVENT" (EventError.notAnObject kind).message
  (response, { endpoint with stage }, after)

/-- Publishes a body in an envelope. -/
def ingest (endpoint : Endpoint Store π) (body : Bytes) : Response × Endpoint Store π :=
  match Envelope.ofBytes body with
  | .error problem => (.error 400 "INVALID_BODY" problem.message, endpoint)
  | .ok envelope => endpoint.publish envelope.bytes

/-- Answers a request that is not refused. -/
def serve (endpoint : Endpoint Store π) (files : FileTree) (body : Bytes) :
    Route → Response × Endpoint Store π × FileTree
  | .stage => endpoint.invoke files body
  | .ingest =>
    let (response, after) := endpoint.ingest body
    (response, after, files)
  | .refresh =>
    let (response, after) := endpoint.publish (Envelope.control endpoint.stage.controlCode).bytes
    (response, after, files)
  | .health => (.ok (healthJson endpoint.stage), endpoint, files)
  | .metrics => (.ok (metricsJson endpoint.stage), endpoint, files)

/-- Answers a request. -/
def handle (endpoint : Endpoint Store π) (files : FileTree) (request : Request) :
    Response × Endpoint Store π × FileTree :=
  match Route.ofPath? endpoint.stage.name (Route.pathOf request.target) with
  | none => (.notFound, endpoint, files)
  | some route =>
    if request.method ∉ route.methods then
      ({ status := 405, body := .empty, allow := some (Text.join ',' route.methods) }, endpoint,
        files)
    else if route.readsBody && decide (endpoint.maxPayload < request.body.length) then
      (.tooLarge, endpoint, files)
    else
      let (response, after, filesAfter) := endpoint.serve files request.body route
      (response.answering request.method, after, filesAfter)

end Endpoint

end EventRelay
