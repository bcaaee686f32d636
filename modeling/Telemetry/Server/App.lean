import Telemetry.Server.Api

/-!
The HTTP service: a request's payload is opened, its route is served, the response is signed, and it
is compressed for a client that asks for it.
-/
namespace Telemetry.Server

variable {σ : Type}

def isGzipped (request : Request) : Bool :=
  match request.header? "content-encoding" with
  | none => false
  | some value =>
    (Text.split ',' value).any fun coding =>
      String.ofList ((Text.trim coding.toList).map Char.toLower) == "gzip"

/-- What is answered to a payload that is not opened. Where the program stops instead, it takes the
connection down with it, and that counts as a payload that could not be decoded. -/
def payloadRefusal : Envelope.Fault → Response
  | .unsigned => Response.text 400 "missing HashSHA256 header"
  | .forged => Response.text 400 "HashSHA256 does not match payload"
  | .undecipherable => Response.text 400 "payload could not be decrypted"
  | .inflatedTooLarge _ => Response.text 413 "decompressed payload too large"
  | _ => Response.text 400 "payload could not be decoded"

def openPayload (server : Server σ) (request : Request) : Except Response Bytes :=
  if server.maxBody < request.body.length then .error (Response.text 400 "unreadable request body")
  else
    (server.opening.unseal request.body (isGzipped request) (request.header? "hashsha256")).mapError
      payloadRefusal

def signResponse (server : Server σ) (response : Response) : Response :=
  { response with signature := server.opening.key.map (Mac.sign response.body) }

/-- Serves a request whose body is plain. Nothing is signed when the time has run out. -/
def answer (server : Server σ) (method : String) (route : Option Route) (body : Bytes) (state : σ) :
    Response × σ :=
  match route with
  | none => (server.signResponse { status := 404 }, state)
  | some route =>
    if route.accepts method then
      match server.serve route body state with
      | (.ok response, state) => (server.signResponse response, state)
      | (.error .timedOut, state) => ({ status := 408 }, state)
      | (.error fault, state) => (server.signResponse fault.response, state)
    else (server.signResponse { status := 405 }, state)

/-- Opens the payload of a `POST` and answers; another request has none. -/
def receive (server : Server σ) (request : Request) (route : Option Route) (state : σ) :
    Response × σ :=
  if request.method = "POST" then
    match server.openPayload request with
    | .error refusal => (refusal, state)
    | .ok plain => server.answer request.method route plain state
  else server.answer request.method route [] state

/-- The quality of a coding in thousandths; a malformed one is dropped. -/
def quality? (text : List Char) : Option Nat :=
  match text with
  | q :: '=' :: lead :: rest =>
    if (q = 'q' ∨ q = 'Q') ∧ (lead = '0' ∨ lead = '1') then
      let whole := if lead = '1' then 1000 else 0
      match rest with
      | [] => some whole
      | '.' :: places =>
        if places.length ≤ 3 ∧ places.all Char.isDigit then
          let value := whole + Nat.ofDigitChars 10 places 0 * Nat.pow 10 (3 - places.length)
          if value ≤ 1000 then some value else none
        else none
      | _ => none
    else none
  | _ => none

def acceptedCodings (request : Request) : List (String × Nat) :=
  ((request.headerValues "accept-encoding").filterMap Text.ofHeader).flatMap fun value =>
    (Text.split ',' value).filterMap fun part =>
      let coding := part.toList.takeWhile (· != ';')
      let name := Text.lowercase (String.ofList (Text.trim coding))
      match part.toList.drop coding.length with
      | [] => some (name, 1000)
      | _ :: parameter => (quality? (Text.trim parameter)).map (name, ·)

/-- Whether a client prefers gzip to the plain body; of equal qualities gzip is preferred. -/
def prefersGzip (request : Request) : Bool :=
  let best (names : List String) : Nat :=
    ((acceptedCodings request).filter fun coding => names.contains coding.1).foldl
      (fun best coding => max best coding.2) 0
  0 < best ["gzip", "x-gzip"] && best ["identity"] ≤ best ["gzip", "x-gzip"]

/-- Compresses a body of at least 32 bytes if the client prefers that. -/
def compress (request : Request) (response : Response) : Response :=
  if response.body.length < 32 then response
  else
    let response := { response with vary := some "accept-encoding" }
    if prefersGzip request then
      { response with body := Gzip.pack response.body, contentEncoding := some "gzip" }
    else response

def allowedInstead (request : Request) (route : Option Route) : Option String :=
  match route with
  | some route => if route.accepts request.method then none else some route.allowed
  | none => none

/-- Answers a request. The answer to `HEAD` is that to `GET` without its body. -/
def respond (server : Server σ) (request : Request) (state : σ) : Response × σ :=
  let route := Route.ofPath? request.path
  let (response, state) := server.receive request route state
  let response := compress request { response with allow := allowedInstead request route }
  (if request.method = "HEAD" then { response with body := [] } else response, state)

end Telemetry.Server
