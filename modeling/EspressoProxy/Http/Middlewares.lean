import EspressoProxy.Adapters.InterceptorGlue
import EspressoProxy.Http.Header

/-!
# The HTTP path of a request

`createHttpServer` serves a JSON-RPC request through a chain of middlewares, the
interceptor and a reverse proxy. The middlewares that only log, close the body or recover
from a panic do not appear in the chain of this module, since they change neither the
request nor the reply. The length of a text in bytes and the parsing of media types are
parameters.
-/

namespace EspressoProxy.Http

open EspressoProxy.Adapters EspressoProxy.JsonRpc EspressoProxy.Proxy EspressoProxy.Store

/-- A body, with the limit that a `MaxBytesReader` puts on what can be read of it. -/
structure Body (Text : Type) where
  data : Text
  limit : Option Nat

/-- A request as a handler gets it. The path is the list of its segments, each unescaped, of a
clean path: `http.ServeMux` redirects any other one. -/
structure HTTPRequest (Text : Type) where
  method : String
  path : List String
  header : Header
  contentLength : Int
  body : Body Text

/-- What the client gets: a plain error, a JSON-RPC error, or the response of upstream to
the text that was forwarded. -/
inductive HTTPReply (Text : Type) where
  | error (status : Nat) (message : String)
  | rpcError (error : Error)
  | relayed (forwarded response : Text)

/-- `http.Handler`. -/
abbrev HTTPHandler (Text : Type) := HTTPRequest Text → HTTPReply Text

def methodPost : String := "POST"
def statusMethodNotAllowed : Nat := 405
def statusRequestEntityTooLarge : Nat := 413
def statusUnsupportedMediaType : Nat := 415
def statusBadGateway : Nat := 502

section Handlers

variable {Text : Type} (size : Text → Nat)

/-- `io.ReadAll`, which fails at the limit of a `MaxBytesReader`. -/
def Body.readAll (body : Body Text) : Option Text :=
  match body.limit with
  | none => some body.data
  | some limit => if size body.data ≤ limit then some body.data else none

def methodIsMiddleware (next : HTTPHandler Text) (method : String) : HTTPHandler Text :=
  fun request =>
    if request.method ≠ method then
      .error statusMethodNotAllowed ("only " ++ method ++ " method is allowed")
    else next request

def requestBodySizeLimiterMiddleware (next : HTTPHandler Text) (maxRequestBodySize : Nat) :
    HTTPHandler Text :=
  fun request =>
    if request.contentLength > maxRequestBodySize then
      .error statusRequestEntityTooLarge "request too large"
    else next { request with body := { request.body with limit := some maxRequestBodySize } }

def contentTypeIsJSONRPCMiddleware (parseMediaType : String → Option String)
    (next : HTTPHandler Text) : HTTPHandler Text :=
  fun request =>
    match parseMediaType (request.header.get "Content-Type") with
    | none => .error statusUnsupportedMediaType "unable to determine Content-Type"
    | some mediaType =>
        if mediaType ∈ ["application/json", "application/json-rpc", "application/jsonrequest"]
        then next request
        else .error statusUnsupportedMediaType "invalid media type requested"

/-- `HTTPRPCMiddlewares`. -/
def httpRPCMiddlewares (parseMediaType : String → Option String) (maxRequestBodySize : Nat)
    (handler : HTTPHandler Text) : HTTPHandler Text :=
  let checked := contentTypeIsJSONRPCMiddleware parseMediaType handler
  let limited :=
    if maxRequestBodySize > 0 then requestBodySizeLimiterMiddleware checked maxRequestBodySize
    else checked
  methodIsMiddleware limited methodPost

/-- The interceptor between the middlewares and the reverse proxy, on the state that it
reads from the store. -/
def httpJSONRPCInterceptor (text : JSONText Text) (interceptor : Interceptor)
    (state : EspressoState) (handler : HTTPHandler Text) : HTTPHandler Text :=
  fun request =>
    match request.body.readAll size with
    | none => .rpcError ⟨codeParseError, "failed to parse request"⟩
    | some payload =>
        match performRequestIntercept text interceptor state payload with
        -- Every error of the interception carries a JSON-RPC error.
        | .error cause => .rpcError cause.object
        | .ok data =>
            handler { request with body := ⟨data, none⟩, contentLength := size data }

/-- The reverse proxy, for an upstream that answers with `response`. -/
def reverseProxy (response : Text) : HTTPHandler Text :=
  fun request =>
    match request.body.readAll size with
    | none => .error statusBadGateway ""
    | some data => .relayed data response

/-- The handler of `createHttpServer` for JSON-RPC requests. -/
def serveHTTP (parseMediaType : String → Option String) (text : JSONText Text)
    (interceptor : Interceptor) (maxRequestBodySize : Nat) (state : EspressoState)
    (response : Text) : HTTPHandler Text :=
  httpRPCMiddlewares parseMediaType maxRequestBodySize
    (httpJSONRPCInterceptor size text interceptor state (reverseProxy size response))

end Handlers

section Relaying

variable {Text : Type} {size : Text → Nat} {text : JSONText Text} {interceptor : Interceptor}
  {state : EspressoState} {request : HTTPRequest Text} {response forwarded answer : Text}

theorem relayed_of_interceptor
    (relayed : httpJSONRPCInterceptor size text interceptor state (reverseProxy size response)
      request = .relayed forwarded answer) :
    request.body.readAll size = some request.body.data ∧
      performRequestIntercept text interceptor state request.body.data = .ok forwarded ∧
      answer = response := by
  unfold httpJSONRPCInterceptor at relayed
  split at relayed
  · cases relayed
  · rename_i payload read
    have whole : payload = request.body.data := by
      unfold Body.readAll at read
      split at read
      · exact (Option.some.inj read).symm
      · split at read
        · exact (Option.some.inj read).symm
        · cases read
    subst whole
    split at relayed
    · cases relayed
    · rename_i intercepted
      cases relayed
      exact ⟨read, intercepted, rfl⟩

theorem relayed_of_contentType {parseMediaType : String → Option String}
    {next : HTTPHandler Text}
    (relayed : contentTypeIsJSONRPCMiddleware parseMediaType next request =
      .relayed forwarded answer) : next request = .relayed forwarded answer := by
  unfold contentTypeIsJSONRPCMiddleware at relayed
  split at relayed
  · cases relayed
  · split at relayed
    · exact relayed
    · cases relayed

/-- A request that is relayed over HTTP was intercepted, and was not longer than the
limit. -/
theorem relayed_of_serveHTTP {parseMediaType : String → Option String}
    {maxRequestBodySize : Nat}
    (relayed : serveHTTP size parseMediaType text interceptor maxRequestBodySize state response
      request = .relayed forwarded answer) :
    performRequestIntercept text interceptor state request.body.data = .ok forwarded ∧
      (0 < maxRequestBodySize → size request.body.data ≤ maxRequestBodySize) := by
  unfold serveHTTP httpRPCMiddlewares methodIsMiddleware at relayed
  split at relayed
  · cases relayed
  · split at relayed
    · unfold requestBodySizeLimiterMiddleware at relayed
      split at relayed
      · cases relayed
      · obtain ⟨read, intercepted, -⟩ := relayed_of_interceptor (relayed_of_contentType relayed)
        refine ⟨intercepted, fun _ => ?_⟩
        by_contra long
        simp [Body.readAll, long] at read
    · rename_i unlimited
      obtain ⟨-, intercepted, -⟩ := relayed_of_interceptor (relayed_of_contentType relayed)
      exact ⟨intercepted, fun positive => absurd positive unlimited⟩

end Relaying
end EspressoProxy.Http
