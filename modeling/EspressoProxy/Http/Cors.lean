import Mathlib.Data.List.DropRight
import EspressoProxy.Http.Header

/-!
# The CORS middleware

The middleware answers every `OPTIONS` request itself and forwards all others to the handler
it wraps. An empty list of allowed origins, methods or headers allows all of them.
-/

namespace EspressoProxy.Http

/-! ### White space and tokens -/

/-- `unicode.IsSpace`. -/
def isSpace (rune : Char) : Bool :=
  ['\t', '\n', '\u000b', '\u000c', '\r', ' ', '\u0085', '\u00a0', '\u1680', '\u2028', '\u2029',
    '\u202f', '\u205f', '\u3000'].contains rune || ('\u2000' ≤ rune && rune ≤ '\u200a')

/-- `strings.TrimSpace`. -/
def trimSpace (text : String) : String :=
  String.ofList ((text.toList.dropWhile isSpace).rdropWhile isSpace)

/-- `unicode.IsControl`. -/
def isControl (rune : Char) : Bool := rune.toNat < 0x20 || (0x7f ≤ rune.toNat && rune.toNat < 0xa0)

def isSeparator (rune : Char) : Bool :=
  ['(', ')', '<', '>', '@', ',', ';', ':', '\\', '"', '/', '[', ']', '?', '=', '{', '}', ' ',
    '\t'].contains rune

def isTokenSet (rune : Char) : Bool :=
  rune.toNat ≤ 0x7f && !isControl rune && !isSeparator rune

def isNotTokenSet (rune : Char) : Bool := !isTokenSet rune

/-- `unicode.ToLower`, for the comparison with ASCII names: the dotted I and the Kelvin sign are
the only other letters with an ASCII letter as their lower case. -/
def toLowerRune (rune : Char) : Char :=
  -- The rest stays as it is. Its lower case is not ASCII either, so no comparison changes.
  if rune = '\u0130' then 'i' else if rune = '\u212a' then 'k' else rune.toLower

/-- `strings.ToLower`. -/
def toLower (text : String) : String := String.ofList (text.toList.map toLowerRune)

/-! ### The headers of the request -/

def headerOrigin : String := "Origin"
def headerAccessControlRequestMethod : String := "Access-Control-Request-Method"
def headerAccessControlRequestHeaders : String := "Access-Control-Request-Headers"

def methodOptions : String := "OPTIONS"

/-- The method that a preflight request asks about, or the empty string. -/
def requestMethod (header : Header) : String :=
  let method := trimSpace (header.get headerAccessControlRequestMethod)
  if method = "" then ""
  else if method ∈ ["OPTIONS", "GET", "HEAD", "POST", "PUT", "DELETE", "TRACE", "CONNECT"] then
    method
  else if method.toList.any isNotTokenSet then ""
  else method

/-- The loop of `RequestHeaders` over the items of the list. An item that is no token ends it
with `nil`. -/
def parseRequestHeaders : List String → List String → List String
  | [], parsedHeaders => parsedHeaders
  | rawValue :: rest, parsedHeaders =>
      let trimmed := trimSpace rawValue
      if trimmed = "" then parseRequestHeaders rest parsedHeaders
      else if trimmed.toList.any isNotTokenSet then []
      else parseRequestHeaders rest (parsedHeaders ++ [trimmed])

/-- `strings.Split(value, ",")`. -/
def splitComma (value : String) : List String := (value.toList.splitOn ',').map String.ofList

def requestHeaders (header : Header) : List String :=
  parseRequestHeaders (splitComma (header.get headerAccessControlRequestHeaders)) []

/-! ### The headers of the response -/

def corsWildcard : String := "*"
def headerAccessControlAllowOrigin : String := "Access-Control-Allow-Origin"
def headerAccessControlAllowCredentials : String := "Access-Control-Allow-Credentials"
def headerAccessControlExposeHeaders : String := "Access-Control-Expose-Headers"
def headerAccessControlMaxAge : String := "Access-Control-Max-Age"
def headerAccessControlAllowMethods : String := "Access-Control-Allow-Methods"
def headerAccessControlAllowHeaders : String := "Access-Control-Allow-Headers"

/-- Ten minutes, in seconds. -/
def corsPolicyMaxAge : Nat := 600

def allowOrigin (response : Header) (origin : String) : Header :=
  response.set headerAccessControlAllowOrigin origin

def allowMethods (response : Header) (methods : List String) : Header :=
  if methods.length = 0 then response
  else response.add headerAccessControlAllowMethods (",".intercalate methods)

def allowHeaders (response : Header) (headers : List String) : Header :=
  if headers.length = 0 then response
  else response.add headerAccessControlAllowHeaders
    (",".intercalate (headers.map canonicalMIMEHeaderKey))

def maxAge (response : Header) (seconds : Nat) : Header :=
  response.set headerAccessControlMaxAge (toString seconds)

def allowCredentials (response : Header) (allow : Bool) : Header :=
  response.set headerAccessControlAllowCredentials (toString allow)

/-! ### The middleware -/

structure HTTPCORSMiddleware where
  allowedOrigins : List String
  allowedMethods : List String
  allowedHeaders : List String
  allowCredentials : Bool
deriving DecidableEq, Repr

inductive CORSMiddlewareOption where
  | allowedMethods (methods : List String)
  | allowedHeaders (headers : List String)
  | allowedOrigins (origins : List String)
  | allowCredentials (allow : Bool)
deriving DecidableEq, Repr

/-- What became of a request: an answer of the middleware, or a call of the wrapped handler
with the headers of the response so far. -/
inductive CORSOutcome where
  | answered (status : Nat) (response : Header)
  | forwarded (response : Header)

def statusNoContent : Nat := 204

def isSimpleMethod (method : String) : Bool := ["GET", "HEAD", "POST"].contains method

def isSimpleHeader (header : String) : Bool :=
  ["cache-control", "content-language", "content-type", "expires", "last-modified",
    "pragma"].contains (toLower header)

def CORSMiddlewareOption.apply (middleware : HTTPCORSMiddleware) :
    CORSMiddlewareOption → HTTPCORSMiddleware
  | .allowedMethods methods => { middleware with allowedMethods := methods }
  | .allowedHeaders headers => { middleware with allowedHeaders := headers.map toLower }
  | .allowedOrigins origins => { middleware with allowedOrigins := origins }
  | .allowCredentials allow => { middleware with allowCredentials := allow }

def newCORSMiddleware (options : List CORSMiddlewareOption) : HTTPCORSMiddleware :=
  options.foldl (CORSMiddlewareOption.apply) ⟨[], [], [], false⟩

namespace HTTPCORSMiddleware

variable (middleware : HTTPCORSMiddleware)

def isOriginAllowed (origin : String) : Bool :=
  middleware.allowedOrigins.length = 0 || middleware.allowedOrigins.contains origin

def isMethodAllowed (method : String) : Bool :=
  isSimpleMethod method || middleware.allowedMethods.length = 0 ||
    middleware.allowedMethods.contains method

def isHeaderAllowed (header : String) : Bool :=
  isSimpleHeader header || middleware.allowedHeaders.length = 0 ||
    middleware.allowedHeaders.contains (toLower header)

def appendAllowOrigin (response : Header) (origin : String) : Header :=
  if middleware.allowCredentials then Http.allowCredentials (allowOrigin response origin) true
  else if middleware.allowedOrigins.length = 0 then allowOrigin response corsWildcard
  else allowOrigin response origin

/-- The loop over the requested headers, which ends at one that is not allowed. -/
def collectNonSimpleHeaders : List String → List String → Option (List String)
  | [], nonSimpleHeaders => some nonSimpleHeaders
  | header :: rest, nonSimpleHeaders =>
      if !middleware.isHeaderAllowed header then none
      else if !isSimpleHeader header then
        collectNonSimpleHeaders rest (nonSimpleHeaders ++ [header])
      else collectNonSimpleHeaders rest nonSimpleHeaders

def appendAllowMethods (response : Header) (requestedMethod : String) : Header :=
  if !isSimpleMethod requestedMethod then
    if middleware.allowedMethods.length = 0 then allowMethods response [requestedMethod]
    else allowMethods response middleware.allowedMethods
  else response

/-- The end of `processPreflightRequest`, after every check. -/
def grantPreflight (origin requestedMethod : String) (nonSimpleHeaders : List String)
    (response : Header) : Header :=
  let aged := maxAge (middleware.appendAllowOrigin response origin) corsPolicyMaxAge
  let withMethods := middleware.appendAllowMethods aged requestedMethod
  if nonSimpleHeaders.length > 0 then allowHeaders withMethods nonSimpleHeaders else withMethods

def processPreflightRequest (header response : Header) : Header :=
  if !header.has headerOrigin then response
  else if !middleware.isOriginAllowed (header.get headerOrigin) then response
  else if !header.has headerAccessControlRequestMethod || requestMethod header = "" then response
  else if !middleware.isMethodAllowed (requestMethod header) then response
  else
    match middleware.collectNonSimpleHeaders (requestHeaders header) [] with
    | none => response
    | some nonSimpleHeaders =>
        middleware.grantPreflight (header.get headerOrigin) (requestMethod header)
          nonSimpleHeaders response

def processSimpleCrossOriginRequest (header response : Header) : Header :=
  if !header.has headerOrigin then response
  else if !middleware.isOriginAllowed (header.get headerOrigin) then response
  else middleware.appendAllowOrigin response (header.get headerOrigin)

def serveHTTP (method : String) (header response : Header) : CORSOutcome :=
  if method = methodOptions then
    .answered statusNoContent (middleware.processPreflightRequest header response)
  else .forwarded (middleware.processSimpleCrossOriginRequest header response)

end HTTPCORSMiddleware
end EspressoProxy.Http
