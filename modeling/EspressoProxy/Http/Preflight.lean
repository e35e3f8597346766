import EspressoProxy.Http.Tokens

/-!
# Preflight requests

The W3C steps say when a preflight request is granted under a policy, and what the answer
then carries. The middleware departs from them in three ways, and follows them otherwise. A list
of requested headers that does not parse ends the W3C steps, but `RequestHeaders` returns `nil`
for it, which is taken for an empty list. Where credentials are allowed the origin is repeated,
which may itself be the wildcard. And the headers that the middleware takes for simple ones are
those of simple responses, so `Accept` needs to be allowed and `Expires` does not.
-/

namespace EspressoProxy.Http

open EspressoProxy.Semantics

/-! ### The policy -/

/-- What the options of a middleware ask for. -/
structure CORSPolicy where
  origins : List String
  methods : List String
  headers : List String
  credentials : Bool

namespace CORSPolicy

def configure (policy : CORSPolicy) : CORSMiddlewareOption → CORSPolicy
  | .allowedMethods methods => { policy with methods }
  | .allowedHeaders headers => { policy with headers }
  | .allowedOrigins origins => { policy with origins }
  | .allowCredentials credentials => { policy with credentials }

def ofOptions (options : List CORSMiddlewareOption) : CORSPolicy :=
  options.foldl configure ⟨[], [], [], false⟩

def AllowsOrigin (policy : CORSPolicy) (origin : String) : Prop :=
  policy.origins = [] ∨ origin ∈ policy.origins

/-- The simple methods of the standard. -/
def simpleMethods : List String := ["GET", "HEAD", "POST"]

def AllowsMethod (policy : CORSPolicy) (method : String) : Prop :=
  method ∈ simpleMethods ∨ policy.methods = [] ∨ method ∈ policy.methods

/-- The names of the simple headers of the standard. `Content-Type` is one for some of its values,
which a preflight request does not tell. -/
def simpleHeaders : List String :=
  ["accept", "accept-language", "content-language", "content-type"]

/-- Names of headers are compared without regard to case. -/
def ListsHeader (policy : CORSPolicy) (name : String) : Prop :=
  policy.headers = [] ∨ ∃ allowed ∈ policy.headers, toLower allowed = toLower name

def AllowsHeader (policy : CORSPolicy) (name : String) : Prop :=
  toLower name ∈ simpleHeaders ∨ policy.ListsHeader name

instance (policy : CORSPolicy) (origin : String) : Decidable (policy.AllowsOrigin origin) :=
  inferInstanceAs (Decidable (_ ∨ _))

instance (policy : CORSPolicy) (method : String) : Decidable (policy.AllowsMethod method) :=
  inferInstanceAs (Decidable (_ ∨ _))

instance (policy : CORSPolicy) (name : String) : Decidable (policy.ListsHeader name) :=
  inferInstanceAs (Decidable (_ ∨ _))

instance (policy : CORSPolicy) (name : String) : Decidable (policy.AllowsHeader name) :=
  inferInstanceAs (Decidable (_ ∨ _))

end CORSPolicy

/-- The method that is asked about, without the space around it. -/
def askedMethod (header : Header) : String :=
  trimSpace (header.get headerAccessControlRequestMethod)

/-- The names of headers that are asked about. -/
def askedHeaders (header : Header) : List String :=
  listItems (splitComma (header.get headerAccessControlRequestHeaders))

def OriginGranted (policy : CORSPolicy) (header : Header) : Prop :=
  header.has headerOrigin ∧ policy.AllowsOrigin (header.get headerOrigin)

def MethodGranted (policy : CORSPolicy) (header : Header) : Prop :=
  header.has headerAccessControlRequestMethod ∧ IsToken (askedMethod header) ∧
    policy.AllowsMethod (askedMethod header)

def HeadersParse (header : Header) : Prop := ∀ name ∈ askedHeaders header, IsToken name

instance (header : Header) : Decidable (HeadersParse header) :=
  inferInstanceAs (Decidable (∀ name ∈ askedHeaders header, IsToken name))

/-- The preflight request passes every step. -/
structure PreflightGranted (policy : CORSPolicy) (header : Header) : Prop where
  origin : OriginGranted policy header
  method : MethodGranted policy header
  parse : HeadersParse header
  headers : ∀ name ∈ askedHeaders header, policy.AllowsHeader name

instance (policy : CORSPolicy) (header : Header) : Decidable (PreflightGranted policy header) :=
  decidable_of_iff
    ((header.has headerOrigin ∧ policy.AllowsOrigin (header.get headerOrigin)) ∧
      (header.has headerAccessControlRequestMethod ∧ IsToken (askedMethod header) ∧
        policy.AllowsMethod (askedMethod header)) ∧
      HeadersParse header ∧ ∀ name ∈ askedHeaders header, policy.AllowsHeader name)
    ⟨fun ⟨origin, method, parse, headers⟩ => ⟨origin, method, parse, headers⟩,
      fun granted => ⟨granted.origin, granted.method, granted.parse, granted.headers⟩⟩

/-! ### The checks of the middleware -/

section Checks

/-- The middleware for a policy. -/
def CORSPolicy.middleware (policy : CORSPolicy) : HTTPCORSMiddleware :=
  ⟨policy.origins, policy.methods, policy.headers.map toLower, policy.credentials⟩

theorem newCORSMiddleware_eq (options : List CORSMiddlewareOption) :
    newCORSMiddleware options = (CORSPolicy.ofOptions options).middleware := by
  have configured : ∀ policy : CORSPolicy,
      options.foldl CORSMiddlewareOption.apply policy.middleware =
        (options.foldl CORSPolicy.configure policy).middleware := by
    induction options with
    | nil => exact fun policy => rfl
    | cons option rest inductionHypothesis =>
        intro policy
        rw [List.foldl_cons, List.foldl_cons, ← inductionHypothesis]
        cases option <;> rfl
  exact configured ⟨[], [], [], false⟩

variable (policy : CORSPolicy)

theorem isOriginAllowed_iff {origin : String} :
    policy.middleware.isOriginAllowed origin ↔ policy.AllowsOrigin origin := by
  simp [HTTPCORSMiddleware.isOriginAllowed, CORSPolicy.middleware, CORSPolicy.AllowsOrigin]

theorem isSimpleMethod_iff {method : String} :
    isSimpleMethod method ↔ method ∈ CORSPolicy.simpleMethods := by
  rw [isSimpleMethod, List.contains_iff_mem, CORSPolicy.simpleMethods]

theorem isMethodAllowed_iff {method : String} :
    policy.middleware.isMethodAllowed method ↔ policy.AllowsMethod method := by
  simp [HTTPCORSMiddleware.isMethodAllowed, CORSPolicy.middleware, CORSPolicy.AllowsMethod,
    isSimpleMethod_iff, or_assoc]

theorem isHeaderAllowed_iff {name : String} :
    policy.middleware.isHeaderAllowed name ↔ isSimpleHeader name ∨ policy.ListsHeader name := by
  simp [HTTPCORSMiddleware.isHeaderAllowed, CORSPolicy.middleware, CORSPolicy.ListsHeader,
    or_assoc]

/-- The characters of a token are those of a field name. -/
theorem isTokenSet_eq (rune : Char) : isTokenSet rune = validHeaderFieldByte rune := by
  by_cases ascii : rune.toNat < 128
  · have table : ∀ code < 128,
        isTokenSet (Char.ofNat code) = validHeaderFieldByte (Char.ofNat code) := by
      decide +kernel
    simpa using table rune.toNat ascii
  · have invalid : validHeaderFieldByte rune = false :=
      Bool.eq_false_iff.mpr fun valid => ascii (lt_of_validHeaderFieldByte valid)
    have beyond : decide (rune.toNat ≤ 0x7f) = false := decide_eq_false (by omega)
    rw [invalid, isTokenSet, beyond, Bool.false_and, Bool.false_and]

theorem any_isNotTokenSet (text : String) :
    text.toList.any isNotTokenSet = !text.toList.all validHeaderFieldByte := by
  rw [List.not_all_eq_any_not]
  congr 1
  funext rune
  rw [isNotTokenSet, isTokenSet_eq]

theorem requestMethod_eq (header : Header) :
    requestMethod header = if IsToken (askedMethod header) then askedMethod header else "" := by
  have standard : ∀ method ∈ ["OPTIONS", "GET", "HEAD", "POST", "PUT", "DELETE", "TRACE",
      "CONNECT"], IsToken method := by decide
  simp only [requestMethod, ← askedMethod.eq_1]
  by_cases empty : askedMethod header = ""
  · rw [if_pos empty, if_neg fun token => token.1 empty]
  · rw [if_neg empty]
    by_cases known : askedMethod header ∈
        ["OPTIONS", "GET", "HEAD", "POST", "PUT", "DELETE", "TRACE", "CONNECT"]
    · rw [if_pos known, if_pos (standard _ known)]
    · rw [if_neg known, any_isNotTokenSet]
      by_cases token : (askedMethod header).toList.all validHeaderFieldByte
      · have isToken : IsToken (askedMethod header) := ⟨empty, token⟩
        simp [token, isToken]
      · have isNotToken : ¬ IsToken (askedMethod header) := fun isToken => token isToken.2
        simp [token, isNotToken]

/-- The loop collects the items if all of them are tokens. -/
theorem parseRequestHeaders_eq (rawValues parsed : List String) :
    parseRequestHeaders rawValues parsed =
      if ∀ item ∈ listItems rawValues, IsToken item then parsed ++ listItems rawValues
      else [] := by
  induction rawValues generalizing parsed with
  | nil => simp [parseRequestHeaders, listItems]
  | cons rawValue rest inductionHypothesis =>
      rw [parseRequestHeaders]
      by_cases empty : trimSpace rawValue = ""
      · rw [if_pos empty, inductionHypothesis]
        simp [listItems, empty]
      · have items : listItems (rawValue :: rest) = trimSpace rawValue :: listItems rest := by
          simp [listItems, empty]
        rw [if_neg empty, any_isNotTokenSet, items]
        by_cases token : (trimSpace rawValue).toList.all validHeaderFieldByte
        · have isToken : IsToken (trimSpace rawValue) := ⟨empty, token⟩
          simp [token, isToken, inductionHypothesis]
        · have isNotToken : ¬ IsToken (trimSpace rawValue) := fun isToken => token isToken.2
          simp [token, isNotToken]

theorem requestHeaders_of_parse {header : Header} (parse : HeadersParse header) :
    requestHeaders header = askedHeaders header :=
  (parseRequestHeaders_eq _ []).trans (if_pos parse)

/-- A list that does not parse is taken for an empty one. -/
theorem requestHeaders_of_not_parse {header : Header} (malformed : ¬ HeadersParse header) :
    requestHeaders header = [] :=
  (parseRequestHeaders_eq _ []).trans (if_neg malformed)

theorem collectNonSimpleHeaders_eq
    (middleware : HTTPCORSMiddleware) (headers collected : List String) :
    middleware.collectNonSimpleHeaders headers collected =
      if ∀ name ∈ headers, middleware.isHeaderAllowed name then
        some (collected ++ headers.filter fun name => !isSimpleHeader name)
      else none := by
  induction headers generalizing collected with
  | nil => simp [HTTPCORSMiddleware.collectNonSimpleHeaders]
  | cons header rest inductionHypothesis =>
      rw [HTTPCORSMiddleware.collectNonSimpleHeaders, inductionHypothesis, inductionHypothesis]
      by_cases allowed : middleware.isHeaderAllowed header
      · by_cases simple : isSimpleHeader header
        · simp [allowed, simple]
        · simp [allowed, simple]
      · simp [allowed]

/-- The checks of the middleware. -/
structure Passes (header : Header) : Prop where
  origin : OriginGranted policy header
  method : MethodGranted policy header
  headers : ∀ name ∈ requestHeaders header, isSimpleHeader name ∨ policy.ListsHeader name

/-- The middleware grants a preflight request that passes its checks, and leaves the response
as it is for any other one. -/
theorem processPreflightRequest_granted {header : Header} (response : Header)
    (passes : Passes policy header) :
    policy.middleware.processPreflightRequest header response =
      policy.middleware.grantPreflight (header.get headerOrigin) (askedMethod header)
        ((requestHeaders header).filter fun name => !isSimpleHeader name) response := by
  obtain ⟨⟨present, allowed⟩, ⟨methodPresent, token, methodAllowed⟩, headers⟩ := passes
  have method : requestMethod header = askedMethod header := by
    rw [requestMethod_eq, if_pos token]
  have collected := collectNonSimpleHeaders_eq policy.middleware (requestHeaders header) []
  rw [if_pos fun name asked => (isHeaderAllowed_iff policy).mpr (headers name asked)] at collected
  simp only [HTTPCORSMiddleware.processPreflightRequest, present, methodPresent, method, token.1,
    (isOriginAllowed_iff policy).mpr allowed, (isMethodAllowed_iff policy).mpr methodAllowed,
    collected, Bool.not_true, Bool.false_or, Bool.false_eq_true, if_false, decide_false,
    List.nil_append]

theorem processPreflightRequest_refused {header : Header} (response : Header)
    (refused : ¬ Passes policy header) :
    policy.middleware.processPreflightRequest header response = response := by
  unfold HTTPCORSMiddleware.processPreflightRequest
  split
  · rfl
  rename_i present
  split
  · rfl
  rename_i allowed
  split
  · rfl
  rename_i methodPresent
  split
  · rfl
  rename_i methodAllowed
  rw [collectNonSimpleHeaders_eq]
  split
  · rfl
  -- Every check was passed.
  rename_i nonSimpleHeaders collected
  exfalso
  simp only [Bool.not_eq_true', Bool.not_eq_false, Bool.or_eq_true, decide_eq_true_eq,
    not_or] at present allowed methodPresent methodAllowed
  have token : IsToken (askedMethod header) := by
    by_contra isNotToken
    exact methodPresent.2 (by rw [requestMethod_eq, if_neg isNotToken])
  have method : requestMethod header = askedMethod header := by
    rw [requestMethod_eq, if_pos token]
  rw [method, isMethodAllowed_iff] at methodAllowed
  refine refused ⟨⟨present, (isOriginAllowed_iff policy).mp allowed⟩,
    ⟨methodPresent.1, token, methodAllowed⟩, ?_⟩
  have passed := (Option.ite_none_right_eq_some.mp collected).1
  exact fun name asked => (isHeaderAllowed_iff policy).mp (passed name asked)

end Checks
/-! ### The answer -/

/-- The fields that belong to CORS. -/
def corsResponseFields : List String :=
  [headerAccessControlAllowOrigin, headerAccessControlAllowCredentials,
    headerAccessControlExposeHeaders, headerAccessControlMaxAge, headerAccessControlAllowMethods,
    headerAccessControlAllowHeaders]

section Answer

theorem mem_allowOrigin : headerAccessControlAllowOrigin ∈ corsResponseFields := by
  simp [corsResponseFields]

theorem mem_allowCredentials : headerAccessControlAllowCredentials ∈ corsResponseFields := by
  simp [corsResponseFields]

theorem mem_maxAge : headerAccessControlMaxAge ∈ corsResponseFields := by
  simp [corsResponseFields]

theorem mem_allowMethods : headerAccessControlAllowMethods ∈ corsResponseFields := by
  simp [corsResponseFields]

theorem mem_allowHeaders : headerAccessControlAllowHeaders ∈ corsResponseFields := by
  simp [corsResponseFields]

theorem canonical_corsResponseFields :
    ∀ field ∈ corsResponseFields, canonicalMIMEHeaderKey field = field := by
  intro field cors
  apply canonicalMIMEHeaderKey_of_canonical
  simp only [corsResponseFields, List.mem_cons, List.not_mem_nil, or_false] at cors
  rcases cors with rfl | rfl | rfl | rfl | rfl | rfl
  · simp [headerAccessControlAllowOrigin, canonicalCase]
  · simp [headerAccessControlAllowCredentials, canonicalCase]
  · simp [headerAccessControlExposeHeaders, canonicalCase]
  · simp [headerAccessControlMaxAge, canonicalCase]
  · simp [headerAccessControlAllowMethods, canonicalCase]
  · simp [headerAccessControlAllowHeaders, canonicalCase]

variable {key : String} (response : Header)

theorem get_set_field {field : String} (cors : field ∈ corsResponseFields) (other : key ≠ field)
    (value : String) : GoMap.get (response.set field value) key = GoMap.get response key := by
  rw [Header.set, canonical_corsResponseFields field cors, GoMap.get_set_of_ne _ _ other]

theorem get_add_field {field : String} (cors : field ∈ corsResponseFields) (other : key ≠ field)
    (value : String) : GoMap.get (response.add field value) key = GoMap.get response key := by
  rw [Header.add, canonical_corsResponseFields field cors, GoMap.get_set_of_ne _ _ other]

theorem get_allowMethods (other : key ≠ headerAccessControlAllowMethods)
    (methods : List String) :
    GoMap.get (allowMethods response methods) key = GoMap.get response key := by
  unfold allowMethods
  split
  · rfl
  · exact get_add_field response mem_allowMethods other _

variable (middleware : HTTPCORSMiddleware) (origin : String)

theorem get_appendAllowMethods (other : key ≠ headerAccessControlAllowMethods)
    (requestedMethod : String) :
    GoMap.get (middleware.appendAllowMethods response requestedMethod) key =
      GoMap.get response key := by
  unfold HTTPCORSMiddleware.appendAllowMethods
  split
  · split
    · exact get_allowMethods response other _
    · exact get_allowMethods response other _
  · rfl

/-- The origin that a granted request is answered with. -/
def HTTPCORSMiddleware.answeredOrigin : String :=
  if middleware.allowCredentials then origin
  else if middleware.allowedOrigins.length = 0 then corsWildcard
  else origin

theorem get_appendAllowOrigin_origin :
    GoMap.get (middleware.appendAllowOrigin response origin) headerAccessControlAllowOrigin =
      some [middleware.answeredOrigin origin] := by
  have canonical := canonical_corsResponseFields _ mem_allowOrigin
  unfold HTTPCORSMiddleware.appendAllowOrigin HTTPCORSMiddleware.answeredOrigin allowOrigin
  split
  · rw [allowCredentials, get_set_field _ mem_allowCredentials (by decide), Header.set, canonical,
      GoMap.get_set_self]
  · split
    · rw [Header.set, canonical, GoMap.get_set_self]
    · rw [Header.set, canonical, GoMap.get_set_self]

/-- Apart from the origin, only a middleware that allows credentials sets a field. -/
theorem get_appendAllowOrigin_of_ne (other : key ≠ headerAccessControlAllowOrigin)
    (uncredentialed : key = headerAccessControlAllowCredentials →
      middleware.allowCredentials = false) :
    GoMap.get (middleware.appendAllowOrigin response origin) key = GoMap.get response key := by
  unfold HTTPCORSMiddleware.appendAllowOrigin allowOrigin
  split
  · rename_i credentials
    have different : key ≠ headerAccessControlAllowCredentials := by
      intro same
      rw [uncredentialed same] at credentials
      cases credentials
    rw [allowCredentials, get_set_field _ mem_allowCredentials different,
      get_set_field _ mem_allowOrigin other]
  · split
    · exact get_set_field _ mem_allowOrigin other _
    · exact get_set_field _ mem_allowOrigin other _

/-- Where no other writer has a part, a field is as the origin left it. -/
theorem get_grantPreflight (requestedMethod : String) (nonSimpleHeaders : List String)
    (notAge : key ≠ headerAccessControlMaxAge) (notMethods : key ≠ headerAccessControlAllowMethods)
    (notHeaders : key ≠ headerAccessControlAllowHeaders) :
    GoMap.get (middleware.grantPreflight origin requestedMethod nonSimpleHeaders response) key =
      GoMap.get (middleware.appendAllowOrigin response origin) key := by
  have withMethods : GoMap.get (middleware.appendAllowMethods
      (maxAge (middleware.appendAllowOrigin response origin) corsPolicyMaxAge)
      requestedMethod) key = GoMap.get (middleware.appendAllowOrigin response origin) key := by
    rw [get_appendAllowMethods _ _ notMethods, maxAge, get_set_field _ mem_maxAge notAge]
  unfold HTTPCORSMiddleware.grantPreflight allowHeaders
  split
  · split
    · exact withMethods
    · exact (get_add_field _ mem_allowHeaders notHeaders _).trans withMethods
  · exact withMethods

theorem get_grantPreflight_allowOrigin (requestedMethod : String)
    (nonSimpleHeaders : List String) :
    GoMap.get (middleware.grantPreflight origin requestedMethod nonSimpleHeaders response)
        headerAccessControlAllowOrigin =
      some [middleware.answeredOrigin origin] := by
  rw [get_grantPreflight _ _ _ _ _ (by decide) (by decide) (by decide),
    get_appendAllowOrigin_origin]

theorem has_appendAllowOrigin_allowCredentials
    (fresh : response.has headerAccessControlAllowCredentials = false) :
    (middleware.appendAllowOrigin response origin).has headerAccessControlAllowCredentials =
      middleware.allowCredentials := by
  cases allowed : middleware.allowCredentials with
  | true =>
      rw [HTTPCORSMiddleware.appendAllowOrigin, if_pos allowed, allowCredentials, Header.has,
        Header.set, canonical_corsResponseFields _ mem_allowCredentials, GoMap.get_set_self]
      rfl
  | false =>
      rw [Header.has, get_appendAllowOrigin_of_ne _ _ _ (by decide) fun _ => allowed]
      exact fresh

theorem has_grantPreflight_allowCredentials (requestedMethod : String)
    (nonSimpleHeaders : List String)
    (fresh : response.has headerAccessControlAllowCredentials = false) :
    (middleware.grantPreflight origin requestedMethod nonSimpleHeaders response).has
        headerAccessControlAllowCredentials =
      middleware.allowCredentials := by
  rw [Header.has, get_grantPreflight _ _ _ _ _ (by decide) (by decide) (by decide)]
  exact has_appendAllowOrigin_allowCredentials response middleware origin fresh

theorem values_grantPreflight (requestedMethod : String) (nonSimpleHeaders : List String)
    (fresh : response.has headerAccessControlAllowHeaders = false) :
    (middleware.grantPreflight origin requestedMethod nonSimpleHeaders response).values
        headerAccessControlAllowHeaders =
      namesValue nonSimpleHeaders := by
  have canonical := canonical_corsResponseFields _ mem_allowHeaders
  have without : (middleware.appendAllowMethods
      (maxAge (middleware.appendAllowOrigin response origin) corsPolicyMaxAge)
      requestedMethod).values headerAccessControlAllowHeaders = [] := by
    rw [Header.values, canonical, get_appendAllowMethods _ _ (by decide), maxAge,
      get_set_field _ mem_maxAge (by decide),
      get_appendAllowOrigin_of_ne _ _ _ (by decide) (fun same => absurd same (by decide)),
      Option.not_isSome_iff_eq_none.mp (Bool.eq_false_iff.mp fresh)]
    rfl
  cases nonSimpleHeaders with
  | nil => exact without
  | cons header rest =>
      show (Header.add _ headerAccessControlAllowHeaders _).values _ = _
      rw [Header.values_add, if_pos rfl, without]
      rfl

end Answer

/-- The answer that the W3C steps call for, given the headers of the response before it. -/
structure PreflightAnswer (policy : CORSPolicy) (header response answer : Header) : Prop where
  allowOrigin : answer.has headerAccessControlAllowOrigin ↔ PreflightGranted policy header
  fields : (∃ field ∈ corsResponseFields, answer.has field) ↔ PreflightGranted policy header
  refused : ¬ PreflightGranted policy header → answer = response
  allowHeaders : PreflightGranted policy header →
    answer.values headerAccessControlAllowHeaders =
      namesValue ((askedHeaders header).filter fun name =>
        !CORSPolicy.simpleHeaders.contains (toLower name))
  wildcard : ¬ (answer.get headerAccessControlAllowOrigin = corsWildcard ∧
    answer.has headerAccessControlAllowCredentials)

/-- Where the middleware follows the steps. If they grant the request, its names must be simple
for the middleware just where they are by the standard, and credentials must not be allowed to
the origin that is spelled like the wildcard. If they do not, the middleware must have a reason
of its own: a list of headers that does not parse is none. -/
structure StepsKept (policy : CORSPolicy) (header : Header) : Prop where
  granted : PreflightGranted policy header →
    (∀ name ∈ askedHeaders header,
      isSimpleHeader name = CORSPolicy.simpleHeaders.contains (toLower name)) ∧
    (policy.credentials → header.get headerOrigin ≠ corsWildcard)
  refused : ¬ PreflightGranted policy header →
    ¬ OriginGranted policy header ∨ ¬ MethodGranted policy header ∨
      HeadersParse header ∧ ∃ name ∈ askedHeaders header,
        ¬ (isSimpleHeader name ∨ policy.ListsHeader name)

section Preflight

variable {policy : CORSPolicy} {header response : Header}

/-- Without an answer there is no grant. -/
theorem preflightAnswer_unchanged_iff
    (fresh : ∀ field ∈ corsResponseFields, response.has field = false) :
    PreflightAnswer policy header response response ↔ ¬ PreflightGranted policy header := by
  constructor
  · intro answer granted
    have present := answer.allowOrigin.mpr granted
    rw [fresh _ mem_allowOrigin] at present
    cases present
  · intro refused
    refine ⟨?_, ?_, fun _ => rfl, fun granted => absurd granted refused, ?_⟩
    · rw [fresh _ mem_allowOrigin]
      exact iff_of_false Bool.false_ne_true refused
    · refine iff_of_false ?_ refused
      rintro ⟨field, cors, present⟩
      rw [fresh field cors] at present
      cases present
    · rintro ⟨-, credentials⟩
      rw [fresh _ mem_allowCredentials] at credentials
      cases credentials

/-- A name that is kept in one of two equal lists is kept in the other, up to its case. -/
theorem kept_of_kept {names : List String} (tokens : ∀ name ∈ names, IsToken name)
    {ours theirs : String → Bool}
    (lists : (names.filter fun name => !ours (toLower name)).map canonicalMIMEHeaderKey =
      (names.filter fun name => !theirs (toLower name)).map canonicalMIMEHeaderKey)
    {name : String} (member : name ∈ names) (kept : ours (toLower name) = false) :
    theirs (toLower name) = false := by
  have listed : canonicalMIMEHeaderKey name ∈
      (names.filter fun name => !theirs (toLower name)).map canonicalMIMEHeaderKey :=
    lists ▸ List.mem_map_of_mem (List.mem_filter.mpr ⟨member, by simp [kept]⟩)
  obtain ⟨other, isOther, sameName⟩ := List.mem_map.mp listed
  obtain ⟨otherMember, otherKept⟩ := List.mem_filter.mp isOther
  have sameLower : toLower other = toLower name := by
    rw [toLower_of_token (tokens other otherMember), toLower_of_token (tokens name member),
      ← (canonicalMIMEHeaderKey_token (tokens other otherMember)).2, sameName,
      (canonicalMIMEHeaderKey_token (tokens name member)).2]
  rw [← sameLower]
  simpa using otherKept

/-- Two ways to leave out names that depend on their lower case only give the same list of
canonical names exactly if they agree. -/
theorem namesValue_filter_inj {names : List String} (tokens : ∀ name ∈ names, IsToken name)
    (first second : String → Bool) :
    namesValue (names.filter fun name => !first (toLower name)) =
        namesValue (names.filter fun name => !second (toLower name)) ↔
      ∀ name ∈ names, first (toLower name) = second (toLower name) := by
  constructor
  · intro same
    have tokensOf (keep : String → Bool) : ∀ name ∈ names.filter keep, IsToken name :=
      fun name kept => tokens name (List.mem_of_mem_filter kept)
    have lists := congrArg (List.flatMap fun value => listItems (splitComma value)) same
    rw [listItems_namesValue (tokensOf _), listItems_namesValue (tokensOf _)] at lists
    intro name member
    cases ours : first (toLower name) with
    | false => exact (kept_of_kept tokens lists member ours).symm
    | true =>
        cases theirs : second (toLower name) with
        | true => rfl
        | false => exact ours.symm.trans (kept_of_kept tokens lists.symm member theirs)
  · intro agree
    refine congrArg namesValue (List.filter_congr fun name member => ?_)
    rw [agree name member]

/-- What the middleware writes where it grants a request. -/
structure Grants (policy : CORSPolicy) (header answer : Header) : Prop where
  allowOrigin : GoMap.get answer headerAccessControlAllowOrigin =
    some [policy.middleware.answeredOrigin (header.get headerOrigin)]
  allowHeaders : answer.values headerAccessControlAllowHeaders =
    namesValue ((requestHeaders header).filter fun name => !isSimpleHeader name)
  allowCredentials : answer.has headerAccessControlAllowCredentials = policy.credentials

theorem grants_grantPreflight
    (fresh : ∀ field ∈ corsResponseFields, response.has field = false) (requestedMethod : String) :
    Grants policy header
      (policy.middleware.grantPreflight (header.get headerOrigin) requestedMethod
        ((requestHeaders header).filter fun name => !isSimpleHeader name) response) where
  allowOrigin := get_grantPreflight_allowOrigin ..
  allowHeaders := values_grantPreflight _ _ _ _ _ (fresh _ mem_allowHeaders)
  allowCredentials := has_grantPreflight_allowCredentials _ _ _ _ _ (fresh _ mem_allowCredentials)

namespace Grants

variable {answer : Header}

theorem has_allowOrigin (grants : Grants policy header answer) :
    answer.has headerAccessControlAllowOrigin := by
  rw [Header.has, grants.allowOrigin]
  rfl

/-- The names are listed as the steps say exactly if they are simple just where the standard
says so. -/
theorem allowHeaders_iff (grants : Grants policy header answer) (parse : HeadersParse header) :
    answer.values headerAccessControlAllowHeaders =
        namesValue ((askedHeaders header).filter fun name =>
          !CORSPolicy.simpleHeaders.contains (toLower name)) ↔
      ∀ name ∈ askedHeaders header,
        isSimpleHeader name = CORSPolicy.simpleHeaders.contains (toLower name) := by
  rw [grants.allowHeaders, requestHeaders_of_parse parse]
  exact namesValue_filter_inj parse _ _

/-- Only where credentials are allowed is the origin repeated, whatever it is. -/
theorem wildcard_iff (grants : Grants policy header answer) :
    ¬ (answer.get headerAccessControlAllowOrigin = corsWildcard ∧
        answer.has headerAccessControlAllowCredentials) ↔
      (policy.credentials → header.get headerOrigin ≠ corsWildcard) := by
  have value : answer.get headerAccessControlAllowOrigin =
      policy.middleware.answeredOrigin (header.get headerOrigin) := by
    rw [Header.get, Header.values, canonical_corsResponseFields _ mem_allowOrigin,
      grants.allowOrigin]
    rfl
  rw [value, grants.allowCredentials]
  cases allowed : policy.credentials with
  | true =>
      have repeated : policy.middleware.answeredOrigin (header.get headerOrigin) =
        header.get headerOrigin := if_pos allowed
      rw [repeated]
      simp
  | false => simp

/-- A grant of the middleware is the answer that the steps call for exactly if they grant the
request, the names are listed as they say, and the origin with credentials is not the
wildcard. -/
theorem preflightAnswer_iff (grants : Grants policy header answer) :
    PreflightAnswer policy header response answer ↔
      PreflightGranted policy header ∧
        (∀ name ∈ askedHeaders header,
          isSimpleHeader name = CORSPolicy.simpleHeaders.contains (toLower name)) ∧
        (policy.credentials → header.get headerOrigin ≠ corsWildcard) := by
  have present := grants.has_allowOrigin
  constructor
  · intro answers
    have granted := answers.allowOrigin.mp present
    exact ⟨granted, (grants.allowHeaders_iff granted.parse).mp (answers.allowHeaders granted),
      grants.wildcard_iff.mp answers.wildcard⟩
  · rintro ⟨granted, agree, notWildcard⟩
    exact
      { allowOrigin := iff_of_true present granted
        fields := iff_of_true ⟨_, mem_allowOrigin, present⟩ granted
        refused := fun refused => absurd granted refused
        allowHeaders := fun _ => (grants.allowHeaders_iff granted.parse).mpr agree
        wildcard := grants.wildcard_iff.mpr notWildcard }

end Grants

/-- The names that the steps allow pass the checks of the middleware too, where both agree on
which are simple. -/
theorem passes_of_granted (granted : PreflightGranted policy header)
    (agree : ∀ name ∈ askedHeaders header,
      isSimpleHeader name = CORSPolicy.simpleHeaders.contains (toLower name)) :
    Passes policy header := by
  refine ⟨granted.origin, granted.method, ?_⟩
  rw [requestHeaders_of_parse granted.parse]
  intro name asked
  rcases granted.headers name asked with simple | listed
  · exact .inl ((agree name asked).trans (List.contains_iff_mem.mpr simple))
  · exact .inr listed

theorem not_passes_iff :
    ¬ Passes policy header ↔
      ¬ OriginGranted policy header ∨ ¬ MethodGranted policy header ∨
        HeadersParse header ∧ ∃ name ∈ askedHeaders header,
          ¬ (isSimpleHeader name ∨ policy.ListsHeader name) := by
  constructor
  · intro refused
    by_contra others
    obtain ⟨origin, method, parsed⟩ : OriginGranted policy header ∧ MethodGranted policy header ∧
        ¬ (HeadersParse header ∧ ∃ name ∈ askedHeaders header,
          ¬ (isSimpleHeader name ∨ policy.ListsHeader name)) := by simpa [not_or] using others
    refine refused ⟨origin, method, fun name asked => ?_⟩
    by_cases parse : HeadersParse header
    · rw [requestHeaders_of_parse parse] at asked
      by_contra notAllowed
      exact parsed ⟨parse, name, asked, notAllowed⟩
    · rw [requestHeaders_of_not_parse parse] at asked
      cases asked
  · rintro (origin | method | ⟨parse, name, asked, notAllowed⟩) passes
    · exact origin passes.origin
    · exact method passes.method
    · exact notAllowed (passes.headers name (by rwa [requestHeaders_of_parse parse]))

end Preflight

def samplePreflight (origin headers : String) : Header :=
  ((Header.set ∅ headerOrigin origin).set headerAccessControlRequestMethod "GET").set
    headerAccessControlRequestHeaders headers

/-- The middleware that allows one header besides the simple ones. -/
def sampleHeaderOptions : List CORSMiddlewareOption := [.allowedHeaders ["X-Custom"]]

end EspressoProxy.Http
