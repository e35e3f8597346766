import EspressoProxy.Http.Preflight

/-!
# Scripts on other origins

What the CORS headers are for: a browser decides by them whether a script gets the response to
a request to another origin, and for most requests it asks first, with a preflight request. Here
both sides are put together. `CrossOriginRequest` is the request of a script, `SharingCheck` and
`PreflightCheck` are what the W3C steps have the browser do with the headers it gets, and the
middleware answers both of its requests.

A script gets the response exactly if the policy allows it, with one exception: the middleware
never lists a header of its own list of simple headers, which are those of simple responses. A
browser that asks about one of them, say about a `Content-Type` of JSON, is refused. The wrapped
handler is assumed to add no CORS field of its own.
-/

namespace EspressoProxy.Http

open EspressoProxy.Semantics

/-! ### The browser -/

/-- The request of a script. `headers` are the names that the browser has to ask about, in
lower case. -/
structure CrossOriginRequest where
  origin : String
  method : String
  headers : List String
  credentials : Bool

namespace CrossOriginRequest

variable (request : CrossOriginRequest)

/-- What holds of every request that a browser sends. -/
structure FromBrowser : Prop where
  method : IsToken request.method
  headers : ∀ name ∈ request.headers, IsToken name ∧ asciiToLower name = name

/-- The request itself. -/
structure Sent (header : Header) : Prop where
  origin : GoMap.get header headerOrigin = some [request.origin]
  noPreflight : header.has headerAccessControlRequestMethod = false

/-- The preflight request for it. -/
structure Asked (header : Header) : Prop where
  origin : GoMap.get header headerOrigin = some [request.origin]
  method : GoMap.get header headerAccessControlRequestMethod = some [request.method]
  headers : GoMap.get header headerAccessControlRequestHeaders =
    if request.headers = [] then none else some [",".intercalate request.headers]

def NeedsPreflight : Prop :=
  request.method ∉ CORSPolicy.simpleMethods ∨ request.headers ≠ []

/-- The resource sharing check. -/
def SharingCheck (response : Header) : Prop :=
  ∃ origin, response.values headerAccessControlAllowOrigin = [origin] ∧
    (origin = corsWildcard ∧ request.credentials = false ∨
      origin = request.origin ∧ (request.credentials = true →
        response.values headerAccessControlAllowCredentials = ["true"]))

/-- The items in all values of a field. -/
def fieldItems (response : Header) (field : String) : List String :=
  (response.values field).flatMap fun value => listItems (splitComma value)

/-- The check of the answer to a preflight request. -/
structure PreflightCheck (status : Nat) (response : Header) : Prop where
  success : 200 ≤ status ∧ status ≤ 299
  sharing : request.SharingCheck response
  method : request.method ∈ CORSPolicy.simpleMethods ∨
    request.method ∈ fieldItems response headerAccessControlAllowMethods
  headers : ∀ name ∈ request.headers,
    ∃ listed ∈ fieldItems response headerAccessControlAllowHeaders, asciiToLower listed = name

end CrossOriginRequest

/-- The headers of the response, from the middleware or on the way to the wrapped handler. -/
def CORSOutcome.headers : CORSOutcome → Header
  | .answered _ response | .forwarded response => response

/-- The script gets the response: the browser is satisfied by the answer to the preflight
request, if it has to send one, and then by the response. The wrapped handler is taken to leave
the CORS fields of the response as the middleware set them. -/
structure Obtained (middleware : HTTPCORSMiddleware) (request : CrossOriginRequest)
    (preflight header response : Header) : Prop where
  preflight : request.NeedsPreflight → ∃ status answer,
    middleware.serveHTTP methodOptions preflight response = .answered status answer ∧
      request.PreflightCheck status answer
  sharing : request.SharingCheck
    (middleware.serveHTTP request.method header response).headers

/-! ### The two checks -/

section Access

variable {policy : CORSPolicy} {request : CrossOriginRequest}
  {preflight header response : Header}

theorem get_of_not_has {field : String} (absent : response.has field = false) :
    GoMap.get response field = none :=
  Option.not_isSome_iff_eq_none.mp (Bool.eq_false_iff.mp absent)

theorem get_origin {origin : String} (found : GoMap.get header headerOrigin = some [origin]) :
    header.get headerOrigin = origin := by
  have canonical : canonicalMIMEHeaderKey headerOrigin = headerOrigin := by decide
  rw [Header.get, Header.values, canonical, found]
  rfl

/-- The check looks at two fields only. -/
theorem sharingCheck_congr {other : Header}
    (origin : GoMap.get other headerAccessControlAllowOrigin =
      GoMap.get response headerAccessControlAllowOrigin)
    (credentials : GoMap.get other headerAccessControlAllowCredentials =
      GoMap.get response headerAccessControlAllowCredentials) :
    request.SharingCheck other ↔ request.SharingCheck response := by
  simp only [CrossOriginRequest.SharingCheck, Header.values,
    canonical_corsResponseFields _ mem_allowOrigin,
    canonical_corsResponseFields _ mem_allowCredentials, origin, credentials]

theorem sharingCheck_fresh
    (fresh : ∀ field ∈ corsResponseFields, response.has field = false) :
    ¬ request.SharingCheck response := by
  rintro ⟨origin, listed, -⟩
  rw [Header.values, canonical_corsResponseFields _ mem_allowOrigin,
    get_of_not_has (fresh _ mem_allowOrigin)] at listed
  cases listed

/-- Where the origin is allowed, credentials are what is left to decide. -/
theorem sharingCheck_appendAllowOrigin
    (fresh : ∀ field ∈ corsResponseFields, response.has field = false) :
    request.SharingCheck
        (policy.middleware.appendAllowOrigin response request.origin) ↔
      (request.credentials = true → policy.credentials = true) := by
  have origin : (policy.middleware.appendAllowOrigin response request.origin).values
      headerAccessControlAllowOrigin =
        [policy.middleware.answeredOrigin request.origin] := by
    rw [Header.values, canonical_corsResponseFields _ mem_allowOrigin,
      get_appendAllowOrigin_origin]
    rfl
  cases allowed : policy.credentials with
  | true =>
      have isAllowed : policy.middleware.allowCredentials = true := allowed
      have answered : policy.middleware.answeredOrigin request.origin =
        request.origin := if_pos isAllowed
      have credentials : (policy.middleware.appendAllowOrigin response
          request.origin).values headerAccessControlAllowCredentials = ["true"] := by
        rw [HTTPCORSMiddleware.appendAllowOrigin, if_pos isAllowed, allowCredentials, Header.values,
          Header.set, canonical_corsResponseFields _ mem_allowCredentials, GoMap.get_set_self]
        rfl
      exact iff_of_true ⟨_, origin, .inr ⟨answered, fun _ => credentials⟩⟩ fun _ => rfl
  | false =>
      have notAllowed : policy.middleware.allowCredentials = false := allowed
      have credentials : (policy.middleware.appendAllowOrigin response
          request.origin).values headerAccessControlAllowCredentials = [] := by
        rw [Header.values, canonical_corsResponseFields _ mem_allowCredentials,
          get_appendAllowOrigin_of_ne _ _ _ (by decide) (fun _ => notAllowed),
          get_of_not_has (fresh _ mem_allowCredentials)]
        rfl
      constructor
      · rintro ⟨listed, isListed, ⟨-, without⟩ | ⟨rfl, withCredentials⟩⟩ asked
        · rw [asked] at without
          cases without
        · rw [credentials] at withCredentials
          cases withCredentials asked
      · intro none
        have without : request.credentials = false :=
          Bool.eq_false_iff.mpr fun asked => Bool.false_ne_true (none asked)
        refine ⟨_, origin, ?_⟩
        rw [HTTPCORSMiddleware.answeredOrigin, notAllowed]
        by_cases everybody : policy.middleware.allowedOrigins.length = 0
        · exact .inl ⟨if_pos everybody, without⟩
        · refine .inr ⟨if_neg everybody, fun asked => ?_⟩
          rw [without] at asked
          cases asked

/-- The response to the request itself. -/
theorem sharingCheck_sent (sent : request.Sent header)
    (fresh : ∀ field ∈ corsResponseFields, response.has field = false) :
    request.SharingCheck
        (policy.middleware.processSimpleCrossOriginRequest header response) ↔
      policy.AllowsOrigin request.origin ∧
        (request.credentials = true → policy.credentials = true) := by
  have present : header.has headerOrigin = true := by
    rw [Header.has, sent.origin]
    rfl
  have origin : header.get headerOrigin = request.origin := get_origin sent.origin
  rw [HTTPCORSMiddleware.processSimpleCrossOriginRequest, present, origin]
  by_cases allowed : policy.AllowsOrigin request.origin
  · rw [(isOriginAllowed_iff policy).mpr allowed]
    simp only [Bool.not_true, Bool.false_eq_true, if_false, allowed, true_and]
    exact sharingCheck_appendAllowOrigin fresh
  · have refused : policy.middleware.isOriginAllowed request.origin = false :=
      Bool.eq_false_iff.mpr fun granted => allowed ((isOriginAllowed_iff policy).mp granted)
    rw [refused]
    simp only [Bool.not_true, Bool.not_false, Bool.false_eq_true, if_false, if_true, allowed,
      false_and, iff_false]
    exact sharingCheck_fresh fresh

/-- The middleware reads the names that the browser asks about. -/
theorem askedHeaders_asked (browser : request.FromBrowser) (asked : request.Asked preflight) :
    askedHeaders preflight = request.headers := by
  have canonical : canonicalMIMEHeaderKey headerAccessControlRequestHeaders =
    headerAccessControlRequestHeaders := by decide +kernel
  rw [askedHeaders, Header.get, Header.values, canonical, asked.headers]
  by_cases none : request.headers = []
  · rw [if_pos none, none]
    decide +kernel
  · rw [if_neg none]
    exact listItems_intercalate none fun name member => (browser.headers name member).1

theorem requestHeaders_asked (browser : request.FromBrowser) (asked : request.Asked preflight) :
    requestHeaders preflight = request.headers := by
  have headers := askedHeaders_asked browser asked
  have parse : HeadersParse preflight := by
    rw [HeadersParse, headers]
    exact fun name member => (browser.headers name member).1
  exact (requestHeaders_of_parse parse).trans headers

theorem askedMethod_asked (browser : request.FromBrowser) (asked : request.Asked preflight) :
    askedMethod preflight = request.method := by
  have canonical : canonicalMIMEHeaderKey headerAccessControlRequestMethod =
    headerAccessControlRequestMethod := by decide +kernel
  rw [askedMethod, Header.get, Header.values, canonical, asked.method]
  exact trimSpace_of_token browser.method

theorem values_allowMethods {methods : List String} (nonempty : methods ≠ [])
    (without : response.values headerAccessControlAllowMethods = []) :
    (allowMethods response methods).values headerAccessControlAllowMethods =
      [",".intercalate methods] := by
  rw [allowMethods, if_neg fun none => nonempty (List.length_eq_zero_iff.mp none),
    Header.values_add, if_pos rfl, without]
  rfl

/-- The methods that a granted request for another than a simple method is answered with. -/
theorem values_grantPreflight_methods {method : String} (other : isSimpleMethod method = false)
    (origin : String) (nonSimpleHeaders : List String)
    (fresh : response.has headerAccessControlAllowMethods = false) :
    (policy.middleware.grantPreflight origin method nonSimpleHeaders response).values
        headerAccessControlAllowMethods =
      [",".intercalate (if policy.methods = [] then [method] else policy.methods)] := by
  have canonical := canonical_corsResponseFields _ mem_allowMethods
  have without : (maxAge (policy.middleware.appendAllowOrigin response origin)
      corsPolicyMaxAge).values headerAccessControlAllowMethods = [] := by
    rw [Header.values, canonical, maxAge, get_set_field _ mem_maxAge (by decide),
      get_appendAllowOrigin_of_ne _ _ _ (by decide) (fun same => absurd same (by decide)),
      get_of_not_has fresh]
    rfl
  have listed : (policy.middleware.appendAllowMethods
      (maxAge (policy.middleware.appendAllowOrigin response origin) corsPolicyMaxAge)
      method).values headerAccessControlAllowMethods =
      [",".intercalate (if policy.methods = [] then [method] else policy.methods)] := by
    have sameMethods : policy.middleware.allowedMethods = policy.methods := rfl
    rw [HTTPCORSMiddleware.appendAllowMethods, other, sameMethods]
    by_cases none : policy.methods = []
    · rw [if_pos none, none]
      exact values_allowMethods (List.cons_ne_nil method []) without
    · have some : ¬ policy.methods.length = 0 := fun zero => none (List.length_eq_zero_iff.mp zero)
      rw [if_neg none, if_neg some]
      exact values_allowMethods none without
  rw [← listed, HTTPCORSMiddleware.grantPreflight]
  split
  · rw [allowHeaders]
    split
    · rfl
    · rw [Header.values, Header.values, canonical,
        get_add_field _ mem_allowHeaders (by decide)]
  · rfl

/-- The requirements of the policy that the browser sees. -/
structure Permitted (policy : CORSPolicy) (request : CrossOriginRequest) : Prop where
  origin : policy.AllowsOrigin request.origin
  credentials : request.credentials = true → policy.credentials = true
  method : policy.AllowsMethod request.method
  headers : ∀ name ∈ request.headers, policy.ListsHeader name

/-- The middleware passes the preflight request of a browser exactly if the policy allows what is
asked, or takes its headers for simple ones. -/
theorem passes_asked_iff (browser : request.FromBrowser) (asked : request.Asked preflight) :
    Passes policy preflight ↔
      policy.AllowsOrigin request.origin ∧ policy.AllowsMethod request.method ∧
        ∀ name ∈ request.headers, isSimpleHeader name ∨ policy.ListsHeader name := by
  have origin : preflight.get headerOrigin = request.origin := get_origin asked.origin
  have originGranted : OriginGranted policy preflight ↔ policy.AllowsOrigin request.origin := by
    rw [OriginGranted, Header.has, asked.origin, origin]
    exact and_iff_right rfl
  have methodGranted : MethodGranted policy preflight ↔ policy.AllowsMethod request.method := by
    rw [MethodGranted, Header.has, asked.method, askedMethod_asked browser asked]
    exact (and_iff_right rfl).trans (and_iff_right browser.method)
  have names := requestHeaders_asked browser asked
  constructor
  · intro passes
    exact ⟨originGranted.mp passes.origin, methodGranted.mp passes.method, names ▸ passes.headers⟩
  · rintro ⟨originAllowed, methodAllowed, headersAllowed⟩
    exact ⟨originGranted.mpr originAllowed, methodGranted.mpr methodAllowed, names ▸ headersAllowed⟩

open CrossOriginRequest (fieldItems)

/-- The browser finds the names that are not simple in the eyes of the middleware. -/
theorem headers_listed_iff (browser : request.FromBrowser) {answer : Header}
    (listed : answer.values headerAccessControlAllowHeaders =
      namesValue (request.headers.filter fun name => !isSimpleHeader name)) :
    (∀ name ∈ request.headers, ∃ found ∈ fieldItems answer headerAccessControlAllowHeaders,
        asciiToLower found = name) ↔
      ∀ name ∈ request.headers, isSimpleHeader name = false := by
  have items : fieldItems answer headerAccessControlAllowHeaders =
      (request.headers.filter fun name => !isSimpleHeader name).map
        canonicalMIMEHeaderKey := by
    rw [fieldItems, listed]
    exact listItems_namesValue fun name member =>
      (browser.headers name (List.mem_of_mem_filter member)).1
  rw [items]
  refine forall₂_congr fun name member => ?_
  obtain ⟨token, lower⟩ := browser.headers name member
  constructor
  · rintro ⟨found, isFound, same⟩
    obtain ⟨other, isOther, rfl⟩ := List.mem_map.mp isFound
    obtain ⟨otherMember, notSimple⟩ := List.mem_filter.mp isOther
    obtain ⟨otherToken, otherLower⟩ := browser.headers other otherMember
    rw [(canonicalMIMEHeaderKey_token otherToken).2, otherLower] at same
    subst same
    simpa using notSimple
  · intro notSimple
    refine ⟨_, List.mem_map_of_mem (List.mem_filter.mpr ⟨member, by simp [notSimple]⟩), ?_⟩
    rw [(canonicalMIMEHeaderKey_token token).2, lower]

theorem preflightCheck_iff (browser : request.FromBrowser) (asked : request.Asked preflight)
    (fresh : ∀ field ∈ corsResponseFields, response.has field = false) :
    request.PreflightCheck statusNoContent
        (policy.middleware.processPreflightRequest preflight response) ↔
      Permitted policy request ∧ ∀ name ∈ request.headers, isSimpleHeader name = false := by
  by_cases passes : Passes policy preflight
  · obtain ⟨origin, method, headers⟩ := (passes_asked_iff browser asked).mp passes
    rw [processPreflightRequest_granted _ response passes, get_origin asked.origin,
      askedMethod_asked browser asked, requestHeaders_asked browser asked]
    have sharing : request.SharingCheck (policy.middleware.grantPreflight request.origin
        request.method (request.headers.filter fun name => !isSimpleHeader name) response) ↔
          (request.credentials = true → policy.credentials = true) :=
      (sharingCheck_congr
        (get_grantPreflight _ _ _ _ _ (by decide) (by decide) (by decide))
        (get_grantPreflight _ _ _ _ _ (by decide) (by decide) (by decide))).trans
        (sharingCheck_appendAllowOrigin fresh)
    have listed := headers_listed_iff browser
      (values_grantPreflight response policy.middleware request.origin request.method
        (request.headers.filter fun name => !isSimpleHeader name) (fresh _ mem_allowHeaders))
    constructor
    · rintro ⟨-, shares, -, found⟩
      have others := listed.mp found
      refine ⟨⟨origin, sharing.mp shares, method, fun name member => ?_⟩, others⟩
      exact (headers name member).resolve_left (by simp [others name member])
    · rintro ⟨permitted, others⟩
      refine ⟨by decide, sharing.mpr permitted.credentials, ?_, listed.mpr others⟩
      refine (Decidable.em (request.method ∈ CORSPolicy.simpleMethods)).imp_right fun other => ?_
      have notSimple : isSimpleMethod request.method = false :=
        Bool.eq_false_iff.mpr fun simple => other (isSimpleMethod_iff.mp simple)
      rw [fieldItems, values_grantPreflight_methods notSimple _ _ (fresh _ mem_allowMethods),
        List.flatMap_singleton]
      refine mem_listItems_of_token ?_ browser.method
      split
      · exact List.mem_singleton_self _
      · rename_i limited
        exact (method.resolve_left other).resolve_left limited
  · rw [processPreflightRequest_refused _ response passes]
    refine iff_of_false (fun check => sharingCheck_fresh fresh check.sharing) ?_
    rintro ⟨permitted, -⟩
    exact passes ((passes_asked_iff browser asked).mpr
      ⟨permitted.origin, permitted.method, fun name member => .inr (permitted.headers name member)⟩)

/-- A script of another origin gets the response of the wrapped handler exactly if the policy
allows its origin, its method, its headers and the credentials it sends, unless the method is
`OPTIONS` or a header is one of those that the middleware takes for simple: these it never
gets, whatever the policy says. -/
theorem script_obtains_response_iff (options : List CORSMiddlewareOption)
    (browser : request.FromBrowser) (asked : request.Asked preflight)
    (sent : request.Sent header)
    (fresh : ∀ field ∈ corsResponseFields, response.has field = false) :
    Obtained (newCORSMiddleware options) request preflight header response ↔
      Permitted (.ofOptions options) request ∧ request.method ≠ methodOptions ∧
        ∀ name ∈ request.headers, isSimpleHeader name = false := by
  rw [newCORSMiddleware_eq]
  let policy := CORSPolicy.ofOptions options
  have checked : request.PreflightCheck statusNoContent
      (policy.middleware.processPreflightRequest preflight response) ↔ _ :=
    preflightCheck_iff browser asked fresh
  have answers (status : Nat) (answer : Header) :
      policy.middleware.serveHTTP methodOptions preflight response =
        .answered status answer ↔ status = statusNoContent ∧ answer =
          policy.middleware.processPreflightRequest preflight response := by
    rw [HTTPCORSMiddleware.serveHTTP, if_pos rfl, CORSOutcome.answered.injEq]
    exact and_congr eq_comm eq_comm
  by_cases isOptions : request.method = methodOptions
  · -- The middleware takes the request for a preflight request without a method.
    refine iff_of_false (fun obtained => ?_) fun permitted => permitted.2.1 isOptions
    have answered : policy.middleware.serveHTTP request.method header response =
        .answered statusNoContent response := by
      rw [HTTPCORSMiddleware.serveHTTP, if_pos isOptions, processPreflightRequest_refused]
      rintro ⟨-, ⟨present, -⟩, -⟩
      rw [sent.noPreflight] at present
      cases present
    have shares := obtained.sharing
    rw [answered] at shares
    exact sharingCheck_fresh fresh shares
  · have forwarded : policy.middleware.serveHTTP request.method header response =
        .forwarded (policy.middleware.processSimpleCrossOriginRequest header response) :=
      if_neg isOptions
    have shared : request.SharingCheck
        (policy.middleware.processSimpleCrossOriginRequest header response) ↔ _ :=
      sharingCheck_sent sent fresh
    constructor
    · rintro ⟨preflighted, shares⟩
      rw [forwarded] at shares
      obtain ⟨origin, credentials⟩ := shared.mp shares
      by_cases needs : request.NeedsPreflight
      · obtain ⟨status, answer, answered, check⟩ := preflighted needs
        obtain ⟨rfl, rfl⟩ := (answers status answer).mp answered
        obtain ⟨permitted, others⟩ := checked.mp check
        exact ⟨permitted, isOptions, others⟩
      · obtain ⟨simple, none⟩ := not_or.mp needs
        have none : request.headers = [] := not_not.mp none
        have simple : request.method ∈ CORSPolicy.simpleMethods := not_not.mp simple
        refine ⟨⟨origin, credentials, .inl simple, ?_⟩, isOptions, ?_⟩
        · rw [none]
          rintro name ⟨⟩
        · rw [none]
          rintro name ⟨⟩
    · rintro ⟨permitted, -, others⟩
      refine ⟨fun _ => ⟨_, _, (answers _ _).mpr ⟨rfl, rfl⟩, checked.mpr ⟨permitted, others⟩⟩, ?_⟩
      rw [forwarded]
      exact shared.mpr ⟨permitted.origin, permitted.credentials⟩

end Access

def sampleCrossOrigin (method name : String) : CrossOriginRequest :=
  ⟨"https://example.com", method, [name], false⟩

/-- Without any option a script may use `PUT` and a header of its own. It may not send JSON: the
`Content-Type` that its browser asks about is not among the headers that are listed. -/
theorem script_obtains_response_except_for_json :
    let request := sampleCrossOrigin "PUT" "x-custom"
    let json := sampleCrossOrigin "POST" "content-type"
    let header := Header.set ∅ headerOrigin "https://example.com"
    let preflight (request : CrossOriginRequest) :=
      (header.set headerAccessControlRequestMethod request.method).set
        headerAccessControlRequestHeaders (",".intercalate request.headers)
    Obtained (newCORSMiddleware []) request (preflight request) header ∅ ∧
      ¬ Obtained (newCORSMiddleware []) json (preflight json) header ∅ ∧
      Permitted (.ofOptions []) json := by
  intro request json header preflight
  have fresh : ∀ field ∈ corsResponseFields, Header.has ∅ field = false := fun _ _ => rfl
  have permitted (method name : String) :
      Permitted (.ofOptions []) (sampleCrossOrigin method name) :=
    ⟨.inl rfl, nofun, .inr (.inl rfl), fun _ _ => .inl rfl⟩
  have browser : request.FromBrowser ∧ json.FromBrowser :=
    ⟨⟨by decide, by decide +kernel⟩, by decide, by decide +kernel⟩
  have asked : request.Asked (preflight request) ∧ json.Asked (preflight json) :=
    ⟨⟨by decide +kernel, by decide +kernel, by decide +kernel⟩,
      by decide +kernel, by decide +kernel, by decide +kernel⟩
  have sent : request.Sent header ∧ json.Sent header :=
    ⟨⟨by decide +kernel, by decide +kernel⟩, by decide +kernel, by decide +kernel⟩
  refine ⟨(script_obtains_response_iff [] browser.1 asked.1 sent.1 fresh).mpr
    ⟨permitted _ _, by decide, by decide +kernel⟩, fun obtained => ?_, permitted _ _⟩
  obtain ⟨-, -, others⟩ :=
    (script_obtains_response_iff [] browser.2 asked.2 sent.2 fresh).mp obtained
  exact absurd (others "content-type" List.mem_cons_self) (by decide +kernel)

end EspressoProxy.Http
