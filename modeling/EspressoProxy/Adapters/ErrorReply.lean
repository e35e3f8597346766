import EspressoProxy.Http.Middlewares
import EspressoProxy.JsonRpc.ResponseCodec
import EspressoProxy.Proxy.BatchAgreement
import EspressoProxy.WebSocket.Integrity

/-!
# Answers to rejected requests

A payload that is not forwarded is answered with a JSON-RPC error, over HTTP by the handler
and over a WebSocket from inside the read. `Rejection` says why a payload is rejected, in terms
of the payload, the limits and the state that was read, and which error states this reason.
An error is given exactly for its reason, and what is written for it is a response that a
client can decode: the error, no result and the identifier `null`.
-/

namespace EspressoProxy.Adapters

open EspressoProxy.JsonRpc EspressoProxy.Proxy EspressoProxy.Store EspressoProxy.Semantics
open EspressoProxy.Http EspressoProxy.WebSocket

/-! ### Reasons -/

/-- The payload is an object or an array, or begins like one. -/
def opensRequest : Scanned → Bool
  | .value (.object _) | .value (.array _) => true
  | .malformed first => first = 0x7b ∨ first = 0x5b
  | _ => false

/-- The requests in a payload. -/
def requestsIn : Scanned → Option (List Request)
  | .value (.object members) => (decodeRequest (.object members)).map fun request => [request]
  | .value json => decodeBatch json
  | _ => none

def isBatch : Scanned → Bool
  | .value (.array _) => true
  | _ => false

def depthErrorObject : Error :=
  ⟨codeInternalError, s!"JSON nesting depth exceeds limit of {maxJSONDepth}"⟩

def batchSizeErrorObject (count limit : Nat) : Error :=
  ⟨codeInvalidRequest, s!"batch size {count} exceeds maximum batch size of {limit}"⟩

section Reasons

variable {Text : Type} (text : JSONText Text) (interceptor : Interceptor)
  (state : EspressoState) (payload : Text)

/-- Why a payload is rejected, with the error that says so. -/
inductive Rejection : Error → Prop where
  | empty (blank : text.scan payload = .blank) :
      Rejection ⟨codeParseError, "received empty payload, with no content"⟩
  | format (present : text.scan payload ≠ .blank)
      (other : opensRequest (text.scan payload) = false) :
      Rejection ⟨codeParseError, "unexpected format for json-rpc request"⟩
  | undecodable (opens : opensRequest (text.scan payload))
      (undecoded : requestsIn (text.scan payload) = none) :
      Rejection ⟨codeParseError, "failed to decode JSON-RPC request"⟩
  | batchTooLarge {requests : List Request} (batch : isBatch (text.scan payload))
      (decoded : requestsIn (text.scan payload) = some requests)
      (beyond : interceptor.maxBatchSize < requests.length) :
      Rejection (batchSizeErrorObject requests.length interceptor.maxBatchSize)
  | tooDeep {requests : List Request} {request : Request} {number : Nat}
      (decoded : requestsIn (text.scan payload) = some requests)
      (within : isBatch (text.scan payload) → requests.length ≤ interceptor.maxBatchSize)
      (known : Interceptor.getCurrentEspressoFinalizedBlockNumber state = some number)
      (present : request ∈ requests) (deep : maxJSONDepth < request.params.height) :
      Rejection depthErrorObject

end Reasons

theorem interceptErrorObject_root (cause : InterceptError) :
    interceptErrorObject cause.root = interceptErrorObject cause := by
  induction cause with
  | maxJSONDepthExceeded error => rfl
  | maxBatchSizeExceeded error => rfl
  | wrapped context cause inductionHypothesis => exact inductionHypothesis

variable {Text : Type} {text : JSONText Text} {interceptor : Interceptor}
  {state : EspressoState} {payload : Text}

/-- A request fails only at the depth limit, and only if there is a number to put into it. -/
theorem interceptRequest_error_iff {request : Request} (wellFormed : request.WellFormed)
    {error : Error} :
    (∃ cause, interceptor.interceptRequest state request = .error cause ∧
      interceptErrorObject cause = error) ↔
    error = depthErrorObject ∧ maxJSONDepth < request.params.height ∧
      ∃ number, Interceptor.getCurrentEspressoFinalizedBlockNumber state = some number := by
  constructor
  · rintro ⟨cause, failed, rfl⟩
    have object : interceptErrorObject cause = depthErrorObject := by
      rw [← interceptErrorObject_root, Interceptor.root_of_interceptRequest failed]
      rfl
    cases known : Interceptor.getCurrentEspressoFinalizedBlockNumber state with
    | none =>
        rw [Interceptor.interceptRequest, known] at failed
        cases failed
    | some number =>
        refine ⟨object, Nat.lt_of_not_le fun within => ?_, number, rfl⟩
        rw [Interceptor.interceptRequest_eq known wellFormed.params within] at failed
        cases failed
  · rintro ⟨rfl, deep, number, known⟩
    have walk : WalkExact interceptor.espressoTag number request.params 0 :=
      walkExact wellFormed.params 0
    obtain ⟨cause, failed⟩ := walk.beyond (by rwa [Nat.zero_add])
    have rejected : interceptor.interceptRequest state request = .error cause := by
      rw [Interceptor.interceptRequest, known]
      dsimp only
      rw [Interceptor.interceptRequestWithNumber, failed]
    refine ⟨cause, rejected, ?_⟩
    rw [← interceptErrorObject_root, Interceptor.root_of_interceptRequest rejected]
    rfl

theorem wellFormed_of_decodeBatch {items : List Json} {requests : List Request}
    (decoded : items.mapM decodeRequest = some requests) :
    ∀ request ∈ requests, request.WellFormed := by
  induction items generalizing requests with
  | nil =>
      cases decoded
      rintro request ⟨⟩
  | cons item rest inductionHypothesis =>
      simp only [List.mapM_cons, Option.bind_eq_bind, Option.bind_eq_some_iff,
        Option.pure_def, Option.some.injEq] at decoded
      obtain ⟨first, firstDecoded, others, othersDecoded, rfl⟩ := decoded
      refine List.forall_mem_cons.mpr ⟨decodeRequest_wellFormed firstDecoded, ?_⟩
      exact inductionHypothesis othersDecoded

theorem interceptBatchRequests_error_iff {requests : List Request}
    (wellFormed : ∀ request ∈ requests, request.WellFormed) {error : Error} :
    (∃ cause, interceptor.interceptBatchRequests state requests = .error cause ∧
      interceptErrorObject cause = error) ↔
    (interceptor.maxBatchSize < requests.length ∧
        error = batchSizeErrorObject requests.length interceptor.maxBatchSize) ∨
      (requests.length ≤ interceptor.maxBatchSize ∧ error = depthErrorObject ∧
        (∃ request ∈ requests, maxJSONDepth < request.params.height) ∧
        ∃ number, Interceptor.getCurrentEspressoFinalizedBlockNumber state = some number) := by
  rcases Nat.lt_or_ge interceptor.maxBatchSize requests.length with beyond | within
  · rw [Interceptor.interceptBatchRequests, if_pos beyond]
    constructor
    · rintro ⟨cause, ⟨⟩, rfl⟩
      exact .inl ⟨beyond, rfl⟩
    · rintro (⟨-, rfl⟩ | ⟨within, -⟩)
      · exact ⟨_, rfl, rfl⟩
      · exact absurd within (Nat.not_le.mpr beyond)
  · rw [Interceptor.interceptBatchRequests_eq_mapM state within]
    constructor
    · rintro ⟨cause, failed, rfl⟩
      rcases mapM_cases (f := interceptor.interceptRequest state) requests with
        ⟨next, returned, -⟩ | ⟨found, failedAt, request, present, rejected⟩
      · rw [returned] at failed
        cases failed
      · obtain rfl : found = cause := Except.error.inj (failedAt.symm.trans failed)
        obtain ⟨object, deep, known⟩ :=
          (interceptRequest_error_iff (wellFormed request present)).mp ⟨found, rejected, rfl⟩
        exact .inr ⟨within, object, ⟨request, present, deep⟩, known⟩
    · rintro (⟨beyond, -⟩ | ⟨-, rfl, ⟨request, present, deep⟩, known⟩)
      · exact absurd within (Nat.not_le.mpr beyond)
      · obtain ⟨cause, rejected, -⟩ : ∃ cause,
            interceptor.interceptRequest state request = .error cause ∧ _ :=
          (interceptRequest_error_iff (wellFormed request present)).mpr ⟨rfl, deep, known⟩
        rcases mapM_cases (f := interceptor.interceptRequest state) requests with
          ⟨next, -, each⟩ | ⟨found, failedAt, other, otherPresent, otherRejected⟩
        · obtain ⟨rewritten, -, succeeded⟩ := exists_mem_of_forall₂ each present
          rw [rejected] at succeeded
          cases succeeded
        · -- The error is that of the first request that fails, which is at the limit too.
          exact ⟨found, failedAt, ((interceptRequest_error_iff
            (wellFormed other otherPresent)).mp ⟨found, otherRejected, rfl⟩).1⟩

/-- Decoding, interception and encoding fail for the one or for the other. -/
theorem requestInterceptorGlue_error_iff {R : Type} {decode : Json → Option R}
    {encode : R → Json} {intercept : R → Except InterceptError R} {json : Json} {error : Error} :
    (∃ cause, requestInterceptorGlue decode encode intercept json = .error cause ∧
      cause.object = error) ↔
    (decode json = none ∧ error = ⟨codeParseError, "failed to decode JSON-RPC request"⟩) ∨
      ∃ request, decode json = some request ∧ ∃ cause, intercept request = .error cause ∧
        interceptErrorObject cause = error := by
  unfold requestInterceptorGlue
  cases decode json with
  | none =>
      constructor
      · rintro ⟨cause, ⟨⟩, rfl⟩
        exact .inl ⟨rfl, rfl⟩
      · rintro (⟨-, rfl⟩ | ⟨request, ⟨⟩, -⟩)
        exact ⟨_, rfl, rfl⟩
  | some request =>
      dsimp only
      constructor
      · rintro ⟨cause, failed, rfl⟩
        split at failed
        · rename_i found intercepted
          cases failed
          exact .inr ⟨request, rfl, found, intercepted, rfl⟩
        · cases failed
      · rintro (⟨⟨⟩, -⟩ | ⟨other, ⟨⟩, found, failed, rfl⟩)
        rw [failed]
        exact ⟨_, rfl, rfl⟩

theorem map_error_iff {ε α β : Type} {result : Except ε α} {f : α → β} {cause : ε} :
    result.map f = .error cause ↔ result = .error cause := by
  cases result with
  | ok value => simp [Except.map]
  | error found => simp [Except.map]

theorem rejection_object_iff {members : List (String × Json)} {error : Error}
    (reads : text.scan payload = .value (.object members)) :
    Rejection text interceptor state payload error ↔
      (decodeRequest (.object members) = none ∧
        error = ⟨codeParseError, "failed to decode JSON-RPC request"⟩) ∨
      ∃ request, decodeRequest (.object members) = some request ∧
        error = depthErrorObject ∧ maxJSONDepth < request.params.height ∧
        ∃ number, Interceptor.getCurrentEspressoFinalizedBlockNumber state = some number := by
  constructor
  · rintro (blank | ⟨-, other⟩ | ⟨-, undecoded⟩ | ⟨batch, -, -⟩ |
      ⟨decoded, -, known, present, deep⟩)
    · rw [reads] at blank
      cases blank
    · rw [reads] at other
      cases other
    · rw [reads] at undecoded
      exact .inl ⟨Option.map_eq_none_iff.mp undecoded, rfl⟩
    · rw [reads] at batch
      cases batch
    · rw [reads] at decoded
      obtain ⟨request, found, rfl⟩ := Option.map_eq_some_iff.mp decoded
      obtain rfl := List.mem_singleton.mp present
      exact .inr ⟨_, found, rfl, deep, _, known⟩
  · rintro (⟨undecoded, rfl⟩ | ⟨request, decoded, rfl, deep, number, known⟩)
    · refine .undecodable (by rw [reads]; rfl) ?_
      rw [reads]
      exact Option.map_eq_none_iff.mpr undecoded
    · have only : requestsIn (text.scan payload) = some [request] := by
        rw [reads]
        exact Option.map_eq_some_iff.mpr ⟨request, decoded, rfl⟩
      refine .tooDeep only ?_ known (List.mem_singleton_self _) deep
      rw [reads]
      rintro ⟨⟩

theorem rejection_array_iff {items : List Json} {error : Error}
    (reads : text.scan payload = .value (.array items)) :
    Rejection text interceptor state payload error ↔
      (decodeBatch (.array items) = none ∧
        error = ⟨codeParseError, "failed to decode JSON-RPC request"⟩) ∨
      ∃ requests, decodeBatch (.array items) = some requests ∧
        ((interceptor.maxBatchSize < requests.length ∧
            error = batchSizeErrorObject requests.length interceptor.maxBatchSize) ∨
          (requests.length ≤ interceptor.maxBatchSize ∧ error = depthErrorObject ∧
            (∃ request ∈ requests, maxJSONDepth < request.params.height) ∧
            ∃ number, Interceptor.getCurrentEspressoFinalizedBlockNumber state = some number)) := by
  have batch : isBatch (text.scan payload) := by
    rw [reads]
    rfl
  have same : requestsIn (text.scan payload) = decodeBatch (.array items) := by
    rw [reads]
    rfl
  constructor
  · rintro (blank | ⟨-, other⟩ | ⟨-, undecoded⟩ | ⟨-, decoded, beyond⟩ |
      ⟨decoded, within, known, present, deep⟩)
    · rw [reads] at blank
      cases blank
    · rw [reads] at other
      cases other
    · exact .inl ⟨same ▸ undecoded, rfl⟩
    · exact .inr ⟨_, same ▸ decoded, .inl ⟨beyond, rfl⟩⟩
    · exact .inr ⟨_, same ▸ decoded, .inr ⟨within batch, rfl, ⟨_, present, deep⟩, _, known⟩⟩
  · rintro (⟨undecoded, rfl⟩ | ⟨requests, decoded, ⟨beyond, rfl⟩ |
      ⟨within, rfl, ⟨request, present, deep⟩, number, known⟩⟩)
    · exact .undecodable (by rw [reads]; rfl) (same.trans undecoded)
    · exact .batchTooLarge batch (same.trans decoded) beyond
    · exact .tooDeep (same.trans decoded) (fun _ => within) known present deep

/-- A payload without requests in it is rejected for one of the first three reasons. -/
theorem rejection_of_no_requests {error : Error}
    (undecoded : requestsIn (text.scan payload) = none) :
    Rejection text interceptor state payload error ↔
      (text.scan payload = .blank ∧
        error = ⟨codeParseError, "received empty payload, with no content"⟩) ∨
      (text.scan payload ≠ .blank ∧ opensRequest (text.scan payload) = false ∧
        error = ⟨codeParseError, "unexpected format for json-rpc request"⟩) ∨
      (opensRequest (text.scan payload) ∧
        error = ⟨codeParseError, "failed to decode JSON-RPC request"⟩) := by
  constructor
  · rintro (blank | ⟨present, other⟩ | ⟨opens, -⟩ | ⟨-, decoded, -⟩ | ⟨decoded, -, -, -, -⟩)
    · exact .inl ⟨blank, rfl⟩
    · exact .inr (.inl ⟨present, other, rfl⟩)
    · exact .inr (.inr ⟨opens, rfl⟩)
    · rw [undecoded] at decoded
      cases decoded
    · rw [undecoded] at decoded
      cases decoded
  · rintro (⟨blank, rfl⟩ | ⟨present, other, rfl⟩ | ⟨opens, rfl⟩)
    · exact .empty blank
    · exact .format present other
    · exact .undecodable opens undecoded

/-- A payload is rejected exactly for a reason, with the error that states it. -/
theorem rejection_iff {error : Error} :
    (∃ cause, performRequestIntercept text interceptor state payload = .error cause ∧
      cause.object = error) ↔ Rejection text interceptor state payload error := by
  unfold performRequestIntercept
  split
  · rename_i blank
    rw [rejection_of_no_requests (by rw [blank]; rfl), blank]
    simp [emptyPayload, RequestError.object, opensRequest, eq_comm]
  · rename_i first malformed
    rw [rejection_of_no_requests (by rw [malformed]; rfl), malformed]
    by_cases opens : first = 0x7b ∨ first = 0x5b
    · simp [opens, undecodable, RequestError.object, opensRequest, eq_comm]
    · simp [opens, unexpectedFormat, RequestError.object, opensRequest, eq_comm]
  · rename_i members reads
    simp only [map_error_iff]
    rw [requestInterceptorGlue_error_iff, rejection_object_iff reads]
    refine or_congr_right (exists_congr fun request => and_congr_right fun decoded => ?_)
    exact interceptRequest_error_iff (decodeRequest_wellFormed decoded)
  · rename_i items reads
    simp only [map_error_iff]
    rw [requestInterceptorGlue_error_iff, rejection_array_iff reads]
    refine or_congr_right (exists_congr fun requests => and_congr_right fun decoded => ?_)
    exact interceptBatchRequests_error_iff (wellFormed_of_decodeBatch decoded)
  · rename_i json notObject notArray reads
    have scalar : opensRequest (.value json) = false ∧ requestsIn (.value json) = none := by
      cases json with
      | object members => exact absurd rfl (notObject members)
      | array items => exact absurd rfl (notArray items)
      | _ => exact ⟨rfl, rfl⟩
    rw [rejection_of_no_requests (by rw [reads]; exact scalar.2), reads, scalar.1]
    simp [unexpectedFormat, RequestError.object, eq_comm]

theorem Rejection.code {error : Error}
    (rejection : Rejection text interceptor state payload error) :
    error.code = codeParseError ∨ error.code = codeInvalidRequest ∨
      error.code = codeInternalError := by
  cases rejection with
  | empty | format | undecodable => exact .inl rfl
  | batchTooLarge => exact .inr (.inl rfl)
  | tooDeep => exact .inr (.inr rfl)

/-! ### Replies -/

/-- The message is a response that a client decodes to the error, without a result and with
the identifier `null`. -/
def Reports (text : JSONText Text) (error : Error) (message : Text) : Prop :=
  ∃ read, text.scan message = .value read ∧
    decodeResponse read =
      some (createGeneralErrorResponse (.value .null) error.code error.message)

theorem decodeResponse_id {json : Json} {response : Response}
    (decoded : decodeResponse json = some response) : ∃ id, response.id = .value id := by
  unfold decodeResponse at decoded
  split at decoded
  · simp only [Option.bind_eq_some_iff] at decoded
    obtain ⟨found, -, id, -, result, -, error, -, decoded⟩ := decoded
    split at decoded
    · cases decoded
    · cases decoded
      exact ⟨id, rfl⟩
  · cases decoded

theorem eq_null_of_reorders {json : Json} (same : json.Reorders .null) : json = .null :=
  Json.node_eq_null_iff.mp (Option.some.inj (congrFun same.nodes []))

theorem eq_nil_of_reorders {members : List (String × Json)}
    (same : (Json.object members).Reorders (.object [])) : members = [] := by
  cases members with
  | nil => rfl
  | cons member rest =>
      have present : member.1 ∈ names (member :: rest) := List.mem_cons_self
      rw [Json.mem_names_iff_nodeAt, same.nodes] at present
      cases present

/-- What is written for an error is decoded to that error and to nothing else. -/
theorem reports_of_code {error : Error} (isInt : IsInt64 error.code) :
    Reports text error (text.print (encodeErrorResponse error)) := by
  let response := createGeneralErrorResponse (.value .null) error.code error.message
  have wellFormed : response.WellFormed := by
    refine ⟨rfl, rfl, ?_, rfl⟩
    rintro object ⟨⟩
    exact ⟨isInt, rfl, rfl⟩
  have plain : response.PlainExtras := by
    refine ⟨?_, ?_⟩
    · rintro name ⟨⟩
    · rintro object ⟨⟩ name ⟨⟩
  have fits : (encodeErrorResponse error).fits 0 := by
    simp only [encodeErrorResponse, Json.fits, Json.fold, Json.foldMembers, List.all_cons,
      isNumberLiteral_toString error.code]
    rfl
  obtain ⟨read, scanned, distinct, same⟩ :=
    text.scan_print _ (distinctNames_encodeResponse wellFormed) fits
  obtain ⟨⟨id, result, found, extraFields⟩, decoded, sameAs⟩ :=
    decodeResponse_of_same wellFormed plain distinct same
  refine ⟨read, scanned, decoded.trans (congrArg some ?_)⟩
  obtain ⟨value, rfl⟩ := decodeResponse_id decoded
  obtain ⟨sameID, sameResult, sameError, sameExtra⟩ := sameAs
  obtain rfl : value = .null := eq_null_of_reorders sameID
  obtain rfl : result = .null := eq_null_of_reorders sameResult
  obtain rfl : extraFields = [] := eq_nil_of_reorders sameExtra
  cases sameError with
  | some sameObject =>
      rename_i object
      obtain ⟨code, message, data, objectExtra⟩ := object
      obtain ⟨rfl, rfl, sameData, sameObjectExtra⟩ := sameObject
      obtain rfl : data = .null := eq_null_of_reorders sameData
      obtain rfl : objectExtra = [] := eq_nil_of_reorders sameObjectExtra
      rfl

theorem Rejection.reports {error : Error}
    (rejection : Rejection text interceptor state payload error) :
    Reports text error (text.print (encodeErrorResponse error)) := by
  refine reports_of_code ?_
  rcases rejection.code with code | code | code <;>
    · rw [code]
      decide

/-! ### The two transports -/

section Transports

variable {size : Text → Nat} {response : Text} {request : HTTPRequest Text} {error : Error}

theorem readAll_cases (size : Text → Nat) (body : Body Text) :
    body.readAll size = some body.data ∨
      body.readAll size = none ∧ ∃ limit, body.limit = some limit ∧ limit < size body.data := by
  unfold Body.readAll
  split
  · exact .inl rfl
  · rename_i limit limited
    split
    · exact .inl rfl
    · rename_i long
      exact .inr ⟨rfl, limit, limited, Nat.lt_of_not_le long⟩

/-- Why the handler behind the middlewares answers with an error: because of the payload, or
because the body cannot be read for its length. -/
theorem rpcError_interceptor_iff :
    httpJSONRPCInterceptor size text interceptor state (reverseProxy size response) request =
        .rpcError error ↔
      (request.body.readAll size = some request.body.data ∧
          Rejection text interceptor state request.body.data error) ∨
        (request.body.readAll size = none ∧
          error = ⟨codeParseError, "failed to parse request"⟩) := by
  unfold httpJSONRPCInterceptor
  rcases readAll_cases size request.body with read | ⟨unread, -⟩
  · rw [read, ← rejection_iff]
    simp only [true_and, reduceCtorEq, false_and, or_false]
    constructor
    · intro answered
      split at answered
      · rename_i cause failed
        cases answered
        exact ⟨cause, failed, rfl⟩
      · cases answered
    · rintro ⟨cause, failed, rfl⟩
      rw [failed]
  · rw [unread]
    simp [eq_comm]

/-- The request gets past the middlewares: it is a POST request of an accepted media type, and
does not declare a length beyond the limit. -/
structure PassesMiddlewares (parseMediaType : String → Option String) (maxRequestBodySize : Nat)
    (request : HTTPRequest Text) : Prop where
  method : request.method = methodPost
  declared : 0 < maxRequestBodySize → request.contentLength ≤ maxRequestBodySize
  mediaType : ∃ mediaType, parseMediaType (request.header.get "Content-Type") = some mediaType ∧
    mediaType ∈ ["application/json", "application/json-rpc", "application/jsonrequest"]

theorem rpcError_contentType_iff {parseMediaType : String → Option String}
    {next : HTTPHandler Text} :
    contentTypeIsJSONRPCMiddleware parseMediaType next request = .rpcError error ↔
      (∃ mediaType, parseMediaType (request.header.get "Content-Type") = some mediaType ∧
        mediaType ∈ ["application/json", "application/json-rpc", "application/jsonrequest"]) ∧
      next request = .rpcError error := by
  unfold contentTypeIsJSONRPCMiddleware
  cases parseMediaType (request.header.get "Content-Type") with
  | none => simp
  | some mediaType =>
      dsimp only
      constructor
      · intro answered
        split at answered
        · rename_i accepted
          exact ⟨⟨mediaType, rfl, accepted⟩, answered⟩
        · cases answered
      · rintro ⟨⟨_, ⟨⟩, accepted⟩, answered⟩
        rwa [if_pos accepted]

/-- A client gets an error over HTTP exactly if its request passes the middlewares and its body
is longer than the limit or there is a reason to reject it. -/
theorem rpcError_serveHTTP_iff {parseMediaType : String → Option String}
    {maxRequestBodySize : Nat} (whole : request.body.limit = none) :
    serveHTTP size parseMediaType text interceptor maxRequestBodySize state response request =
        .rpcError error ↔
      PassesMiddlewares parseMediaType maxRequestBodySize request ∧
      if 0 < maxRequestBodySize ∧ maxRequestBodySize < size request.body.data then
        error = ⟨codeParseError, "failed to parse request"⟩
      else Rejection text interceptor state request.body.data error := by
  unfold serveHTTP httpRPCMiddlewares methodIsMiddleware
  by_cases isPost : request.method = methodPost
  · rw [if_neg (not_not.mpr isPost)]
    by_cases positive : maxRequestBodySize > 0
    · rw [if_pos positive, requestBodySizeLimiterMiddleware]
      by_cases declared : request.contentLength ≤ maxRequestBodySize
      · have passes_iff : PassesMiddlewares parseMediaType maxRequestBodySize request ↔ _ :=
          ⟨PassesMiddlewares.mediaType, fun accepted => ⟨isPost, fun _ => declared, accepted⟩⟩
        rw [if_neg (Int.not_lt.mpr declared), rpcError_contentType_iff, rpcError_interceptor_iff,
          passes_iff]
        refine and_congr_right fun _ => ?_
        by_cases long : maxRequestBodySize < size request.body.data
        · simp [Body.readAll, long, positive]
        · simp [Body.readAll, long, Nat.not_lt.mp long]
      · rw [if_pos (Int.not_le.mp declared)]
        exact iff_of_false (fun refused => by cases refused)
          fun passed => declared (passed.1.declared positive)
    · have passes_iff : PassesMiddlewares parseMediaType maxRequestBodySize request ↔ _ :=
        ⟨PassesMiddlewares.mediaType,
          fun accepted => ⟨isPost, fun limited => absurd limited positive, accepted⟩⟩
      rw [if_neg positive, rpcError_contentType_iff, rpcError_interceptor_iff, passes_iff]
      refine and_congr_right fun _ => ?_
      simp [Body.readAll, whole, positive]
  · rw [if_pos isPost]
    exact iff_of_false (fun refused => by cases refused) fun passed => isPost passed.1.method

theorem error_mem_requiredFrames_iff {client : List (Frame Text)} {states : List EspressoState}
    {cause : RequestError} :
    .error cause ∈ requiredFrames text interceptor client states ↔
      ∃ (index : Nat) (received : Frame Text) (read : EspressoState),
        client[index]? = some received ∧ states[index]? = some read ∧
        requiredFrame text interceptor read received = .error cause := by
  rw [requiredFrames, List.mem_iff_getElem?]
  refine exists_congr fun index => ?_
  rw [List.getElem?_zipWith]
  cases client[index]? <;> cases states[index]? <;> simp

theorem requiredFrame_error_iff {received : Frame Text} {error : Error} :
    (∃ cause, requiredFrame text interceptor state received = .error cause ∧
      cause.object = error) ↔ Rejection text interceptor state received.message error := by
  rw [← rejection_iff, requiredFrame]
  cases performRequestIntercept text interceptor state received.message <;> simp

/-- What a client gets over a WebSocket comes from upstream, or it is the error for a frame
that the client sent, on a state that was read for it. -/
theorem frame_of_bridge {client upstream : List (Frame Text)} {labels : List BridgeLabel}
    {bridge : Bridge Text}
    (run : (bridgeMachine text interceptor).Reaches (.start client upstream) labels bridge)
    {frame : Frame Text} (got : frame ∈ bridge.toClient) :
    frame ∈ upstream ∨ ∃ received ∈ client, ∃ read ∈ statesRead labels, ∃ error,
      Rejection text interceptor read received.message error ∧
        frame = ⟨.text, text.print (encodeErrorResponse error)⟩ := by
  obtain ⟨first, reported, second, merged, replies, requests⟩ := sound_of_reaches run
  have relayed : ∀ other ∈ first ++ second, other ∈ upstream := fun other member =>
    replies.forwarded.subset member
  rw [merged, List.append_assoc, List.mem_append, List.mem_append] at got
  rcases got with early | isReport | late
  · exact .inl (relayed frame (List.mem_append_left _ early))
  · obtain ⟨cause, isCause, rfl⟩ := List.mem_map.mp isReport
    rcases requests.delivered.2 with rfl | ⟨only, rfl, results⟩
    · cases isCause
    · obtain rfl := List.mem_singleton.mp isCause
      obtain ⟨index, received, read, isReceived, isRead, failed⟩ :=
        error_mem_requiredFrames_iff.mp
          (results ▸ List.mem_append_right _ (List.mem_singleton_self _))
      exact .inr ⟨received, List.mem_of_getElem? isReceived, read, List.mem_of_getElem? isRead,
        cause.object, requiredFrame_error_iff.mp ⟨cause, failed, rfl⟩, rfl⟩
  · exact .inl (relayed frame (List.mem_append_right _ late))

/-- One of the frames tells the error. -/
def Answers (text : JSONText Text) (error : Error) (frames : List (Frame Text)) : Prop :=
  ∃ frame ∈ frames, frame.messageType = .text ∧ Reports text error frame.message

theorem Rejection.answers {error : Error}
    (rejection : Rejection text interceptor state payload error) {cause : RequestError}
    (same : cause.object = error) {frames : List (Frame Text)}
    (written : errorFrame text cause ∈ frames) : Answers text error frames := by
  subst same
  exact ⟨_, written, rfl, rejection.reports⟩

/-- A frame that there is a reason to reject is answered, or the write of the answer is at hand
or has failed. -/
theorem answers_of_bridge {client upstream : List (Frame Text)} {labels : List BridgeLabel}
    {bridge : Bridge Text}
    (run : (bridgeMachine text interceptor).Reaches (.start client upstream) labels bridge)
    {index : Nat} {received : Frame Text} {read : EspressoState}
    (isReceived : client[index]? = some received)
    (isRead : (statesRead labels)[index]? = some read)
    (rejection : Rejection text interceptor read received.message error) :
    Answers text error bridge.toClient ∨
      (∃ after, (bridgeMachine text interceptor).step bridge (.requests (.outcome none)) =
          some after ∧ Answers text error after.toClient) ∨
      ∃ cause, cause.object = error ∧
        AnswerLost text interceptor client upstream cause labels := by
  obtain ⟨cause, failed, same⟩ := requiredFrame_error_iff.mpr rejection
  have present := error_mem_requiredFrames_iff.mpr
    ⟨index, received, read, isReceived, isRead, failed⟩
  rcases tells_of_reaches run cause present with told | pending | lost
  · exact .inl (rejection.answers same told)
  · obtain ⟨after, moved, written⟩ := step_reporting pending
    exact .inr (.inl ⟨after, moved, rejection.answers same
      (written ▸ List.mem_append_right _ (List.mem_singleton_self _))⟩)
  · exact .inr (.inr ⟨cause, same, lost⟩)

/-- A batch of two requests, sent to a proxy that takes one. -/
def sampleBatchRequest : HTTPRequest Json where
  method := methodPost
  path := [""]
  header := ∅
  contentLength := -1
  body := ⟨.array (List.replicate 2
    (.object [("jsonrpc", .string "2.0"), ("method", .string "eth_chainId")])), none⟩

end Transports
end EspressoProxy.Adapters
