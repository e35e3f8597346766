import EspressoProxy.JsonRpc.RequestCodec
import EspressoProxy.Proxy.TagSubstitution

/-!
# Interception of payloads

`PerformRequestIntercept` decodes a payload, hands it to the interceptor and encodes the
result again. This changes nothing but the parameters exactly if no member whose name differs
from one of the standard only in case has the last word on a field: a later member such as
`METHOD` or `ID` overwrites the field of the struct and so changes the request that is
forwarded.
-/

namespace EspressoProxy.Adapters

open EspressoProxy.JsonRpc EspressoProxy.Proxy EspressoProxy.Store

/-- The errors of `PerformRequestIntercept`: its own, and those of the decoder and the
interceptor with the context they are wrapped in. -/
inductive RequestError where
  | rejected (error : Error)
  | undecodable (context : String) (error : Error)
  | intercepted (context : String) (cause : InterceptError)
deriving DecidableEq, Repr

/-- The error object that `errors.As` finds. Every error of the interceptor carries one. -/
def interceptErrorObject : InterceptError → Error
  | .maxJSONDepthExceeded error => error
  | .maxBatchSizeExceeded error => error
  | .wrapped _ cause => interceptErrorObject cause

def RequestError.object : RequestError → Error
  | .rejected error => error
  | .undecodable _ error => error
  | .intercepted _ cause => interceptErrorObject cause

def emptyPayload : RequestError :=
  .rejected ⟨codeParseError, "received empty payload, with no content"⟩

def unexpectedFormat : RequestError :=
  .rejected ⟨codeParseError, "unexpected format for json-rpc request"⟩

def undecodable : RequestError :=
  .undecodable "failed to decode json rpc request"
    ⟨codeParseError, "failed to decode JSON-RPC request"⟩

/-- Decode, intercept and encode. -/
def requestInterceptorGlue {R : Type} (decode : Json → Option R) (encode : R → Json)
    (intercept : R → Except InterceptError R) (payload : Json) : Except RequestError Json :=
  match decode payload with
  | none => .error undecodable
  | some request =>
      match intercept request with
      | .error cause => .error (.intercepted "failed to intercept json rpc request" cause)
      | .ok intercepted => .ok (encode intercepted)

theorem requestInterceptorGlue_ok_iff {R : Type} {decode : Json → Option R} {encode : R → Json}
    {intercept : R → Except InterceptError R} {payload output : Json} :
    requestInterceptorGlue decode encode intercept payload = .ok output ↔
      ∃ request intercepted, decode payload = some request ∧
        intercept request = .ok intercepted ∧ output = encode intercepted := by
  unfold requestInterceptorGlue
  constructor
  · intro returned
    split at returned
    · cases returned
    · rename_i request decoded
      split at returned
      · cases returned
      · rename_i intercepted succeeded
        cases returned
        exact ⟨request, intercepted, decoded, succeeded, rfl⟩
  · rintro ⟨request, intercepted, decoded, succeeded, rfl⟩
    simp only [decoded, succeeded]

def decodeBatch : Json → Option (List Request)
  | .array items => items.mapM decodeRequest
  | _ => none

def encodeBatch (requests : List Request) : Json := .array (requests.map encodeRequest)

/-- `PerformRequestIntercept` on the state that the interceptor reads from the store. The
first byte decides between a request and a batch. -/
def performRequestIntercept {Text : Type} (text : JSONText Text) (interceptor : Interceptor)
    (state : EspressoState) (payload : Text) : Except RequestError Text :=
  match text.scan payload with
  | .blank => .error emptyPayload
  | .malformed first =>
      -- An opening brace or bracket
      if first = 0x7b ∨ first = 0x5b then .error undecodable else .error unexpectedFormat
  | .value (.object members) =>
      (requestInterceptorGlue decodeRequest encodeRequest (interceptor.interceptRequest state)
        (.object members)).map text.print
  | .value (.array items) =>
      (requestInterceptorGlue decodeBatch encodeBatch (interceptor.interceptBatchRequests state)
        (.array items)).map text.print
  | .value _ => .error unexpectedFormat

section Forwarding

variable {Text : Type} {text : JSONText Text} {state : EspressoState} {payload : Text}

/-- The request is forwarded with every member it has and no other, and with the same
values except for the tag in the parameters. -/
structure ForwardedAs (tag : String) (number : Nat) (members written : List (String × Json)) :
    Prop where
  distinct : (names written).Nodup
  sameNames : ∀ name, name ∈ names written ↔ name ∈ names members
  sameValues : ∀ name path, name ≠ "params" →
    (Json.object written).nodeAt (.name name :: path) =
      (Json.object members).nodeAt (.name name :: path)
  params : ∀ path, (Json.object written).nodeAt (.name "params" :: path) =
    ((Json.object members).nodeAt (.name "params" :: path)).map fun node =>
      if node = .string tag then .string (hexBlockNumber number) else node

theorem height_le_of_nodeAt {json : Json} (distinct : json.distinctNames)
    (shallow : ∀ path node, json.nodeAt path = some node → path.length ≤ maxJSONDepth) :
    json.height ≤ maxJSONDepth := by
  by_contra deep
  obtain ⟨path, node, leads, long⟩ := (Json.le_height_iff distinct).mp (Nat.not_le.mp deep)
  exact absurd (shallow path node leads) (Nat.not_le.mpr long)

/-- What is forwarded, by the values of the members. -/
theorem forwardedAs_iff {tag : String} {number : Nat} {members written : List (String × Json)} :
    ForwardedAs tag number members written ↔ (names written).Nodup ∧
      (∀ name, name ≠ "params" →
        (lookup name written).map Json.nodeAt = (lookup name members).map Json.nodeAt) ∧
      (lookup "params" written).map Json.nodeAt =
        ((lookup "params" members).map (Json.replaceString tag (hexBlockNumber number))).map
          Json.nodeAt := by
  have below : ∀ path, ((lookup "params" members).map
      (Json.replaceString tag (hexBlockNumber number))).bind (Json.nodeAt · path) =
        ((Json.object members).nodeAt (.name "params" :: path)).map
          (Json.Node.replaceString tag (hexBlockNumber number)) := by
    intro path
    rw [Json.nodeAt, Json.child]
    cases lookup "params" members with
    | none => rfl
    | some params => exact params.nodeAt_replaceString tag _ path
  constructor
  · intro forwarded
    refine ⟨forwarded.distinct, fun name other => ?_, ?_⟩
    · exact Json.map_nodeAt_eq_iff.mpr fun path => forwarded.sameValues name path other
    · exact Json.map_nodeAt_eq_iff.mpr fun path => (forwarded.params path).trans (below path).symm
  · rintro ⟨distinct, others, params⟩
    refine ⟨distinct, fun name => ?_, fun name path other => ?_, fun path => ?_⟩
    · rw [mem_names_iff, mem_names_iff]
      by_cases isParams : name = "params"
      · have same := congrArg Option.isSome params
        simp only [Option.isSome_map] at same
        rw [isParams, same]
      · have same := congrArg Option.isSome (others name isParams)
        simp only [Option.isSome_map] at same
        rw [same]
    · exact Json.map_nodeAt_eq_iff.mp (others name other) path
    · exact (Json.map_nodeAt_eq_iff.mp params path).trans (below path)

/-- The member of the exact name decides on a string field: every value that is stored in the
field is a string or `null`, and the last string is that of the member. -/
def KeepsString (field : String) (members : List (String × Json)) : Prop :=
  (∀ value ∈ valuesFor requestFields field members,
      value = .null ∨ ∃ found, value = .string found) ∧
    ((valuesFor requestFields field members).filter fun value => value.node ≠ .null).getLast? =
      lookup field members

/-- The members whose names differ from those of the standard only in case do not change a field.
They are stored in it too, and the last value of each field is still that of the member of the
exact name, or `null` if there is none; for the parameters, once the tag has been replaced. -/
structure KeepsFields (tag text : String) (members : List (String × Json)) : Prop where
  jsonrpc : KeepsString "jsonrpc" members
  method : KeepsString "method" members
  id : (lastIn "id" members).nodeAt = ((lookup "id" members).getD .null).nodeAt
  params : ((lastIn "params" members).replaceString tag text).nodeAt =
    (((lookup "params" members).getD .null).replaceString tag text).nodeAt

theorem keepsString_iff {field sent : String} {members : List (String × Json)}
    (isField : field ∈ requestFields) (given : lookup field members = some (.string sent)) :
    KeepsString field members ↔
      decodeField requestFields field storeString "" members = some sent := by
  rw [decodeField, foldlM_storeString_iff, KeepsString, given]
  refine and_congr_right fun _ => ?_
  have stored : Json.string sent ∈
      (valuesFor requestFields field members).filter fun value => value.node ≠ .null :=
    List.mem_filter.mpr
      ⟨mem_valuesFor.mpr ⟨field, mem_of_lookup given, fieldIn_of_mem isField⟩, rfl⟩
  cases last : ((valuesFor requestFields field members).filter fun value =>
      value.node ≠ .null).getLast? with
  | none =>
      rw [List.getLast?_eq_none_iff.mp last] at stored
      cases stored
  | some value => simp

theorem keepsString_of_plain {field sent : String} {members : List (String × Json)}
    (isField : field ∈ requestFields) (distinct : (names members).Nodup)
    (plain : PlainFor requestFields members)
    (given : lookup field members = some (.string sent)) : KeepsString field members := by
  rw [keepsString_iff isField given, decodeField_of_plain plain distinct isField, given]
  rfl

/-- Where every name of a field is spelled exactly, there is nothing to change it. -/
theorem keepsFields_of_plain {tag text method : String} {members : List (String × Json)}
    (distinct : (names members).Nodup) (plain : PlainFor requestFields members)
    (isVersion : lookup "jsonrpc" members = some (.string version))
    (isMethod : lookup "method" members = some (.string method)) :
    KeepsFields tag text members where
  jsonrpc := keepsString_of_plain (by decide) distinct plain isVersion
  method := keepsString_of_plain (by decide) distinct plain isMethod
  id := by rw [lastIn_of_plain plain distinct (by decide)]
  params := by rw [lastIn_of_plain plain distinct (by decide)]

/-- A member `id` is written again, and none appears where there was none, exactly if the last
value of the field is that of the member. -/
theorem nodeAt_requestID_iff {members : List (String × Json)} {id : Json} :
    (lookup "id" (requestID (allFields members) id).members).map Json.nodeAt =
        (lookup "id" members).map Json.nodeAt ↔
      id.nodeAt = ((lookup "id" members).getD .null).nodeAt := by
  have all := lookup_allFields "id" members
  cases found : lookup "id" members with
  | none =>
      rw [found] at all
      by_cases null : id = .null
      · simp [requestID, all, null, ID.members, lookup]
      · have differs : id.nodeAt ≠ Json.null.nodeAt := fun same =>
          null (Json.node_eq_null_iff.mp (Option.some.inj (congrFun same [])))
        simp [requestID, all, null, differs, ID.members, lookup]
  | some given =>
      rw [found] at all
      simp [requestID, all, ID.members, lookup]

theorem nodeAt_paramsMembers_iff {given : Option Json} {params : Json}
    (nonNull : given ≠ some .null) :
    (lookup "params" (paramsMembers params)).map Json.nodeAt = given.map Json.nodeAt ↔
      params.nodeAt = (given.getD .null).nodeAt := by
  have null_iff : ∀ json : Json, json.nodeAt = Json.null.nodeAt ↔ json.node = .null := by
    intro json
    refine ⟨fun same => Option.some.inj (congrFun same []), fun null => ?_⟩
    rw [Json.node_eq_null_iff.mp null]
  rw [lookup_paramsMembers]
  cases given with
  | none =>
      rw [Option.getD_none, null_iff]
      by_cases null : params.node = .null <;> simp [null]
  | some value =>
      by_cases null : params.node = .null
      · have differs : params.nodeAt ≠ value.nodeAt := by
          intro same
          have isNull : value.node = .null :=
            (Option.some.inj (congrFun same [])).symm.trans null
          exact nonNull (congrArg some (Json.node_eq_null_iff.mp isNull))
        simp [null, differs]
      · simp [null]

/-- A request is written with its own members exactly if the struct has their values. -/
theorem forwardedAs_of_written_iff (tag : String) (number : Nat) {sent method : String}
    {members written : List (String × Json)} {id params : Json}
    (distinct : (names written).Nodup)
    (same : (Json.object written).nodeAt = (encodeRequest
      { id := requestID (allFields members) id, method, params,
        extraFields := extraOf requestFields members }).nodeAt)
    (isVersion : lookup "jsonrpc" members = some (.string version))
    (isMethod : lookup "method" members = some (.string sent))
    (isParams : lookup "params" members ≠ some .null) :
    ForwardedAs tag number members written ↔
      method = sent ∧ id.nodeAt = ((lookup "id" members).getD .null).nodeAt ∧
      params.nodeAt =
        (((lookup "params" members).getD .null).replaceString tag
          (hexBlockNumber number)).nodeAt := by
  have nonNull : (lookup "params" members).map
      (Json.replaceString tag (hexBlockNumber number)) ≠ some .null := by
    intro null
    obtain ⟨value, found, replaced⟩ := Option.map_eq_some_iff.mp null
    exact isParams (found.trans (congrArg some (Json.replaceString_eq_null_iff.mp replaced)))
  have given : ((lookup "params" members).map
      (Json.replaceString tag (hexBlockNumber number))).getD .null =
        ((lookup "params" members).getD .null).replaceString tag (hexBlockNumber number) := by
    cases lookup "params" members <;> rfl
  have encoded := Json.map_nodeAt_lookup same
  rw [forwardedAs_iff, and_iff_right distinct, ← given, ← nodeAt_requestID_iff,
    ← nodeAt_paramsMembers_iff nonNull, encoded "params"]
  constructor
  · rintro ⟨others, rewritten⟩
    have id := (encoded "id").symm.trans (others "id" (by decide))
    have nodes := (encoded "method").symm.trans (others "method" (by decide))
    rw [Request.lookup_toEncode] at id nodes rewritten
    rw [isMethod] at nodes
    have root := congrFun (Option.some.inj nodes) []
    exact ⟨Json.Node.string.inj (Option.some.inj root), id, rewritten⟩
  · rintro ⟨rfl, sameID, rewritten⟩
    refine ⟨fun name other => (encoded name).trans ?_, by rwa [Request.lookup_toEncode]⟩
    by_cases isField : name ∈ requestFields
    · simp only [requestFields, List.mem_cons, List.not_mem_nil, or_false] at isField
      rw [Request.lookup_toEncode]
      rcases isField with rfl | rfl | rfl | rfl
      · rw [isVersion]
        rfl
      · exact sameID
      · rw [isMethod]
        rfl
      · exact absurd rfl other
    · rw [Request.lookup_others _ name isField, lookup_extraOf, if_neg isField]
      exact Json.map_nodeAt_decodeAny _

/-- The parameters are within the depth limit if they have the nodes of the member. -/
theorem height_le_of_sameNodes {tag text : String} {members : List (String × Json)} {params : Json}
    (distinct : params.distinctNames)
    (same : (params.replaceString tag text).nodeAt =
      (((lookup "params" members).getD .null).replaceString tag text).nodeAt)
    (shallow : ∀ path node, (Json.object members).nodeAt (.name "params" :: path) = some node →
      path.length ≤ maxJSONDepth) : params.height ≤ maxJSONDepth := by
  refine height_le_of_nodeAt distinct fun path node leads => ?_
  have nodes := congrFun same path
  rw [Json.nodeAt_replaceString, Json.nodeAt_replaceString, leads] at nodes
  obtain ⟨given, found, -⟩ := Option.map_eq_some_iff.mp nodes.symm
  cases sent : lookup "params" members with
  | none =>
      rw [sent] at found
      cases path with
      | nil => exact Nat.zero_le _
      | cons step rest => cases found
  | some value =>
      rw [sent] at found
      refine shallow path given ?_
      rw [Json.nodeAt, Json.child, sent]
      exact found

/-- What the interception of a single request returns. -/
theorem performRequestIntercept_ok_iff {interceptor : Interceptor}
    {members : List (String × Json)} {number : Nat} {output : Text}
    (known : Interceptor.getCurrentEspressoFinalizedBlockNumber state = some number)
    (reads : text.scan payload = .value (.object members)) :
    performRequestIntercept text interceptor state payload = .ok output ↔
      ∃ request, decodeRequest (.object members) = some request ∧
        request.params.height ≤ maxJSONDepth ∧
        output = text.print (encodeRequest { request with
          params := request.params.replaceString interceptor.espressoTag
            (hexBlockNumber number) }) := by
  rw [performRequestIntercept, reads]
  dsimp only
  constructor
  · intro returned
    cases glued : requestInterceptorGlue decodeRequest encodeRequest
        (interceptor.interceptRequest state) (.object members) with
    | error cause =>
        rw [glued] at returned
        cases returned
    | ok encoded =>
        rw [glued] at returned
        cases returned
        obtain ⟨request, next, decoded, intercepted, rfl⟩ := requestInterceptorGlue_ok_iff.mp glued
        obtain ⟨within, rfl⟩ := (Interceptor.interceptRequest_ok_iff known
          (decodeRequest_wellFormed decoded).params).mp intercepted
        exact ⟨request, decoded, within, rfl⟩
  · rintro ⟨request, decoded, within, rfl⟩
    rw [requestInterceptorGlue_ok_iff.mpr ⟨request, _, decoded, Interceptor.interceptRequest_eq
      known (decodeRequest_wellFormed decoded).params within, rfl⟩]
    rfl

/-- What is written for a request that was read reads back, so it is forwarded exactly if the
struct has the values of its members. -/
theorem exists_forwardedAs_iff {tag sent : String} {number : Nat}
    {members : List (String × Json)} {request : Request}
    (decoded : decodeRequest (.object members) = some request)
    (fits : (Json.object members).fits 0)
    (isVersion : lookup "jsonrpc" members = some (.string version))
    (isMethod : lookup "method" members = some (.string sent))
    (isParams : lookup "params" members ≠ some .null) :
    (∃ written, text.scan (text.print (encodeRequest { request with
        params := request.params.replaceString tag (hexBlockNumber number) })) =
          .value (.object written) ∧ ForwardedAs tag number members written) ↔
      request.method = sent ∧
      (lastIn "id" members).nodeAt = ((lookup "id" members).getD .null).nodeAt ∧
      ((lastIn "params" members).replaceString tag (hexBlockNumber number)).nodeAt =
        (((lookup "params" members).getD .null).replaceString tag
          (hexBlockNumber number)).nodeAt := by
  have wellFormed := decodeRequest_wellFormed decoded
  have rewritten : ({ request with
      params := request.params.replaceString tag (hexBlockNumber number) } : Request).WellFormed :=
    { wellFormed with params := Json.distinctNames_replaceString _ _ wellFormed.params }
  have paramsFit : (request.params.replaceString tag (hexBlockNumber number)).fits 1 := by
    obtain ⟨-, method, -, rfl⟩ := decodeRequest_eq_some_iff.mp decoded
    exact Json.fits_replaceString _ _ (Json.fits_decodeAny (fits_lastIn fits "params"))
  obtain ⟨read, scanned, reorders⟩ := text.scan_print _
    (distinctNames_encodeRequest rewritten)
    (fits_encodeRequest decoded fits paramsFit)
  obtain ⟨written, rfl⟩ := Json.exists_members_of_node
    (Option.some.inj (congrFun reorders.nodes []))
  obtain ⟨-, method, -, rfl⟩ := decodeRequest_eq_some_iff.mp decoded
  have forwarded_iff := forwardedAs_of_written_iff tag number
    (Json.distinctNames_object.mp reorders.distinct).1 reorders.nodes isVersion isMethod isParams
  rw [funext (lastIn "id" members).nodeAt_decodeAny, Json.nodeAt_replaceString_decodeAny]
    at forwarded_iff
  refine Iff.trans ⟨?_, ?_⟩ forwarded_iff
  · rintro ⟨other, scannedAs, forwarded⟩
    cases scanned.symm.trans scannedAs
    exact forwarded
  · exact fun forwarded => ⟨written, scanned, forwarded⟩

/-- Transparent forwarding, with the exact condition for it. -/
theorem request_forwarded_transparently_iff (interceptor : Interceptor)
    {members : List (String × Json)} {number : Nat}
    (known : Interceptor.getCurrentEspressoFinalizedBlockNumber state = some number)
    (reads : text.scan payload = .value (.object members))
    (isVersion : lookup "jsonrpc" members = some (.string "2.0"))
    (isMethod : ∃ method, lookup "method" members = some (.string method))
    (isParams : lookup "params" members ≠ some .null)
    (shallow : ∀ path node, (Json.object members).nodeAt (.name "params" :: path) = some node →
      path.length ≤ maxJSONDepth) :
    (∃ output written, performRequestIntercept text interceptor state payload = .ok output ∧
      text.scan output = .value (.object written) ∧
      ForwardedAs interceptor.espressoTag number members written) ↔
    KeepsFields interceptor.espressoTag (hexBlockNumber number) members := by
  obtain ⟨sent, isMethod⟩ := isMethod
  have fits := text.fits_of_scan reads
  constructor
  · rintro ⟨output, written, returned, forwarded⟩
    obtain ⟨request, decoded, -, rfl⟩ := (performRequestIntercept_ok_iff known reads).mp returned
    obtain ⟨sameMethod, sameID, sameParams⟩ :=
      (exists_forwardedAs_iff decoded fits isVersion isMethod isParams).mp ⟨written, forwarded⟩
    obtain ⟨versionStored, method, methodStored, rfl⟩ := decodeRequest_eq_some_iff.mp decoded
    exact ⟨(keepsString_iff (by decide) isVersion).mpr versionStored,
      (keepsString_iff (by decide) isMethod).mpr (sameMethod ▸ methodStored), sameID, sameParams⟩
  · intro keeps
    have decoded := decodeRequest_eq_some_iff.mpr
      ⟨(keepsString_iff (by decide) isVersion).mp keeps.jsonrpc, sent,
        (keepsString_iff (by decide) isMethod).mp keeps.method, rfl⟩
    have within := height_le_of_sameNodes (decodeRequest_wellFormed decoded).params
      ((Json.nodeAt_replaceString_decodeAny ..).trans keeps.params) shallow
    obtain ⟨written, scanned, forwarded⟩ := (exists_forwardedAs_iff decoded fits isVersion isMethod
      isParams).mpr ⟨rfl, keeps.id, keeps.params⟩
    exact ⟨_, written, (performRequestIntercept_ok_iff known reads).mpr ⟨_, decoded, within, rfl⟩,
      scanned, forwarded⟩

/-- Values as their own text. -/
def valueText : JSONText Json where
  scan := scanValue
  print := id
  fits_of_scan := fits_of_scanValue
  scan_print json distinct fits := ⟨json, if_pos fits, distinct, rfl⟩

/-- A request with the tag, an extra member and no identifier. -/
theorem request_forwarded_transparently_as_notification :
    let members : List (String × Json) := [("jsonrpc", .string "2.0"),
      ("method", .string "eth_getBlockByNumber"),
      ("params", .array [.string "espresso", .bool true]), ("trace", .number "1.50")]
    ∃ output written,
      performRequestIntercept valueText ⟨"espresso", 10⟩ ⟨7, 3, 1⟩ (.object members) =
        .ok output ∧
      valueText.scan output = .value (.object written) ∧
      ForwardedAs "espresso" 7 members written ∧ "id" ∉ names written := by
  intro members
  have shallow : ∀ path node, (Json.object members).nodeAt (.name "params" :: path) = some node →
      path.length ≤ maxJSONDepth := fun path node leads =>
    (Nat.le_of_succ_le (Json.length_le_height leads)).trans (by decide)
  obtain ⟨output, written, returned, scanned, forwarded⟩ :=
    (request_forwarded_transparently_iff ⟨"espresso", 10⟩
      (show Interceptor.getCurrentEspressoFinalizedBlockNumber ⟨7, 3, 1⟩ = some 7 from rfl)
      (show valueText.scan (.object members) = .value (.object members) from rfl)
      rfl ⟨_, rfl⟩ nofun shallow).mpr (keepsFields_of_plain (by decide) (by decide) rfl rfl)
  exact ⟨output, written, returned, scanned, forwarded,
    fun present => absurd ((forwarded.sameNames "id").mp present) (by decide)⟩

/-- Extra members named `METHOD` and `ID` replace the method and make a request out of a
notification. -/
theorem request_changed_by_extra_members :
    let members : List (String × Json) := [("jsonrpc", .string "2.0"),
      ("method", .string "eth_blockNumber"), ("METHOD", .string "eth_accounts"),
      ("ID", .number "5")]
    (names members).Nodup ∧ lookup "method" members = some (.string "eth_blockNumber") ∧
      "id" ∉ names members ∧
      ∃ written, performRequestIntercept valueText ⟨"espresso", 10⟩ ⟨7, 3, 1⟩
          (.object members) = .ok (.object written) ∧
        lookup "method" written = some (.string "eth_accounts") ∧
        lookup "id" written = some (.number "5") := by
  intro members
  exact ⟨by decide, rfl, by decide, _, rfl, rfl, rfl⟩

end Forwarding
end EspressoProxy.Adapters
