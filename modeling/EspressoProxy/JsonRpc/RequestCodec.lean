import EspressoProxy.JsonRpc.StructDecoding

/-!
# Decoding and encoding of requests

`Request.UnmarshalJSON` decodes the payload twice: into a struct, whose fields
`encoding/json` matches to member names exactly or else ignoring case, and into a map
with every member. The four names of the standard are deleted from the map by exact
spelling, and what remains are the extra fields. `Request.MarshalJSON` assembles the
members again.
-/

namespace EspressoProxy.JsonRpc

/-- The names in the struct that a request is decoded into. -/
def requestFields : List String := ["jsonrpc", "id", "method", "params"]

/-- The identifier: a member `id` that is missing makes a notification, unless the struct
got a value for it. -/
def requestID (all : List (String × Json)) (id : Json) : ID :=
  match lookup "id" all, id with
  | none, .null => .notification
  | _, found => .value found

/-- `Request.UnmarshalJSON`. The caller drops the error, so there is none here. -/
def decodeRequest : Json → Option Request
  | .object members =>
      (decodeField requestFields "jsonrpc" storeString "" members).bind fun found =>
      (decodeField requestFields "id" storeAny .null members).bind fun id =>
      (decodeField requestFields "method" storeString "" members).bind fun method =>
      (decodeField requestFields "params" storeAny .null members).bind fun params =>
        if found ≠ version then none
        else some ⟨requestID (allFields members) id, method, params,
          extraOf requestFields members⟩
  | _ => none

def ID.members : ID → List (String × Json)
  | .notification => []
  | .value id => [("id", id)]

def paramsMembers : Json → List (String × Json)
  | .null => []
  | params => [("params", params)]

/-- The members of the standard that `MarshalJSON` assigns after the extra fields. -/
def Request.standardMembers (request : Request) : List (String × Json) :=
  request.id.members ++ [("method", .string request.method)] ++ paramsMembers request.params ++
    [("jsonrpc", .string version)]

/-- The map that `MarshalJSON` builds. -/
def Request.toEncode (request : Request) : List (String × Json) :=
  request.extraFields.filter (fun member => !requestFields.contains member.1) ++
    request.standardMembers

/-- `Request.MarshalJSON`. -/
def encodeRequest (request : Request) : Json := .object request.toEncode

/-- `Response.MarshalJSON` for the responses that the proxy makes itself: an error without
data and the identifier `null`. -/
def encodeErrorResponse (error : Error) : Json :=
  .object [("error", .object [("code", .number (toString error.code)),
    ("message", .string error.message)]), ("id", .null), ("jsonrpc", .string version)]

/-! ### What is decoded -/

section Decoded

variable {members : List (String × Json)} {request : Request}

/-- The last value that is stored in a field, `null` at first. -/
def lastIn (field : String) (members : List (String × Json)) : Json :=
  (valuesFor requestFields field members).getLast?.getD .null

theorem decodeField_lastIn (field : String) (members : List (String × Json)) :
    decodeField requestFields field storeAny .null members =
      some (lastIn field members).decodeAny := by
  rw [decodeField_storeAny, lastIn]
  cases (valuesFor requestFields field members).getLast? <;> rfl

/-- Where names are plain, the last value of a field is that of the member of its name. -/
theorem lastIn_of_plain (plain : PlainFor requestFields members)
    (distinct : (names members).Nodup) {field : String} (isField : field ∈ requestFields) :
    lastIn field members = (lookup field members).getD .null := by
  rw [lastIn, valuesFor_of_plain plain distinct isField]
  cases lookup field members <;> rfl

theorem decodeRequest_eq_some_iff :
    decodeRequest (.object members) = some request ↔
      decodeField requestFields "jsonrpc" storeString "" members = some version ∧
      ∃ method, decodeField requestFields "method" storeString "" members = some method ∧
        request =
          { id := requestID (allFields members) (lastIn "id" members).decodeAny
            method
            params := (lastIn "params" members).decodeAny
            extraFields := extraOf requestFields members } := by
  simp only [decodeRequest, decodeField_lastIn, Option.bind_some, Option.bind_eq_some_iff]
  constructor
  · rintro ⟨found, isVersion, method, isMethod, decoded⟩
    split at decoded
    · cases decoded
    · rename_i same
      obtain rfl := not_not.mp same
      exact ⟨isVersion, method, isMethod, (Option.some.inj decoded).symm⟩
  · rintro ⟨isVersion, method, isMethod, rfl⟩
    exact ⟨version, isVersion, method, isMethod, if_neg (not_not.mpr rfl)⟩

theorem exists_members_of_decodeRequest {json : Json}
    (decoded : decodeRequest json = some request) : ∃ members, json = .object members := by
  cases json with
  | object members => exact ⟨members, rfl⟩
  | _ => cases decoded

/-- A request as Go values make it up: no map in it has two entries of one name. -/
structure Request.WellFormed (request : Request) : Prop where
  extraFields : (Json.object request.extraFields).distinctNames
  params : request.params.distinctNames
  id : ∀ member ∈ request.id.members, member.2.distinctNames

theorem forall_requestID {P : Json → Prop} {all : List (String × Json)} {id : Json}
    (holds : P id) : ∀ member ∈ (requestID all id).members, P member.2 := by
  unfold requestID
  split
  · exact List.forall_mem_nil _
  · exact List.forall_mem_singleton.mpr holds

theorem forall_paramsMembers {P : Json → Prop} {params : Json} (holds : P params) :
    ∀ member ∈ paramsMembers params, P member.2 := by
  unfold paramsMembers
  split
  · exact List.forall_mem_nil _
  · exact List.forall_mem_singleton.mpr holds

/-- What is accepted is well formed. -/
theorem decodeRequest_wellFormed {json : Json} (decoded : decodeRequest json = some request) :
    request.WellFormed := by
  obtain ⟨members, rfl⟩ := exists_members_of_decodeRequest decoded
  obtain ⟨-, method, -, rfl⟩ := decodeRequest_eq_some_iff.mp decoded
  exact ⟨distinctNames_extraOf members, Json.distinctNames_decodeAny _,
    forall_requestID (P := fun json => json.distinctNames) (Json.distinctNames_decodeAny _)⟩

theorem fits_lastIn {depth : Nat} (fits : (Json.object members).fits depth) (field : String) :
    (lastIn field members).fits (depth + 1) := by
  rw [lastIn]
  cases last : (valuesFor requestFields field members).getLast? with
  | none => rfl
  | some value =>
      obtain ⟨name, present, -⟩ := mem_valuesFor.mp (List.mem_of_getLast? last)
      exact (Json.fits_object.mp fits).2 (name, value) present

end Decoded

/-! ### What is written -/

section Written

theorem standardMembers_names (request : Request) :
    (names request.standardMembers).Sublist ["id", "method", "params", "jsonrpc"] := by
  obtain ⟨id, method, params, extraFields⟩ := request
  cases id <;> cases params <;>
    simp [Request.standardMembers, ID.members, paramsMembers, names]

theorem mem_requestFields_of_standardMembers {request : Request} {name : String}
    (standard : name ∈ names request.standardMembers) : name ∈ requestFields := by
  have known : ∀ name ∈ ["id", "method", "params", "jsonrpc"], name ∈ requestFields := by decide
  exact known name ((standardMembers_names request).subset standard)

/-- What holds of the values of a request holds of every value that is written for it. -/
theorem forall_standardMembers {P : Json → Prop} {request : Request}
    (id : ∀ member ∈ request.id.members, P member.2) (params : P request.params)
    (strings : ∀ text, P (.string text)) : ∀ member ∈ request.standardMembers, P member.2 := by
  intro member present
  simp only [Request.standardMembers, List.mem_append, List.mem_singleton] at present
  rcases present with ((inID | rfl) | inParams) | rfl
  · exact id member inID
  · exact strings _
  · exact forall_paramsMembers params member inParams
  · exact strings _

/-- What is written for a well-formed request is a Go value. -/
theorem distinctNames_encodeRequest {request : Request} (wellFormed : request.WellFormed) :
    (encodeRequest request).distinctNames := by
  obtain ⟨extraNodup, extraValues⟩ := Json.distinctNames_object.mp (distinctNames_filter
    (fun member => !requestFields.contains member.1) wellFormed.extraFields)
  have standardNodup : (names request.standardMembers).Nodup :=
    List.Nodup.sublist (standardMembers_names request) (by decide)
  refine Json.distinctNames_object.mpr ⟨?_, ?_⟩
  · rw [names, Request.toEncode, List.map_append, List.nodup_append]
    refine ⟨extraNodup, standardNodup, ?_⟩
    rintro name extra _ standard rfl
    obtain ⟨member, kept, rfl⟩ := List.mem_map.mp extra
    have unknown := List.of_mem_filter kept
    simp [mem_requestFields_of_standardMembers standard] at unknown
  · intro member present
    rcases List.mem_append.mp present with extra | standard
    · exact extraValues member extra
    · exact forall_standardMembers (P := fun json => json.distinctNames) wellFormed.id
        wellFormed.params (fun _ => rfl) member standard

/-- A request that was read can be written, whatever is put in the place of its parameters,
as long as this can be written. -/
theorem fits_encodeRequest {members : List (String × Json)} {request : Request} {params : Json}
    {depth : Nat} (decoded : decodeRequest (.object members) = some request)
    (fits : (Json.object members).fits depth) (paramsFit : params.fits (depth + 1)) :
    (encodeRequest { request with params }).fits depth := by
  obtain ⟨-, method, -, rfl⟩ := decodeRequest_eq_some_iff.mp decoded
  obtain ⟨within, extra⟩ := Json.fits_object.mp
    (fits_filter (fun member => !requestFields.contains member.1)
      (fits_extraOf requestFields fits))
  refine Json.fits_object.mpr ⟨within, fun member present => ?_⟩
  rcases List.mem_append.mp present with inExtra | standard
  · exact extra member inExtra
  · refine forall_standardMembers (P := fun json => json.fits (depth + 1))
      (forall_requestID (P := fun json => json.fits (depth + 1)) ?_) paramsFit (fun _ => rfl)
      member standard
    exact Json.fits_decodeAny (fits_lastIn fits "id")

theorem lookup_paramsMembers (params : Json) :
    lookup "params" (paramsMembers params) = if params.node = .null then none else some params := by
  cases params <;> rfl

theorem Request.lookup_others (request : Request) (name : String)
    (notField : name ∉ requestFields) :
    lookup name request.toEncode = lookup name request.extraFields := by
  have absent : lookup name request.standardMembers = none :=
    lookup_eq_none_iff.mpr fun standard =>
      notField (mem_requestFields_of_standardMembers standard)
  rw [Request.toEncode, lookup_append, absent, Option.none_or,
    lookup_filter fun name => !requestFields.contains name, if_pos (by simpa using notField)]

theorem Request.lookup_toEncode (request : Request) (name : String) :
    lookup name request.toEncode =
      if name = "jsonrpc" then some (.string version)
      else if name = "id" then lookup "id" request.id.members
      else if name = "method" then some (.string request.method)
      else if name = "params" then lookup "params" (paramsMembers request.params)
      else lookup name request.extraFields := by
  by_cases isField : name ∈ requestFields
  · rw [Request.toEncode, lookup_append, lookup_filter fun name => !requestFields.contains name,
      if_neg (by simpa using isField), Option.or_none]
    obtain ⟨id, method, params, extraFields⟩ := request
    simp only [requestFields, List.mem_cons, List.not_mem_nil, or_false] at isField
    rcases isField with rfl | rfl | rfl | rfl <;> cases id <;> cases params <;> rfl
  · rw [request.lookup_others name isField]
    simp only [requestFields, List.mem_cons, List.not_mem_nil, or_false, not_or] at isField
    rw [if_neg isField.1, if_neg isField.2.1, if_neg isField.2.2.1, if_neg isField.2.2.2]

end Written
end EspressoProxy.JsonRpc
