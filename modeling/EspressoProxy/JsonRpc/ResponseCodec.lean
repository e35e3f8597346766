import EspressoProxy.JsonRpc.RoundTrip
import Mathlib.Algebra.Ring.Int.Defs

/-!
# Decoding and encoding of responses

`Response` and its `Error` are decoded like requests: into a struct, whose fields
`encoding/json` matches to member names exactly or else ignoring case, and into a map with
every member. They are encoded through a map that is assigned to member by member, so a later
assignment replaces an extra field of the same name. What each type skips and assigns differs.
-/

namespace EspressoProxy.JsonRpc

/-! ### Errors and responses -/

/-- `Error` with everything it may carry. -/
structure ErrorObject where
  code : Int
  message : String
  data : Json
  extraFields : List (String × Json)
deriving Repr

structure Response where
  id : ID
  result : Json
  error : Option ErrorObject
  extraFields : List (String × Json)
deriving Repr

/-- The names in the struct that an error is decoded into. -/
def errorFields : List String := ["code", "message", "data"]

/-- The names in the struct that a response is decoded into. -/
def responseFields : List String := ["jsonrpc", "id", "result", "error"]

/-- The range of a Go `int`. -/
def IsInt64 (number : Int) : Prop := -2 ^ 63 ≤ number ∧ number < 2 ^ 63

instance (number : Int) : Decidable (IsInt64 number) := inferInstanceAs (Decidable (_ ∧ _))

def parseDigits (digits : List Char) : Option Nat :=
  if digits ≠ [] ∧ digits.all Char.isDigit then some (Nat.ofDigitChars 10 digits 0) else none

/-- The integer that a JSON number literal is, if it has neither fraction nor exponent. -/
def parseInt (literal : String) : Option Int :=
  match literal.toList with
  | '-' :: digits => (parseDigits digits).map fun number => -(number : Int)
  | digits => (parseDigits digits).map fun number => (number : Int)

/-- Decode a value into an `int`. -/
def storeInt (before : Int) : Json → Option Int
  | .number literal => (parseInt literal).filter fun number => IsInt64 number
  | .null => some before
  | _ => none

/-- `Error.UnmarshalJSON`. -/
def decodeErrorObject : Json → Option ErrorObject
  | .object members =>
      (decodeField errorFields "code" storeInt 0 members).bind fun code =>
      (decodeField errorFields "message" storeString "" members).bind fun message =>
      (decodeField errorFields "data" storeAny .null members).map fun data =>
        ⟨code, message, data, extraOf errorFields members⟩
  | _ => none

/-- The map that `Error.MarshalJSON` builds. Of the extra fields only `data` is skipped; the
other names are assigned to afterwards. -/
def ErrorObject.toEncode (error : ErrorObject) : List (String × Json) :=
  let assigned := assign (assign (error.extraFields.filter fun member => member.1 ≠ "data")
    "code" (.number (toString error.code))) "message" (.string error.message)
  match error.data with
  | .null => assigned
  | data => assign assigned "data" data

/-- `Error.MarshalJSON`. -/
def encodeErrorObject (error : ErrorObject) : Json := .object error.toEncode

/-- Decode a value into a pointer to an error. -/
def storeError (_ : Option ErrorObject) : Json → Option (Option ErrorObject)
  | .null => some none
  | value => (decodeErrorObject value).map some

/-- `Response.UnmarshalJSON`. -/
def decodeResponse : Json → Option Response
  | .object members =>
      (decodeField responseFields "jsonrpc" storeString "" members).bind fun found =>
      (decodeField responseFields "id" storeAny .null members).bind fun id =>
      (decodeField responseFields "result" storeAny .null members).bind fun result =>
      (decodeField responseFields "error" storeError none members).bind fun error =>
        if found ≠ version then none
        else some ⟨.value id, result, error, extraOf responseFields members⟩
  | _ => none

/-- The identifier as it is written in a response. `NotificationID` is written as `null`. -/
def ID.written : ID → Json
  | .notification => .null
  | .value id => id

/-- The map that `Response.MarshalJSON` builds: an error takes the place of the result. -/
def Response.toEncode (response : Response) : List (String × Json) :=
  let extra := response.extraFields.filter fun member =>
    member.1 ≠ "result" ∧ member.1 ≠ "error"
  let outcome :=
    match response.error with
    | some error => assign extra "error" (encodeErrorObject error)
    | none => assign extra "result" response.result
  assign (assign outcome "id" response.id.written) "jsonrpc" (.string version)

/-- `Response.MarshalJSON`. -/
def encodeResponse (response : Response) : Json := .object response.toEncode

/-- `CreateGeneralErrorResponse`, also for the identifier `nil`. -/
def createGeneralErrorResponse (id : ID) (code : Int) (message : String) : Response :=
  ⟨id, .null, some ⟨code, message, .null, []⟩, []⟩

/-- What is left of an error once it has been written: an extra field with a name of the
standard is lost. -/
def ErrorObject.normal (error : ErrorObject) : ErrorObject :=
  { error with extraFields := error.extraFields.filter fun member =>
      !errorFields.contains member.1 }

/-- What is left of a response: a result beside an error is lost too. -/
def Response.normal (response : Response) : Response where
  id := .value response.id.written
  result := if response.error.isSome then .null else response.result
  error := response.error.map ErrorObject.normal
  extraFields := response.extraFields.filter fun member => !responseFields.contains member.1

/-- Go values of which no map has two entries of one name, with a code that is an `int`. -/
structure ErrorObject.WellFormed (error : ErrorObject) : Prop where
  code : IsInt64 error.code
  data : error.data.distinctNames
  extraFields : (Json.object error.extraFields).distinctNames

structure Response.WellFormed (response : Response) : Prop where
  id : response.id.written.distinctNames
  result : response.result.distinctNames
  error : ∀ error ∈ response.error, error.WellFormed
  extraFields : (Json.object response.extraFields).distinctNames

/-- No extra field is taken for a field of the struct because of its case. -/
structure Response.PlainExtras (response : Response) : Prop where
  extraFields : PlainFor responseFields response.extraFields
  error : ∀ error ∈ response.error, PlainFor errorFields error.extraFields

/-- The errors differ at most in the order of the members of objects. -/
structure ErrorObject.SameAs (decoded error : ErrorObject) : Prop where
  code : decoded.code = error.code
  message : decoded.message = error.message
  data : decoded.data.Reorders error.data
  extraFields : (Json.object decoded.extraFields).Reorders (.object error.extraFields)

structure Response.SameAs (decoded response : Response) : Prop where
  id : decoded.id.written.Reorders response.id.written
  result : decoded.result.Reorders response.result
  error : Option.Rel ErrorObject.SameAs decoded.error response.error
  extraFields : (Json.object decoded.extraFields).Reorders (.object response.extraFields)

/-! ### What is written -/

theorem parseDigits_toDigits (number : Nat) :
    parseDigits (Nat.toDigits 10 number) = some number := by
  have digits : (Nat.toDigits 10 number).all Char.isDigit :=
    List.all_eq_true.mpr fun _ member => Nat.isDigit_of_mem_toDigits (by decide) (by decide) member
  rw [parseDigits, if_pos ⟨Nat.toDigits_ne_nil, digits⟩,
    Nat.ofDigitChars_toDigits (by decide) (by decide)]

theorem parseInt_toString (number : Int) : parseInt (toString number) = some number := by
  unfold parseInt
  cases number with
  | ofNat number =>
      rw [toList_toString_ofNat]
      split
      · rename_i rest signed
        exact absurd signed (toDigits_ne_sign number rest)
      · rw [parseDigits_toDigits]
        rfl
  | negSucc number =>
      rw [toList_toString_negSucc]
      simp only [parseDigits_toDigits]
      rfl

theorem ErrorObject.lookup_toEncode (error : ErrorObject) (name : String) :
    lookup name error.toEncode =
      if name = "data" then (if error.data.node = .null then none else some error.data)
      else if name = "message" then some (.string error.message)
      else if name = "code" then some (.number (toString error.code))
      else lookup name error.extraFields := by
  have extra : lookup name (error.extraFields.filter fun member => member.1 ≠ "data") =
      if name = "data" then none else lookup name error.extraFields := by
    rw [lookup_filter fun found => decide (found ≠ "data")]
    by_cases same : name = "data" <;> simp [same]
  obtain ⟨code, message, data, extraFields⟩ := error
  cases data <;> simp only [ErrorObject.toEncode, lookup_assign, extra, Json.node]
  all_goals
    by_cases isData : name = "data"
    · simp [isData]
    · simp [isData]

theorem Response.lookup_toEncode (response : Response) (name : String) :
    lookup name response.toEncode =
      if name = "jsonrpc" then some (.string version)
      else if name = "id" then some response.id.written
      else if name = "error" then response.error.map encodeErrorObject
      else if name = "result" then
        (if response.error.isSome then none else some response.result)
      else lookup name response.extraFields := by
  have extra : lookup name (response.extraFields.filter fun member =>
      member.1 ≠ "result" ∧ member.1 ≠ "error") =
      if name = "result" ∨ name = "error" then none else lookup name response.extraFields := by
    rw [lookup_filter fun found => decide (found ≠ "result" ∧ found ≠ "error")]
    by_cases isResult : name = "result" <;> by_cases isError : name = "error" <;>
      simp [isResult, isError]
  obtain ⟨id, result, error, extraFields⟩ := response
  cases error <;> simp only [Response.toEncode, lookup_assign, extra]
  · by_cases isError : name = "error"
    · simp [isError]
    · by_cases isResult : name = "result" <;> simp [isError, isResult]
  · by_cases isError : name = "error"
    · simp [isError]
    · by_cases isResult : name = "result" <;> simp [isError, isResult]

theorem distinctNames_encodeErrorObject {error : ErrorObject} (wellFormed : error.WellFormed) :
    (encodeErrorObject error).distinctNames := by
  have extra := distinctNames_filter (fun member => decide (member.1 ≠ "data"))
    wellFormed.extraFields
  unfold encodeErrorObject ErrorObject.toEncode
  simp only
  split
  · exact distinctNames_assign (distinctNames_assign extra rfl) rfl
  · exact distinctNames_assign (distinctNames_assign (distinctNames_assign extra rfl) rfl)
      wellFormed.data

/-- What is written for a well-formed response is a Go value. -/
theorem distinctNames_encodeResponse {response : Response} (wellFormed : response.WellFormed) :
    (encodeResponse response).distinctNames := by
  have extra := distinctNames_filter
    (fun member => decide (member.1 ≠ "result" ∧ member.1 ≠ "error")) wellFormed.extraFields
  unfold encodeResponse Response.toEncode
  simp only
  refine distinctNames_assign (distinctNames_assign ?_ wellFormed.id) rfl
  split
  · rename_i error found
    exact distinctNames_assign extra
      (distinctNames_encodeErrorObject (wellFormed.error error found))
  · exact distinctNames_assign extra wellFormed.result

/-! ### What is read -/

theorem storeInt_toString {code : Int} (isInt : IsInt64 code) (before : Int) :
    storeInt before (.number (toString code)) = some code := by
  rw [storeInt, parseInt_toString, Option.filter_some, if_pos (decide_eq_true isInt)]

theorem ErrorObject.lookup_others (error : ErrorObject) (name : String)
    (notField : name ∉ errorFields) :
    lookup name error.toEncode = lookup name error.extraFields := by
  simp only [errorFields, List.mem_cons, List.not_mem_nil, or_false, not_or] at notField
  rw [error.lookup_toEncode, if_neg notField.2.2, if_neg notField.2.1, if_neg notField.1]

/-- An error is read as it was written. -/
theorem decodeErrorObject_of_same {error : ErrorObject} (wellFormed : error.WellFormed)
    (plain : PlainFor errorFields error.extraFields) {read : Json}
    (distinct : read.distinctNames) (same : read.nodeAt = (encodeErrorObject error).nodeAt) :
    ∃ decoded, decodeErrorObject read = some decoded ∧ decoded.SameAs error.normal := by
  obtain ⟨members, rfl⟩ := Json.exists_members_of_node (Option.some.inj (congrFun same []))
  have nodup := (Json.distinctNames_object.mp distinct).1
  have plainRead : PlainFor errorFields members :=
    plainFor_of_same same (plainFor_of_others error.lookup_others plain)
  have code : decodeField errorFields "code" storeInt 0 members = some error.code := by
    rw [decodeField_of_plain plainRead nodup (by decide),
      read_of_scalar same rfl ((error.lookup_toEncode "code").trans rfl)]
    exact storeInt_toString wellFormed.code 0
  have message : decodeField errorFields "message" storeString "" members =
      some error.message := by
    rw [decodeField_of_plain plainRead nodup (by decide),
      read_of_scalar same rfl ((error.lookup_toEncode "message").trans rfl)]
    rfl
  have written : (lookup "data" error.toEncode).getD .null = error.data := by
    by_cases null : error.data.node = .null
    · rw [(error.lookup_toEncode "data").trans (if_pos null), Json.node_eq_null_iff.mp null]
      rfl
    · rw [(error.lookup_toEncode "data").trans (if_neg null)]
      rfl
  obtain ⟨data, decoded, dataSame⟩ : ∃ data,
      decodeField errorFields "data" storeAny .null members = some data ∧
        data.Reorders error.data :=
    written ▸ decodeField_any_of_same same plainRead nodup "data" (by decide)
  refine ⟨⟨error.code, error.message, data, extraOf errorFields members⟩, ?_, rfl, rfl, dataSame,
    extraOf_reorders same error.lookup_others⟩
  simp only [decodeErrorObject, code, message, decoded, Option.bind_some, Option.map_some]

theorem Response.lookup_others (response : Response) (name : String)
    (notField : name ∉ responseFields) :
    lookup name response.toEncode = lookup name response.extraFields := by
  simp only [responseFields, List.mem_cons, List.not_mem_nil, or_false, not_or] at notField
  rw [response.lookup_toEncode, if_neg notField.1, if_neg notField.2.1, if_neg notField.2.2.2,
    if_neg notField.2.2.1]

/-- A response is read as it was written, up to what its normal form leaves out. -/
theorem decodeResponse_of_same {response : Response} (wellFormed : response.WellFormed)
    (plain : response.PlainExtras) {read : Json}
    (distinct : read.distinctNames) (same : read.nodeAt = (encodeResponse response).nodeAt) :
    ∃ decoded, decodeResponse read = some decoded ∧ decoded.SameAs response.normal := by
  obtain ⟨members, rfl⟩ := Json.exists_members_of_node (Option.some.inj (congrFun same []))
  obtain ⟨nodup, values⟩ := Json.distinctNames_object.mp distinct
  have plainRead : PlainFor responseFields members :=
    plainFor_of_same same (plainFor_of_others response.lookup_others plain.extraFields)
  have isVersion : decodeField responseFields "jsonrpc" storeString "" members =
      some version := by
    rw [decodeField_of_plain plainRead nodup (by decide),
      read_of_scalar same rfl ((response.lookup_toEncode "jsonrpc").trans rfl)]
    rfl
  have writtenID : (lookup "id" response.toEncode).getD .null = response.id.written := by
    rw [response.lookup_toEncode]
    rfl
  have writtenResult :
      (lookup "result" response.toEncode).getD .null = response.normal.result := by
    rw [response.lookup_toEncode, Response.normal]
    cases response.error <;> rfl
  obtain ⟨id, idDecoded, idSame⟩ :=
    decodeField_any_of_same same plainRead nodup "id" (by decide)
  obtain ⟨result, resultDecoded, resultSame⟩ :=
    decodeField_any_of_same same plainRead nodup "result" (by decide)
  have isError : ∃ error, decodeField responseFields "error" storeError none members =
      some error ∧ Option.Rel ErrorObject.SameAs error response.normal.error := by
    have written := response.lookup_toEncode "error"
    rw [decodeField_of_plain plainRead nodup (by decide)]
    cases failed : response.error with
    | none =>
        rw [failed] at written
        rw [read_of_absent same (written.trans rfl)]
        simp only [Response.normal, failed]
        exact ⟨none, rfl, .none⟩
    | some error =>
        rw [failed] at written
        obtain ⟨value, found, nodes⟩ := read_of_present same (written.trans rfl)
        obtain ⟨decoded, succeeds, sameError⟩ := decodeErrorObject_of_same
          (wellFormed.error error failed) (plain.error error failed)
          (values _ (mem_of_lookup found)) nodes
        obtain ⟨inner, rfl⟩ := Json.exists_members_of_node (Option.some.inj (congrFun nodes []))
        rw [found]
        simp only [Response.normal, failed]
        exact ⟨some decoded, by simp only [storeError, succeeds, Option.map_some], .some sameError⟩
  obtain ⟨error, errorDecoded, errorSame⟩ := isError
  refine ⟨⟨.value id, result, error, extraOf responseFields members⟩, ?_,
    writtenID ▸ idSame, writtenResult ▸ resultSame, errorSame,
    extraOf_reorders same response.lookup_others⟩
  simp only [decodeResponse, isVersion, idDecoded, resultDecoded, errorDecoded, Option.bind_some]
  exact if_neg (not_not.mpr rfl)

/-! ### What is accepted -/

theorem storeInt_isInt64 {before after : Int} {value : Json} (isInt : IsInt64 before)
    (stored : storeInt before value = some after) : IsInt64 after := by
  unfold storeInt at stored
  split at stored
  · exact of_decide_eq_true (Option.filter_eq_some_iff.mp stored).2
  · cases stored
    exact isInt
  · cases stored

theorem decodeErrorObject_wellFormed {json : Json} {error : ErrorObject}
    (decoded : decodeErrorObject json = some error) : error.WellFormed := by
  unfold decodeErrorObject at decoded
  split at decoded
  · obtain ⟨code, codeStored, decoded⟩ := Option.bind_eq_some_iff.mp decoded
    obtain ⟨message, -, decoded⟩ := Option.bind_eq_some_iff.mp decoded
    obtain ⟨data, dataStored, rfl⟩ := Option.map_eq_some_iff.mp decoded
    exact ⟨decodeField_invariant (by decide) (fun _ => storeInt_isInt64) codeStored,
      decodeField_invariant (P := fun json => json.distinctNames) rfl
        (fun _ _ => storeAny_distinct) dataStored,
      distinctNames_extraOf _⟩
  · cases decoded

theorem decodeErrorObject_of_storeError {before : Option ErrorObject} {value : Json}
    {error : ErrorObject} (stored : storeError before value = some (some error)) :
    decodeErrorObject value = some error := by
  unfold storeError at stored
  split at stored
  · cases stored
  · obtain ⟨decoded, succeeds, same⟩ := Option.map_eq_some_iff.mp stored
    exact Option.some.inj same ▸ succeeds

theorem storeError_wellFormed {before after : Option ErrorObject} {value : Json}
    (stored : storeError before value = some after) :
    ∀ error ∈ after, error.WellFormed := by
  rintro error isError
  obtain rfl := Option.mem_def.mp isError
  exact decodeErrorObject_wellFormed (decodeErrorObject_of_storeError stored)

/-- What is accepted is well formed. -/
theorem decodeResponse_wellFormed {json : Json} {response : Response}
    (decoded : decodeResponse json = some response) : response.WellFormed := by
  unfold decodeResponse at decoded
  split at decoded
  · obtain ⟨found, -, decoded⟩ := Option.bind_eq_some_iff.mp decoded
    obtain ⟨id, idStored, decoded⟩ := Option.bind_eq_some_iff.mp decoded
    obtain ⟨result, resultStored, decoded⟩ := Option.bind_eq_some_iff.mp decoded
    obtain ⟨error, errorStored, decoded⟩ := Option.bind_eq_some_iff.mp decoded
    split at decoded
    · cases decoded
    · cases decoded
      exact ⟨decodeField_invariant (P := fun json => json.distinctNames) rfl
          (fun _ _ => storeAny_distinct) idStored,
        decodeField_invariant (P := fun json => json.distinctNames) rfl
          (fun _ _ => storeAny_distinct) resultStored,
        decodeField_invariant (P := fun stored => ∀ error ∈ stored, ErrorObject.WellFormed error)
          (by rintro error ⟨⟩) (fun _ _ => storeError_wellFormed) errorStored,
        distinctNames_extraOf _⟩
  · cases decoded

theorem fits_of_decodeField {fields : List String} {field : String}
    {members : List (String × Json)} {value : Json} {depth : Nat}
    (fits : (Json.object members).fits depth)
    (decoded : decodeField fields field storeAny .null members = some value) :
    value.fits (depth + 1) := by
  refine decodeField_invariant (P := fun json => json.fits (depth + 1)) rfl ?_ decoded
  rintro before name found after present - ⟨⟩
  exact Json.fits_decodeAny ((Json.fits_object.mp fits).2 (name, found) present)

/-- An error that was read can be written. -/
theorem fits_encodeErrorObject {json : Json} {error : ErrorObject} {depth : Nat}
    (decoded : decodeErrorObject json = some error) (fits : json.fits depth) :
    (encodeErrorObject error).fits depth := by
  unfold decodeErrorObject at decoded
  split at decoded
  · obtain ⟨code, -, decoded⟩ := Option.bind_eq_some_iff.mp decoded
    obtain ⟨message, -, decoded⟩ := Option.bind_eq_some_iff.mp decoded
    obtain ⟨data, dataStored, rfl⟩ := Option.map_eq_some_iff.mp decoded
    have extra := fits_filter (fun member => decide (member.1 ≠ "data"))
      (fits_extraOf errorFields fits)
    have codeFits : (Json.number (toString code)).fits (depth + 1) := isNumberLiteral_toString code
    have messageFits : (Json.string message).fits (depth + 1) := rfl
    have assigned := fits_assign "message" (fits_assign "code" extra codeFits) messageFits
    simp only [encodeErrorObject, ErrorObject.toEncode]
    split
    · exact assigned
    · exact fits_assign _ assigned (fits_of_decodeField fits dataStored)
  · cases decoded

/-- A response that was read can be written. -/
theorem fits_encodeResponse {json : Json} {response : Response} {depth : Nat}
    (decoded : decodeResponse json = some response) (fits : json.fits depth) :
    (encodeResponse response).fits depth := by
  unfold decodeResponse at decoded
  split at decoded
  · rename_i members
    obtain ⟨found, -, decoded⟩ := Option.bind_eq_some_iff.mp decoded
    obtain ⟨id, idStored, decoded⟩ := Option.bind_eq_some_iff.mp decoded
    obtain ⟨result, resultStored, decoded⟩ := Option.bind_eq_some_iff.mp decoded
    obtain ⟨error, errorStored, decoded⟩ := Option.bind_eq_some_iff.mp decoded
    split at decoded
    · cases decoded
    · cases decoded
      have extra := fits_filter (fun member => decide (member.1 ≠ "result" ∧ member.1 ≠ "error"))
        (fits_extraOf responseFields fits)
      simp only [encodeResponse, Response.toEncode]
      refine fits_assign _ (fits_assign _ ?_ (fits_of_decodeField fits idStored)) rfl
      cases error with
      | none => exact fits_assign _ extra (fits_of_decodeField fits resultStored)
      | some object =>
          refine fits_assign _ extra ?_
          refine decodeField_invariant (P := fun stored : Option ErrorObject => ∀ object ∈ stored,
            (encodeErrorObject object).fits (depth + 1)) (by rintro object ⟨⟩) ?_ errorStored
            object rfl
          rintro before name value after present - stored other isOther
          obtain rfl := Option.mem_def.mp isOther
          exact fits_encodeErrorObject (decodeErrorObject_of_storeError stored)
            ((Json.fits_object.mp fits).2 (name, value) present)
  · cases decoded

/-- Every response that is well formed and can be written comes back from its text, and so does
every response that was read from one: with a `null` in place of a missing identifier, without
the result if there is an error, and without extra fields that have a name of the standard. -/
theorem decode_encode_response {Text : Type} (text : JSONText Text) {response : Response}
    (known : response.WellFormed ∧ (encodeResponse response).fits 0 ∨
      ∃ payload json, text.scan payload = .value json ∧ decodeResponse json = some response)
    (plain : response.PlainExtras) :
    ∃ read decoded, text.scan (text.print (encodeResponse response)) = .value read ∧
      decodeResponse read = some decoded ∧ decoded.WellFormed ∧
      decoded.SameAs response.normal := by
  have wellFormed : response.WellFormed ∧ (encodeResponse response).fits 0 := by
    rcases known with wellFormed | ⟨payload, json, scanned, accepted⟩
    · exact wellFormed
    · exact ⟨decodeResponse_wellFormed accepted,
        fits_encodeResponse accepted (text.fits_of_scan scanned)⟩
  obtain ⟨read, scanned, distinct, same⟩ :=
    text.scan_print _ (distinctNames_encodeResponse wellFormed.1) wellFormed.2
  obtain ⟨decoded, succeeds, sameAs⟩ := decodeResponse_of_same wellFormed.1 plain distinct same
  exact ⟨read, decoded, scanned, succeeds, decodeResponse_wellFormed succeeds, sameAs⟩

/-- An error with data and an extra field, beside a result and an extra `id`, for a
notification. -/
def sampleErrorResponse : Response where
  id := .notification
  result := .bool true
  error := some ⟨-32000, "execution reverted", .object [("gas", .number "21000")],
    [("trace", .null), ("code", .number "7")]⟩
  extraFields := [("id", .number "9"), ("meta", .array [.string "x"])]

theorem decode_encode_failed_notification :
    ∃ read decoded, reversedText.scan (reversedText.print (encodeResponse sampleErrorResponse)) =
        .value read ∧
      decodeResponse read = some decoded ∧ decoded.WellFormed ∧
      decoded.SameAs
        ⟨.value .null, .null, some ⟨-32000, "execution reverted",
          .object [("gas", .number "21000")], [("trace", .null)]⟩,
          [("meta", .array [.string "x"])]⟩ := by
  have wellFormed : sampleErrorResponse.WellFormed :=
    ⟨rfl, rfl, by rintro error ⟨⟩; exact ⟨by decide, rfl, rfl⟩, rfl⟩
  have plain : sampleErrorResponse.PlainExtras := by
    refine ⟨?_, ?_⟩
    · decide
    · rintro error ⟨⟩
      decide
  exact decode_encode_response reversedText (.inl ⟨wellFormed, rfl⟩) plain

end EspressoProxy.JsonRpc
