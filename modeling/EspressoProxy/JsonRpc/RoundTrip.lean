import EspressoProxy.JsonRpc.RequestCodec

/-!
# Requests survive encoding and decoding

`MarshalJSON` merges the members of the standard and the extra ones into one object, without
an identifier for a notification and without absent parameters. `UnmarshalJSON` takes the
object apart again. Where no extra member has a name that decoding would take for one of the
standard, the request comes back. It is the same Go value, which is to say that the members
of its objects may be listed in another order.
-/

namespace EspressoProxy.JsonRpc

/-- The identifiers of the standard: none, `null`, a string or a number. -/
def ID.IsStandard : ID → Prop
  | .notification | .value .null | .value (.string _) | .value (.number _) => True
  | .value _ => False

/-- The requests differ at most in the order of the members of objects. -/
structure Request.SameAs (decoded request : Request) : Prop where
  id : decoded.id = request.id
  method : decoded.method = request.method
  params : decoded.params.Reorders request.params
  extraFields : (Json.object decoded.extraFields).Reorders (.object request.extraFields)

section Written

variable {members : List (String × Json)} {request : Request}

theorem requestID_of_written
    (same : (Json.object members).nodeAt = (encodeRequest request).nodeAt)
    (standardID : request.id.IsStandard) :
    requestID (allFields members) (((lookup "id" members).map Json.decodeAny).getD .null) =
      request.id := by
  have written : lookup "id" request.toEncode = lookup "id" request.id.members :=
    request.lookup_toEncode "id"
  have all := lookup_allFields "id" members
  cases sent : request.id with
  | notification =>
      rw [sent] at written
      rw [read_of_absent same written] at all ⊢
      simp only [requestID, all, Option.map_none, Option.getD_none]
  | value id =>
      rw [sent] at written standardID
      have isScalar : id.isScalar := by
        cases id with
        | array | object => exact standardID.elim
        | null | bool | number | string => rfl
      have unchanged : id.decodeAny = id := by
        cases id with
        | array | object => exact standardID.elim
        | null | bool | number | string => rfl
      rw [read_of_scalar same isScalar written] at all ⊢
      simp only [requestID, all, Option.map_some, Option.getD_some, unchanged]

theorem params_of_written
    (same : (Json.object members).nodeAt = (encodeRequest request).nodeAt) :
    (((lookup "params" members).map Json.decodeAny).getD .null).Reorders request.params := by
  have written : lookup "params" request.toEncode =
      lookup "params" (paramsMembers request.params) := request.lookup_toEncode "params"
  rw [lookup_paramsMembers] at written
  by_cases null : request.params.node = .null
  · rw [if_pos null] at written
    rw [read_of_absent same written, Json.node_eq_null_iff.mp null]
    exact ⟨rfl, rfl⟩
  · rw [if_neg null] at written
    obtain ⟨value, found, nodes⟩ := read_of_present same written
    rw [found]
    exact decodeAny_reorders nodes

/-- Extra fields that no field of the struct takes are all extra. -/
theorem plainFor_of_unstored {extraFields : List (String × Json)}
    (extraNames : ∀ name ∈ names extraFields, fieldIn requestFields name = none) :
    PlainFor requestFields extraFields := by
  intro name extra stored
  rw [extraNames name extra] at stored
  cases stored

theorem filter_of_unstored {extraFields : List (String × Json)}
    (extraNames : ∀ name ∈ names extraFields, fieldIn requestFields name = none) :
    extraFields.filter (fun member => !requestFields.contains member.1) = extraFields := by
  refine List.filter_eq_self.mpr fun member present => ?_
  by_contra isField
  have known : member.1 ∈ requestFields := by simpa using isField
  have unstored := extraNames member.1 (List.mem_map_of_mem present)
  rw [fieldIn_of_mem known] at unstored
  cases unstored

end Written

/-- Decoding undoes encoding. -/
theorem decode_encode_request {Text : Type} (text : JSONText Text) {request : Request}
    (wellFormed : request.WellFormed) (fits : (encodeRequest request).fits 0)
    (standardID : request.id.IsStandard)
    (extraNames : ∀ name ∈ names request.extraFields, fieldIn requestFields name = none) :
    ∃ read decoded, text.scan (text.print (encodeRequest request)) = .value read ∧
      decodeRequest read = some decoded ∧ decoded.SameAs request := by
  obtain ⟨read, scanned, distinct, same⟩ :=
    text.scan_print _ (distinctNames_encodeRequest wellFormed) fits
  obtain ⟨members, rfl⟩ := Json.exists_members_of_node (Option.some.inj (congrFun same []))
  have nodup := (Json.distinctNames_object.mp distinct).1
  have plain : PlainFor requestFields members := plainFor_of_same same
    (plainFor_of_others request.lookup_others (plainFor_of_unstored extraNames))
  have isVersion : decodeField requestFields "jsonrpc" storeString "" members = some version := by
    rw [decodeField_of_plain plain nodup (by decide),
      read_of_scalar same rfl ((request.lookup_toEncode "jsonrpc").trans rfl)]
    rfl
  have isMethod : decodeField requestFields "method" storeString "" members =
      some request.method := by
    rw [decodeField_of_plain plain nodup (by decide),
      read_of_scalar same rfl ((request.lookup_toEncode "method").trans rfl)]
    rfl
  have extra := extraOf_reorders same request.lookup_others
  rw [filter_of_unstored extraNames] at extra
  have last : ∀ field ∈ requestFields, (lastIn field members).decodeAny =
      ((lookup field members).map Json.decodeAny).getD .null := by
    intro field isField
    rw [lastIn_of_plain plain nodup isField]
    cases lookup field members <;> rfl
  refine ⟨_, _, scanned, decodeRequest_eq_some_iff.mpr ⟨isVersion, _, isMethod, rfl⟩, ?_, rfl, ?_,
    extra⟩
  · exact (congrArg _ (last "id" (by decide))).trans (requestID_of_written same standardID)
  · rw [last "params" (by decide)]
    exact params_of_written same

/-- A notification whose parameters and extra member are objects. -/
def sampleNotification : Request where
  id := .notification
  method := "eth_subscribe"
  params := .object [("topic", .string "newHeads"), ("limit", .number "1.50")]
  extraFields := [("trace", .object [("id", .null)])]

/-- Values as their own text, but with the members of an object in the opposite order. -/
def reversedText : JSONText Json where
  scan := scanValue
  print
    | .object members => .object members.reverse
    | json => json
  fits_of_scan := fits_of_scanValue
  scan_print json distinct fits := by
    cases json with
    | object members =>
        obtain ⟨nodup, values⟩ := Json.distinctNames_object.mp distinct
        obtain ⟨within, below⟩ := Json.fits_object.mp fits
        have reversed := List.reverse_perm members
        refine ⟨.object members.reverse, if_pos ?_, ?_, Json.nodeAt_perm reversed nodup⟩
        · exact Json.fits_object.mpr
            ⟨within, fun member present => below member (List.mem_reverse.mp present)⟩
        · refine Json.distinctNames_object.mpr ⟨(reversed.map _).nodup_iff.mpr nodup, ?_⟩
          exact fun member present => values member (List.mem_reverse.mp present)
    | null | bool | number | string | array => exact ⟨_, if_pos fits, distinct, rfl⟩

theorem decode_encode_notification :
    sampleNotification.WellFormed ∧
    ∃ read decoded, reversedText.scan (reversedText.print (encodeRequest sampleNotification)) =
        .value read ∧
      decodeRequest read = some decoded ∧ decoded.SameAs sampleNotification := by
  have wellFormed : sampleNotification.WellFormed := ⟨rfl, rfl, List.forall_mem_nil _⟩
  exact ⟨wellFormed, decode_encode_request reversedText wellFormed rfl trivial (by decide)⟩

end EspressoProxy.JsonRpc
