import Mathlib.Data.List.TakeWhile
import EspressoProxy.JsonRpc.JsonTree

/-!
# What `encoding/json` reads and writes

Text is left abstract: a `JSONText` says which values are read from it and that a value that
is written reads back. Only values that a text can stand for are meant: their numbers follow
the JSON grammar, and their arrays and objects are not nested beyond the limit of the scanner.

A value is decoded into a struct field by field. A member is stored in the field with its name,
or else in one whose name differs only in case, and a later member replaces an earlier one. In
a map the names are kept as they are spelled.
-/

namespace EspressoProxy.JsonRpc

/-! ### Text -/

section Numbers

def isDigits (digits : List Char) : Bool := !digits.isEmpty && digits.all Char.isDigit

def isExponent : List Char → Bool
  | [] => true
  | mark :: rest =>
      (mark == 'e' || mark == 'E') &&
        match rest with
        | '+' :: digits | '-' :: digits => isDigits digits
        | digits => isDigits digits

def isFraction : List Char → Bool
  | '.' :: first :: rest => first.isDigit && isExponent (rest.dropWhile Char.isDigit)
  | rest => isExponent rest

/-- A number without a sign. Only the number zero starts with the digit zero. -/
def isMagnitude : List Char → Bool
  | [] => false
  | '0' :: rest => isFraction rest
  | first :: rest => first.isDigit && isFraction (rest.dropWhile Char.isDigit)

/-- `isValidNumber` of `encoding/json`. -/
def isNumberLiteral (literal : String) : Bool :=
  match literal.toList with
  | '-' :: rest => isMagnitude rest
  | rest => isMagnitude rest

theorem leadingZero_toDigits (number : Nat) {rest : List Char}
    (digits : Nat.toDigits 10 number = '0' :: rest) : rest = [] := by
  induction number using Nat.strongRecOn generalizing rest with
  | ind number inductionHypothesis =>
      rcases Nat.lt_or_ge number 10 with small | large
      · rw [Nat.toDigits_of_lt_base small] at digits
        exact (List.cons.inj digits).2.symm
      · rw [Nat.toDigits_of_base_le (by decide) large] at digits
        cases front : Nat.toDigits 10 (number / 10) with
        | nil => exact absurd front Nat.toDigits_ne_nil
        | cons first others =>
            rw [front] at digits
            obtain ⟨rfl, -⟩ := List.cons.inj digits
            -- A quotient that is written as a single zero is zero.
            obtain rfl := inductionHypothesis (number / 10) (by omega) front
            have quotient := Nat.ofDigitChars_toDigits (b := 10) (n := number / 10) (by decide)
              (by decide)
            rw [front] at quotient
            have zero : Nat.ofDigitChars 10 ['0'] 0 = 0 := rfl
            omega

theorem isMagnitude_toDigits (number : Nat) : isMagnitude (Nat.toDigits 10 number) := by
  have digits : ∀ char ∈ Nat.toDigits 10 number, char.isDigit := fun _ member =>
    Nat.isDigit_of_mem_toDigits (by decide) (by decide) member
  unfold isMagnitude
  split
  · rename_i empty
    exact absurd empty Nat.toDigits_ne_nil
  · rename_i rest written
    rw [leadingZero_toDigits number written]
    rfl
  · rename_i first rest _ written
    rw [written] at digits
    obtain ⟨isDigit, areDigits⟩ := List.forall_mem_cons.mp digits
    rw [isDigit, List.dropWhile_eq_nil_iff.mpr areDigits]
    rfl

theorem toList_toString_ofNat (number : Nat) :
    (toString (Int.ofNat number)).toList = Nat.toDigits 10 number := by
  change number.repr.toList = _
  rw [Nat.repr_eq_ofList_toDigits, String.toList_ofList]

theorem toList_toString_negSucc (number : Nat) :
    (toString (Int.negSucc number)).toList = '-' :: Nat.toDigits 10 (number + 1) := by
  change ("-" ++ (number + 1).repr).toList = _
  rw [String.toList_append, Nat.repr_eq_ofList_toDigits]
  exact congrArg ('-' :: ·) String.toList_ofList

/-- No numeral starts with a sign. -/
theorem toDigits_ne_sign (number : Nat) (rest : List Char) :
    Nat.toDigits 10 number ≠ '-' :: rest := by
  intro signed
  have sign : '-' ∈ Nat.toDigits 10 number := signed ▸ List.mem_cons_self
  have isDigit := Nat.isDigit_of_mem_toDigits (by decide) (by decide) sign
  exact absurd isDigit (by decide)

/-- What is written for an integer is a number. -/
theorem isNumberLiteral_toString (number : Int) : isNumberLiteral (toString number) := by
  unfold isNumberLiteral
  cases number with
  | ofNat number =>
      rw [toList_toString_ofNat]
      split
      · rename_i rest signed
        exact absurd signed (toDigits_ne_sign number rest)
      · exact isMagnitude_toDigits number
  | negSucc number =>
      rw [toList_toString_negSucc]
      exact isMagnitude_toDigits (number + 1)

end Numbers

/-- How deep arrays and objects may be nested in a text. -/
def maxNestingDepth : Nat := 10000

/-- A text can stand for the value at this depth: numbers follow the grammar and no array or
object is nested too deeply. -/
def Json.fits : Json → Nat → Bool :=
  fold
    (fun leaf _ => match leaf with
      | .number literal => isNumberLiteral literal
      | _ => true)
    (fun items depth => decide (depth < maxNestingDepth) && items.all fun item => item (depth + 1))
    (fun members depth =>
      decide (depth < maxNestingDepth) && members.all fun member => member.2 (depth + 1))

theorem Json.fits_array {items : List Json} {depth : Nat} :
    (Json.array items).fits depth ↔
      depth < maxNestingDepth ∧ ∀ item ∈ items, item.fits (depth + 1) := by
  simp [fits, fold_array]

theorem Json.fits_object {members : List (String × Json)} {depth : Nat} :
    (Json.object members).fits depth ↔
      depth < maxNestingDepth ∧ ∀ member ∈ members, member.2.fits (depth + 1) := by
  simp [fits, fold_object]

theorem Json.fits_decodeAny {json : Json} {depth : Nat} (fits : json.fits depth) :
    json.decodeAny.fits depth := by
  induction json using Json.induction generalizing depth with
  | step json inductionHypothesis =>
      cases json with
      | array items =>
          obtain ⟨within, below⟩ := fits_array.mp fits
          rw [decodeAny_array, fits_array]
          refine ⟨within, List.forall_mem_map.mpr fun item present => ?_⟩
          exact inductionHypothesis item present (below item present)
      | object members =>
          obtain ⟨within, below⟩ := fits_object.mp fits
          rw [decodeAny_object, fits_object]
          refine ⟨within, fun member kept => ?_⟩
          obtain ⟨decoded, present, rfl⟩ := List.mem_map.mp (mem_of_mem_lastOf kept)
          exact inductionHypothesis decoded.2 (List.mem_map_of_mem present) (below decoded present)
      | _ => exact fits

theorem Json.fits_replaceString (tag text : String) {json : Json} {depth : Nat}
    (fits : json.fits depth) : (json.replaceString tag text).fits depth := by
  induction json using Json.induction generalizing depth with
  | step json inductionHypothesis =>
      cases json with
      | array items =>
          obtain ⟨within, below⟩ := fits_array.mp fits
          rw [replaceString_array, fits_array]
          refine ⟨within, List.forall_mem_map.mpr fun item present => ?_⟩
          exact inductionHypothesis item present (below item present)
      | object members =>
          obtain ⟨within, below⟩ := fits_object.mp fits
          rw [replaceString_object, fits_object]
          refine ⟨within, List.forall_mem_map.mpr fun member present => ?_⟩
          exact inductionHypothesis member.2 (List.mem_map_of_mem present) (below member present)
      | _ => exact fits

/-- What `encoding/json` makes of a payload after leading space. -/
inductive Scanned where
  | blank
  | value (json : Json)
  | malformed (first : UInt8)

/-- JSON as text. What is read fits, and what is written for a Go value that fits reads as that
value, with the members of objects in the order in which they were written. -/
structure JSONText (Text : Type) where
  scan : Text → Scanned
  print : Json → Text
  fits_of_scan : ∀ {payload json}, scan payload = .value json → json.fits 0
  scan_print : ∀ json, json.distinctNames → json.fits 0 →
    ∃ read : Json, scan (print json) = .value read ∧ read.Reorders json

/-- A value as its own text. One that no text can stand for is malformed. -/
def scanValue (json : Json) : Scanned :=
  if json.fits 0 then .value json else .malformed 0x7b

theorem fits_of_scanValue {payload json : Json} (scanned : scanValue payload = .value json) :
    json.fits 0 := by
  unfold scanValue at scanned
  split at scanned
  · rename_i fits
    cases scanned
    exact fits
  · cases scanned

/-! ### Structs -/

/-- One rune for all that differ only in case, as far as ASCII letters are concerned: the
long s and the Kelvin sign are among them. -/
def foldRune (rune : Char) : Char :=
  if rune = '\u017f' then 's' else if rune = '\u212a' then 'k' else rune.toLower

def foldName (name : String) : List Char := name.toList.map foldRune

/-- Decode a value into a string: `null` leaves it as it is, and any other value that is
not a string is a type error. -/
def storeString (before : String) : Json → Option String
  | .string text => some text
  | .null => some before
  | _ => none

/-- Decode a value into an `any`. -/
def storeAny (_ : Json) (value : Json) : Option Json := some value.decodeAny

section Struct

variable {α : Type} (fields : List String)

/-- The field that a member is stored in: the one with its name, or else one whose name
differs only in case. -/
def fieldIn (name : String) : Option String :=
  (fields.find? fun field => field = name).or
    (fields.find? fun field => foldName field = foldName name)

/-- The values that are stored in a field, in order. -/
def valuesFor (field : String) (members : List (String × Json)) : List Json :=
  members.filterMap fun member =>
    if fieldIn fields member.1 = some field then some member.2 else none

/-- Decode the values of a field one after the other. -/
def decodeField (field : String) (store : α → Json → Option α) (zero : α)
    (members : List (String × Json)) : Option α :=
  (valuesFor fields field members).foldlM store zero

/-- Every member that is stored in a field has exactly its name. -/
def PlainFor (members : List (String × Json)) : Prop :=
  ∀ name ∈ names members, (fieldIn fields name).isSome → name ∈ fields

instance (members : List (String × Json)) : Decidable (PlainFor fields members) :=
  inferInstanceAs
    (Decidable (∀ name ∈ names members, (fieldIn fields name).isSome → name ∈ fields))

variable {fields}

theorem fieldIn_of_mem {name : String} (isField : name ∈ fields) :
    fieldIn fields name = some name := by
  have found : (fields.find? fun field => field = name) = some name := by
    cases result : fields.find? fun field => field = name with
    | none =>
        have absent := List.find?_eq_none.mp result name isField
        simp at absent
    | some field =>
        have same : field = name := by simpa using List.find?_some result
        rw [same]
  rw [fieldIn, found, Option.some_or]

theorem mem_valuesFor {field : String} {members : List (String × Json)} {value : Json} :
    value ∈ valuesFor fields field members ↔
      ∃ name, (name, value) ∈ members ∧ fieldIn fields name = some field := by
  simp only [valuesFor, List.mem_filterMap, Option.ite_none_right_eq_some, Option.some.injEq]
  constructor
  · rintro ⟨member, present, stored, rfl⟩
    exact ⟨member.1, present, stored⟩
  · rintro ⟨name, present, stored⟩
    exact ⟨(name, value), present, stored, rfl⟩

theorem valuesFor_of_plain {members : List (String × Json)} (plain : PlainFor fields members)
    (distinct : (names members).Nodup) {field : String} (isField : field ∈ fields) :
    valuesFor fields field members = (lookup field members).toList := by
  induction members with
  | nil => rfl
  | cons member rest inductionHypothesis =>
      obtain ⟨plainHere, plainRest⟩ := List.forall_mem_cons.mp plain
      obtain ⟨fresh, distinctRest⟩ := List.nodup_cons.mp distinct
      have later := inductionHypothesis plainRest distinctRest
      simp only [valuesFor] at later ⊢
      by_cases same : member.1 = field
      · subst same
        rw [lookup_eq_none_iff.mpr fresh] at later
        rw [List.filterMap_cons, fieldIn_of_mem isField, if_pos rfl, later, lookup,
          lookup_eq_none_iff.mpr fresh]
        simp
      · have other : fieldIn fields member.1 ≠ some field := by
          intro stored
          have named := plainHere (Option.isSome_of_eq_some stored)
          rw [fieldIn_of_mem named] at stored
          exact same (Option.some.inj stored)
        rw [List.filterMap_cons, if_neg other, later, lookup, if_neg same, Option.or_none]

/-- Where names are plain, a field is decoded from the member of its name. -/
theorem decodeField_of_plain {members : List (String × Json)} (plain : PlainFor fields members)
    (distinct : (names members).Nodup) {field : String} (isField : field ∈ fields)
    (store : α → Json → Option α) (zero : α) :
    decodeField fields field store zero members =
      match lookup field members with
      | none => some zero
      | some value => store zero value := by
  rw [decodeField, valuesFor_of_plain plain distinct isField]
  cases lookup field members with
  | none => rfl
  | some value => simp

/-- What the members that are stored in a field can do to it, for a property that they and the
zero value have. -/
theorem decodeField_invariant {P : α → Prop} {store : α → Json → Option α} {field : String}
    {members : List (String × Json)} {zero final : α} (initial : P zero)
    (preserved : ∀ {before name value after}, (name, value) ∈ members → P before →
      store before value = some after → P after)
    (decoded : decodeField fields field store zero members = some final) : P final := by
  have kept : ∀ values : List Json, (∀ value ∈ values, ∃ name, (name, value) ∈ members) →
      ∀ zero, P zero → values.foldlM store zero = some final → P final := by
    intro values present
    induction values with
    | nil =>
        rintro zero holds ⟨⟩
        exact holds
    | cons value rest inductionHypothesis =>
        obtain ⟨⟨name, here⟩, later⟩ := List.forall_mem_cons.mp present
        intro zero holds stored
        rw [List.foldlM_cons] at stored
        obtain ⟨next, first, remaining⟩ := Option.bind_eq_some_iff.mp stored
        exact inductionHypothesis later next (preserved here holds first) remaining
  refine kept _ (fun value stored => ?_) zero initial decoded
  obtain ⟨name, present, -⟩ := mem_valuesFor.mp stored
  exact ⟨name, present⟩

/-- The last value that is stored in a field of type `any`. -/
theorem decodeField_storeAny (field : String) (zero : Json) (members : List (String × Json)) :
    decodeField fields field storeAny zero members =
      some (((valuesFor fields field members).getLast?.map Json.decodeAny).getD zero) := by
  rw [decodeField]
  induction valuesFor fields field members generalizing zero with
  | nil => rfl
  | cons value rest inductionHypothesis =>
      rw [List.foldlM_cons, storeAny, Option.bind_eq_bind, Option.bind_some, inductionHypothesis,
        List.getLast?_cons]
      cases rest.getLast? <;> rfl

/-- A string field holds the last string that is stored in it. -/
theorem foldlM_storeString_iff {values : List Json} {zero text : String} :
    values.foldlM storeString zero = some text ↔
      (∀ value ∈ values, value = .null ∨ ∃ found, value = .string found) ∧
        (values.filter fun value => value.node ≠ .null).getLast?.getD (.string zero) =
          .string text := by
  induction values generalizing zero with
  | nil => simp
  | cons value rest inductionHypothesis =>
      rw [List.foldlM_cons, List.forall_mem_cons]
      cases value with
      | null =>
          rw [storeString, Option.bind_eq_bind, Option.bind_some, inductionHypothesis]
          simp [Json.node]
      | string found =>
          rw [storeString, Option.bind_eq_bind, Option.bind_some, inductionHypothesis]
          simp [Json.node, List.getLast?_cons]
      | bool | number | array | object => simp [storeString]

theorem storeAny_distinct {before value after : Json}
    (stored : storeAny before value = some after) : after.distinctNames := by
  cases stored
  exact value.distinctNames_decodeAny

end Struct

/-! ### Maps -/

/-- The catch-all map, with every member of the object. -/
def allFields (members : List (String × Json)) : List (String × Json) :=
  lastOf (members.map fun member => (member.1, member.2.decodeAny))

theorem lookup_allFields (name : String) (members : List (String × Json)) :
    lookup name (allFields members) = (lookup name members).map Json.decodeAny := by
  rw [allFields, lookup_lastOf, lookup_map]

theorem distinctNames_allFields (members : List (String × Json)) :
    (Json.object (allFields members)).distinctNames := by
  have decoded := (Json.object members).distinctNames_decodeAny
  rwa [Json.decodeAny_object] at decoded

theorem fits_allFields {members : List (String × Json)} {depth : Nat}
    (fits : (Json.object members).fits depth) :
    (Json.object (allFields members)).fits depth := by
  have decoded := Json.fits_decodeAny fits
  rwa [Json.decodeAny_object] at decoded

theorem distinctNames_filter {members : List (String × Json)} (keep : String × Json → Bool)
    (distinct : (Json.object members).distinctNames) :
    (Json.object (members.filter keep)).distinctNames := by
  obtain ⟨nodup, values⟩ := Json.distinctNames_object.mp distinct
  refine Json.distinctNames_object.mpr ⟨nodup.sublist (List.filter_sublist.map _), ?_⟩
  exact fun member kept => values member (List.mem_of_mem_filter kept)

theorem fits_filter {members : List (String × Json)} {depth : Nat} (keep : String × Json → Bool)
    (fits : (Json.object members).fits depth) :
    (Json.object (members.filter keep)).fits depth := by
  obtain ⟨within, below⟩ := Json.fits_object.mp fits
  exact Json.fits_object.mpr ⟨within, fun member kept => below member (List.mem_of_mem_filter kept)⟩

/-- The members that no field is named after. -/
def extraOf (fields : List String) (members : List (String × Json)) : List (String × Json) :=
  (allFields members).filter fun member => !fields.contains member.1

/-- Assign to a member of a map. -/
def assign (members : List (String × Json)) (name : String) (value : Json) :
    List (String × Json) :=
  members.filter (fun member => member.1 ≠ name) ++ [(name, value)]

theorem lookup_assign (members : List (String × Json)) (name : String) (value : Json)
    (other : String) :
    lookup other (assign members name value) =
      if other = name then some value else lookup other members := by
  rw [assign, lookup_append, lookup_filter fun found => decide (found ≠ name)]
  by_cases same : other = name
  · simp [lookup, same]
  · simp [lookup, same, Ne.symm same]

theorem distinctNames_assign {members : List (String × Json)} {name : String} {value : Json}
    (distinct : (Json.object members).distinctNames) (valueDistinct : value.distinctNames) :
    (Json.object (assign members name value)).distinctNames := by
  obtain ⟨nodup, values⟩ := Json.distinctNames_object.mp
    (distinctNames_filter (fun member => decide (member.1 ≠ name)) distinct)
  refine Json.distinctNames_object.mpr ⟨?_, ?_⟩
  · rw [names, assign, List.map_append, List.nodup_append]
    refine ⟨nodup, List.nodup_singleton _, ?_⟩
    rintro found kept _ assigned rfl
    obtain ⟨member, member', rfl⟩ := List.mem_map.mp kept
    have different := List.of_mem_filter member'
    simp at assigned
    simp [assigned] at different
  · intro member present
    rcases List.mem_append.mp present with kept | assigned
    · exact values member kept
    · rw [List.mem_singleton.mp assigned]
      exact valueDistinct

theorem fits_assign {members : List (String × Json)} {value : Json} {depth : Nat} (name : String)
    (fits : (Json.object members).fits depth) (valueFits : value.fits (depth + 1)) :
    (Json.object (assign members name value)).fits depth := by
  obtain ⟨within, below⟩ := Json.fits_object.mp fits
  refine Json.fits_object.mpr ⟨within, fun member present => ?_⟩
  rcases List.mem_append.mp present with kept | assigned
  · exact below member (List.mem_of_mem_filter kept)
  · rw [List.mem_singleton.mp assigned]
    exact valueFits

section Extra

variable {fields : List String}

theorem lookup_extraOf (name : String) (members : List (String × Json)) :
    lookup name (extraOf fields members) =
      if name ∈ fields then none else (lookup name members).map Json.decodeAny := by
  rw [extraOf, lookup_filter fun name => !fields.contains name, lookup_allFields]
  by_cases isField : name ∈ fields <;> simp [isField]

theorem distinctNames_extraOf (members : List (String × Json)) :
    (Json.object (extraOf fields members)).distinctNames :=
  distinctNames_filter _ (distinctNames_allFields members)

variable (fields) in
theorem fits_extraOf {members : List (String × Json)} {depth : Nat}
    (fits : (Json.object members).fits depth) :
    (Json.object (extraOf fields members)).fits depth :=
  fits_filter _ (fits_allFields fits)

end Extra

/-! ### What is read of what was written -/

section Read

variable {members written : List (String × Json)}

theorem read_of_absent (same : (Json.object members).nodeAt = (Json.object written).nodeAt)
    {name : String} (absent : lookup name written = none) : lookup name members = none := by
  have below := Json.map_nodeAt_lookup same name
  rw [absent] at below
  exact Option.map_eq_none_iff.mp below

theorem read_of_present (same : (Json.object members).nodeAt = (Json.object written).nodeAt)
    {name : String} {value : Json} (present : lookup name written = some value) :
    ∃ read, lookup name members = some read ∧ read.nodeAt = value.nodeAt := by
  have below := Json.map_nodeAt_lookup same name
  rw [present] at below
  exact Option.map_eq_some_iff.mp below

/-- A member that is written with a scalar value is read with it. -/
theorem read_of_scalar (same : (Json.object members).nodeAt = (Json.object written).nodeAt)
    {name : String} {scalar : Json} (isScalar : scalar.isScalar)
    (present : lookup name written = some scalar) : lookup name members = some scalar := by
  obtain ⟨read, found, nodes⟩ := read_of_present same present
  rw [found, Json.eq_of_node isScalar (Option.some.inj (congrFun nodes []))]

theorem plainFor_of_same (same : (Json.object members).nodeAt = (Json.object written).nodeAt)
    {fields : List String} (plain : PlainFor fields written) : PlainFor fields members := by
  intro name present
  rw [Json.mem_names_iff_nodeAt, same, ← Json.mem_names_iff_nodeAt] at present
  exact plain name present

/-- A value is read into an `any` as it was written, up to the order of members. -/
theorem decodeAny_reorders {read value : Json} (nodes : read.nodeAt = value.nodeAt) :
    read.decodeAny.Reorders value :=
  ⟨read.distinctNames_decodeAny, (funext read.nodeAt_decodeAny).trans nodes⟩

/-- So is a field of that type, which is null where nothing was written. -/
theorem decodeField_any_of_same
    (same : (Json.object members).nodeAt = (Json.object written).nodeAt) {fields : List String}
    (plain : PlainFor fields members) (nodup : (names members).Nodup) (field : String)
    (isField : field ∈ fields) :
    ∃ read, decodeField fields field storeAny .null members = some read ∧
      read.Reorders ((lookup field written).getD .null) := by
  rw [decodeField_of_plain plain nodup isField]
  cases wrote : lookup field written with
  | none =>
      rw [read_of_absent same wrote]
      exact ⟨.null, rfl, rfl, rfl⟩
  | some value =>
      obtain ⟨read, found, nodes⟩ := read_of_present same wrote
      rw [found]
      exact ⟨_, rfl, decodeAny_reorders nodes⟩

/-- The extra fields are read as they were written, where the written object has those of
`extraFields` and the fields of the struct. -/
theorem extraOf_reorders (same : (Json.object members).nodeAt = (Json.object written).nodeAt)
    {fields : List String} {extraFields : List (String × Json)}
    (others : ∀ name, name ∉ fields → lookup name written = lookup name extraFields) :
    (Json.object (extraOf fields members)).Reorders
      (.object (extraFields.filter fun member => !fields.contains member.1)) := by
  refine ⟨distinctNames_extraOf members, Json.nodeAt_object_congr fun name => ?_⟩
  rw [lookup_extraOf, lookup_filter fun name => !fields.contains name]
  by_cases isField : name ∈ fields
  · simp [isField]
  · have below := Json.map_nodeAt_lookup same name
    rw [others name isField] at below
    rw [if_neg isField, if_pos (by simpa using isField), ← below]
    exact Json.map_nodeAt_decodeAny _

theorem plainFor_of_others {fields : List String} {extraFields : List (String × Json)}
    (others : ∀ name, name ∉ fields → lookup name written = lookup name extraFields)
    (plain : PlainFor fields extraFields) : PlainFor fields written := by
  intro name present stored
  by_contra notField
  rw [mem_names_iff, others name notField, ← mem_names_iff] at present
  exact notField (plain name present stored)

end Read
end EspressoProxy.JsonRpc
