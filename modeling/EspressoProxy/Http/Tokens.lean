import EspressoProxy.Http.Cors

/-!
# Tokens and lists of them

The values of the CORS fields are lists of tokens, separated by commas. A list of tokens is read
as it was written, and the canonical form of a token is a token that differs from it only in
case.
-/

namespace EspressoProxy.Http

/-! ### Lists of tokens -/

/-- A token of HTTP. -/
def IsToken (text : String) : Prop := text ≠ "" ∧ text.toList.all validHeaderFieldByte

instance (text : String) : Decidable (IsToken text) :=
  inferInstanceAs (Decidable (text ≠ "" ∧ text.toList.all validHeaderFieldByte))

/-- The items of a list, without the space around them and without empty ones. -/
def listItems (rawValues : List String) : List String :=
  (rawValues.map trimSpace).filter fun item => item ≠ ""

theorem lt_of_validHeaderFieldByte {rune : Char} (valid : validHeaderFieldByte rune) :
    rune.toNat < 128 := by
  rw [validHeaderFieldByte, Bool.or_eq_true, List.contains_iff_mem] at valid
  rcases valid with alphanumeric | symbol
  · delta Char.isAlphanum Char.isAlpha Char.isUpper Char.isLower Char.isDigit at alphanumeric
    simp only [Bool.or_eq_true, Bool.and_eq_true, decide_eq_true_eq, UInt32.le_iff_toNat_le,
      ge_iff_le] at alphanumeric
    change ((65 ≤ rune.toNat ∧ rune.toNat ≤ 90) ∨ (97 ≤ rune.toNat ∧ rune.toNat ≤ 122)) ∨
      (48 ≤ rune.toNat ∧ rune.toNat ≤ 57) at alphanumeric
    omega
  · have symbols : ∀ symbol ∈ ['!', '#', '$', '%', '&', '\x27', '*', '+', '-', '.', '^', '_',
        '\x60', '|', '~'], symbol.toNat < 128 := by simp
    exact symbols rune symbol

theorem splitComma_intercalate {names : List String} (nonempty : names ≠ []) :
    splitComma (",".intercalate names) = names.flatMap splitComma := by
  induction names with
  | nil => exact absurd rfl nonempty
  | cons name rest inductionHypothesis =>
      cases rest with
      | nil => simp
      | cons next more =>
          have split : splitComma (name ++ "," ++ ",".intercalate (next :: more)) =
              splitComma name ++ splitComma (",".intercalate (next :: more)) := by
            simp [splitComma, List.splitOn, List.splitOnP_append_cons]
          rw [String.intercalate_cons_cons, split, inductionHypothesis (by simp)]
          rfl

theorem not_special_of_token {text : String} (token : IsToken text) {rune : Char}
    (member : rune ∈ text.toList) : rune ≠ ',' ∧ isSpace rune = false := by
  have valid : validHeaderFieldByte rune := List.all_eq_true.mp token.2 rune member
  have table : ∀ code < 128, validHeaderFieldByte (Char.ofNat code) →
      Char.ofNat code ≠ ',' ∧ isSpace (Char.ofNat code) = false := by decide +kernel
  simpa using table rune.toNat (lt_of_validHeaderFieldByte valid) (by simpa using valid)

theorem splitComma_of_token {text : String} (token : IsToken text) :
    splitComma text = [text] := by
  have single : text.toList.splitOn ',' = [text.toList] :=
    List.splitOnP_eq_singleton fun rune member =>
      beq_eq_false_iff_ne.mpr (not_special_of_token token member).1
  rw [splitComma, single, List.map_singleton, String.ofList_toList]

theorem trimSpace_of_token {text : String} (token : IsToken text) : trimSpace text = text := by
  have noSpace : ∀ rune ∈ text.toList, ¬ isSpace rune = true := fun rune member =>
    Bool.eq_false_iff.mp (not_special_of_token token member).2
  have front : text.toList.dropWhile isSpace = text.toList :=
    List.dropWhile_eq_self_iff.mpr fun _ => noSpace _ (List.getElem_mem _)
  have back : text.toList.rdropWhile isSpace = text.toList :=
    List.rdropWhile_eq_self_iff.mpr fun nonempty => noSpace _ (List.getLast_mem nonempty)
  rw [trimSpace, front, back, String.ofList_toList]

theorem listItems_of_token {text : String} (token : IsToken text) :
    listItems (splitComma text) = [text] := by
  simp [splitComma_of_token token, listItems, trimSpace_of_token token, token.1]

theorem listItems_flatMap (names : List String) :
    listItems (names.flatMap splitComma) = names.flatMap fun name =>
      listItems (splitComma name) := by
  simp [listItems, List.map_flatMap, List.filter_flatMap]

/-- A token among other values is found in the list that they are joined to. -/
theorem mem_listItems_of_token {names : List String} {name : String} (member : name ∈ names)
    (token : IsToken name) : name ∈ listItems (splitComma (",".intercalate names)) := by
  rw [splitComma_intercalate (List.ne_nil_of_mem member), listItems_flatMap]
  exact List.mem_flatMap.mpr ⟨name, member, by simp [listItems_of_token token]⟩

/-- A list of tokens is read as it was written. -/
theorem listItems_intercalate {names : List String} (nonempty : names ≠ [])
    (tokens : ∀ name ∈ names, IsToken name) :
    listItems (splitComma (",".intercalate names)) = names := by
  rw [splitComma_intercalate nonempty, listItems_flatMap]
  induction names with
  | nil => rfl
  | cons name rest inductionHypothesis =>
      obtain ⟨token, others⟩ := List.forall_mem_cons.mp tokens
      rw [List.flatMap_cons, listItems_of_token token]
      cases rest with
      | nil => rfl
      | cons next more =>
          rw [inductionHypothesis (by simp) others]
          rfl

/-! ### Canonical names -/

/-- `strings.ToLower` on ASCII. -/
def asciiToLower (text : String) : String := String.ofList (text.toList.map Char.toLower)

theorem canonicalRune {rune : Char} (valid : validHeaderFieldByte rune) (upper : Bool) :
    validHeaderFieldByte (if upper then rune.toUpper else rune.toLower) ∧
      (if upper then rune.toUpper else rune.toLower).toLower = rune.toLower := by
  have table : ∀ code < 128, ∀ upper : Bool, validHeaderFieldByte (Char.ofNat code) →
      validHeaderFieldByte
          (if upper then (Char.ofNat code).toUpper else (Char.ofNat code).toLower) ∧
        (if upper then (Char.ofNat code).toUpper else (Char.ofNat code).toLower).toLower =
          (Char.ofNat code).toLower := by decide +kernel
  simpa using table rune.toNat (lt_of_validHeaderFieldByte valid) upper (by simpa using valid)

theorem canonicalCase_token {runes : List Char} (valid : ∀ rune ∈ runes, validHeaderFieldByte rune)
    (upper : Bool) :
    (∀ rune ∈ canonicalCase upper runes, validHeaderFieldByte rune) ∧
      (canonicalCase upper runes).map Char.toLower = runes.map Char.toLower := by
  induction runes generalizing upper with
  | nil => exact ⟨nofun, rfl⟩
  | cons rune rest inductionHypothesis =>
      obtain ⟨first, others⟩ := List.forall_mem_cons.mp valid
      obtain ⟨validFirst, lowerFirst⟩ := canonicalRune first upper
      obtain ⟨validRest, lowerRest⟩ := inductionHypothesis others (rune == '-')
      refine ⟨List.forall_mem_cons.mpr ⟨validFirst, validRest⟩, ?_⟩
      rw [canonicalCase, List.map_cons, lowerFirst, lowerRest, List.map_cons]

/-- A name in canonical form is a token still, and the same in lower case. -/
theorem canonicalMIMEHeaderKey_token {name : String} (token : IsToken name) :
    IsToken (canonicalMIMEHeaderKey name) ∧
      asciiToLower (canonicalMIMEHeaderKey name) = asciiToLower name := by
  obtain ⟨valid, lower⟩ := canonicalCase_token (List.all_eq_true.mp token.2) true
  have canonical : canonicalMIMEHeaderKey name =
      String.ofList (canonicalCase true name.toList) := if_pos token.2
  have runes : (canonicalMIMEHeaderKey name).toList = canonicalCase true name.toList := by
    rw [canonical, String.toList_ofList]
  refine ⟨⟨fun empty => token.1 ?_, ?_⟩, ?_⟩
  · rw [empty] at runes
    rw [← runes] at lower
    exact String.toList_eq_nil_iff.mp (List.map_eq_nil_iff.mp lower.symm)
  · rw [runes]
    exact List.all_eq_true.mpr valid
  · rw [asciiToLower, runes, lower, asciiToLower]

/-- On tokens, which are ASCII, there is only one notion of lower case. -/
theorem toLower_of_token {name : String} (token : IsToken name) :
    toLower name = asciiToLower name := by
  refine congrArg String.ofList (List.map_congr_left fun rune member => ?_)
  have ascii : rune.toNat < 128 :=
    lt_of_validHeaderFieldByte (List.all_eq_true.mp token.2 rune member)
  have notDotted : rune ≠ '\u0130' := by
    rintro rfl
    exact absurd ascii (by decide)
  have notKelvin : rune ≠ '\u212a' := by
    rintro rfl
    exact absurd ascii (by decide)
  rw [toLowerRune, if_neg notDotted, if_neg notKelvin]

/-- The value of a list of names, which is not set if there are none. -/
def namesValue (names : List String) : List String :=
  if names = [] then [] else [",".intercalate (names.map canonicalMIMEHeaderKey)]

theorem listItems_namesValue {names : List String} (tokens : ∀ name ∈ names, IsToken name) :
    (namesValue names).flatMap (fun value => listItems (splitComma value)) =
      names.map canonicalMIMEHeaderKey := by
  by_cases none : names = []
  · rw [namesValue, if_pos none, none]
    rfl
  · rw [namesValue, if_neg none, List.flatMap_singleton]
    refine listItems_intercalate (fun empty => none (List.map_eq_nil_iff.mp empty)) ?_
    intro listed member
    obtain ⟨name, isName, rfl⟩ := List.mem_map.mp member
    exact (canonicalMIMEHeaderKey_token (tokens name isName)).1

end EspressoProxy.Http
