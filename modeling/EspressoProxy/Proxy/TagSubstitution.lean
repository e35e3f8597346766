import EspressoProxy.JsonRpc.JsonTree
import EspressoProxy.Proxy.Interceptor

/-!
# The walk over the parameters is a substitution

`replaceTagInParams` copies arrays and objects only from the first change on and
ranges over objects in an order that Go does not fix. It still computes the plain
substitution of the block number for the tag, or fails because of the depth.
-/

namespace EspressoProxy.Proxy

open EspressoProxy.JsonRpc

section Walk

variable (tag : String) (number : Nat)

/-- What the walk over `json` returns from `depth` on. -/
structure WalkExact (json : Json) (depth : Nat) : Prop where
  within : depth + json.height ≤ maxJSONDepth →
    replaceTagInParams tag number json depth =
      .ok (json.replaceString tag (hexBlockNumber number), json.hasString tag)
  beyond : maxJSONDepth < depth + json.height →
    ∃ cause, replaceTagInParams tag number json depth = .error cause

section Items

/-- The copy of an array after the loop passed the elements `done`. -/
def itemsCopy (done rest : List Json) : Option (List Json) :=
  if done.any (Json.hasString tag) then
    some (done.map (Json.replaceString tag (hexBlockNumber number)) ++
      List.replicate rest.length .null)
  else none

variable {tag number}

theorem itemsCopy_of_unchanged {done rest : List Json} {value : Json}
    (unchanged : value.hasString tag = false) :
    (itemsCopy tag number done (value :: rest)).map (fun copied => copied.set done.length value) =
      itemsCopy tag number (done ++ [value]) rest := by
  have same := Json.replaceString_of_not_hasString tag (hexBlockNumber number) unchanged
  unfold itemsCopy
  by_cases earlier : done.any (Json.hasString tag)
  · simp [earlier, same, List.replicate_succ]
  · simp [earlier, unchanged]

theorem itemsCopy_of_changed {done rest : List Json} {value : Json}
    (changed : value.hasString tag = true) :
    some (((itemsCopy tag number done (value :: rest)).getD
        ((done ++ value :: rest).take done.length ++
          List.replicate ((done ++ value :: rest).length - done.length) .null)).set done.length
        (value.replaceString tag (hexBlockNumber number))) =
      itemsCopy tag number (done ++ [value]) rest := by
  unfold itemsCopy
  by_cases earlier : done.any (Json.hasString tag)
  · simp [earlier, List.replicate_succ]
  · have same : done.map (Json.replaceString tag (hexBlockNumber number)) = done := by
      rw [Bool.not_eq_true, List.any_eq_false] at earlier
      rw [List.map_congr_left, List.map_id']
      intro item present
      exact Json.replaceString_of_not_hasString _ _ (by simpa using earlier item present)
    simp [earlier, changed, same, List.replicate_succ]

/-- The loop over an array, from any element on. -/
theorem replaceTagInItems_eq {depth : Nat} (done rest : List Json)
    (walked : ∀ item ∈ rest, replaceTagInParams tag number item depth =
      .ok (item.replaceString tag (hexBlockNumber number), item.hasString tag)) :
    replaceTagInItems tag number (done ++ rest) rest done.length
      (itemsCopy tag number done rest) depth =
        .ok (itemsCopy tag number (done ++ rest) []) := by
  induction rest generalizing done with
  | nil => simp [replaceTagInItems]
  | cons value rest inductionHypothesis =>
      have next := inductionHypothesis (done ++ [value])
        fun item present => walked item (List.mem_cons_of_mem _ present)
      rw [List.append_assoc, List.singleton_append, List.length_append, List.length_singleton]
        at next
      rw [replaceTagInItems, walked value List.mem_cons_self]
      cases changed : value.hasString tag with
      | false => rw [itemsCopy_of_unchanged changed, next]
      | true =>
          rw [← itemsCopy_of_changed changed] at next
          exact next

theorem replaceTagInItems_error {depth : Nat} {items : List Json}
    (walked : ∀ item ∈ items, WalkExact tag number item depth)
    (deep : ∃ item ∈ items, maxJSONDepth < depth + item.height)
    (cast : List Json) (index : Nat) (copied : Option (List Json)) :
    ∃ cause, replaceTagInItems tag number cast items index copied depth = .error cause := by
  induction items generalizing index copied with
  | nil => simp at deep
  | cons value rest inductionHypothesis =>
      obtain ⟨here, later⟩ := List.forall_mem_cons.mp walked
      rw [replaceTagInItems]
      rcases Nat.lt_or_ge maxJSONDepth (depth + value.height) with beyond | within
      · obtain ⟨cause, failed⟩ := here.beyond beyond
        rw [failed]
        exact ⟨_, rfl⟩
      · have deepLater : ∃ item ∈ rest, maxJSONDepth < depth + item.height :=
          ((List.exists_mem_cons_iff _ _ _).mp deep).resolve_left (Nat.not_lt.mpr within)
        rw [here.within within]
        cases value.hasString tag with
        | false => exact inductionHypothesis later deepLater _ _
        | true => exact inductionHypothesis later deepLater _ _

end Items

section Members

/-- The copy of an object after the loop passed the members `done`. -/
def membersCopy (done rest : List (String × Json)) : Option (List (String × Json)) :=
  if done.any fun member => member.2.hasString tag then
    some (done.map (fun member =>
      (member.1, member.2.replaceString tag (hexBlockNumber number))) ++ rest)
  else none

variable {tag number}

theorem assignMember_eq {front back : List (String × Json)} {key : String} {value next : Json}
    (distinct : (names (front ++ (key, value) :: back)).Nodup) :
    assignMember (front ++ (key, value) :: back) key next = front ++ (key, next) :: back := by
  simp only [names, List.map_append, List.map_cons] at distinct
  obtain ⟨-, tail, apart⟩ := List.nodup_append.mp distinct
  have keep : ∀ member : String × Json, member.1 ≠ key →
      (if member.1 = key then (key, next) else member) = member :=
    fun member different => if_neg different
  have frontKept : ∀ member ∈ front, member.1 ≠ key := fun member present =>
    apart _ (List.mem_map_of_mem present) _ List.mem_cons_self
  have backKept : ∀ member ∈ back, member.1 ≠ key := fun member present same =>
    (List.nodup_cons.mp tail).1 (same ▸ List.mem_map_of_mem present)
  rw [assignMember, List.map_append, List.map_cons, if_pos rfl,
    List.map_congr_left fun member present => keep member (frontKept member present),
    List.map_congr_left fun member present => keep member (backKept member present),
    List.map_id', List.map_id']

theorem membersCopy_of_unchanged {done rest : List (String × Json)} {key : String} {value : Json}
    (unchanged : value.hasString tag = false) :
    membersCopy tag number done ((key, value) :: rest) =
      membersCopy tag number (done ++ [(key, value)]) rest := by
  have same := Json.replaceString_of_not_hasString tag (hexBlockNumber number) unchanged
  unfold membersCopy
  by_cases earlier : done.any fun member => member.2.hasString tag
  · simp [earlier, same]
  · simp [earlier, unchanged]

theorem membersCopy_of_changed {done rest : List (String × Json)} {key : String} {value : Json}
    (distinct : (names (done ++ (key, value) :: rest)).Nodup)
    (changed : value.hasString tag = true) :
    some (assignMember
        ((membersCopy tag number done ((key, value) :: rest)).getD (done ++ (key, value) :: rest))
        key (value.replaceString tag (hexBlockNumber number))) =
      membersCopy tag number (done ++ [(key, value)]) rest := by
  unfold membersCopy
  by_cases earlier : done.any fun member => member.2.hasString tag
  · have distinctCopy : (names (done.map (fun member =>
        (member.1, member.2.replaceString tag (hexBlockNumber number))) ++
          (key, value) :: rest)).Nodup := by
      simpa [names, Function.comp_def] using distinct
    simp [earlier, assignMember_eq distinctCopy]
  · have same : done.map (fun member =>
        (member.1, member.2.replaceString tag (hexBlockNumber number))) = done := by
      rw [Bool.not_eq_true, List.any_eq_false] at earlier
      rw [List.map_congr_left, List.map_id']
      intro member present
      exact Prod.ext rfl
        (Json.replaceString_of_not_hasString _ _ (by simpa using earlier member present))
    simp [earlier, changed, same, assignMember_eq distinct]

/-- The loop over an object, from any member on. -/
theorem replaceTagInMembers_eq {depth : Nat} (done rest : List (String × Json))
    (distinct : (names (done ++ rest)).Nodup)
    (walked : ∀ member ∈ rest, replaceTagInParams tag number member.2 depth =
      .ok (member.2.replaceString tag (hexBlockNumber number), member.2.hasString tag)) :
    replaceTagInMembers tag number (done ++ rest) rest (membersCopy tag number done rest) depth =
      .ok (membersCopy tag number (done ++ rest) []) := by
  induction rest generalizing done with
  | nil => simp [replaceTagInMembers]
  | cons member rest inductionHypothesis =>
      obtain ⟨key, value⟩ := member
      have next := inductionHypothesis (done ++ [(key, value)])
        (by rwa [List.append_assoc, List.singleton_append])
        fun member present => walked member (List.mem_cons_of_mem _ present)
      rw [List.append_assoc, List.singleton_append] at next
      rw [replaceTagInMembers, walked (key, value) List.mem_cons_self]
      cases changed : value.hasString tag with
      | false => rw [membersCopy_of_unchanged changed, next]
      | true =>
          rw [← membersCopy_of_changed distinct changed] at next
          exact next

theorem replaceTagInMembers_error {depth : Nat} {members : List (String × Json)}
    (walked : ∀ member ∈ members, WalkExact tag number member.2 depth)
    (deep : ∃ member ∈ members, maxJSONDepth < depth + member.2.height)
    (cast : List (String × Json)) (copied : Option (List (String × Json))) :
    ∃ cause, replaceTagInMembers tag number cast members copied depth = .error cause := by
  induction members generalizing copied with
  | nil => simp at deep
  | cons member rest inductionHypothesis =>
      obtain ⟨key, value⟩ := member
      obtain ⟨here, later⟩ := List.forall_mem_cons.mp walked
      rw [replaceTagInMembers]
      rcases Nat.lt_or_ge maxJSONDepth (depth + value.height) with beyond | within
      · obtain ⟨cause, failed⟩ := here.beyond beyond
        rw [failed]
        exact ⟨_, rfl⟩
      · have deepLater : ∃ member ∈ rest, maxJSONDepth < depth + member.2.height :=
          ((List.exists_mem_cons_iff _ _ _).mp deep).resolve_left (Nat.not_lt.mpr within)
        rw [here.within within]
        cases value.hasString tag with
        | false => exact inductionHypothesis later deepLater _
        | true => exact inductionHypothesis later deepLater _

end Members

variable {tag number}

/-- The depth limit holds of a value if it holds, one level further down, of the
values below it. -/
theorem within_of_mem_children {json nested : Json} {depth : Nat}
    (within : depth + json.height ≤ maxJSONDepth) (below : nested ∈ json.children) :
    depth + 1 + nested.height ≤ maxJSONDepth := by
  have shallower : nested.height + 1 ≤ json.height :=
    Json.le_height_iff_children.mpr ⟨nested, below, le_rfl⟩
  omega

theorem exists_beyond_of_children {json : Json} {depth : Nat} (reached : depth ≤ maxJSONDepth)
    (beyond : maxJSONDepth < depth + json.height) :
    ∃ nested ∈ json.children, maxJSONDepth < depth + 1 + nested.height := by
  obtain ⟨nested, below, deep⟩ := Json.le_height_iff_children.mp
    (show maxJSONDepth - depth + 1 ≤ json.height by omega)
  exact ⟨nested, below, by omega⟩

theorem walkExact_of_lt {json : Json} {depth : Nat} (deep : maxJSONDepth < depth) :
    WalkExact tag number json depth where
  within within := by omega
  beyond _ := ⟨depthError, by rw [replaceTagInParams.eq_def, if_pos deep]⟩

theorem walkExact_array {items : List Json} {depth : Nat} (reached : depth ≤ maxJSONDepth)
    (walked : ∀ item ∈ items, WalkExact tag number item (depth + 1)) :
    WalkExact tag number (.array items) depth where
  within within := by
    have loop : replaceTagInItems tag number items items 0 none (depth + 1) =
        .ok (itemsCopy tag number items []) :=
      replaceTagInItems_eq [] items fun item present =>
        (walked item present).within (within_of_mem_children within present)
    rw [replaceTagInParams, if_neg (Nat.not_lt.mpr reached), loop, itemsCopy,
      ← Json.hasString_array]
    cases changed : (Json.array items).hasString tag with
    | false => simp [Json.replaceString_of_not_hasString tag _ changed]
    | true => simp [Json.replaceString_array]
  beyond beyond := by
    obtain ⟨cause, failed⟩ := replaceTagInItems_error walked
      (exists_beyond_of_children reached beyond) items 0 none
    refine ⟨cause, ?_⟩
    rw [replaceTagInParams, if_neg (Nat.not_lt.mpr reached), failed]

theorem walkExact_object {members : List (String × Json)} {depth : Nat}
    (reached : depth ≤ maxJSONDepth) (distinct : (names members).Nodup)
    (walked : ∀ member ∈ members, WalkExact tag number member.2 (depth + 1)) :
    WalkExact tag number (.object members) depth where
  within within := by
    have loop : replaceTagInMembers tag number members members none (depth + 1) =
        .ok (membersCopy tag number members []) :=
      replaceTagInMembers_eq [] members distinct fun member present =>
        (walked member present).within
          (within_of_mem_children within (List.mem_map_of_mem present))
    rw [replaceTagInParams, if_neg (Nat.not_lt.mpr reached), loop, membersCopy,
      ← Json.hasString_object]
    cases changed : (Json.object members).hasString tag with
    | false => simp [Json.replaceString_of_not_hasString tag _ changed]
    | true => simp [Json.replaceString_object]
  beyond beyond := by
    obtain ⟨nested, below, deep⟩ := exists_beyond_of_children reached beyond
    obtain ⟨member, present, rfl⟩ := List.mem_map.mp below
    obtain ⟨cause, failed⟩ :=
      replaceTagInMembers_error walked ⟨member, present, deep⟩ members none
    refine ⟨cause, ?_⟩
    rw [replaceTagInParams, if_neg (Nat.not_lt.mpr reached), failed]

/-- The walk over a value without values below it, within the limit. -/
theorem walkExact_leaf {json : Json} {depth : Nat} (reached : depth ≤ maxJSONDepth)
    (leaf : json.children = [])
    (returned : replaceTagInParams tag number json depth =
      .ok (json.replaceString tag (hexBlockNumber number), json.hasString tag)) :
    WalkExact tag number json depth where
  within _ := returned
  beyond beyond := by
    obtain ⟨nested, below, -⟩ := exists_beyond_of_children reached beyond
    rw [leaf] at below
    cases below

theorem walkExact {json : Json} (distinct : json.distinctNames) (depth : Nat) :
    WalkExact tag number json depth := by
  induction json using Json.induction generalizing depth with
  | step json inductionHypothesis =>
      have walked := fun nested below => inductionHypothesis nested below
        (Json.distinctNames_of_mem_children distinct below) (depth + 1)
      rcases Nat.lt_or_ge maxJSONDepth depth with deep | reached
      · exact walkExact_of_lt deep
      · have shallow : ¬ maxJSONDepth < depth := Nat.not_lt.mpr reached
        cases json with
        | array items => exact walkExact_array reached walked
        | object members =>
            exact walkExact_object reached (Json.distinctNames_object.mp distinct).1
              (List.forall_mem_map.mp walked)
        | string text =>
            refine walkExact_leaf reached rfl ?_
            rw [replaceTagInParams, if_neg shallow]
            by_cases same : text = tag
            · simp [same, Json.replaceString, Json.hasString, Json.fold]
            · simp [same, Json.replaceString, Json.hasString, Json.fold]
        | _ =>
            refine walkExact_leaf reached rfl ?_
            rw [replaceTagInParams, if_neg shallow]
            rfl

theorem root_of_replaceTagInItems {depth : Nat} {items : List Json}
    (below : ∀ item ∈ items, ∀ cause,
      replaceTagInParams tag number item depth = .error cause → cause.root = depthError)
    {cast : List Json} {index : Nat} {copied : Option (List Json)} {cause : InterceptError}
    (failed : replaceTagInItems tag number cast items index copied depth = .error cause) :
    cause.root = depthError := by
  induction items generalizing index copied with
  | nil => simp [replaceTagInItems] at failed
  | cons item rest inductionHypothesis =>
      obtain ⟨here, later⟩ := List.forall_mem_cons.mp below
      rw [replaceTagInItems] at failed
      split at failed
      · rename_i inner nested
        cases failed
        exact here inner nested
      · exact inductionHypothesis later failed
      · exact inductionHypothesis later failed

theorem root_of_replaceTagInMembers {depth : Nat} {members : List (String × Json)}
    (below : ∀ member ∈ members, ∀ cause,
      replaceTagInParams tag number member.2 depth = .error cause → cause.root = depthError)
    {cast : List (String × Json)} {copied : Option (List (String × Json))} {cause : InterceptError}
    (failed : replaceTagInMembers tag number cast members copied depth = .error cause) :
    cause.root = depthError := by
  induction members generalizing copied with
  | nil => simp [replaceTagInMembers] at failed
  | cons member rest inductionHypothesis =>
      obtain ⟨here, later⟩ := List.forall_mem_cons.mp below
      rw [replaceTagInMembers] at failed
      split at failed
      · rename_i inner nested
        cases failed
        exact here inner nested
      · exact inductionHypothesis later failed
      · exact inductionHypothesis later failed

/-- The walk only ever fails because of the depth. -/
theorem root_of_replaceTagInParams (json : Json) {depth : Nat} {cause : InterceptError}
    (failed : replaceTagInParams tag number json depth = .error cause) :
    cause.root = depthError := by
  induction json using Json.induction generalizing depth cause with
  | step json inductionHypothesis =>
      rw [replaceTagInParams.eq_def] at failed
      split at failed
      · cases failed
        rfl
      · split at failed
        · split at failed <;> cases failed
        · split at failed
          · rename_i members inner nested
            cases failed
            exact root_of_replaceTagInMembers (fun member present cause =>
              inductionHypothesis member.2 (List.mem_map_of_mem present)) nested
          · cases failed
          · cases failed
        · split at failed
          · rename_i items inner nested
            cases failed
            exact root_of_replaceTagInItems (fun item present cause =>
              inductionHypothesis item present) nested
          · cases failed
          · cases failed
        all_goals cases failed

end Walk

/-- With a trusted number, a request within the depth limit is forwarded with the number
in place of the tag. -/
theorem Interceptor.interceptRequest_eq {interceptor : Interceptor} {state : Store.EspressoState}
    {request : Request} {number : Nat}
    (known : getCurrentEspressoFinalizedBlockNumber state = some number)
    (distinct : request.params.distinctNames) (within : request.params.height ≤ maxJSONDepth) :
    interceptor.interceptRequest state request = .ok { request with
      params := request.params.replaceString interceptor.espressoTag (hexBlockNumber number) } := by
  have walk : WalkExact interceptor.espressoTag number request.params 0 := walkExact distinct 0
  rw [interceptRequest, known]
  dsimp only
  rw [interceptRequestWithNumber, walk.within (by rwa [Nat.zero_add])]
  cases changed : request.params.hasString interceptor.espressoTag with
  | false => rw [Json.replaceString_of_not_hasString _ _ changed]
  | true => rfl

theorem Interceptor.interceptRequest_ok_iff {interceptor : Interceptor}
    {state : Store.EspressoState} {request next : Request} {number : Nat}
    (known : getCurrentEspressoFinalizedBlockNumber state = some number)
    (distinct : request.params.distinctNames) :
    interceptor.interceptRequest state request = .ok next ↔
      request.params.height ≤ maxJSONDepth ∧ next = { request with
        params := request.params.replaceString interceptor.espressoTag
          (hexBlockNumber number) } := by
  rcases Nat.lt_or_ge maxJSONDepth request.params.height with beyond | within
  · have walk : WalkExact interceptor.espressoTag number request.params 0 := walkExact distinct 0
    obtain ⟨cause, failed⟩ := walk.beyond (by rwa [Nat.zero_add])
    rw [interceptRequest, known]
    dsimp only
    rw [interceptRequestWithNumber, failed]
    exact iff_of_false (fun accepted => by cases accepted)
      fun accepted => absurd accepted.1 (Nat.not_le.mpr beyond)
  · rw [interceptRequest_eq known distinct within, Except.ok.injEq, and_iff_right within, eq_comm]

section BlockNumber

def hexDigits : List Char := "0123456789abcdef".toList

/-- The number that hexadecimal digits denote. -/
def hexValue (digits : List Char) : Nat :=
  digits.foldl (fun value digit => 16 * value + hexDigits.idxOf digit) 0

/-- The text is `0x` and the digits of the number without leading zeros. -/
structure IsHexNumeral (text : String) (digits : List Char) (number : Nat) : Prop where
  text_eq : text = "0x" ++ String.ofList digits
  hexadecimal : ∀ digit ∈ digits, digit ∈ hexDigits
  noLeadingZero : ∃ first rest, digits = first :: rest ∧ first ≠ '0'
  value_eq : hexValue digits = number

theorem digitChar_mem_hexDigits : ∀ digit < 16, digit.digitChar ∈ hexDigits := by decide

theorem idxOf_digitChar : ∀ digit < 16, hexDigits.idxOf digit.digitChar = digit := by decide

theorem digitChar_ne_zero : ∀ digit < 16, digit ≠ 0 → digit.digitChar ≠ '0' := by decide

theorem hexBlockNumber_isHexNumeral {number : Nat} (positive : 0 < number) :
    IsHexNumeral (hexBlockNumber number) (Nat.toDigits 16 number) number := by
  suffices digits : (∀ digit ∈ Nat.toDigits 16 number, digit ∈ hexDigits) ∧
      (∃ first rest, Nat.toDigits 16 number = first :: rest ∧ first ≠ '0') ∧
        hexValue (Nat.toDigits 16 number) = number from
    ⟨rfl, digits.1, digits.2.1, digits.2.2⟩
  -- The digits are produced from the last one, so the induction follows the quotients.
  induction number using Nat.strong_induction_on with
  | _ number inductionHypothesis =>
      rcases Nat.lt_or_ge number 16 with small | large
      · rw [Nat.toDigits_of_lt_base small]
        refine ⟨?_, ⟨_, [], rfl, digitChar_ne_zero number small (Nat.pos_iff_ne_zero.mp positive)⟩,
          ?_⟩
        · simpa using digitChar_mem_hexDigits number small
        · simpa [hexValue] using idxOf_digitChar number small
      · have remainder : number % 16 < 16 := Nat.mod_lt _ (by decide)
        obtain ⟨hexadecimal, ⟨first, rest, leading, nonzero⟩, value⟩ :=
          inductionHypothesis (number / 16) (by omega) (by omega)
        rw [Nat.toDigits_of_base_le (by decide) large]
        refine ⟨?_, ⟨first, rest ++ [(number % 16).digitChar], by simp [leading], nonzero⟩, ?_⟩
        · intro digit present
          rcases List.mem_append.mp present with earlier | last
          · exact hexadecimal digit earlier
          · rw [List.mem_singleton.mp last]
            exact digitChar_mem_hexDigits _ remainder
        · rw [hexValue] at value
          rw [hexValue, List.foldl_append, value, List.foldl_cons, List.foldl_nil,
            idxOf_digitChar _ remainder]
          omega

end BlockNumber

/-- In whatever order the objects are ranged over, the walk fails exactly if a node lies
more than 32 levels below the root, and otherwise replaces the strings equal to the tag
and nothing else. -/
theorem tag_substitution_exact {json ordered : Json} (reorders : ordered.Reorders json)
    (tag : String) {number : Nat} (positive : 0 < number) :
    ((∃ cause, replaceTagInParams tag number ordered 0 = .error cause) ↔
      ∃ path node, json.nodeAt path = some node ∧ 32 < path.length) ∧
    ∀ next changed, replaceTagInParams tag number ordered 0 = .ok (next, changed) →
      ∃ text digits, IsHexNumeral text digits number ∧ next.distinctNames ∧
        (∀ path, next.nodeAt path =
          (json.nodeAt path).map fun node => if node = .string tag then .string text else node) ∧
        (changed ↔ ∃ path, json.nodeAt path = some (.string tag)) := by
  have walk : WalkExact tag number ordered 0 := walkExact reorders.distinct 0
  have depth_iff : maxJSONDepth < 0 + ordered.height ↔
      ∃ path node, json.nodeAt path = some node ∧ 32 < path.length := by
    rw [Nat.zero_add, ← reorders.nodes]
    exact Json.le_height_iff reorders.distinct
  constructor
  · rw [← depth_iff]
    constructor
    · rintro ⟨cause, failed⟩
      by_contra within
      rw [walk.within (Nat.not_lt.mp within)] at failed
      cases failed
    · exact walk.beyond
  · intro next changed returned
    have within : 0 + ordered.height ≤ maxJSONDepth := by
      by_contra beyond
      obtain ⟨cause, failed⟩ := walk.beyond (Nat.not_le.mp beyond)
      rw [failed] at returned
      cases returned
    rw [walk.within within, Except.ok.injEq, Prod.mk.injEq] at returned
    obtain ⟨rfl, rfl⟩ := returned
    refine ⟨hexBlockNumber number, Nat.toDigits 16 number, hexBlockNumber_isHexNumeral positive,
      Json.distinctNames_replaceString _ _ reorders.distinct, ?_, ?_⟩
    · intro path
      rw [Json.nodeAt_replaceString, reorders.nodes]
      rfl
    · rw [← reorders.nodes]
      exact Json.hasString_iff tag reorders.distinct

/-- A tag below a member that is ranged over last. -/
theorem tag_substitution_exact_in_last_member :
    ∃ next text digits,
      replaceTagInParams "espresso" 255
        (.object [("to", .string "0x01"), ("block", .array [.string "espresso"])]) 0 =
          .ok (next, true) ∧
      IsHexNumeral text digits 255 ∧
      next.nodeAt [.name "block", .index 0] = some (.string text) := by
  have reorders : Json.Reorders
      (.object [("to", .string "0x01"), ("block", .array [.string "espresso"])])
      (.object [("block", .array [.string "espresso"]), ("to", .string "0x01")]) :=
    ⟨by decide, Json.nodeAt_perm (List.Perm.swap _ _ _) (by decide)⟩
  have correct := tag_substitution_exact reorders "espresso" (show 0 < 255 by decide)
  obtain ⟨text, digits, numeral, -, nodes, -⟩ := correct.2 _ _ rfl
  exact ⟨_, text, digits, rfl, numeral, nodes [.name "block", .index 0]⟩

end EspressoProxy.Proxy
