import Mathlib.Data.List.Nodup
import Mathlib.Order.MinMax
import EspressoProxy.JsonRpc.Types

/-!
# JSON values as trees

A JSON value denotes what each of its paths leads to. Objects are unordered here,
and where a member name occurs twice the last occurrence counts, as it does for
`encoding/json`. The walks over a value are instances of one fold, and each is
characterised by the paths.
-/

namespace EspressoProxy.JsonRpc

section Members

variable {α β : Type}

/-- The value of the last member with the name. -/
def lookup (name : String) : List (String × α) → Option α
  | [] => none
  | (key, value) :: rest => (lookup name rest).or (if key = name then some value else none)

def names (members : List (String × α)) : List String := members.map Prod.fst

@[simp] theorem names_cons (member : String × α) (rest : List (String × α)) :
    names (member :: rest) = member.1 :: names rest := rfl

@[simp] theorem names_map (f : α → β) (members : List (String × α)) :
    names (members.map fun member => (member.1, f member.2)) = names members := by
  simp [names, Function.comp_def]

theorem lookup_map (f : α → β) (name : String) (members : List (String × α)) :
    lookup name (members.map fun member => (member.1, f member.2)) =
      (lookup name members).map f := by
  induction members with
  | nil => rfl
  | cons member rest inductionHypothesis =>
      by_cases same : member.1 = name
      · simp [lookup, inductionHypothesis, same]
      · simp [lookup, inductionHypothesis, same]

theorem mem_of_lookup {name : String} {members : List (String × α)} {value : α}
    (found : lookup name members = some value) : (name, value) ∈ members := by
  induction members with
  | nil => cases found
  | cons member rest inductionHypothesis =>
      rcases Option.or_eq_some_iff.mp found with later | ⟨-, here⟩
      · exact List.mem_cons_of_mem _ (inductionHypothesis later)
      · obtain ⟨rfl, same⟩ := Option.ite_none_right_eq_some.mp here
        rw [← Option.some.inj same]
        exact List.mem_cons_self

theorem lookup_eq_none_iff {name : String} {members : List (String × α)} :
    lookup name members = none ↔ name ∉ names members := by
  induction members with
  | nil => simp [lookup, names]
  | cons member rest inductionHypothesis =>
      by_cases same : member.1 = name
      · simp [lookup, same]
      · simp [lookup, same, inductionHypothesis, Ne.symm same]

/-- Where the names are distinct, every member is found under its name. -/
theorem lookup_eq_some_iff {name : String} {members : List (String × α)} {value : α}
    (distinct : (names members).Nodup) :
    lookup name members = some value ↔ (name, value) ∈ members := by
  refine ⟨mem_of_lookup, ?_⟩
  induction members with
  | nil => simp
  | cons member rest inductionHypothesis =>
      obtain ⟨fresh, distinctRest⟩ := List.nodup_cons.mp distinct
      intro present
      rcases List.mem_cons.mp present with rfl | later
      · simp [lookup, lookup_eq_none_iff.mpr fresh]
      · simp [lookup, inductionHypothesis distinctRest later]

theorem lookup_append (name : String) (front back : List (String × α)) :
    lookup name (front ++ back) = (lookup name back).or (lookup name front) := by
  induction front with
  | nil => simp [lookup]
  | cons member rest inductionHypothesis =>
      rw [List.cons_append, lookup, inductionHypothesis, lookup, Option.or_assoc]

theorem lookup_filter (keep : String → Bool) (name : String) (members : List (String × α)) :
    lookup name (members.filter fun member => keep member.1) =
      if keep name then lookup name members else none := by
  induction members with
  | nil => simp [lookup]
  | cons member rest inductionHypothesis =>
      by_cases same : member.1 = name
      · subst same
        by_cases kept : keep member.1
        · simp [lookup, kept, inductionHypothesis]
        · simp [kept, inductionHypothesis]
      · by_cases kept : keep member.1
        · simp [lookup, kept, inductionHypothesis, same]
        · simp [lookup, kept, inductionHypothesis, same]

theorem mem_names_iff {name : String} {members : List (String × α)} :
    name ∈ names members ↔ (lookup name members).isSome := by
  rw [← not_iff_not, ← lookup_eq_none_iff, Option.not_isSome_iff_eq_none]

/-- The members that no later one hides. -/
def lastOf : List (String × α) → List (String × α)
  | [] => []
  | member :: rest => if member.1 ∈ names rest then lastOf rest else member :: lastOf rest

theorem mem_names_lastOf {name : String} {members : List (String × α)} :
    name ∈ names (lastOf members) ↔ name ∈ names members := by
  induction members with
  | nil => rfl
  | cons member rest inductionHypothesis =>
      by_cases hidden : member.1 ∈ names rest
      · rw [lastOf, if_pos hidden, inductionHypothesis, names_cons, List.mem_cons,
          or_iff_right_of_imp]
        rintro rfl
        exact hidden
      · rw [lastOf, if_neg hidden, names_cons, names_cons, List.mem_cons, List.mem_cons,
          inductionHypothesis]

theorem names_lastOf_nodup (members : List (String × α)) : (names (lastOf members)).Nodup := by
  induction members with
  | nil => exact List.nodup_nil
  | cons member rest inductionHypothesis =>
      by_cases hidden : member.1 ∈ names rest
      · rwa [lastOf, if_pos hidden]
      · rw [lastOf, if_neg hidden, names_cons, List.nodup_cons, mem_names_lastOf]
        exact ⟨hidden, inductionHypothesis⟩

theorem lookup_lastOf (name : String) (members : List (String × α)) :
    lookup name (lastOf members) = lookup name members := by
  induction members with
  | nil => rfl
  | cons member rest inductionHypothesis =>
      by_cases hidden : member.1 ∈ names rest
      · rw [lastOf, if_pos hidden, inductionHypothesis, lookup]
        cases later : lookup name rest with
        | some value => rfl
        | none =>
            have other : member.1 ≠ name := by
              rintro rfl
              exact lookup_eq_none_iff.mp later hidden
            rw [if_neg other, Option.or_none]
      · rw [lastOf, if_neg hidden, lookup, lookup, inductionHypothesis]

theorem mem_of_mem_lastOf {member : String × α} {members : List (String × α)}
    (kept : member ∈ lastOf members) : member ∈ members := by
  induction members with
  | nil => cases kept
  | cons first rest inductionHypothesis =>
      rw [lastOf] at kept
      split at kept
      · exact List.mem_cons_of_mem _ (inductionHypothesis kept)
      · rcases List.mem_cons.mp kept with rfl | later
        · exact List.mem_cons_self
        · exact List.mem_cons_of_mem _ (inductionHypothesis later)

theorem lookup_perm {members reordered : List (String × α)} (permuted : reordered.Perm members)
    (distinct : (names members).Nodup) (name : String) :
    lookup name reordered = lookup name members := by
  have distinctReordered : (names reordered).Nodup := (permuted.map _).nodup_iff.mpr distinct
  ext value
  rw [lookup_eq_some_iff distinctReordered, lookup_eq_some_iff distinct]
  exact permuted.mem_iff

end Members

namespace Json

/-- The values directly below the root. -/
def children : Json → List Json
  | .array items => items
  | .object members => members.map Prod.snd
  | _ => []

/-- Induction over the nesting: what holds of a value whenever it holds of the values
directly below it holds of every value. -/
theorem induction {P : Json → Prop}
    (step : ∀ json, (∀ nested ∈ json.children, P nested) → P json) (json : Json) : P json := by
  refine @Json.rec P (fun items => ∀ item ∈ items, P item)
    (fun members => ∀ nested ∈ members.map Prod.snd, P nested) (fun member => P member.2)
    ?null ?bool ?number ?string ?array ?object ?noItem ?item ?noMember ?member ?value json
  case null => exact step .null (List.forall_mem_nil P)
  case bool => exact fun value => step (.bool value) (List.forall_mem_nil P)
  case number => exact fun literal => step (.number literal) (List.forall_mem_nil P)
  case string => exact fun text => step (.string text) (List.forall_mem_nil P)
  case array => exact fun items below => step (.array items) below
  case object => exact fun members below => step (.object members) below
  case noItem => exact List.forall_mem_nil P
  case item => exact fun _ _ head tail => List.forall_mem_cons.mpr ⟨head, tail⟩
  case noMember => exact List.forall_mem_nil P
  case member => exact fun _ _ head tail => List.forall_mem_cons.mpr ⟨head, tail⟩
  case value => exact fun _ _ holds => holds

section Fold

variable {α : Type} (leaf : Json → α) (array : List α → α) (object : List (String × α) → α)

mutual

/-- Evaluate a value from its leaves upwards. -/
def fold : Json → α
  | .array items => array (foldItems items)
  | .object members => object (foldMembers members)
  | .null => leaf .null
  | .bool value => leaf (.bool value)
  | .number literal => leaf (.number literal)
  | .string text => leaf (.string text)

def foldItems : List Json → List α
  | [] => []
  | item :: rest => fold item :: foldItems rest

def foldMembers : List (String × Json) → List (String × α)
  | [] => []
  | (name, value) :: rest => (name, fold value) :: foldMembers rest

end

theorem fold_array (items : List Json) :
    (Json.array items).fold leaf array object = array (items.map (fold leaf array object)) := by
  have mapped : foldItems leaf array object items = items.map (fold leaf array object) := by
    induction items with
    | nil => rfl
    | cons item rest inductionHypothesis => rw [foldItems, inductionHypothesis, List.map_cons]
  rw [fold, mapped]

theorem fold_object (members : List (String × Json)) :
    (Json.object members).fold leaf array object =
      object (members.map fun member => (member.1, member.2.fold leaf array object)) := by
  have mapped : foldMembers leaf array object members =
      members.map fun member => (member.1, member.2.fold leaf array object) := by
    induction members with
    | nil => rfl
    | cons member rest inductionHypothesis => rw [foldMembers, inductionHypothesis, List.map_cons]
  rw [fold, mapped]

end Fold

section Paths

/-- One step down into a value. -/
inductive PathStep where
  | name (name : String)
  | index (index : Nat)
deriving DecidableEq, Repr

/-- What a value is at its root, without what is nested in it. -/
inductive Node where
  | null
  | bool (value : Bool)
  | number (literal : String)
  | string (text : String)
  | array (length : Nat)
  | object
deriving DecidableEq, Repr

def node : Json → Node
  | .null => .null
  | .bool value => .bool value
  | .number literal => .number literal
  | .string text => .string text
  | .array items => .array items.length
  | .object _ => .object

def child : Json → PathStep → Option Json
  | .array items, .index index => items[index]?
  | .object members, .name name => lookup name members
  | _, _ => none

/-- What the path leads to. Two values have the same nodes if they differ at most in
the order of the members of objects and in members that later ones hide. -/
def nodeAt : Json → List PathStep → Option Node
  | json, [] => some json.node
  | json, step :: rest => (json.child step).bind fun nested => nested.nodeAt rest

theorem node_eq_null_iff {json : Json} : json.node = .null ↔ json = .null := by
  cases json <;> simp [node]

/-- A value without others nested in it. -/
def isScalar : Json → Bool
  | .array _ | .object _ => false
  | _ => true

theorem eq_of_node {json scalar : Json} (isScalar : scalar.isScalar)
    (same : json.node = scalar.node) : json = scalar := by
  cases scalar <;> cases json <;> simp_all [node, Json.isScalar]

theorem exists_members_of_node {json : Json} (isObject : json.node = .object) :
    ∃ members, json = .object members := by
  cases json with
  | object members => exact ⟨members, rfl⟩
  | _ => cases isObject

theorem mem_names_iff_nodeAt {name : String} {members : List (String × Json)} :
    name ∈ names members ↔ ((Json.object members).nodeAt [.name name]).isSome := by
  rw [mem_names_iff, nodeAt, child]
  cases lookup name members <;> rfl

/-- The rule for walks: a walk that relabels the root and acts on the children relabels
every node. -/
theorem nodeAt_walk (admissible : Json → Prop) {walk : Json → Json} {relabel : Node → Node}
    (root : ∀ json, admissible json → (walk json).node = relabel json.node)
    (below : ∀ json step, admissible json → (walk json).child step = (json.child step).map walk)
    (inherited : ∀ json step nested, admissible json → json.child step = some nested →
      admissible nested)
    (json : Json) (start : admissible json) (path : List PathStep) :
    (walk json).nodeAt path = (json.nodeAt path).map relabel := by
  induction path generalizing json with
  | nil => simp [nodeAt, root json start]
  | cons step rest inductionHypothesis =>
      rw [nodeAt, nodeAt, below json step start]
      cases nested : json.child step with
      | none => rfl
      | some value =>
          simpa using inductionHypothesis value (inherited json step value start nested)

/-- Optional values have the same nodes if every path leads to the same node in both. -/
theorem map_nodeAt_eq_iff {first second : Option Json} :
    first.map nodeAt = second.map nodeAt ↔
      ∀ path, first.bind (nodeAt · path) = second.bind (nodeAt · path) := by
  cases first with
  | none =>
      cases second with
      | none => simp
      | some value => simpa using ⟨[], by simp [nodeAt]⟩
  | some value =>
      cases second with
      | none => simpa using ⟨[], by simp [nodeAt]⟩
      | some other => simp [funext_iff]

/-- Two objects with the same nodes have the same nodes under every name. -/
theorem map_nodeAt_lookup {members others : List (String × Json)}
    (same : (Json.object members).nodeAt = (Json.object others).nodeAt) (name : String) :
    (lookup name members).map nodeAt = (lookup name others).map nodeAt :=
  map_nodeAt_eq_iff.mpr fun path => congrFun same (.name name :: path)

theorem nodeAt_object_congr {members others : List (String × Json)}
    (same : ∀ name, (lookup name members).map nodeAt = (lookup name others).map nodeAt) :
    (Json.object members).nodeAt = (Json.object others).nodeAt := by
  funext path
  cases path with
  | nil => rfl
  | cons step rest =>
      cases step with
      | index index => rfl
      | name name =>
          have below := congrArg (Option.bind · fun nodes => nodes rest) (same name)
          simp only [Option.bind_map] at below
          exact below

theorem nodeAt_perm {members reordered : List (String × Json)}
    (permuted : reordered.Perm members) (distinct : (names members).Nodup) :
    (Json.object reordered).nodeAt = (Json.object members).nodeAt :=
  nodeAt_object_congr fun name =>
    congrArg (Option.map nodeAt) (lookup_perm permuted distinct name)

end Paths

section Distinct

/-- No object of the value has two members of one name, as in a Go map. -/
def distinctNames : Json → Bool :=
  fold (fun _ => true) (fun items => items.all id)
    (fun members => decide (names members).Nodup && members.all Prod.snd)

/-- `ordered` is `json` with the members of its objects in another order, such as the one
in which a program ranges over them. -/
structure Reorders (ordered json : Json) : Prop where
  distinct : ordered.distinctNames
  nodes : ordered.nodeAt = json.nodeAt

theorem distinctNames_array {items : List Json} :
    (Json.array items).distinctNames ↔ ∀ item ∈ items, item.distinctNames := by
  simp [distinctNames, fold_array]

theorem distinctNames_object {members : List (String × Json)} :
    (Json.object members).distinctNames ↔
      (names members).Nodup ∧ ∀ member ∈ members, member.2.distinctNames := by
  simp [distinctNames, fold_object]

theorem distinctNames_of_mem_children {json nested : Json} (distinct : json.distinctNames)
    (below : nested ∈ json.children) : nested.distinctNames := by
  unfold children at below
  split at below
  · exact distinctNames_array.mp distinct nested below
  · obtain ⟨member, present, rfl⟩ := List.mem_map.mp below
    exact (distinctNames_object.mp distinct).2 member present
  · cases below

theorem mem_children_of_child {json nested : Json} {step : PathStep}
    (found : json.child step = some nested) : nested ∈ json.children := by
  unfold child at found
  split at found
  · exact List.mem_of_getElem? found
  · exact List.mem_map_of_mem (f := Prod.snd) (mem_of_lookup found)
  · cases found

theorem exists_child_of_mem_children {json nested : Json} (distinct : json.distinctNames)
    (below : nested ∈ json.children) : ∃ step, json.child step = some nested := by
  unfold children at below
  split at below
  · obtain ⟨index, found⟩ := List.mem_iff_getElem?.mp below
    exact ⟨.index index, found⟩
  · obtain ⟨⟨name, value⟩, present, rfl⟩ := List.mem_map.mp below
    exact ⟨.name name, (lookup_eq_some_iff (distinctNames_object.mp distinct).1).mpr present⟩
  · cases below

/-- A property of nodes holds somewhere in the value if it holds at the root or in one
of the values below it. -/
theorem exists_nodeAt_iff {json : Json} (distinct : json.distinctNames)
    (property : Nat → Node → Prop) :
    (∃ path node, json.nodeAt path = some node ∧ property path.length node) ↔
      property 0 json.node ∨ ∃ nested ∈ json.children, ∃ path node,
        nested.nodeAt path = some node ∧ property (path.length + 1) node := by
  constructor
  · rintro ⟨path, node, leads, holds⟩
    cases path with
    | nil =>
        rw [nodeAt, Option.some.injEq] at leads
        exact .inl (leads ▸ holds)
    | cons step rest =>
        obtain ⟨nested, found, leads⟩ := Option.bind_eq_some_iff.mp leads
        exact .inr ⟨nested, mem_children_of_child found, rest, node, leads, holds⟩
  · rintro (holds | ⟨nested, below, path, node, leads, holds⟩)
    · exact ⟨[], json.node, rfl, holds⟩
    · obtain ⟨step, found⟩ := exists_child_of_mem_children distinct below
      refine ⟨step :: path, node, ?_, holds⟩
      rw [nodeAt, found]
      exact leads

end Distinct

section Height

/-- The number of levels below the root. -/
def height : Json → Nat :=
  fold (fun _ => 0) (fun heights => (heights.map (· + 1)).foldr max 0)
    (fun members => (members.map fun member => member.2 + 1).foldr max 0)

theorem le_foldr_max {bound : Nat} {heights : List Nat} :
    bound + 1 ≤ heights.foldr max 0 ↔ ∃ height ∈ heights, bound + 1 ≤ height := by
  induction heights with
  | nil => simp
  | cons height rest inductionHypothesis =>
      rw [List.foldr_cons, le_max_iff, inductionHypothesis]
      simp

theorem le_height_iff_children {bound : Nat} {json : Json} :
    bound + 1 ≤ json.height ↔ ∃ nested ∈ json.children, bound ≤ nested.height := by
  cases json with
  | array items =>
      rw [height, fold_array, le_foldr_max]
      simp [children]
  | object members =>
      rw [height, fold_object, le_foldr_max]
      simp [children, -Prod.exists]
  | _ => simp [height, fold, children]

theorem length_le_height {json : Json} {path : List PathStep} {node : Node}
    (leads : json.nodeAt path = some node) : path.length ≤ json.height := by
  induction path generalizing json with
  | nil => exact Nat.zero_le _
  | cons step rest inductionHypothesis =>
      obtain ⟨nested, found, leads⟩ := Option.bind_eq_some_iff.mp leads
      exact le_height_iff_children.mpr
        ⟨nested, mem_children_of_child found, inductionHypothesis leads⟩

theorem le_height_iff {json : Json} (distinct : json.distinctNames) {bound : Nat} :
    bound ≤ json.height ↔
      ∃ path node, json.nodeAt path = some node ∧ bound ≤ path.length := by
  induction json using Json.induction generalizing bound with
  | step json inductionHypothesis =>
      rw [exists_nodeAt_iff distinct fun length _ => bound ≤ length]
      cases bound with
      | zero => simp
      | succ bound =>
          rw [le_height_iff_children, or_iff_right (Nat.not_succ_le_zero bound)]
          simp only [Nat.add_le_add_iff_right]
          refine exists_congr fun nested => and_congr_right fun below => ?_
          exact inductionHypothesis nested below (distinctNames_of_mem_children distinct below)

end Height

section Strings

/-- Replace every string value equal to `tag` by `text`. -/
def replaceString (tag text : String) : Json → Json :=
  fold
    (fun leaf => match leaf with
      | .string found => .string (if found = tag then text else found)
      | other => other)
    .array .object

/-- Whether some string value equals `tag`. -/
def hasString (tag : String) : Json → Bool :=
  fold
    (fun leaf => match leaf with
      | .string found => found = tag
      | _ => false)
    (fun items => items.any id) (fun members => members.any Prod.snd)

def Node.replaceString (tag text : String) (node : Node) : Node :=
  if node = .string tag then .string text else node

variable (tag text : String)

theorem replaceString_array (items : List Json) :
    (Json.array items).replaceString tag text =
      .array (items.map (Json.replaceString tag text)) :=
  fold_array ..

theorem replaceString_object (members : List (String × Json)) :
    (Json.object members).replaceString tag text =
      .object (members.map fun member => (member.1, member.2.replaceString tag text)) :=
  fold_object ..

theorem nodeAt_replaceString (json : Json) (path : List PathStep) :
    (json.replaceString tag text).nodeAt path =
      (json.nodeAt path).map (Node.replaceString tag text) := by
  refine nodeAt_walk (fun _ => True) ?_ ?_ (fun _ _ _ _ _ => trivial) json trivial path
  · intro json _
    cases json with
    | array items => simp [replaceString_array, node, Node.replaceString]
    | object members => simp [replaceString_object, node, Node.replaceString]
    | string found =>
        by_cases same : found = tag
        · simp [replaceString, fold, node, Node.replaceString, same]
        · simp [replaceString, fold, node, Node.replaceString, same]
    | _ => simp [replaceString, fold, node, Node.replaceString]
  · intro json step _
    cases json with
    | array items =>
        cases step with
        | index index => simp [replaceString_array, child]
        | name name => simp [replaceString_array, child]
    | object members =>
        cases step with
        | index index => simp [replaceString_object, child]
        | name name =>
            rw [replaceString_object]
            exact lookup_map _ name members
    | _ => rfl

theorem hasString_array (items : List Json) :
    (Json.array items).hasString tag = items.any (Json.hasString tag) := by
  simp [hasString, fold_array]

theorem hasString_object (members : List (String × Json)) :
    (Json.object members).hasString tag = members.any fun member => member.2.hasString tag := by
  simp [hasString, fold_object, Function.comp_def]

theorem hasString_iff_children {json : Json} :
    json.hasString tag ↔
      json.node = .string tag ∨ ∃ nested ∈ json.children, nested.hasString tag := by
  cases json with
  | array items => simp [hasString_array, node, children]
  | object members => simp [hasString_object, node, children, -Prod.exists]
  | _ => simp [hasString, fold, node, children]

theorem hasString_iff {json : Json} (distinct : json.distinctNames) :
    json.hasString tag ↔ ∃ path, json.nodeAt path = some (.string tag) := by
  have somewhere : (∃ path, json.nodeAt path = some (.string tag)) ↔
      ∃ path node, json.nodeAt path = some node ∧ node = .string tag := by simp
  rw [somewhere]
  induction json using Json.induction with
  | step json inductionHypothesis =>
      rw [hasString_iff_children, exists_nodeAt_iff distinct fun _ node => node = .string tag]
      refine or_congr_right (exists_congr fun nested => and_congr_right fun below => ?_)
      have nestedDistinct := distinctNames_of_mem_children distinct below
      exact inductionHypothesis nested below nestedDistinct (by simp)

/-- A value without the string stays as it is. -/
theorem replaceString_of_not_hasString {json : Json} (absent : json.hasString tag = false) :
    json.replaceString tag text = json := by
  induction json using Json.induction with
  | step json inductionHypothesis =>
      cases json with
      | array items =>
          rw [hasString_array, List.any_eq_false] at absent
          have unchanged : ∀ item ∈ items, item.replaceString tag text = item :=
            fun item present =>
              inductionHypothesis item present (by simpa using absent item present)
          rw [replaceString_array, List.map_congr_left unchanged, List.map_id']
      | object members =>
          rw [hasString_object, List.any_eq_false] at absent
          have unchanged : ∀ member ∈ members,
              (member.1, member.2.replaceString tag text) = member :=
            fun member present => Prod.ext rfl
              (inductionHypothesis member.2 (List.mem_map_of_mem present)
                (by simpa using absent member present))
          rw [replaceString_object, List.map_congr_left unchanged, List.map_id']
      | string found =>
          have other : found ≠ tag := by simpa [hasString, fold] using absent
          simp [replaceString, fold, other]
      | _ => rfl

theorem distinctNames_replaceString {json : Json} (distinct : json.distinctNames) :
    (json.replaceString tag text).distinctNames := by
  induction json using Json.induction with
  | step json inductionHypothesis =>
      have nested := fun nested below =>
        inductionHypothesis nested below (distinctNames_of_mem_children distinct below)
      cases json with
      | array items =>
          rw [replaceString_array, distinctNames_array]
          exact List.forall_mem_map.mpr nested
      | object members =>
          rw [replaceString_object, distinctNames_object, names_map]
          refine ⟨(distinctNames_object.mp distinct).1, List.forall_mem_map.mpr ?_⟩
          exact List.forall_mem_map.mp nested
      | _ => rfl

end Strings

section Decode

/-- The value as a Go `any`: in every object the last member of a name remains. -/
def decodeAny : Json → Json :=
  fold id .array fun members => .object (lastOf members)

theorem decodeAny_array (items : List Json) :
    (Json.array items).decodeAny = .array (items.map decodeAny) :=
  fold_array ..

theorem decodeAny_object (members : List (String × Json)) :
    (Json.object members).decodeAny =
      .object (lastOf (members.map fun member => (member.1, member.2.decodeAny))) :=
  fold_object ..

theorem distinctNames_decodeAny (json : Json) : json.decodeAny.distinctNames := by
  induction json using Json.induction with
  | step json inductionHypothesis =>
      cases json with
      | array items =>
          rw [decodeAny_array, distinctNames_array]
          exact List.forall_mem_map.mpr inductionHypothesis
      | object members =>
          rw [decodeAny_object, distinctNames_object]
          refine ⟨names_lastOf_nodup _, fun member kept => ?_⟩
          obtain ⟨decoded, present, rfl⟩ := List.mem_map.mp (mem_of_mem_lastOf kept)
          exact inductionHypothesis decoded.2 (List.mem_map_of_mem present)
      | _ => rfl

theorem nodeAt_decodeAny (json : Json) (path : List PathStep) :
    json.decodeAny.nodeAt path = json.nodeAt path := by
  have walked := @nodeAt_walk (fun _ => True) decodeAny id ?_ ?_ (fun _ _ _ _ _ => trivial) json
    trivial path
  · rw [walked, Option.map_id, id]
  · intro json _
    cases json with
    | array items => simp [decodeAny_array, node]
    | object members => simp [decodeAny_object, node]
    | _ => rfl
  · intro json step _
    cases json with
    | array items =>
        cases step with
        | index index => simp [decodeAny_array, child]
        | name name => simp [decodeAny_array, child]
    | object members =>
        cases step with
        | index index => simp [decodeAny_object, child]
        | name name =>
            rw [decodeAny_object]
            exact (lookup_lastOf name _).trans (lookup_map _ name members)
    | _ => rfl

theorem replaceString_eq_null_iff {tag text : String} {json : Json} :
    json.replaceString tag text = .null ↔ json = .null := by
  cases json with
  | array items => simp [replaceString_array]
  | object members => simp [replaceString_object]
  | null | bool | number | string => simp [replaceString, fold]

theorem nodeAt_replaceString_decodeAny (tag text : String) (json : Json) :
    (json.decodeAny.replaceString tag text).nodeAt = (json.replaceString tag text).nodeAt := by
  funext path
  rw [nodeAt_replaceString, nodeAt_replaceString, nodeAt_decodeAny]

theorem map_nodeAt_decodeAny (value : Option Json) :
    (value.map decodeAny).map nodeAt = value.map nodeAt := by
  rw [Option.map_map]
  exact congrFun (congrArg Option.map (funext fun json => funext json.nodeAt_decodeAny)) value

end Decode

end Json
end EspressoProxy.JsonRpc
