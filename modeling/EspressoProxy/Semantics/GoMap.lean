import Mathlib.Data.List.AList

/-!
# Maps with the operations of Go's built-in maps

A `GoMap` is a finite map that can be read, assigned, deleted from and ranged
over. The order in which `values` lists the entries is the order of the list that
represents the map; no result below depends on it.
-/

namespace EspressoProxy.Semantics

/-- A finite map from `K` to `V`. A missing key reads as `none`, Go's `nil`. -/
abbrev GoMap (K V : Type) := AList fun _ : K => V

namespace GoMap

variable {K V : Type} [DecidableEq K]

/-- The map expression `m[key]`. -/
def get (map : GoMap K V) (key : K) : Option V := AList.lookup key map

/-- The assignment `m[key] = value`. -/
def set (map : GoMap K V) (key : K) (value : V) : GoMap K V := AList.insert key value map

/-- The statement `delete(m, key)`. -/
def delete (map : GoMap K V) (key : K) : GoMap K V := AList.erase key map

/-- A loop that deletes every key of a list. -/
def deleteAll (map : GoMap K V) (keys : List K) : GoMap K V := keys.foldl delete map

omit [DecidableEq K] in
/-- The values a `range` loop visits. -/
def values (map : GoMap K V) : List V := map.entries.map Sigma.snd

@[simp] theorem get_empty (key : K) : get (∅ : GoMap K V) key = none :=
  AList.lookup_empty key

@[simp] theorem get_set_self (map : GoMap K V) (key : K) (value : V) :
    (map.set key value).get key = some value :=
  AList.lookup_insert map

theorem get_set_of_ne (map : GoMap K V) {key other : K} (value : V) (different : key ≠ other) :
    (map.set other value).get key = map.get key :=
  AList.lookup_insert_ne different

theorem get_set (map : GoMap K V) (key other : K) (value : V) :
    (map.set other value).get key = if key = other then some value else map.get key := by
  by_cases same : key = other
  · subst same
    simp
  · simp [same, get_set_of_ne]

theorem get_delete (map : GoMap K V) (key other : K) :
    (map.delete other).get key = if key = other then none else map.get key := by
  by_cases same : key = other
  · subst same
    rw [if_pos rfl]
    exact AList.lookup_erase key map
  · rw [if_neg same]
    exact AList.lookup_erase_ne same

theorem get_deleteAll (map : GoMap K V) (keys : List K) (key : K) :
    (map.deleteAll keys).get key = if key ∈ keys then none else map.get key := by
  induction keys generalizing map with
  | nil => simp [deleteAll]
  | cons first rest inductionHypothesis =>
      have unfolded : map.deleteAll (first :: rest) = (map.delete first).deleteAll rest := rfl
      rw [unfolded, inductionHypothesis, get_delete]
      by_cases inRest : key ∈ rest
      · simp [inRest]
      · simp [inRest, List.mem_cons]

/-- Every value that can be read is visited by a `range` loop. -/
theorem mem_values_of_get {map : GoMap K V} {key : K} {value : V}
    (found : map.get key = some value) : value ∈ map.values := by
  have entry : Sigma.mk key value ∈ map.entries := AList.mem_lookup_iff.mp found
  exact List.mem_map.mpr ⟨_, entry, rfl⟩

end GoMap
end EspressoProxy.Semantics
