import Mathlib.Data.Nat.Digits.Lemmas

/-!
# Slices and big-endian words

A slice expression has a result only if its bounds are in range. A number is read from its
bytes with the most significant one first, and written with as many bytes as asked for.
-/

namespace EspressoProxy.Semantics

universe u

variable {α : Type u}

/-- The slice `values[first:stop]`, if its bounds are in range. -/
def slice? (first stop : Nat) (values : List α) : Option (List α) :=
  if first ≤ stop ∧ stop ≤ values.length then some ((values.drop first).take (stop - first))
  else none

theorem slice?_of_le {first stop : Nat} {values : List α} (ordered : first ≤ stop)
    (inRange : stop ≤ values.length) :
    slice? first stop values = some ((values.drop first).take (stop - first)) :=
  if_pos ⟨ordered, inRange⟩

/-- The elements with so many before them are the slice. -/
theorem take_drop_append (before middle after : List α) {first count : Nat}
    (beforeLength : before.length = first) (middleLength : middle.length = count) :
    ((before ++ (middle ++ after)).drop first).take count = middle := by
  subst beforeLength middleLength
  rw [List.drop_left, List.take_left]

/-- A slice has nothing but the elements between its bounds. -/
theorem take_drop_congr {left right : List α} {first count : Nat}
    (same : ∀ index, first ≤ index → index < first + count → left[index]? = right[index]?) :
    (left.drop first).take count = (right.drop first).take count := by
  apply List.ext_getElem?
  intro index
  simp only [List.getElem?_take, List.getElem?_drop]
  split
  · exact same (first + index) (by omega) (by omega)
  · rfl

/-- The number that the bytes spell, with the most significant byte first. -/
def readBE (bytes : List UInt8) : Nat := Nat.ofDigits 256 (bytes.reverse.map UInt8.toNat)

/-- The number in `width` bytes, with the most significant byte first. -/
def writeBE (width value : Nat) : List UInt8 :=
  ((Nat.digitsAppend 256 width value).map UInt8.ofNat).reverse

theorem length_writeBE {width value : Nat} (fits : value < 256 ^ width) :
    (writeBE width value).length = width := by
  simpa [writeBE] using Nat.length_digitsAppend (by decide) width fits

theorem readBE_writeBE (width value : Nat) : readBE (writeBE width value) = value := by
  have digits : ∀ digit ∈ Nat.digitsAppend 256 width value,
      (UInt8.toNat ∘ UInt8.ofNat) digit = digit := by
    intro digit member
    exact UInt8.toNat_ofNat_of_lt (Nat.lt_of_mem_digitsAppend (by decide) width digit member)
  rw [readBE, writeBE, List.reverse_reverse, List.map_map, List.map_congr_left digits,
    List.map_id', Nat.digitsAppend, Nat.ofDigits_append_replicate_zero, Nat.ofDigits_digits]

/-- In a wider word the number stands after zeros. -/
theorem writeBE_add (extra width : Nat) {value : Nat} (fits : value < 256 ^ width) :
    writeBE (extra + width) value = List.replicate extra 0 ++ writeBE width value := by
  have short : (Nat.digits 256 value).length ≤ width :=
    (Nat.digits_length_le_iff (by decide) value).mpr fits
  have zeros : extra + width - (Nat.digits 256 value).length =
      extra + (width - (Nat.digits 256 value).length) := by omega
  simp only [writeBE, Nat.digitsAppend, zeros, List.map_append, List.map_replicate,
    List.reverse_append, List.reverse_replicate]
  rw [List.replicate_add, List.append_assoc]
  rfl

end EspressoProxy.Semantics
