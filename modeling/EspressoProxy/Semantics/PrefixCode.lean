import Mathlib.Logic.Function.Basic

/-!
# Codes that can be written one after the other

A code is prefix-free if nothing that follows a word can be taken for a part of it. Such codes
are injective, and words of several of them can be joined without separators.
-/

namespace EspressoProxy.Semantics

universe u v w

variable {α : Type u} {β : Type v} {γ : Type w} {write : α → List β}

def PrefixFree (write : α → List β) : Prop :=
  ∀ first second rest others, write first ++ rest = write second ++ others →
    first = second ∧ rest = others

theorem PrefixFree.injective (free : PrefixFree write) : Function.Injective write := by
  intro first second same
  exact (free first second [] [] (congrArg (· ++ []) same)).1

/-- A value can be written by what determines it. -/
theorem PrefixFree.comap (free : PrefixFree write) (view : γ → α)
    (injective : Function.Injective view) : PrefixFree fun value => write (view value) := by
  intro first second rest others same
  obtain ⟨viewed, following⟩ := free _ _ _ _ same
  exact ⟨injective viewed, following⟩

/-- Two words one after the other. -/
theorem PrefixFree.append (free : PrefixFree write) {writeOther : γ → List β}
    (freeOther : PrefixFree writeOther) :
    PrefixFree fun pair : α × γ => write pair.1 ++ writeOther pair.2 := by
  rintro ⟨first, firstOther⟩ ⟨second, secondOther⟩ rest others same
  simp only [List.append_assoc] at same
  obtain ⟨rfl, following⟩ := free _ _ _ _ same
  obtain ⟨rfl, last⟩ := freeOther _ _ _ _ following
  exact ⟨rfl, last⟩

theorem prefixFree_singleton : PrefixFree fun value : α => [value] := by
  intro first second rest others same
  exact List.cons.inj same

/-- A list, with a mark before each element and another one at the end. -/
def writeList (more stop : β) (write : α → List β) : List α → List β
  | [] => [stop]
  | value :: rest => more :: (write value ++ writeList more stop write rest)

theorem PrefixFree.list (free : PrefixFree write) {more stop : β} (different : more ≠ stop) :
    PrefixFree (writeList more stop write) := by
  intro first
  induction first with
  | nil =>
      intro second rest others same
      cases second with
      | nil => exact ⟨rfl, (List.cons.inj same).2⟩
      | cons value values => exact absurd (List.cons.inj same).1.symm different
  | cons value values inductionHypothesis =>
      intro second rest others same
      cases second with
      | nil => exact absurd (List.cons.inj same).1 different
      | cons other remaining =>
          have tails : write value ++ (writeList more stop write values ++ rest) =
              write other ++ (writeList more stop write remaining ++ others) := by
            simpa [writeList] using same
          obtain ⟨rfl, following⟩ := free _ _ _ _ tails
          obtain ⟨rfl, last⟩ := inductionHypothesis _ _ _ following
          exact ⟨rfl, last⟩

end EspressoProxy.Semantics
