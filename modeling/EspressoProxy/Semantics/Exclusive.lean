import Mathlib.Data.List.Basic

/-!
# Threads of which one at a time is active

Threads are given by their phases, in a list. `Exclusive quiet threads active` says that
all of them are quiet except the one that `active` names, if it names one. The rules are
those of an exclusive section: a thread is spawned, enters, proceeds, leaves, or does
something outside the section.
-/

namespace EspressoProxy.Semantics

variable {Phase : Type} {quiet : Phase → Prop}

/-- Every thread but the active one is quiet. -/
structure Exclusive (quiet : Phase → Prop) (threads : List Phase)
    (active : Option (Nat × Phase)) : Prop where
  others : ∀ thread phase, threads[thread]? = some phase →
    quiet phase ∨ active = some (thread, phase)
  present : ∀ thread phase, active = some (thread, phase) →
    threads[thread]? = some phase ∧ ¬ quiet phase

namespace Exclusive

variable {threads : List Phase} {active : Option (Nat × Phase)} {thread : Nat}
  {before after : Phase}

theorem nil : Exclusive quiet [] none :=
  ⟨fun _ _ found => by simp at found, fun _ _ none => by cases none⟩

/-- A thread that is not quiet is the active one. -/
theorem eq_active (exclusive : Exclusive quiet threads active)
    (found : threads[thread]? = some before) (notQuiet : ¬ quiet before) :
    active = some (thread, before) :=
  (exclusive.others thread before found).resolve_left notQuiet

/-- Either nothing changed for a thread, or it is the one that moved. -/
theorem getElem?_set_cases {moved : Nat} {phase : Phase}
    (found : (threads.set moved after)[thread]? = some phase) :
    (thread = moved ∧ phase = after) ∨ (thread ≠ moved ∧ threads[thread]? = some phase) := by
  rw [List.getElem?_set] at found
  split at found
  · rename_i same
    split at found
    · exact .inl ⟨same.symm, (Option.some.inj found).symm⟩
    · cases found
  · rename_i different
    exact .inr ⟨fun same => different same.symm, found⟩

/-- A new thread is quiet. -/
theorem spawn (exclusive : Exclusive quiet threads active) (isQuiet : quiet after) :
    Exclusive quiet (threads ++ [after]) active := by
  constructor
  · intro other phase found
    rw [List.getElem?_append] at found
    split at found
    · exact exclusive.others other phase found
    · rw [List.getElem?_singleton] at found
      split at found
      · cases found
        exact .inl isQuiet
      · cases found
  · intro other phase named
    obtain ⟨found, notQuiet⟩ := exclusive.present other phase named
    obtain ⟨bound, -⟩ := List.getElem?_eq_some_iff.mp found
    rw [List.getElem?_append_left bound]
    exact ⟨found, notQuiet⟩

/-- A quiet thread does something that leaves it quiet. -/
theorem outside (exclusive : Exclusive quiet threads active)
    (found : threads[thread]? = some before) (wasQuiet : quiet before) (isQuiet : quiet after) :
    Exclusive quiet (threads.set thread after) active := by
  constructor
  · intro other phase updated
    rcases getElem?_set_cases updated with ⟨-, rfl⟩ | ⟨-, old⟩
    · exact .inl isQuiet
    · exact exclusive.others other phase old
  · intro other phase named
    obtain ⟨old, notQuiet⟩ := exclusive.present other phase named
    have different : thread ≠ other := by
      rintro rfl
      cases found.symm.trans old
      exact notQuiet wasQuiet
    rw [List.getElem?_set_ne different]
    exact ⟨old, notQuiet⟩

/-- The thread that moves is active afterwards, if no other one was. -/
theorem activate (exclusive : Exclusive quiet threads active)
    (found : threads[thread]? = some before)
    (own : ∀ other phase, active = some (other, phase) → other = thread)
    (notQuiet : ¬ quiet after) :
    Exclusive quiet (threads.set thread after) (some (thread, after)) := by
  obtain ⟨bound, -⟩ := List.getElem?_eq_some_iff.mp found
  constructor
  · intro other phase updated
    rcases getElem?_set_cases updated with ⟨rfl, rfl⟩ | ⟨different, old⟩
    · exact .inr rfl
    · rcases exclusive.others other phase old with isQuiet | named
      · exact .inl isQuiet
      · exact absurd (own other phase named) different
  · rintro other phase ⟨⟩
    exact ⟨List.getElem?_set_self bound, notQuiet⟩

/-- The active thread becomes quiet. -/
theorem leave (exclusive : Exclusive quiet threads (some (thread, before)))
    (isQuiet : quiet after) : Exclusive quiet (threads.set thread after) none := by
  constructor
  · intro other phase updated
    rcases getElem?_set_cases updated with ⟨-, rfl⟩ | ⟨different, old⟩
    · exact .inl isQuiet
    · rcases exclusive.others other phase old with quiet | named
      · exact .inl quiet
      · cases named
        exact absurd rfl different
  · intro other phase named
    cases named

end Exclusive
end EspressoProxy.Semantics
