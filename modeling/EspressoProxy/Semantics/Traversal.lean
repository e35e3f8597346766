import Mathlib.Data.List.Forall2

/-!
# Going through a list

A traversal whose steps may fail either has a result for each element or stops at one.
`List.Forall₂` is the relation between the elements and their results.
-/

namespace EspressoProxy.Semantics

variable {ε α β : Type}

theorem mapM_cases {f : α → Except ε β} (xs : List α) :
    (∃ ys, xs.mapM f = .ok ys ∧ List.Forall₂ (fun x y => f x = .ok y) xs ys) ∨
      ∃ cause, xs.mapM f = .error cause ∧ ∃ x ∈ xs, f x = .error cause := by
  induction xs with
  | nil => exact .inl ⟨[], rfl, .nil⟩
  | cons x xs inductionHypothesis =>
      rw [List.mapM_cons]
      cases first : f x with
      | error cause => exact .inr ⟨cause, rfl, x, List.mem_cons_self, first⟩
      | ok y =>
          rcases inductionHypothesis with ⟨ys, rest, each⟩ | ⟨cause, rest, x, present, failed⟩
          · exact .inl ⟨y :: ys, by rw [rest]; rfl, .cons first each⟩
          · exact .inr ⟨cause, by rw [rest]; rfl, x, List.mem_cons_of_mem _ present, failed⟩

/-- Every element has its counterpart. -/
theorem exists_mem_of_forall₂ {R : α → β → Prop} {xs : List α} {ys : List β}
    (each : List.Forall₂ R xs ys) {x : α} (present : x ∈ xs) : ∃ y ∈ ys, R x y := by
  induction each with
  | nil => cases present
  | cons related _ inductionHypothesis =>
      rcases List.mem_cons.mp present with rfl | later
      · exact ⟨_, List.mem_cons_self, related⟩
      · obtain ⟨y, found, related⟩ := inductionHypothesis later
        exact ⟨y, List.mem_cons_of_mem _ found, related⟩

end EspressoProxy.Semantics
