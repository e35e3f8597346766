import Mathlib.Order.CompletePartialOrder
import Mathlib.Order.Interval.Set.Basic
import Mathlib.Order.Interval.Set.Disjoint

/-!
# Inclusive ranges that tile an interval

`Tiles first ranges stop` says that the ranges follow one another without a gap, from
`first` up to but not including `stop`. A range is given by its first and last number.
-/

namespace EspressoProxy.Semantics

/-- The ranges tile the numbers from `first` up to `stop`. -/
inductive Tiles (first : Nat) : List (Nat × Nat) → Nat → Prop where
  | nil : Tiles first [] first
  | snoc {ranges : List (Nat × Nat)} {low high : Nat} (earlier : Tiles first ranges low)
      (ordered : low ≤ high) : Tiles first (ranges ++ [(low, high)]) (high + 1)

namespace Tiles

variable {first stop : Nat} {ranges : List (Nat × Nat)}

theorem first_le_stop (tiles : Tiles first ranges stop) : first ≤ stop := by
  induction tiles with
  | nil => exact Nat.le_refl first
  | snoc _ ordered inductionHypothesis => omega

/-- Together the ranges have exactly the numbers of the interval. -/
theorem covers (tiles : Tiles first ranges stop) (number : Nat) :
    (∃ range ∈ ranges, number ∈ Set.Icc range.1 range.2) ↔ number ∈ Set.Ico first stop := by
  induction tiles with
  | nil => simp
  | @snoc ranges low high earlier ordered inductionHypothesis =>
      have start := earlier.first_le_stop
      simp only [List.mem_append, List.mem_singleton, or_and_right, exists_or, exists_eq_left]
      rw [inductionHypothesis, Set.mem_Ico, Set.mem_Icc, Set.mem_Ico]
      omega

/-- No number is in two of the ranges. -/
theorem pairwise_disjoint (tiles : Tiles first ranges stop) :
    ranges.Pairwise fun left right =>
      Disjoint (Set.Icc left.1 left.2) (Set.Icc right.1 right.2) := by
  induction tiles with
  | nil => exact .nil
  | @snoc ranges low high earlier _ inductionHypothesis =>
      refine List.pairwise_append.mpr ⟨inductionHypothesis, List.pairwise_singleton _ _, ?_⟩
      intro range member last isLast
      rw [List.mem_singleton.mp isLast, Set.disjoint_left]
      intro number inside again
      -- A number of an earlier range is below the end of the earlier ranges.
      have below := (earlier.covers number).mp ⟨range, member, inside⟩
      simp only [Set.mem_Ico, Set.mem_Icc] at below again
      omega

end Tiles
end EspressoProxy.Semantics
