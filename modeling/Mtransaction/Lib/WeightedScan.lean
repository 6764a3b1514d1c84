import Mathlib.Algebra.BigOperators.Group.List.Basic
import Mathlib.Algebra.GroupWithZero.Nat
import Mathlib.Order.Interval.Finset.Nat
import Mathlib.Tactic.Common

/-!
# Choosing by cumulative weight

A point `r` is looked up on the line made of one interval per element, as wide as the element's
weight, laid end to end in list order.
-/

namespace WeightedScan

variable {α : Type*} {w : α → ℕ} {r acc : ℕ} {l : List α}

/-- The first element at which the weights added up from `acc` on exceed `r`. -/
def scan (w : α → ℕ) (r : ℕ) : ℕ → List α → Option α
  | _, [] => none
  | acc, x :: xs => if r < acc + w x then some x else scan w r (acc + w x) xs

theorem mem_of_scan {x : α} (h : scan w r acc l = some x) : x ∈ l := by
  induction l generalizing acc with
  | nil => simp [scan] at h
  | cons y ys ih =>
    rw [scan] at h
    split at h
    · exact Option.some.inj h ▸ List.mem_cons_self
    · exact List.mem_cons_of_mem _ (ih h)

/-- A point not yet passed is found exactly when it lies before the end of the line. -/
theorem scan_isSome_iff (hacc : acc ≤ r) :
    (scan w r acc l).isSome ↔ r < acc + (l.map w).sum := by
  induction l generalizing acc with
  | nil => simp [scan, hacc]
  | cons y ys ih =>
    rw [scan, List.map_cons, List.sum_cons, ← Nat.add_assoc]
    -- `r` lies in the interval of `y`, or beyond it with the same question for the rest
    split
    next h => simpa using Nat.lt_add_right _ h
    next h => exact ih (Nat.le_of_not_lt h)

/-- An element that occurs once is found by the points of its own interval. -/
theorem scan_eq_some_iff {x : α} {pre post : List α} (hpre : x ∉ pre) (hpost : x ∉ post)
    (hacc : acc ≤ r) :
    scan w r acc (pre ++ x :: post) = some x ↔
      acc + (pre.map w).sum ≤ r ∧ r < acc + (pre.map w).sum + w x := by
  induction pre generalizing acc with
  | nil =>
    simp only [List.nil_append, scan, List.map_nil, List.sum_nil, Nat.add_zero]
    split
    next h => simp [hacc, h]
    next h =>
      -- beyond the interval of `x` only other elements are found
      have hrest : scan w r (acc + w x) post ≠ some x := fun hsome => hpost (mem_of_scan hsome)
      simp [hrest, h]
  | cons y ys ih =>
    simp only [List.cons_append, scan, List.map_cons, List.sum_cons, List.mem_cons, not_or] at hpre ⊢
    split
    next h =>
      have hne : some y ≠ some x := fun heq => hpre.1 (Option.some.inj heq).symm
      simp only [hne, false_iff, not_and]
      omega
    next h =>
      rw [ih hpre.2 (Nat.le_of_not_lt h), Nat.add_assoc acc]

/-- How many of the points below `n` find it. -/
theorem card_filter_scan [DecidableEq α] {x : α} {pre post : List α} (n : ℕ) (hpre : x ∉ pre)
    (hpost : x ∉ post) :
    ((Finset.range n).filter fun r => scan w r 0 (pre ++ x :: post) = some x).card =
      min ((pre.map w).sum + w x) n - (pre.map w).sum := by
  have hinterval : (Finset.range n).filter (fun r => scan w r 0 (pre ++ x :: post) = some x) =
      Finset.Ico (pre.map w).sum (min ((pre.map w).sum + w x) n) := by
    ext r
    rw [Finset.mem_filter, Finset.mem_range, scan_eq_some_iff hpre hpost (Nat.zero_le r),
      Finset.mem_Ico, Nat.zero_add, lt_min_iff]
    exact ⟨fun h => ⟨h.2.1, h.2.2, h.1⟩, fun h => ⟨h.2.2, h.1, h.2.1⟩⟩
  rw [hinterval, Nat.card_Ico]

end WeightedScan
