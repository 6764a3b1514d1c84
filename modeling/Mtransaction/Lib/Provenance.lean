import Mathlib.Data.List.Perm.Subperm
import Mathlib.Data.List.Perm.Basic
import Mathlib.Data.List.Forall2

/-!
# Where things come from

`Traces r xs ys` says that the things in `xs` come from different entries of `ys`: each is related
to an entry of its own.  The things may change places, change into other things that come from the
same entry, and be lost.
-/

namespace Provenance

variable {α β : Type*} {r : α → β → Prop} {x x' : α} {xs xs' : List α} {ys ys' : List β}

def Traces (r : α → β → Prop) (xs : List α) (ys : List β) : Prop :=
  ∃ zs, List.Forall₂ r xs zs ∧ zs.Subperm ys

theorem traces_nil (ys : List β) : Traces r [] ys := ⟨[], .nil, List.nil_subperm⟩

theorem Traces.perm (h : Traces r xs ys) (hperm : xs'.Perm xs) : Traces r xs' ys := by
  obtain ⟨zs, hrel, hsub⟩ := h
  obtain ⟨zs', hrel', hzs⟩ := List.perm_comp_forall₂ hperm hrel
  exact ⟨zs', hrel', hzs.subperm.trans hsub⟩

theorem Traces.tail (h : Traces r (x :: xs) ys) : Traces r xs ys := by
  obtain ⟨zs, hrel, hsub⟩ := h
  cases hrel with
  | @cons _ z _ zs hz hrel => exact ⟨zs, hrel, (List.sublist_cons_self z zs).subperm.trans hsub⟩

theorem Traces.change (h : Traces r (x :: xs) ys) (hx : ∀ y, r x y → r x' y) :
    Traces r (x' :: xs) ys := by
  obtain ⟨zs, hrel, hsub⟩ := h
  cases hrel with
  | cons hz hrel => exact ⟨_, .cons (hx _ hz) hrel, hsub⟩

theorem Traces.of_append (h : Traces r (xs ++ xs') ys) : Traces r xs' ys := by
  induction xs with
  | nil => exact h
  | cons x xs ih => exact ih h.tail

/-- New things from new entries. -/
theorem Traces.grow (h : Traces r xs ys) (hnew : List.Forall₂ r xs' ys') :
    Traces r (xs' ++ xs) (ys ++ ys') := by
  obtain ⟨zs, hrel, hsub⟩ := h
  refine ⟨ys' ++ zs, List.rel_append hnew hrel, ?_⟩
  exact ((List.subperm_append_left ys').mpr hsub).trans List.perm_append_comm.subperm

/-- No more things of a kind than entries of that kind. -/
theorem Traces.countP_le {p : α → Bool} {q : β → Bool} (h : Traces r xs ys)
    (hpq : ∀ x y, r x y → p x → q y) : xs.countP p ≤ ys.countP q := by
  obtain ⟨zs, hrel, hsub⟩ := h
  refine Nat.le_trans ?_ (hsub.countP_le q)
  clear hsub
  induction hrel with
  | nil => exact Nat.le_refl _
  | @cons x z xs zs hz _ ih =>
    rw [List.countP_cons, List.countP_cons]
    refine Nat.add_le_add ih ?_
    by_cases hp : p x
    · simp [hp, hpq x z hz hp]
    · simp [hp]

end Provenance
