import Mathlib.Data.List.Basic
import Mathlib.Data.List.TakeWhile
import Mathlib.Tactic.Common

/-!
# Numerals and separators

What a program prints of a number, and how printed parts are found again behind a separator that
does not occur in them.
-/

namespace Decimal

theorem toList_toString (n : ℕ) : (toString n).toList = Nat.toDigits 10 n := Nat.toList_repr

theorem toString_injective : Function.Injective (toString : ℕ → String) := by
  intro m n h
  have hdigits : Nat.toDigits 10 m = Nat.toDigits 10 n := by
    rw [← toList_toString, ← toList_toString, h]
  rw [← Nat.ofDigitChars_ten_toDigits (n := m), hdigits, Nat.ofDigitChars_ten_toDigits]

theorem isDigit_of_mem_toString {n : ℕ} {c : Char} (h : c ∈ (toString n).toList) : c.isDigit := by
  rw [toList_toString] at h
  exact Nat.isDigit_of_mem_toDigits (by decide) (by decide) h

-- a separator that is no digit occurs in no number
theorem notMem_toString {c : Char} (hc : c.isDigit = false) (n : ℕ) :
    c ∉ (toString n).toList := by
  intro h
  rw [isDigit_of_mem_toString h] at hc
  simp at hc

/-- A numeral has no leading 0. -/
theorem exists_toDigits {n : ℕ} (h : 0 < n) : ∃ c ds, Nat.toDigits 10 n = c :: ds ∧ c ≠ '0' := by
  induction n using Nat.base_induction 10 (by decide) with
  | single m hm =>
    refine ⟨Nat.digitChar m, [], Nat.toDigits_of_lt_base hm, ?_⟩
    have hne : ∀ m < 10, 0 < m → Nat.digitChar m ≠ '0' := by decide
    exact hne m hm h
  | digit m k hk hm ih =>
    obtain ⟨c, ds, hds, hc⟩ := ih hm
    refine ⟨c, ds ++ Nat.toDigits 10 k, ?_, hc⟩
    rw [← Nat.toDigits_append_toDigits (by decide) hm hk, hds, List.cons_append]

theorem mem_toDigits_sixteen {n : ℕ} {c : Char} (h : c ∈ Nat.toDigits 16 n) :
    ∃ d < 16, c = Nat.digitChar d := by
  induction n using Nat.base_induction 16 (by decide) with
  | single m hm =>
    rw [Nat.toDigits_of_lt_base hm, List.mem_singleton] at h
    exact ⟨m, hm, h⟩
  | digit m k hk hm ih =>
    rw [← Nat.toDigits_append_toDigits (by decide) hm hk, List.mem_append] at h
    rcases h with h | h
    · exact ih h
    · rw [Nat.toDigits_of_lt_base hk, List.mem_singleton] at h
      exact ⟨k, hk, h⟩

end Decimal

namespace Separator

variable {α : Type*} [DecidableEq α] {a : α} {l l' r r' : List α}

theorem takeWhile_append_cons (h : a ∉ l) : (l ++ a :: r).takeWhile (· ≠ a) = l := by
  rw [List.takeWhile_append_of_pos]
  · simp
  · intro x hx
    simpa using fun heq : x = a => h (heq ▸ hx)

/-- What stands before the first separator, and what stands behind it, can be told apart. -/
theorem append_cons_inj (h : a ∉ l) (h' : a ∉ l') (heq : l ++ a :: r = l' ++ a :: r') :
    l = l' ∧ r = r' := by
  have hl : l = l' := by
    rw [← takeWhile_append_cons (r := r) h, heq, takeWhile_append_cons h']
  subst hl
  exact ⟨rfl, (List.cons.inj (List.append_cancel_left heq)).2⟩

end Separator
