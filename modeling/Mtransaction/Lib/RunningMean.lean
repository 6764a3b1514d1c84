import Mtransaction.Lib.Runs
import Mathlib.Algebra.Order.Field.Basic
import Mathlib.Algebra.Order.Ring.Abs
import Mathlib.Algebra.BigOperators.Group.List.Basic
import Mathlib.Data.List.Induction
import Mathlib.Algebra.Order.Field.Rat
import Mathlib.Tactic.Linarith
import Mathlib.Tactic.Ring

/-!
# Running means of natural numbers

A mean that is truncated after every value and fed back into the next step: how far it stays behind
the mean of all values, and for which sequences it is that mean, truncated once.
-/

namespace RunningMean

open History

variable {vs : List ℕ} {v : ℕ}

/-- The last mean stands for the values before: it is multiplied by their number, and the quotient
is truncated. -/
def mean (vs : List ℕ) : ℕ := vs.zipIdx.foldl (fun m e => (e.2 * m + e.1) / (e.2 + 1)) 0

@[simp] theorem mean_nil : mean [] = 0 := rfl

theorem mean_concat (vs : List ℕ) (v : ℕ) :
    mean (vs ++ [v]) = (vs.length * mean vs + v) / (vs.length + 1) := by
  simp [mean, List.zipIdx_append]

/-! ## Bounds -/

-- the next mean is between the last one and the value
theorem mean_concat_between (vs : List ℕ) (v : ℕ) :
    min (mean vs) v ≤ mean (vs ++ [v]) ∧ mean (vs ++ [v]) ≤ max (mean vs) v := by
  rw [mean_concat]
  have hlo : vs.length * min (mean vs) v ≤ vs.length * mean vs :=
    Nat.mul_le_mul_left _ (Nat.min_le_left _ _)
  have hhi : vs.length * mean vs ≤ vs.length * max (mean vs) v :=
    Nat.mul_le_mul_left _ (Nat.le_max_left _ _)
  have hmin := Nat.min_le_right (mean vs) v
  have hmax := Nat.le_max_right (mean vs) v
  constructor
  · rw [Nat.le_div_iff_mul_le (Nat.succ_pos _), Nat.mul_comm, Nat.succ_mul]
    exact Nat.add_le_add hlo hmin
  · refine Nat.div_le_of_le_mul ?_
    rw [Nat.succ_mul]
    exact Nat.add_le_add hhi hmax

/-- The mean is between two of the values. -/
theorem exists_bounds (hne : vs ≠ []) :
    ∃ lo ∈ vs, ∃ hi ∈ vs, lo ≤ mean vs ∧ mean vs ≤ hi := by
  induction vs using List.reverseRecOn with
  | nil => exact absurd rfl hne
  | append_singleton vs v ih =>
    have hv : v ∈ vs ++ [v] := List.mem_append_right _ (List.mem_singleton_self v)
    by_cases hvs : vs = []
    · subst hvs
      have hsingle : mean [v] = v := by simp [mean]
      exact ⟨v, hv, v, hv, hsingle.ge, hsingle.le⟩
    · obtain ⟨lo, hlo, hi, hhi, hle, hge⟩ := ih hvs
      obtain ⟨hmin, hmax⟩ := mean_concat_between vs v
      rcases Nat.le_total (mean vs) v with h | h
      · rw [Nat.min_eq_left h] at hmin
        rw [Nat.max_eq_right h] at hmax
        exact ⟨lo, List.mem_append_left _ hlo, v, hv, hle.trans hmin, hmax⟩
      · rw [Nat.min_eq_right h] at hmin
        rw [Nat.max_eq_left h] at hmax
        exact ⟨v, hv, hi, List.mem_append_left _ hhi, hmin, hmax.trans hge⟩

/-! ## What rounding costs -/

-- one step loses the remainder of its division
theorem mul_mean_concat (vs : List ℕ) (v : ℕ) :
    (vs.length + 1) * mean (vs ++ [v]) + (vs.length * mean vs + v) % (vs.length + 1) =
      vs.length * mean vs + v := by
  rw [mean_concat]
  exact Nat.div_add_mod _ _

-- twice the sum of the numbers below `n`, one step further
theorem sum_below (n : ℕ) : n * (n - 1) + 2 * n = (n + 1) * (n + 1 - 1) := by
  cases n with
  | zero => rfl
  | succ n =>
    rw [Nat.add_sub_cancel, Nat.add_sub_cancel]
    ring

theorem length_mul_mean_le_sum (vs : List ℕ) : vs.length * mean vs ≤ vs.sum := by
  induction vs using List.reverseRecOn with
  | nil => simp
  | append_singleton vs v ih =>
    have hstep := mul_mean_concat vs v
    simp only [List.length_append, List.length_singleton, List.sum_append, List.sum_singleton]
    omega

/-- The means of `n` values lose at most `0 + 1 + ... + (n - 1)` of the sum. -/
theorem two_mul_sum_le (vs : List ℕ) :
    2 * vs.sum ≤ 2 * (vs.length * mean vs) + vs.length * (vs.length - 1) := by
  induction vs using List.reverseRecOn with
  | nil => simp
  | append_singleton vs v ih =>
    have hstep := mul_mean_concat vs v
    have hmod : (vs.length * mean vs + v) % (vs.length + 1) < vs.length + 1 :=
      Nat.mod_lt _ (Nat.succ_pos _)
    have hbelow := sum_below vs.length
    simp only [List.length_append, List.length_singleton, List.sum_append, List.sum_singleton]
    omega

-- the values 0, 1, ..., n - 1 lose that much
theorem mean_range (n : ℕ) : mean (List.range n) = 0 := by
  induction n with
  | zero => rfl
  | succ n ih =>
    rw [List.range_succ, mean_concat, ih, List.length_range, Nat.mul_zero, Nat.zero_add]
    exact Nat.div_eq_of_lt (Nat.lt_succ_self n)

theorem two_mul_sum_range (n : ℕ) : 2 * (List.range n).sum = n * (n - 1) := by
  induction n with
  | zero => rfl
  | succ n ih =>
    rw [List.range_succ, List.sum_append, Nat.mul_add, ih, List.sum_singleton, sum_below]

/-! ## The mean of all values -/

/-- What is left over when the sum is divided among the values. -/
def remainder (vs : List ℕ) : ℕ := vs.sum % vs.length

/-- With no value does the remainder get smaller. -/
def RemaindersGrow (vs : List ℕ) : Prop :=
  Along (fun before v => remainder before ≤ remainder (before ++ [v])) vs

/-- A truncated mean is fed back without loss exactly if the remainder does not get smaller: what
was cut off is then cut off of the next quotient too. -/
theorem mean_concat_eq_iff (h : mean vs = vs.sum / vs.length) :
    mean (vs ++ [v]) = (vs ++ [v]).sum / (vs ++ [v]).length ↔
      remainder vs ≤ remainder (vs ++ [v]) := by
  have hpos : 0 < vs.length + 1 := Nat.succ_pos _
  have hold := Nat.div_add_mod vs.sum vs.length
  have hnew := Nat.div_add_mod (vs.sum + v) (vs.length + 1)
  have hlt := Nat.mod_lt (vs.sum + v) hpos
  simp only [mean_concat, h, remainder, List.sum_append, List.sum_singleton, List.length_append,
    List.length_singleton]
  rw [Nat.div_eq_iff hpos]
  constructor
  · rintro ⟨hle, -⟩
    rw [Nat.mul_comm] at hle
    omega
  · intro hle
    rw [Nat.mul_comm] at hnew
    constructor <;> omega

theorem mean_eq_of_remaindersGrow (h : RemaindersGrow vs) : mean vs = vs.sum / vs.length := by
  induction vs using List.reverseRecOn with
  | nil => rfl
  | append_singleton vs v ih =>
    obtain ⟨hvs, hv⟩ := along_concat.mp h
    exact (mean_concat_eq_iff (ih hvs)).mpr hv

/-- The mean of all values, and how far the running mean stays behind it. -/
theorem mean_le_average (hne : vs ≠ []) : (mean vs : ℚ) ≤ vs.sum / vs.length := by
  have hpos : (0 : ℚ) < vs.length := by exact_mod_cast List.length_pos_of_ne_nil hne
  rw [le_div_iff₀ hpos, mul_comm]
  exact_mod_cast length_mul_mean_le_sum vs

theorem average_le_mean_add (hne : vs ≠ []) :
    (vs.sum : ℚ) / vs.length ≤ mean vs + (vs.length - 1) / 2 := by
  have hpos : (0 : ℚ) < vs.length := by exact_mod_cast List.length_pos_of_ne_nil hne
  have hone : 1 ≤ vs.length := List.length_pos_of_ne_nil hne
  have hle : (2 * vs.sum : ℚ) ≤ 2 * (vs.length * mean vs) + vs.length * (vs.length - 1) := by
    have h := two_mul_sum_le vs
    rw [← Nat.cast_pred (List.length_pos_of_ne_nil hne)]
    exact_mod_cast h
  rw [div_le_iff₀ hpos]
  linarith

/-- Less than 1 behind is rounding once. -/
theorem abs_mean_sub_average_lt_one_iff (hne : vs ≠ []) :
    |(mean vs : ℚ) - vs.sum / vs.length| < 1 ↔ mean vs = vs.sum / vs.length := by
  have hpos : 0 < vs.length := List.length_pos_of_ne_nil hne
  have hposℚ : (0 : ℚ) < vs.length := by exact_mod_cast hpos
  have hle := length_mul_mean_le_sum vs
  have hcomm := Nat.mul_comm (mean vs) vs.length
  rw [abs_sub_comm, abs_of_nonneg (sub_nonneg.mpr (mean_le_average hne)), sub_lt_iff_lt_add,
    div_lt_iff₀ hposℚ, eq_comm, Nat.div_eq_iff hpos]
  constructor
  · intro h
    have hlt : vs.sum < (1 + mean vs) * vs.length := by exact_mod_cast h
    rw [Nat.add_mul, Nat.one_mul] at hlt
    constructor <;> omega
  · rintro ⟨-, hlt⟩
    have hsum : vs.sum < (1 + mean vs) * vs.length := by
      rw [Nat.add_mul, Nat.one_mul]
      omega
    exact_mod_cast hsum

/-! ## Running totals -/

/-- The sum of the values, rounded down after each to a multiple of their number so far. -/
def roundedSum (vs : List ℕ) : ℕ :=
  vs.zipIdx.foldl (fun total e => (total + e.1) / (e.2 + 1) * (e.2 + 1)) 0

theorem roundedSum_concat (vs : List ℕ) (v : ℕ) :
    roundedSum (vs ++ [v]) = (roundedSum vs + v) / (vs.length + 1) * (vs.length + 1) := by
  simp [roundedSum, List.zipIdx_append]

theorem roundedSum_eq (vs : List ℕ) : roundedSum vs = vs.length * mean vs := by
  induction vs using List.reverseRecOn with
  | nil => rfl
  | append_singleton vs v ih =>
    rw [roundedSum_concat, ih, mean_concat, Nat.mul_comm]
    simp

/-- The next value can always be added without reaching the limit. -/
def Fits (limit : ℕ) (vs : List ℕ) : Prop :=
  Along (fun before v => roundedSum before + v < limit) vs

-- rounding only takes away
theorem fits_of_sum_lt {limit : ℕ} (h : vs.sum < limit) : Fits limit vs := by
  rintro before v ⟨after, rfl⟩
  have hle := length_mul_mean_le_sum before
  simp only [List.sum_append, List.sum_singleton] at h
  rw [roundedSum_eq]
  omega

end RunningMean
