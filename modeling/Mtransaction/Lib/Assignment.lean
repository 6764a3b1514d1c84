import Mathlib.Data.List.Basic
import Mathlib.Order.Interval.Finset.Nat
import Mathlib.Tactic.Common

/-!
# Cutting a list into chunks and pushing elements to positions
-/

namespace Assignment

variable {α β : Type*}

/-- Consecutive pieces of length `k`, the last one possibly shorter. -/
def chunks (k : ℕ) (l : List α) : List (List α) := go l.length l
where
  go : ℕ → List α → List (List α)
    | 0, _ => []
    | _ + 1, [] => []
    | n + 1, x :: xs => (x :: xs).take k :: go n ((x :: xs).drop k)

-- no element is lost or moved by the cutting
theorem flatten_chunks {k : ℕ} (hk : 0 < k) (l : List α) : (chunks k l).flatten = l := by
  -- the recursion runs on a bound of the length, which dropping `k` elements lowers
  have aux (n : ℕ) (l : List α) (hn : l.length ≤ n) : (chunks.go k n l).flatten = l := by
    induction n generalizing l with
    | zero => simpa [chunks.go] using hn
    | succ n ih =>
      cases l with
      | nil => simp [chunks.go]
      | cons x xs =>
        have hdrop : ((x :: xs).drop k).length ≤ n := by
          rw [List.length_drop]
          simp only [List.length_cons] at hn ⊢
          omega
        rw [chunks.go, List.flatten_cons, ih _ hdrop, List.take_append_drop]
  exact aux l.length l (Nat.le_refl _)

theorem mem_chunks {k : ℕ} (hk : 0 < k) {l : List α} {x : α} (hx : x ∈ l) :
    ∃ i c, (c, i) ∈ (chunks k l).zipIdx ∧ x ∈ c := by
  rw [← flatten_chunks hk l] at hx
  obtain ⟨c, hc, hxc⟩ := List.mem_flatten.mp hx
  obtain ⟨i, hi, rfl⟩ := List.mem_iff_getElem.mp hc
  exact ⟨i, _, by simp [List.mem_zipIdx_iff_getElem?], hxc⟩

-- the chunk an element stands in is told by its index
theorem zipIdx_chunks {k : ℕ} (hk : 0 < k) (l : List α) :
    (chunks k l).zipIdx.flatMap (fun c => c.1.map fun x => (x, c.2)) =
      l.zipIdx.map fun e => (e.1, e.2 / k) := by
  -- after `i` chunks, `i * k` elements have gone
  have aux (n : ℕ) (l : List α) (i : ℕ) (hn : l.length ≤ n) :
      ((chunks.go k n l).zipIdx i).flatMap (fun c => c.1.map fun x => (x, c.2)) =
        (l.zipIdx (i * k)).map fun e => (e.1, e.2 / k) := by
    induction n generalizing l i with
    | zero =>
      obtain rfl : l = [] := List.length_eq_zero_iff.mp (Nat.le_zero.mp hn)
      simp [chunks.go]
    | succ n ih =>
      cases l with
      | nil => simp [chunks.go]
      | cons x xs =>
        have hdrop : ((x :: xs).drop k).length ≤ n := by
          rw [List.length_drop]
          simp only [List.length_cons] at hn ⊢
          omega
        have hfirst : ((x :: xs).take k).map (fun x => (x, i)) =
            (((x :: xs).take k).zipIdx (i * k)).map fun e => (e.1, e.2 / k) := by
          apply List.ext_getElem
          · simp
          · intro j h₁ h₂
            have hj : j < k := by
              rw [List.length_map, List.length_take] at h₁
              omega
            have hdiv : (i * k + j) / k = i := by
              rw [Nat.mul_comm, Nat.mul_add_div hk, Nat.div_eq_of_lt hj, Nat.add_zero]
            simp only [List.getElem_map, List.getElem_zipIdx, hdiv]
        have hrest : ((x :: xs).drop k).zipIdx ((i + 1) * k) =
            ((x :: xs).drop k).zipIdx (i * k + ((x :: xs).take k).length) := by
          by_cases hlen : k ≤ (x :: xs).length
          · rw [List.length_take, Nat.min_eq_left hlen, Nat.succ_mul]
          · rw [List.drop_eq_nil_of_le (Nat.le_of_not_le hlen)]
            rfl
        rw [chunks.go, List.zipIdx_cons, List.flatMap_cons, ih _ _ hdrop, hrest, hfirst,
          ← List.map_append, ← List.zipIdx_append, List.take_append_drop]
  rw [chunks, aux l.length l 0 (Nat.le_refl _), Nat.zero_mul]

/-- Of indices below `m`, grouped by `q` and counted modulo `n`, every residue gets at least one
whole group, and at most two, as long as the groups go round less than twice. -/
theorem card_filter_div_mod {n q m r : ℕ} (hq : 0 < q) (hr : r < n) (hge : n * q ≤ m)
    (hlt : m < 2 * n * q) :
    q ≤ ((Finset.range m).filter fun k => k / q % n = r).card ∧
      ((Finset.range m).filter fun k => k / q % n = r).card ≤ 2 * q := by
  have hgroup (d k : ℕ) : k / q = d ↔ k ∈ Finset.Ico (d * q) (d * q + q) := by
    rw [Finset.mem_Ico, Nat.div_eq_iff hq, Nat.mul_comm]
    omega
  have hcard (d : ℕ) : (Finset.Ico (d * q) (d * q + q)).card = q := by
    rw [Nat.card_Ico]
    omega
  constructor
  · have hsub : Finset.Ico (r * q) (r * q + q) ⊆
        (Finset.range m).filter fun k => k / q % n = r := by
      intro k hk
      have hdiv := (hgroup r k).mpr hk
      rw [Finset.mem_filter, Finset.mem_range, hdiv]
      have hlast : r * q + q ≤ n * q := by
        rw [← Nat.succ_mul]
        exact Nat.mul_le_mul_right q hr
      rw [Finset.mem_Ico] at hk
      exact ⟨by omega, Nat.mod_eq_of_lt hr⟩
    have hle := Finset.card_le_card hsub
    rwa [hcard] at hle
  · have hsub : ((Finset.range m).filter fun k => k / q % n = r) ⊆
        Finset.Ico (r * q) (r * q + q) ∪ Finset.Ico ((r + n) * q) ((r + n) * q + q) := by
      intro k hk
      rw [Finset.mem_filter, Finset.mem_range] at hk
      obtain ⟨hkm, hmod⟩ := hk
      have hround : k / q < 2 * n := (Nat.div_lt_iff_lt_mul hq).mpr (hkm.trans hlt)
      rw [Finset.mem_union, ← hgroup, ← hgroup]
      by_cases hfirst : k / q < n
      · exact .inl (by rwa [Nat.mod_eq_of_lt hfirst] at hmod)
      · right
        rw [Nat.mod_eq_sub_mod (Nat.le_of_not_lt hfirst), Nat.mod_eq_of_lt (by omega)] at hmod
        omega
    have hle := (Finset.card_le_card hsub).trans (Finset.card_union_le _ _)
    rw [hcard, hcard] at hle
    omega

def pushAt (slots : List (α × List β)) (p : ℕ × β) : List (α × List β) :=
  slots.modify p.1 fun x => (x.1, x.2 ++ [p.2])

/-- What a sequence of pushes leaves at position `i`. -/
def pushedTo (pushes : List (ℕ × β)) (i : ℕ) : List β :=
  (pushes.filter fun p => p.1 = i).map Prod.snd

-- a position holds exactly what was pushed to it
theorem mem_pushedTo {pushes : List (ℕ × β)} {i : ℕ} {b : β} :
    b ∈ pushedTo pushes i ↔ (i, b) ∈ pushes := by
  simp only [pushedTo, List.mem_map, List.mem_filter, decide_eq_true_eq]
  constructor
  · rintro ⟨⟨j, c⟩, ⟨hp, rfl⟩, rfl⟩
    exact hp
  · intro h
    exact ⟨(i, b), ⟨h, rfl⟩, rfl⟩

/-- Each position keeps its label and gets its pushes appended in order. -/
theorem foldl_pushAt (pushes : List (ℕ × β)) (slots : List (α × List β)) :
    pushes.foldl pushAt slots = slots.mapIdx fun i x => (x.1, x.2 ++ pushedTo pushes i) := by
  induction pushes generalizing slots with
  | nil => simp [pushedTo, List.mapIdx_eq_zipIdx_map]
  | cons p pushes ih =>
    rw [List.foldl_cons, ih]
    apply List.ext_getElem
    · simp [pushAt]
    · intro i h₁ h₂
      -- the first push lands at `i` or leaves it alone
      by_cases hp : p.1 = i
      · simp [pushAt, pushedTo, hp]
      · simp [pushAt, pushedTo, hp]

end Assignment
