import Mtransaction.Lib.HashMap
import Mathlib.Algebra.BigOperators.Group.List.Basic
import Mathlib.Algebra.GroupWithZero.Nat
import Mathlib.Data.List.Perm.Basic

/-!
# Counters, and the tasks that advance them

A vector of counters has one counter per label, made when it is first advanced.  Several tasks may
advance the same counters; each does so by a list of atomic steps, and the steps of different tasks
come in any order.
-/

abbrev CounterVec (κ : Type*) := HashMap κ ℕ

namespace CounterVec

variable {κ : Type*} [DecidableEq κ]

def value (v : CounterVec κ) (k : κ) : ℕ := (v.lookup k).getD 0

def inc (v : CounterVec κ) (k : κ) : CounterVec κ := v.insert k (v.value k + 1)

def total (v : CounterVec κ) : ℕ := v.values.sum

theorem value_inc (v : CounterVec κ) (k k' : κ) :
    (v.inc k).value k' = v.value k' + if k = k' then 1 else 0 := by
  unfold value inc
  rw [AList.lookup_insert_eq_ite]
  by_cases h : k' = k
  · subst h
    simp [value]
  · simp [h, Ne.symm h]

-- taking a label out lowers the sum by its counter
theorem sum_kerase (k : κ) (l : List (Sigma fun _ : κ => ℕ)) :
    ((l.kerase k).map Sigma.snd).sum + (l.dlookup k).getD 0 = (l.map Sigma.snd).sum := by
  induction l with
  | nil => rfl
  | cons e l ih =>
    by_cases h : k = e.1
    · subst h
      rw [List.kerase_cons_eq rfl, List.dlookup_cons_eq, Option.getD_some, List.map_cons,
        List.sum_cons, Nat.add_comm]
    · rw [List.kerase_cons_ne h, List.dlookup_cons_ne _ _ h, List.map_cons, List.map_cons,
        List.sum_cons, List.sum_cons, Nat.add_assoc, ih]

theorem total_inc (v : CounterVec κ) (k : κ) : (v.inc k).total = v.total + 1 := by
  have hsum := sum_kerase k v.entries
  unfold total inc AList.values value AList.lookup
  rw [AList.entries_insert, List.map_cons, List.sum_cons]
  dsimp only
  omega

end CounterVec

namespace Interleaving

variable {σ α τ : Type*}

/-- A quantity that each of some steps raises by one counts these steps. -/
theorem foldl_countP {step : σ → α → σ} {f : σ → ℕ} {p : α → Bool}
    (hf : ∀ s a, f (step s a) = f s + if p a then 1 else 0) (l : List α) (s : σ) :
    f (l.foldl step s) = f s + l.countP p := by
  induction l generalizing s with
  | nil => rfl
  | cons a l ih =>
    rw [List.foldl_cons, ih, hf, List.countP_cons]
    omega

theorem countP_flatMap_congr {β γ : Type*} {f : τ → List β} {g : τ → List γ} {p : β → Bool}
    {q : γ → Bool} {l : List τ} (h : ∀ t ∈ l, (f t).countP p = (g t).countP q) :
    (l.flatMap f).countP p = (l.flatMap g).countP q := by
  rw [List.countP_flatMap, List.countP_flatMap]
  exact congrArg List.sum (List.map_congr_left h)

theorem countP_of_nodup [DecidableEq α] {l : List α} (h : l.Nodup) (a : α) :
    l.countP (· = a) = if a ∈ l then 1 else 0 := by
  rw [← h.count, List.count]
  simp only [beq_eq_decide]

/-- When one task changes, what holds of all tasks has to be shown for it alone. -/
theorem forall_mem_set {p : τ → Prop} {tasks : List τ} {t' : τ} (n : ℕ) (h : ∀ t ∈ tasks, p t)
    (ht' : p t') : ∀ t ∈ tasks.set n t', p t := by
  intro t hmem
  rcases List.mem_or_eq_of_mem_set hmem with hold | rfl
  · exact h t hold
  · exact ht'

theorem forall_getElem?_set {p : ℕ → τ → Prop} {tasks : List τ} {t' : τ} (n : ℕ)
    (h : ∀ m t, tasks[m]? = some t → p m t) (ht' : p n t') :
    ∀ m t, (tasks.set n t')[m]? = some t → p m t := by
  intro m t hget
  by_cases hm : n = m
  · subst hm
    obtain ⟨hlt, hget⟩ := List.getElem?_eq_some_iff.mp hget
    rw [List.getElem_set_self] at hget
    exact hget ▸ ht'
  · rw [List.getElem?_set_ne hm] at hget
    exact h m t hget

/-- When one task changes, the number of tasks with a property changes by it alone. -/
theorem countP_set_add (p : τ → Bool) {tasks : List τ} {n : ℕ} {t : τ} (t' : τ)
    (h : tasks[n]? = some t) :
    (tasks.set n t').countP p + (if p t then 1 else 0) =
      tasks.countP p + if p t' then 1 else 0 := by
  obtain ⟨hlt, rfl⟩ := List.getElem?_eq_some_iff.mp h
  rw [List.countP_set hlt]
  -- the task that changes is among those counted
  have hpos : p tasks[n] → 0 < tasks.countP p := fun hp =>
    List.countP_pos_iff.mpr ⟨_, List.getElem_mem hlt, hp⟩
  split
  next hp =>
    have := hpos hp
    omega
  next => omega

/-- When one task changes, a sum over all tasks changes by it alone. -/
theorem sum_map_set_add (f : τ → ℕ) {tasks : List τ} {n : ℕ} {t : τ} (t' : τ)
    (h : tasks[n]? = some t) :
    ((tasks.set n t').map f).sum + f t = (tasks.map f).sum + f t' := by
  induction tasks generalizing n with
  | nil => simp at h
  | cons t₀ tasks ih =>
    cases n with
    | zero =>
      obtain rfl : t₀ = t := by simpa using h
      simp only [List.set_cons_zero, List.map_cons, List.sum_cons]
      omega
    | succ n =>
      have htail := ih (by simpa using h)
      simp only [List.set_cons_succ, List.map_cons, List.sum_cons]
      omega

/-- When one task changes, what all tasks have to do changes by what it has to do. -/
theorem flatMap_set_perm (todo : τ → List α) {tasks : List τ} {n : ℕ} {t : τ} (t' : τ)
    (h : tasks[n]? = some t) :
    (todo t ++ (tasks.set n t').flatMap todo).Perm (todo t' ++ tasks.flatMap todo) := by
  induction tasks generalizing n with
  | nil => simp at h
  | cons t₀ tasks ih =>
    cases n with
    | zero =>
      obtain rfl : t₀ = t := by simpa using h
      rw [List.set_cons_zero, List.flatMap_cons, List.flatMap_cons, ← List.append_assoc,
        ← List.append_assoc]
      exact List.perm_append_comm.append_right _
    | succ n =>
      rw [List.set_cons_succ, List.flatMap_cons, List.flatMap_cons]
      -- the first task is not the one that changes: move it out of the way on both sides
      have hmove (l l' : List α) : (l ++ (todo t₀ ++ l')).Perm (todo t₀ ++ (l ++ l')) := by
        rw [← List.append_assoc, ← List.append_assoc]
        exact List.perm_append_comm.append_right _
      exact (hmove _ _).trans (((ih (by simpa using h)).append_left _).trans (hmove _ _).symm)

/-- When one task goes, what is counted of the tasks is less by it alone. -/
theorem count_map_eraseIdx_add {β : Type*} [BEq β] [LawfulBEq β] [DecidableEq β] (f : τ → β)
    {tasks : List τ} {n : ℕ} {t : τ} (h : tasks[n]? = some t) (b : β) :
    ((tasks.eraseIdx n).map f).count b + (if f t = b then 1 else 0) = (tasks.map f).count b := by
  obtain ⟨hlt, rfl⟩ := List.getElem?_eq_some_iff.mp h
  have hperm := (List.getElem_cons_eraseIdx_perm hlt).map f
  rw [← hperm.count_eq b, List.map_cons, List.count_cons]
  simp only [beq_iff_eq]

/-- One task changes in nothing that is looked at. -/
theorem map_set_same {β : Type*} (f : τ → β) {tasks : List τ} {n : ℕ} {task task' : τ}
    (htask : tasks[n]? = some task) (hf : f task' = f task) :
    (tasks.set n task').map f = tasks.map f := by
  obtain ⟨hlt, rfl⟩ := List.getElem?_eq_some_iff.mp htask
  rw [List.map_set, hf, ← List.getElem_map f (h := by simpa using hlt), List.set_getElem_self]

end Interleaving
