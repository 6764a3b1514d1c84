import Mathlib.Data.List.Basic
import Mathlib.Data.List.Induction
import Mathlib.Tactic.Common

/-!
# Finite runs of labelled transition systems

A run remembers, for every step, the state it was taken in and its label, so that a property of
all visited states can be set against a condition on all steps taken.
-/

/-! ## Conditions along a list -/

namespace History

variable {α : Type*} {C : List α → α → Prop} {l : List α} {a : α}

/-- Every element is in the relation `C` with those before it. -/
def Along (C : List α → α → Prop) (l : List α) : Prop :=
  ∀ before a, before ++ [a] <+: l → C before a

@[simp] theorem along_nil : Along C [] := by
  intro before a h
  simp at h

@[simp] theorem along_concat : Along C (l ++ [a]) ↔ Along C l ∧ C l a := by
  constructor
  · intro h
    exact ⟨fun before b hb => h before b (hb.trans (List.prefix_append _ _)),
      h l a (List.prefix_refl _)⟩
  · rintro ⟨hl, ha⟩ before b hb
    rcases List.prefix_concat_iff.mp hb with heq | hb
    · obtain ⟨rfl, hlast⟩ := List.append_inj' heq rfl
      obtain rfl := List.singleton_inj.mp hlast
      exact ha
    · exact hl before b hb

end History

namespace Runs

open History

variable {σ α ε : Type*} {step : σ → α → σ → Prop} {s t u : σ} {tr : List (σ × α)}

/-- The runs of `step`: the start state, the states left with the labels taken there, the end. -/
inductive Run (step : σ → α → σ → Prop) : σ → List (σ × α) → σ → Prop
  | nil (s : σ) : Run step s [] s
  | snoc {s t u : σ} {tr : List (σ × α)} {a : α} :
      Run step s tr t → step t a u → Run step s (tr ++ [(t, a)]) u

/-- The states some run from `s` ends in. -/
def Reachable (step : σ → α → σ → Prop) (s t : σ) : Prop := ∃ tr, Run step s tr t

theorem Reachable.refl (s : σ) : Reachable step s s := ⟨[], .nil s⟩

theorem Reachable.next {a : α} (h : Reachable step s t) (hs : step t a u) : Reachable step s u := by
  obtain ⟨tr, hr⟩ := h
  exact ⟨_, hr.snoc hs⟩

-- runs compose: the second is appended step by step
theorem Reachable.trans (h₁ : Reachable step s t) (h₂ : Reachable step t u) :
    Reachable step s u := by
  obtain ⟨tr, hr⟩ := h₂
  induction hr with
  | nil => exact h₁
  | snoc _ hs ih => exact ih.next hs

theorem Run.append {tr' : List (σ × α)} (h₁ : Run step s tr t) (h₂ : Run step t tr' u) :
    Run step s (tr ++ tr') u := by
  induction h₂ with
  | nil => simpa using h₁
  | snoc _ hs ih =>
    rw [← List.append_assoc]
    exact ih.snoc hs

/-- An invariant that every step of the run keeps holds at its end. -/
theorem Run.invariant {P : σ → Prop} (h : Run step s tr t) (h0 : P s)
    (hstep : ∀ t a u, (t, a) ∈ tr → P t → step t a u → P u) : P t := by
  induction h with
  | nil => exact h0
  | @snoc t u tr a hr hs ih =>
    refine hstep t a u (by simp) (ih ?_) hs
    intro t' a' u' hmem
    exact hstep t' a' u' (List.mem_append_left _ hmem)

/-- An invariant that every step of the run keeps holds wherever a step is taken. -/
theorem Run.invariant_mem {P : σ → Prop} (h : Run step s tr t) (h0 : P s)
    (hstep : ∀ t a u, (t, a) ∈ tr → P t → step t a u → P u) : ∀ x ∈ tr, P x.1 := by
  induction h with
  | nil => simp
  | @snoc t u tr a hr hs ih =>
    have hpre : ∀ t' a' u', (t', a') ∈ tr → P t' → step t' a' u' → P u' :=
      fun t' a' u' hmem => hstep t' a' u' (List.mem_append_left _ hmem)
    intro x hx
    rcases List.mem_append.mp hx with hx | hx
    · exact ih hpre x hx
    · rw [List.mem_singleton] at hx
      exact hx ▸ hr.invariant h0 hpre

/-- The form of `Run.invariant` for a property every step keeps. -/
theorem Reachable.invariant {P : σ → Prop} (h : Reachable step s t) (h0 : P s)
    (hstep : ∀ t a u, P t → step t a u → P u) : P t := by
  obtain ⟨tr, hr⟩ := h
  exact hr.invariant h0 fun t a u _ => hstep t a u

/-- An invariant of a state and the steps that led to it, where every step meets a condition on the
steps before it. -/
theorem Run.invariant_along {P : List (σ × α) → σ → Prop} {C : List (σ × α) → σ × α → Prop}
    (h : Run step s tr t) (halong : Along C tr) (h0 : P [] s)
    (hstep : ∀ before t a u, C before (t, a) → P before t → step t a u →
      P (before ++ [(t, a)]) u) :
    (∀ x ∈ tr, ∃ before, P before x.1) ∧ P tr t := by
  induction h with
  | nil => exact ⟨by simp, h0⟩
  | @snoc t u tr a hr hs ih =>
    obtain ⟨hbefore, hlast⟩ := along_concat.mp halong
    obtain ⟨hmem, ht⟩ := ih hbefore
    refine ⟨fun x hx => ?_, hstep tr t a u hlast ht hs⟩
    rcases List.mem_append.mp hx with hx | hx
    · exact hmem x hx
    · rw [List.mem_singleton] at hx
      exact ⟨tr, hx ▸ ht⟩

/-- Every label of a run is that of a step. -/
theorem Run.step_of_mem (h : Run step s tr t) {x : σ × α} (hx : x ∈ tr) : ∃ u, step x.1 x.2 u := by
  induction h with
  | nil => simp at hx
  | @snoc t u tr a hr hs ih =>
    rcases List.mem_append.mp hx with hx | hx
    · exact ih hx
    · rw [List.mem_singleton] at hx
      exact ⟨u, hx ▸ hs⟩

theorem Run.start_mem_or_eq (h : Run step s tr t) : t = s ∨ ∃ a, (s, a) ∈ tr := by
  induction h with
  | nil => exact .inl rfl
  | @snoc t u tr a hr hs ih =>
    rcases ih with rfl | ⟨b, hb⟩
    · exact .inr ⟨a, by simp⟩
    · exact .inr ⟨b, List.mem_append_left _ hb⟩

/-- Where a step taken in a state with `P` ends in a state with `P` exactly when `C` holds of it,
all states of a run have `P` exactly when all its steps have `C`. -/
theorem Run.forall_states_iff {P : σ → Prop} {C : σ → α → Prop} (h : Run step s tr t) (h0 : P s)
    (hstep : ∀ t a u, P t → step t a u → (P u ↔ C t a)) :
    ((∀ x ∈ tr, P x.1) ∧ P t) ↔ ∀ x ∈ tr, C x.1 x.2 := by
  induction h with
  | nil => simpa using h0
  | @snoc t u tr a hr hs ih =>
    -- a run with one more step: its states and its steps split the same way
    have hlast : (∀ x ∈ tr ++ [(t, a)], P x.1) ↔ (∀ x ∈ tr, P x.1) ∧ P t := by
      simp [or_imp, forall_and]
    have hsteps : (∀ x ∈ tr ++ [(t, a)], C x.1 x.2) ↔ (∀ x ∈ tr, C x.1 x.2) ∧ C t a := by
      simp [or_imp, forall_and]
    rw [hlast, hsteps, ← ih]
    constructor
    · rintro ⟨hpre, hu⟩
      exact ⟨hpre, (hstep t a u hpre.2 hs).mp hu⟩
    · rintro ⟨hpre, hc⟩
      exact ⟨hpre, (hstep t a u hpre.2 hs).mpr hc⟩

/-- Where steps with `C` keep `P`, and from a state with `P` only a step with `C` ends in a state
with `Q`, a run through states with `Q` takes steps with `C` only. -/
theorem Run.forall_steps_of_states {P Q : σ → Prop} {C : σ → α → Prop} (h : Run step s tr t)
    (h0 : P s) (hkeep : ∀ t a u, P t → step t a u → C t a → P u)
    (hneed : ∀ t a u, P t → step t a u → Q u → C t a) (hpre : ∀ x ∈ tr, Q x.1) (hend : Q t) :
    ∀ x ∈ tr, C x.1 x.2 := by
  induction h with
  | nil => simp
  | @snoc t u tr a hr hs ih =>
    have hsteps : ∀ x ∈ tr, C x.1 x.2 :=
      ih (fun x hx => hpre x (List.mem_append_left _ hx)) (hpre (t, a) (by simp))
    have ht : P t := hr.invariant h0 fun t a u hmem ht hs => hkeep t a u ht hs (hsteps _ hmem)
    intro x hx
    rcases List.mem_append.mp hx with hx | hx
    · exact hsteps x hx
    · rw [List.mem_singleton] at hx
      exact hx ▸ hneed t a u ht hs hend

/-- Steps that are steps of another system under other names make a run of it. -/
theorem Run.relabel {β : Type*} {step' : σ → β → σ → Prop} {f : α → β} (h : Run step s tr t)
    (hf : ∀ s a t, step s a t → step' s (f a) t) : Run step' s (tr.map (Prod.map id f)) t := by
  induction h with
  | nil => exact .nil _
  | snoc _ hs ih =>
    rw [List.map_append]
    exact ih.snoc (hf _ _ _ hs)

/-- What is read off the steps of a run grows by what is read off the last one. -/
theorem filterMap_concat {α β : Type*} (f : α → Option β) (l : List α) (x : α) :
    (l ++ [x]).filterMap f = l.filterMap f ++ (f x).toList := by
  rw [List.filterMap_append]
  cases hx : f x <;> simp [hx]

theorem filterMap_cons {α β : Type*} (f : α → Option β) (l : List α) (x : α) :
    (x :: l).filterMap f = (f x).toList ++ l.filterMap f := by
  cases hx : f x <;> simp [hx]

/-! ## Refinement -/

section Refinement

variable {τ β : Type*} {step' : τ → β → τ → Prop}

/-- The step with this label, or no step and no change. -/
def StepsOrStays (step' : τ → β → τ → Prop) (u : τ) : Option β → τ → Prop
  | some b, v => step' u b v
  | none, v => v = u

/-- What a step shows of itself in another system: where it was taken, and under which label. -/
def shown (abs : σ → τ) (label : σ → α → Option β) (x : σ × α) : Option (τ × β) :=
  (label x.1 x.2).map fun b => (abs x.1, b)

theorem Run.extend {u : τ} {v : τ} {o : Option β} {w : τ} {tr' : List (τ × β)}
    (h : Run step' u tr' v) (hs : StepsOrStays step' v o w) :
    Run step' u (tr' ++ (o.map fun b => (v, b)).toList) w := by
  cases o with
  | none =>
    obtain rfl : w = v := hs
    simpa using h
  | some b => exact h.snoc hs

/-- Where each step, taken from a state with the invariant, is the step of another system that its
label says, or does not show there, what shows of a run is a run. -/
theorem Run.refines (abs : σ → τ) (label : σ → α → Option β) {P : σ → Prop}
    (h : Run step s tr t) (h0 : P s) (hinv : ∀ s a t, P s → step s a t → P t)
    (hsim : ∀ s a t, P s → step s a t → StepsOrStays step' (abs s) (label s a) (abs t)) :
    Run step' (abs s) (tr.filterMap (shown abs label)) (abs t) := by
  induction h with
  | nil => exact .nil _
  | @snoc t u tr a hr hs ih =>
    have ht : P t := hr.invariant h0 fun t a u _ => hinv t a u
    rw [filterMap_concat]
    exact ih.extend (hsim t a u ht hs)

end Refinement

/-- Where every step takes one off a measure, the measure says how many steps there are. -/
theorem Run.length_add_measure {μ : σ → ℕ} (hstep : ∀ s a t, step s a t → μ t + 1 = μ s)
    (h : Run step s tr t) : tr.length + μ t = μ s := by
  induction h with
  | nil => simp
  | snoc _ hs ih =>
    have := hstep _ _ _ hs
    rw [List.length_append, List.length_singleton]
    omega

/-- And the run goes on to a state in which there is no step. -/
theorem exists_run_stuck {μ : σ → ℕ} (hstep : ∀ s a t, step s a t → μ t + 1 = μ s) (s : σ) :
    ∃ tr t, Run step s tr t ∧ ∀ a u, ¬ step t a u := by
  have hrec (n : ℕ) : ∀ tr t, Run step s tr t → μ t = n →
      ∃ tr t, Run step s tr t ∧ ∀ a u, ¬ step t a u := by
    induction n with
    | zero =>
      intro tr t hr hzero
      refine ⟨tr, t, hr, fun a u hs => ?_⟩
      have := hstep _ _ _ hs
      omega
    | succ n ih =>
      intro tr t hr hsucc
      by_cases hstuck : ∀ a u, ¬ step t a u
      · exact ⟨tr, t, hr, hstuck⟩
      · simp only [not_forall, not_not] at hstuck
        obtain ⟨a, u, hs⟩ := hstuck
        refine ih _ u (hr.snoc hs) ?_
        have := hstep _ _ _ hs
        omega
  exact hrec (μ s) [] s (.nil s) rfl

/-! ## Runs of a total step function -/

def StepsBy (f : σ → α → σ) (s : σ) (a : α) (t : σ) : Prop := f s a = t

theorem run_foldl (f : σ → α → σ) (as : List α) (s : σ) :
    ∃ tr, Run (StepsBy f) s tr (as.foldl f s) ∧ tr.map Prod.snd = as := by
  induction as using List.reverseRecOn with
  | nil => exact ⟨[], .nil s, rfl⟩
  | append_singleton as a ih =>
    obtain ⟨tr, hr, hl⟩ := ih
    have hstep : StepsBy f (as.foldl f s) a ((as ++ [a]).foldl f s) := by
      rw [List.foldl_append]
      rfl
    exact ⟨_, hr.snoc hstep, by simp [hl]⟩

theorem reachable_foldl (f : σ → α → σ) (as : List α) (s : σ) :
    Reachable (StepsBy f) s (as.foldl f s) := by
  obtain ⟨tr, hr, -⟩ := run_foldl f as s
  exact ⟨tr, hr⟩

/-! ## Runs of a step function that may fail -/

/-- The step relation of a function that may fail instead of stepping. -/
def StepsTo (f : σ → α → Except ε σ) (s : σ) (a : α) (t : σ) : Prop := f s a = .ok t

/-- Perform a list of labels, stopping at the first failure. -/
def exec (f : σ → α → Except ε σ) : σ → List α → Except ε σ
  | s, [] => .ok s
  | s, a :: as =>
    match f s a with
    | .ok t => exec f t as
    | .error e => .error e

-- performing a list in two parts
theorem exec_append {f : σ → α → Except ε σ} {as bs : List α} (h : exec f s as = .ok t) :
    exec f s (as ++ bs) = exec f t bs := by
  induction as generalizing s with
  | nil =>
    obtain rfl : s = t := by simpa [exec] using h
    rfl
  | cons a as ih =>
    simp only [List.cons_append, exec] at h ⊢
    split at h
    next m hm => exact ih h
    next => simp at h

/-- A run continues with the labels `exec` performs from its end. -/
theorem Run.exec {f : σ → α → Except ε σ} {as : List α} (hr : Run (StepsTo f) s tr t)
    (h : exec f t as = .ok u) :
    ∃ tr', Run (StepsTo f) s (tr ++ tr') u ∧ tr'.map Prod.snd = as := by
  induction as generalizing t tr with
  | nil =>
    obtain rfl : t = u := by simpa [Runs.exec] using h
    exact ⟨[], by simpa using hr, rfl⟩
  | cons a as ih =>
    simp only [Runs.exec] at h
    split at h
    next m hm =>
      obtain ⟨tr', hr', hl⟩ := ih (hr.snoc hm) h
      exact ⟨(t, a) :: tr', by simpa using hr', by simp [hl]⟩
    next => simp at h

/-- What `exec` returns is reached by a run with exactly these labels. -/
theorem run_of_exec {f : σ → α → Except ε σ} {as : List α} (h : exec f s as = .ok t) :
    ∃ tr, Run (StepsTo f) s tr t ∧ tr.map Prod.snd = as := by
  simpa using (Run.nil s).exec h

theorem reachable_of_exec {f : σ → α → Except ε σ} (as : List α) (h : exec f s as = .ok t) :
    Reachable (StepsTo f) s t := by
  obtain ⟨tr, hr, -⟩ := run_of_exec h
  exact ⟨tr, hr⟩

end Runs
