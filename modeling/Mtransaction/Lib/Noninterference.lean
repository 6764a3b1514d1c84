import Mtransaction.Lib.Runs

/-!
# What one observer sees of a run

An observer sees part of every state.  Steps that do not concern him leave that part alone, and
those that do are possible, with the same outcome, in all states that look the same to him.  Then
what he sees at the end of a run is determined by the steps that concern him, and the others might
as well not have been taken.
-/

namespace Noninterference

open Runs

variable {σ α ν : Type*} {step : σ → α → σ → Prop} {view : σ → ν} {concerns : α → Bool}
  {s t t' : σ} {tr tr' : List (σ × α)}

structure Unwinds (step : σ → α → σ → Prop) (view : σ → ν) (concerns : α → Bool) : Prop where
  hidden : ∀ s a t, step s a t → concerns a = false → view t = view s
  matched : ∀ s a t s', step s a t → concerns a → view s' = view s →
    ∃ t', step s' a t' ∧ view t' = view t

/-- The run without the steps that do not concern the observer. -/
theorem Unwinds.purge (h : Unwinds step view concerns) (hr : Run step s tr t) :
    ∃ tr' t', Run step s tr' t' ∧
      tr'.map Prod.snd = (tr.map Prod.snd).filter concerns ∧ view t' = view t := by
  induction hr with
  | nil => exact ⟨[], s, .nil s, rfl, rfl⟩
  | @snoc t u tr a _ hs ih =>
    obtain ⟨tr', t', hr', hlabels, hview⟩ := ih
    cases ha : concerns a with
    | false =>
      refine ⟨tr', t', hr', ?_, hview.trans (h.hidden t a u hs ha).symm⟩
      simp [hlabels, ha]
    | true =>
      obtain ⟨u', hs', hview'⟩ := h.matched t a u t' hs ha hview
      exact ⟨_, u', hr'.snoc hs', by simp [hlabels, ha], hview'⟩

/-- Deterministic steps with the same labels end in the same state. -/
theorem end_unique (hdet : ∀ s a t t', step s a t → step s a t' → t = t') (hr : Run step s tr t)
    (hr' : Run step s tr' t') (hlabels : tr'.map Prod.snd = tr.map Prod.snd) : t' = t := by
  induction hr generalizing tr' t' with
  | nil =>
    cases hr' with
    | nil => rfl
    | snoc => simp at hlabels
  | @snoc t u tr a _ hs ih =>
    cases hr' with
    | nil => simp at hlabels
    | @snoc _ v tr' b hr' hs' =>
      simp only [List.map_append, List.map_cons, List.map_nil] at hlabels
      obtain ⟨hpre, hlast⟩ := List.append_inj' hlabels rfl
      obtain rfl : b = a := by simpa using hlast
      obtain rfl := ih hr' hpre
      exact hdet _ _ _ _ hs' hs

/-- Runs that agree on the steps that concern the observer look the same to him at their ends. -/
theorem Unwinds.view_eq (h : Unwinds step view concerns)
    (hdet : ∀ s a t t', step s a t → step s a t' → t = t') (hr : Run step s tr t)
    (hr' : Run step s tr' t')
    (hlabels : (tr'.map Prod.snd).filter concerns = (tr.map Prod.snd).filter concerns) :
    view t' = view t := by
  obtain ⟨_, u, hpurged, hpurge, hview⟩ := h.purge hr
  obtain ⟨_, u', hpurged', hpurge', hview'⟩ := h.purge hr'
  obtain rfl : u' = u := end_unique hdet hpurged hpurged' (by rw [hpurge, hpurge', hlabels])
  rw [← hview, hview']

end Noninterference
