import Mathlib.Data.List.Basic

/-!
# Runs of Mealy machines

A Mealy machine answers each input with an output and a next state.  Its runs
are traces of inputs and outputs; a run may be restricted to steps a condition
on the state and the input allows.
-/

namespace Foundation.Mealy

variable {σ ι ο : Type*}

/-- The runs from `s₀` whose steps are all allowed, with the state they reach. -/
inductive Runs (step : σ → ι → ο × σ) (allowed : σ → ι → Prop) (s₀ : σ) :
    List (ι × ο) → σ → Prop where
  | nil : Runs step allowed s₀ [] s₀
  | snoc {trace : List (ι × ο)} {s : σ} (h : Runs step allowed s₀ trace s) {i : ι}
      (hi : allowed s i) : Runs step allowed s₀ (trace ++ [(i, (step s i).1)]) (step s i).2

variable {step : σ → ι → ο × σ} {allowed : σ → ι → Prop} {s₀ : σ}

theorem Runs.snoc_eq {trace : List (ι × ο)} {s s' : σ} {i : ι} {o : ο}
    (h : Runs step allowed s₀ trace s) (hi : allowed s i) (hstep : step s i = (o, s')) :
    Runs step allowed s₀ (trace ++ [(i, o)]) s' := by
  have hnext := h.snoc hi
  rwa [hstep] at hnext

/-- What holds at first and is kept by every allowed step holds along every run. -/
theorem Runs.invariant {I : List (ι × ο) → σ → Prop} (hinit : I [] s₀)
    (hstep : ∀ trace s i, I trace s → allowed s i →
      I (trace ++ [(i, (step s i).1)]) (step s i).2)
    {trace : List (ι × ο)} {s : σ} (h : Runs step allowed s₀ trace s) : I trace s := by
  induction h with
  | nil => exact hinit
  | snoc _ hi ih => exact hstep _ _ _ ih hi

theorem Runs.mono {allowed' : σ → ι → Prop} (hle : ∀ s i, allowed s i → allowed' s i)
    {trace : List (ι × ο)} {s : σ} (h : Runs step allowed s₀ trace s) :
    Runs step allowed' s₀ trace s := by
  induction h with
  | nil => exact .nil
  | snoc _ hi ih => exact .snoc ih (hle _ _ hi)

/-- The last step of a run. -/
theorem Runs.of_snoc {trace : List (ι × ο)} {i : ι} {o : ο} {s' : σ}
    (h : Runs step allowed s₀ (trace ++ [(i, o)]) s') :
    ∃ s, Runs step allowed s₀ trace s ∧ allowed s i ∧ step s i = (o, s') := by
  generalize htrace : trace ++ [(i, o)] = trace' at h
  cases h with
  | nil => simp at htrace
  | @snoc trace' s h i' hi =>
      obtain ⟨rfl, hlast⟩ := List.append_inj' htrace rfl
      obtain ⟨rfl, rfl⟩ := Prod.mk.inj (List.cons.inj hlast).1
      exact ⟨s, h, hi, rfl⟩

end Foundation.Mealy
