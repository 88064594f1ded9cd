import Mathlib.Data.List.Basic

namespace Runs

variable {σ ℓ : Type}

/-- The runs of `step`, with the labels taken on the way. -/
inductive Run (step : σ → ℓ → σ → Prop) : σ → List ℓ → σ → Prop
  | nil {s} : Run step s [] s
  | snoc {s t u ls l} : Run step s ls t → step t l u → Run step s (ls ++ [l]) u

/-- Only the steps whose label is allowed in the state they start from. -/
def Under (C : σ → ℓ → Prop) (step : σ → ℓ → σ → Prop) (s : σ) (l : ℓ) (t : σ) : Prop :=
  C s l ∧ step s l t

variable {step : σ → ℓ → σ → Prop} {C : σ → ℓ → Prop} {s t u : σ} {ls : List ℓ}

/-- What holds at the start and is kept by every step holds at the end of every run. -/
theorem Run.invariant {I : σ → Prop} (h : Run step s ls t) (start : I s)
    (keep : ∀ a l b, I a → step a l b → I b) : I t := by
  induction h with
  | nil => exact start
  | snoc _ hstep ih => exact keep _ _ _ ih hstep

/-- The last step of a run. -/
theorem Run.last {l : ℓ} (h : Run step s (ls ++ [l]) u) : ∃ t, Run step s ls t ∧ step t l u := by
  generalize hms : ls ++ [l] = ms at h
  cases h with
  | nil => simp at hms
  | snoc hrun hstep =>
    obtain ⟨rfl, hl⟩ := List.append_inj' hms rfl
    cases hl
    exact ⟨_, hrun, hstep⟩

/-- Where a label leads to one state at most, so does a run. -/
theorem Run.unique (hstep : ∀ a l b c, step a l b → step a l c → b = c) (h : Run step s ls t)
    (h' : Run step s ls u) : t = u := by
  induction h generalizing u with
  | nil =>
    generalize hms : [] = ms at h'
    cases h' with
    | nil => rfl
    | snoc => simp at hms
  | snoc _ hlast ih =>
    obtain ⟨v, hrun, hlast'⟩ := h'.last
    obtain rfl := ih hrun
    exact hstep _ _ _ _ hlast hlast'

theorem Run.append {ms : List ℓ} (h : Run step s ls t) (h' : Run step t ms u) :
    Run step s (ls ++ ms) u := by
  induction h' with
  | nil => simpa using h
  | snoc _ hstep ih => simpa [← List.append_assoc] using Run.snoc ih hstep

theorem Run.mono {step' : σ → ℓ → σ → Prop} (h : Run step s ls t)
    (sub : ∀ a l b, step a l b → step' a l b) : Run step' s ls t := by
  induction h with
  | nil => exact Run.nil
  | snoc _ hstep ih => exact Run.snoc ih (sub _ _ _ hstep)

/-- The same where the steps are taken in states that an invariant holds of. -/
theorem Run.mono_within {I : σ → Prop} {step' : σ → ℓ → σ → Prop} (h : Run step s ls t) (start : I s)
    (keep : ∀ a l b, I a → step a l b → I b) (sub : ∀ a l b, I a → step a l b → step' a l b) :
    Run step' s ls t := by
  induction h with
  | nil => exact Run.nil
  | snoc hrun hstep ih => exact Run.snoc ih (sub _ _ _ (hrun.invariant start keep) hstep)

end Runs
