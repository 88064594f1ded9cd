import Mathlib.Tactic.Common

namespace Attempts

variable {α σ τ : Type}

/-- The steps of the list up to the first one that fails in the state reached: that step, if there
is one, with what it leaves. -/
def attempts (fails : α → σ → Bool) (run undo : α → σ → σ) : List α → σ → Option α × σ
  | [], s => (none, s)
  | a :: rest, s =>
    if fails a s then (some a, undo a s) else attempts fails run undo rest (run a s)

variable {fails : α → σ → Bool} {run undo : α → σ → σ} {fails' : α → τ → Bool}
  {run' undo' : α → τ → τ} {a : α} {rest steps : List α} {s : σ} {t : τ}

@[simp] theorem attempts_nil : attempts fails run undo [] s = (none, s) := rfl

theorem attempts_of_fails (h : fails a s = true) :
    attempts fails run undo (a :: rest) s = (some a, undo a s) := by
  rw [attempts, if_pos h]

theorem attempts_of_runs (h : fails a s = false) :
    attempts fails run undo (a :: rest) s = attempts fails run undo rest (run a s) := by
  rw [attempts, if_neg (by rw [h]; exact Bool.false_ne_true)]

theorem attempts_append {more : List α} : attempts fails run undo (steps ++ more) s =
    if (attempts fails run undo steps s).1.isSome then attempts fails run undo steps s
    else attempts fails run undo more (attempts fails run undo steps s).2 := by
  induction steps generalizing s with
  | nil => rfl
  | cons a rest ih =>
    rw [List.cons_append]
    cases hf : fails a s with
    | false => rw [attempts_of_runs hf, attempts_of_runs hf, ih]
    | true =>
      rw [attempts_of_fails hf, attempts_of_fails hf]
      rfl

/-- Where no step fails, all have been taken. -/
theorem attempts_of_none (h : (attempts fails run undo steps s).1 = none) :
    (attempts fails run undo steps s).2 = steps.foldl (fun s a => run a s) s := by
  induction steps generalizing s with
  | nil => rfl
  | cons a rest ih =>
    cases hf : fails a s with
    | false =>
      rw [attempts_of_runs hf] at h ⊢
      exact ih h
    | true =>
      rw [attempts_of_fails hf] at h
      cases h

/-- What the steps to come rely on is kept by each step that succeeds. -/
theorem attempts_rule {I : List α → σ → Prop} {F : α → σ → Prop}
    (hrun : ∀ a rest s, I (a :: rest) s → fails a s = false → I rest (run a s))
    (hundo : ∀ a rest s, I (a :: rest) s → fails a s = true → F a (undo a s)) (hs : I steps s) :
    ((attempts fails run undo steps s).1 = none → I [] (attempts fails run undo steps s).2) ∧
      ∀ a, (attempts fails run undo steps s).1 = some a → F a (attempts fails run undo steps s).2 := by
  induction steps generalizing s with
  | nil => exact ⟨fun _ => hs, fun a ha => (by cases ha)⟩
  | cons a rest ih =>
    cases hf : fails a s with
    | false =>
      rw [attempts_of_runs hf]
      exact ih (hrun a rest s hs hf)
    | true =>
      rw [attempts_of_fails hf]
      refine ⟨fun h => (by cases h), fun b hb => ?_⟩
      cases hb
      exact hundo a rest s hs hf

/-- Two systems that fail alike and stay related come to the same end. -/
theorem attempts_simulates {R : List α → σ → τ → Prop}
    (hfails : ∀ a rest s t, R (a :: rest) s t → fails a s = fails' a t)
    (hrun : ∀ a rest s t, R (a :: rest) s t → fails a s = false → R rest (run a s) (run' a t))
    (hst : R steps s t) :
    (attempts fails run undo steps s).1 = (attempts fails' run' undo' steps t).1 ∧
      ((attempts fails run undo steps s).1 = none →
        R [] (attempts fails run undo steps s).2 (attempts fails' run' undo' steps t).2) := by
  induction steps generalizing s t with
  | nil => exact ⟨rfl, fun _ => hst⟩
  | cons a rest ih =>
    have hf' := hfails a rest s t hst
    cases hf : fails a s with
    | false =>
      rw [attempts_of_runs hf, attempts_of_runs (hf'.symm.trans hf)]
      exact ih (hrun a rest s t hst hf)
    | true =>
      rw [attempts_of_fails hf, attempts_of_fails (hf'.symm.trans hf)]
      exact ⟨rfl, fun h => (by cases h)⟩

end Attempts
