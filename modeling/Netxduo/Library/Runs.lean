import Mathlib.Logic.Basic

/-! Runs of a deterministic system: a list of actions, each one allowed in the state it meets. -/

namespace Runs

variable {σ α : Type*} {step : σ → α → σ} {ok ok' : σ → α → Prop} {s₀ s : σ} {actions : List α}

/-- From `s₀` the actions lead to a state, and the environment allows each of them where it happens. --/
inductive Run (step : σ → α → σ) (ok : σ → α → Prop) (s₀ : σ) : List α → σ → Prop
  | start : Run step ok s₀ [] s₀
  | next {actions : List α} {s : σ} {a : α} :
      Run step ok s₀ actions s → ok s a → Run step ok s₀ (actions ++ [a]) (step s a)

/-- What holds at the start, and is kept by every step from a state where it holds, holds after every run. --/
theorem Run.invariant {P : List α → σ → Prop} (h : Run step ok s₀ actions s) (hstart : P [] s₀)
    (hnext : ∀ actions s a, P actions s → ok s a → P (actions ++ [a]) (step s a)) : P actions s := by
  induction h with
  | start => exact hstart
  | next _ hok ih => exact hnext _ _ _ ih hok

/-- An environment that allows less has fewer runs. --/
theorem Run.mono (h : Run step ok s₀ actions s) (hok : ∀ s a, ok s a → ok' s a) : Run step ok' s₀ actions s := by
  induction h with
  | start => exact .start
  | next _ ha ih => exact ih.next (hok _ _ ha)

/-- A run of one action. --/
theorem Run.single {a : α} (h : ok s₀ a) : Run step ok s₀ [a] (step s₀ a) := Run.next .start h

end Runs
