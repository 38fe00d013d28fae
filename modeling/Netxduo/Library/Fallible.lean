import Mathlib

/-! Fallible steps one after the other: what their success, or the absence of an error, says of each. -/

namespace Fallible

variable {ε α β : Type} {e : ε} {x : Except ε α} {f : α → Except ε β}

/-- A chain succeeds just where its first step does and the rest succeeds from there. --/
theorem bind_ok {b : β} : x >>= f = .ok b ↔ ∃ a, x = .ok a ∧ f a = .ok b := by
  cases x with
  | error e' => exact ⟨(fun h => by cases h), fun ⟨_, h, _⟩ => by cases h⟩
  | ok a => exact ⟨fun h => ⟨a, rfl, h⟩, fun ⟨_, ha, h⟩ => by rwa [← Except.ok.inj ha] at h⟩

/-- An error that no step returns is not returned by the chain. --/
theorem bind_ne (hx : x ≠ .error e) (hf : ∀ a, x = .ok a → f a ≠ .error e) : x >>= f ≠ .error e := by
  cases x with
  | error e' => exact fun h => hx (congrArg Except.error (Except.error.inj h))
  | ok a => exact hf a rfl

end Fallible
