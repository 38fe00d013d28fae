import Mathlib.Data.List.Basic
import Mathlib.Order.Defs.Unbundled

/-! A list searched from its head, where the element that is found is changed and moved to the head. -/

namespace MoveToFront

variable {α : Type*} {p : α → Bool} {f : α → α} {R : α → α → Prop} {q : α → Prop} {a b : α} {l l' : List α}

/-- The first element of `l` that passes `p`, changed by `f`, and the list with it at the head. --/
def toFront (p : α → Bool) (f : α → α) (l : List α) : Option (α × List α) :=
  (l.find? p).map fun a => (f a, f a :: l.eraseP p)

theorem toFront_none (h : toFront p f l = none) (ha : a ∈ l) : p a = false := by
  rw [toFront, Option.map_eq_none_iff, List.find?_eq_none] at h
  exact Bool.eq_false_iff.mpr (h a ha)

/-- What is found is the first to pass; the others keep their order behind it. --/
theorem toFront_some (h : toFront p f l = some (b, l')) :
    ∃ a before after, l = before ++ a :: after ∧ (∀ x ∈ before, p x = false) ∧ p a = true ∧ b = f a ∧
      l' = f a :: (before ++ after) := by
  obtain ⟨a, hfind, hpair⟩ := Option.map_eq_some_iff.mp h
  obtain ⟨rfl, rfl⟩ := Prod.mk.inj hpair
  obtain ⟨hp, before, after, rfl, hbefore⟩ := List.find?_eq_some_iff_append.mp hfind
  have hskip : ∀ x ∈ before, p x = false := fun x hx => by simpa using hbefore x hx
  refine ⟨a, before, after, rfl, hskip, hp, rfl, ?_⟩
  rw [List.eraseP_append_right _ fun x hx => Bool.eq_false_iff.mp (hskip x hx), List.eraseP_cons_of_pos hp]

/-- If a single element passes, it is the one that is found. --/
theorem toFront_unique (ha : a ∈ l) (hp : p a = true) (honly : ∀ x ∈ l, p x = true → x = a) :
    ∃ l', toFront p f l = some (f a, l') := by
  cases h : toFront p f l with
  | none =>
    rw [toFront_none h ha] at hp
    cases hp
  | some found =>
    obtain ⟨b, l'⟩ := found
    obtain ⟨x, before, after, rfl, -, hx, rfl, -⟩ := toFront_some h
    rw [honly x (by simp) hx]
    exact ⟨l', rfl⟩

theorem toFront_forall (h : toFront p f l = some (b, l')) (hq : ∀ x ∈ l, q x) (hf : ∀ x, q x → q (f x)) :
    ∀ x ∈ l', q x := by
  obtain ⟨a, before, after, rfl, -, -, -, rfl⟩ := toFront_some h
  intro x hx
  rcases List.mem_cons.mp hx with rfl | hx
  · exact hf a (hq a (by simp))
  · rcases List.mem_append.mp hx with hx | hx
    · exact hq x (by simp [hx])
    · exact hq x (by simp [hx])

/-- Every element stays in the list, changed if it is the one that was found. --/
theorem toFront_kept (h : toFront p f l = some (b, l')) (ha : a ∈ l) : a ∈ l' ∨ f a ∈ l' := by
  obtain ⟨c, before, after, rfl, -, -, -, rfl⟩ := toFront_some h
  rcases List.mem_append.mp ha with ha | ha
  · exact .inl (by simp [ha])
  · rcases List.mem_cons.mp ha with rfl | ha
    · exact .inr (by simp)
    · exact .inl (by simp [ha])

/-- A relation between any two elements, which the change does not disturb, holds of the new list. --/
theorem toFront_pairwise (h : toFront p f l = some (b, l')) (hR : l.Pairwise R) (hsymm : ∀ x y, R x y → R y x)
    (hf : ∀ x y, R x y → R (f x) y) : l'.Pairwise R := by
  obtain ⟨a, before, after, rfl, -, -, -, rfl⟩ := toFront_some h
  rw [List.pairwise_append, List.pairwise_cons] at hR
  obtain ⟨hbefore, ⟨ha, hafter⟩, hcross⟩ := hR
  rw [List.pairwise_cons, List.pairwise_append]
  refine ⟨fun x hx => hf a x ?_, hbefore, hafter, fun x hx y hy => hcross x hx y (by simp [hy])⟩
  rcases List.mem_append.mp hx with hx | hx
  · exact hsymm x a (hcross x hx a (by simp))
  · exact ha x hx

/-- Removing the first element to pass removes no other. --/
theorem mem_eraseP_of_find (h : l.find? p = some a) (hb : b ∈ l) (hne : b ≠ a) : b ∈ l.eraseP p := by
  obtain ⟨hp, before, after, rfl, hbefore⟩ := List.find?_eq_some_iff_append.mp h
  have hskip : ∀ x ∈ before, ¬ p x = true := fun x hx => by simpa using hbefore x hx
  rw [List.eraseP_append_right _ hskip, List.eraseP_cons_of_pos hp]
  rcases List.mem_append.mp hb with hb | hb
  · exact List.mem_append_left _ hb
  · exact List.mem_append_right _ ((List.mem_cons.mp hb).resolve_left hne)

end MoveToFront
