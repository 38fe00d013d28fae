import Mathlib
import Netxduo.Library.Spans

/-! What a list of spans covers, and the subtraction of spans from an interval. -/

namespace Spans

variable {a a' b m n : Int} {s : Span} {l l₁ l₂ : List Span}

/-! ### Coverage -/

/-- The numbers in the spans. --/
def covers (l : List Span) : Set Int := {n | ∃ s ∈ l, s.1 ≤ n ∧ n < s.2}

@[simp] theorem covers_nil : covers [] = ∅ := by
  ext n
  simp [covers]

@[simp] theorem covers_cons : covers (s :: l) = Set.Ico s.1 s.2 ∪ covers l := by
  ext n
  simp [covers, Set.mem_Ico]

@[simp] theorem covers_append : covers (l₁ ++ l₂) = covers l₁ ∪ covers l₂ := by
  induction l₁ with
  | nil => simp
  | cons s l₁ ih => rw [List.cons_append, covers_cons, ih, covers_cons, Set.union_assoc]

theorem Ordered.covers_subset (h : Ordered a l b) : covers l ⊆ Set.Ico a b := by
  rintro n ⟨s, hs, h₁, h₂⟩
  have := h.mem hs
  exact ⟨by omega, by omega⟩

theorem not_covers_below (h : ∀ t ∈ l, n < t.1) : n ∉ covers l := by
  rintro ⟨t, ht, h₁, -⟩
  have := h t ht
  omega

/-! ### Subtraction -/

/-- `[a, b)` as a list: nothing where it is empty. --/
def keep (a b : Int) : List Span := if a < b then [(a, b)] else []

theorem ordered_keep (ha : a' ≤ a) (hb : b ≤ m) (h : a' ≤ m) : Ordered a' (keep a b) m := by
  unfold keep
  split
  · exact ⟨ha, by assumption, hb⟩
  · exact h

@[simp] theorem covers_keep : covers (keep a b) = Set.Ico a b := by
  unfold keep
  split
  · simp
  · rw [covers_nil, Set.Ico_eq_empty (by omega)]

/-- `[a, b)` without the spans of `l`, which ascend. --/
def subtract (a b : Int) : List Span → List Span
  | [] => keep a b
  | s :: l =>
    if a < b then
      if s.2 ≤ a then subtract a b l
      else if b ≤ s.1 then keep a b
      else keep a s.1 ++ subtract s.2 b l
    else []

theorem subtract_empty (h : b ≤ a) : subtract a b l = [] := by
  cases l with
  | nil => exact if_neg (by omega)
  | cons s l => exact if_neg (by omega)

/-- What is left lies in order inside the interval, whatever the order of the spans. --/
theorem ordered_subtract (hl : ∀ s ∈ l, s.1 ≤ s.2 ∨ s.2 ≤ a) (ha : a' ≤ a) (hb : a' ≤ b) :
    Ordered a' (subtract a b l) b := by
  induction l generalizing a a' with
  | nil => exact ordered_keep ha (Int.le_refl b) hb
  | cons s l ih =>
    unfold subtract
    have htail : ∀ t ∈ l, t.1 ≤ t.2 ∨ t.2 ≤ a := fun t ht => hl t (List.mem_cons_of_mem s ht)
    split
    · split
      · exact ih htail ha hb
      split
      · exact ordered_keep ha (Int.le_refl b) hb
      · have hs : s.1 ≤ s.2 := by
          rcases hl s List.mem_cons_self with h | h
          · exact h
          · omega
        have hfar : ∀ t ∈ l, t.1 ≤ t.2 ∨ t.2 ≤ s.2 := fun t ht => (htail t ht).imp_right (by omega)
        rw [ordered_append]
        by_cases hgap : a < s.1
        · exact ⟨s.1, ordered_keep ha (Int.le_refl _) (by omega), ih hfar hs (by omega)⟩
        · have hnone : keep a s.1 = [] := if_neg hgap
          rw [hnone]
          exact ⟨a', Int.le_refl a', ih hfar (by omega) hb⟩
    · exact hb

/-- Subtracting ascending spans removes just what they cover. --/
theorem covers_subtract (hl : l.Pairwise fun s t => s.1 ≤ t.1) :
    covers (subtract a b l) = Set.Ico a b \ covers l := by
  induction l generalizing a with
  | nil => simp [subtract]
  | cons s l ih =>
    obtain ⟨hs, hl⟩ := List.pairwise_cons.mp hl
    have hbelow : ∀ {n : Int}, n < s.1 → n ∉ covers l := fun hn => not_covers_below fun t ht => by
      have := hs t ht
      omega
    unfold subtract
    ext n
    rw [covers_cons, Set.mem_sdiff, Set.mem_union, Set.mem_Ico, Set.mem_Ico]
    split
    · split
      · rw [ih hl, Set.mem_sdiff, Set.mem_Ico]
        constructor
        · rintro ⟨h₁, h₂⟩
          exact ⟨h₁, fun h => h.elim (by omega) h₂⟩
        · rintro ⟨h₁, h₂⟩
          exact ⟨h₁, fun h => h₂ (.inr h)⟩
      split
      · rw [covers_keep, Set.mem_Ico]
        constructor
        · intro h
          exact ⟨h, fun h' => h'.elim (by omega) (hbelow (by omega))⟩
        · exact fun h => h.1
      · rw [covers_append, covers_keep, ih hl, Set.mem_union, Set.mem_sdiff, Set.mem_Ico, Set.mem_Ico]
        constructor
        · rintro (h | ⟨h, hno⟩)
          · exact ⟨⟨h.1, by omega⟩, fun h' => h'.elim (by omega) (hbelow h.2)⟩
          · exact ⟨⟨by omega, h.2⟩, fun h' => h'.elim (by omega) hno⟩
        · rintro ⟨h, hno⟩
          rw [not_or] at hno
          by_cases hn : n < s.1
          · exact .inl ⟨h.1, hn⟩
          · exact .inr ⟨⟨by omega, h.2⟩, hno.2⟩
    · rw [covers_nil]
      constructor
      · exact fun h => h.elim
      · rintro ⟨h, -⟩
        omega

end Spans
