import Mathlib.Data.Set.Basic
import Mathlib.Data.Int.Order.Basic
import Mathlib.Order.Interval.Set.Basic

/-! Lists of half-open integer spans: ascending and disjoint ones, the ones that tile an interval, and
    the set of numbers a list covers. -/

namespace Spans

/-- `[lo, hi)`. --/
abbrev Span := Int × Int

/-! ### Ascending lists -/

/-- The spans are non-empty, ascend without overlap, and lie inside `[a, b)`. --/
def Ordered (a : Int) : List Span → Int → Prop
  | [], b => a ≤ b
  | s :: l, b => a ≤ s.1 ∧ s.1 < s.2 ∧ Ordered s.2 l b

variable {a a' b b' m : Int} {s : Span} {l l₁ l₂ : List Span}

@[simp] theorem ordered_nil : Ordered a [] b ↔ a ≤ b := Iff.rfl

@[simp] theorem ordered_cons : Ordered a (s :: l) b ↔ a ≤ s.1 ∧ s.1 < s.2 ∧ Ordered s.2 l b := Iff.rfl

theorem Ordered.le (h : Ordered a l b) : a ≤ b := by
  induction l generalizing a with
  | nil => exact h
  | cons s l ih =>
    obtain ⟨h₁, h₂, h₃⟩ := h
    have := ih h₃
    omega

theorem Ordered.lower (h : Ordered a l b) (ha : a' ≤ a) : Ordered a' l b := by
  cases l with
  | nil => exact Int.le_trans ha h
  | cons s l => exact ⟨Int.le_trans ha h.1, h.2⟩

theorem Ordered.upper (h : Ordered a l b) (hb : b ≤ b') : Ordered a l b' := by
  induction l generalizing a with
  | nil => exact Int.le_trans h hb
  | cons s l ih => exact ⟨h.1, h.2.1, ih h.2.2⟩

theorem ordered_append : Ordered a (l₁ ++ l₂) b ↔ ∃ m, Ordered a l₁ m ∧ Ordered m l₂ b := by
  induction l₁ generalizing a with
  | nil =>
    constructor
    · intro h
      exact ⟨a, Int.le_refl a, h⟩
    · rintro ⟨m, hm, h⟩
      exact h.lower hm
  | cons s l₁ ih =>
    simp only [List.cons_append, ordered_cons, ih]
    constructor
    · rintro ⟨h₁, h₂, m, h₃, h₄⟩
      exact ⟨m, ⟨h₁, h₂, h₃⟩, h₄⟩
    · rintro ⟨m, ⟨h₁, h₂, h₃⟩, h₄⟩
      exact ⟨h₁, h₂, m, h₃, h₄⟩

theorem Ordered.mem (h : Ordered a l b) (hs : s ∈ l) : a ≤ s.1 ∧ s.1 < s.2 ∧ s.2 ≤ b := by
  induction l generalizing a with
  | nil => cases hs
  | cons t l ih =>
    obtain ⟨h₁, h₂, h₃⟩ := h
    rcases List.mem_cons.mp hs with rfl | hs
    · exact ⟨h₁, h₂, h₃.le⟩
    · have := ih h₃ hs
      omega

theorem Ordered.length_le (h : Ordered a l b) : (l.length : Int) ≤ b - a := by
  induction l generalizing a with
  | nil =>
    have : a ≤ b := h
    simp
    omega
  | cons s l ih =>
    have := ih h.2.2
    have h₁ := h.1
    have h₂ := h.2.1
    simp only [List.length_cons, Int.natCast_add, Int.natCast_one]
    omega

/-! ### Tilings -/

/-- The spans are non-empty and tile `[a, b)`. --/
def Tiles (a : Int) : List Span → Int → Prop
  | [], b => a = b
  | s :: l, b => s.1 = a ∧ s.1 < s.2 ∧ Tiles s.2 l b

@[simp] theorem tiles_nil : Tiles a [] b ↔ a = b := Iff.rfl

@[simp] theorem tiles_cons : Tiles a (s :: l) b ↔ s.1 = a ∧ s.1 < s.2 ∧ Tiles s.2 l b := Iff.rfl

theorem Tiles.ordered (h : Tiles a l b) : Ordered a l b := by
  induction l generalizing a with
  | nil => exact Int.le_of_eq h
  | cons s l ih => exact ⟨Int.le_of_eq h.1.symm, h.2.1, ih h.2.2⟩

theorem tiles_append : Tiles a (l₁ ++ l₂) b ↔ ∃ m, Tiles a l₁ m ∧ Tiles m l₂ b := by
  induction l₁ generalizing a with
  | nil => simp
  | cons s l₁ ih =>
    simp only [List.cons_append, tiles_cons, ih]
    constructor
    · rintro ⟨h₁, h₂, m, h₃, h₄⟩
      exact ⟨m, ⟨h₁, h₂, h₃⟩, h₄⟩
    · rintro ⟨m, ⟨h₁, h₂, h₃⟩, h₄⟩
      exact ⟨h₁, h₂, m, h₃, h₄⟩

theorem Tiles.last (h : Tiles a (l ++ [s]) b) : s.2 = b := by
  obtain ⟨m, -, h⟩ := tiles_append.mp h
  exact h.2.2

/-! ### Translation -/

/-- Every span moved by `k`. --/
def shift (k : Int) (l : List Span) : List Span := l.map fun s => (s.1 + k, s.2 + k)

theorem ordered_shift (k : Int) : Ordered (a + k) (shift k l) (b + k) ↔ Ordered a l b := by
  induction l generalizing a with
  | nil => simp [shift]
  | cons s l ih =>
    have h := ih (a := s.2)
    simp only [shift, List.map_cons, ordered_cons] at h ⊢
    rw [h]
    exact and_congr (by omega) (and_congr (by omega) Iff.rfl)

theorem tiles_shift (k : Int) : Tiles (a + k) (shift k l) (b + k) ↔ Tiles a l b := by
  induction l generalizing a with
  | nil => simp [shift]
  | cons s l ih =>
    have h := ih (a := s.2)
    simp only [shift, List.map_cons, tiles_cons] at h ⊢
    rw [h]
    exact and_congr (by omega) (and_congr (by omega) Iff.rfl)

end Spans
