import Netxduo.Tcp.Scoreboard

/-! The scoreboard seen from the cumulative acknowledgment: holes and blocks as spans, a rebuild as the subtraction
    of the blocks. -/

namespace Netxduo
open Serial Spans SackRecovery

/-! ### Positions -/

def SackHole.span (r : ULONG) (h : SackHole) : Span := (rel r h.left, rel r h.right)

def SackBlock.span (r : ULONG) (b : SackBlock) : Span := (rel r b.left, rel r b.right)

/-- The retransmission cursor lies inside the hole. --/
def SackHole.Clamped (r : ULONG) (h : SackHole) : Prop :=
  rel r h.left ≤ rel r h.rxmit ∧ rel r h.rxmit ≤ rel r h.right

/-- What a block says of the `D` octets in flight above `r`: it reports some of them, or it lies so far ahead that
    its right edge reads as a number at or below `r`, and none. --/
structure Evidence (r : ULONG) (D : Int) (b : SackBlock) : Prop where
  above : 0 < rel r b.left
  sound : (rel r b.left < rel r b.right ∧ rel r b.right ≤ D) ∨
    (D < rel r b.left ∧ D - 2 ^ 31 < rel r b.right ∧ rel r b.right ≤ 0)

section
variable {r left right rxmit x y : ULONG} {D : Int} {b : SackBlock} {blocks : List SackBlock} {h : SackHole}

theorem rel_bounds (r x : ULONG) : -2 ^ 31 ≤ rel r x ∧ rel r x < 2 ^ 31 := by
  have h₁ := le_two_mul_rel r x
  have h₂ := two_mul_rel_lt r x
  omega

/-- The comparison of two numbers, where they are not too far apart. --/
theorem int_sub_rel (h₁ : -2 ^ 31 ≤ rel r x - rel r y) (h₂ : rel r x - rel r y < 2 ^ 31) :
    INT (x - y) = rel r x - rel r y :=
  toInt_sub_eq (w := 32) (by omega) (by omega)

theorem Evidence.int_right (h : Evidence r D b) (h₁ : 0 ≤ rel r left) (h₂ : rel r left ≤ D) (hD : D < 2 ^ 30) :
    INT (b.right - left) = rel r b.right - rel r left := by
  have habove := h.above
  rcases h.sound with ⟨hlt, hle⟩ | ⟨-, hlow, hle⟩
  · exact int_sub_rel (by omega) (by omega)
  · exact int_sub_rel (by omega) (by omega)

theorem Evidence.int_left (h : Evidence r D b) (h₁ : 0 ≤ rel r right) (h₂ : rel r right ≤ D) (hD : D < 2 ^ 30) :
    INT (b.left - right) = rel r b.left - rel r right := by
  have hb := rel_bounds r b.left
  have := h.above
  apply int_sub_rel
  · omega
  · omega

/-! ### A hole -/

/-- Whatever the cursor was, it is brought inside. --/
theorem sackClamp_inside (hl : -2 ^ 30 < rel r left) (hlt : rel r left < rel r right) (hr : rel r right < 2 ^ 30)
    (rxmit : ULONG) :
    rel r left ≤ rel r (sackClamp left right rxmit) ∧ rel r (sackClamp left right rxmit) ≤ rel r right := by
  have hw : rel left right = rel r right - rel r left := rel_rebase (by omega) (by omega)
  unfold sackClamp
  split
  · rename_i hbelow
    rw [if_neg]
    · omega
    · rw [@int_sub_rel r _ _ (by omega) (by omega)]
      omega
  · rename_i habove
    dsimp only
    have hn : 0 ≤ rel left rxmit := by
      change ¬rel left rxmit < 0 at habove
      omega
    have hup := rel_bounds left rxmit
    rw [@int_sub_rel left _ _ (by omega) (by omega)]
    split
    · omega
    · have hx : rel r rxmit = rel r left + rel left rxmit := by
        have hback : rel left r = -rel r left := by
          rw [rel_rebase (r := r) (by rw [rel_self]; omega) (by rw [rel_self]; omega), rel_self]
          omega
        rw [rel_rebase (r := left) (by omega) (by omega), hback]
        omega
      omega

theorem kept_spans (rxmit : ULONG) (hl : -2 ^ 30 < rel r left) (hr : -2 ^ 30 < rel r right)
    (hl' : rel r left < 2 ^ 30) (hr' : rel r right < 2 ^ 30) :
    (kept left right rxmit).map (SackHole.span r) = keep (rel r left) (rel r right) ∧
      ∀ h ∈ kept left right rxmit, h.Clamped r := by
  unfold kept keep
  rw [@int_sub_rel r _ _ (by omega) (by omega)]
  split
  · rw [if_neg (by omega)]
    exact ⟨rfl, nofun⟩
  · rw [if_pos (by omega)]
    refine ⟨rfl, fun h hh => ?_⟩
    cases List.mem_singleton.mp hh
    exact sackClamp_inside hl (by omega) hr' rxmit

/-- `sack_subtract` subtracts the blocks. --/
theorem pieces_spans (hD : D < 2 ^ 30) (hb : ∀ b ∈ blocks, Evidence r D b) (hl : 0 ≤ rel r left) (hl' : rel r left ≤ D)
    (hr : -2 ^ 30 < rel r right) (hr' : rel r right ≤ D) :
    (pieces left right rxmit blocks).map (SackHole.span r) =
        subtract (rel r left) (rel r right) (blocks.map (SackBlock.span r)) ∧
      ∀ h ∈ pieces left right rxmit blocks, h.Clamped r := by
  induction blocks generalizing left with
  | nil => exact kept_spans rxmit (by omega) hr (by omega) (by omega)
  | cons b rest ih =>
    have hev := hb b List.mem_cons_self
    have hrest : ∀ c ∈ rest, Evidence r D c := fun c hc => hb c (List.mem_cons_of_mem b hc)
    have hkept := kept_spans rxmit (show -2 ^ 30 < rel r left by omega) hr (by omega) (by omega)
    have hspan : (b :: rest).map (SackBlock.span r) =
        (rel r b.left, rel r b.right) :: rest.map (SackBlock.span r) := rfl
    rw [hspan, pieces, subtract, @int_sub_rel r right left (by omega) (by omega), hev.int_right hl hl' hD]
    simp only [gt_iff_lt, ge_iff_le, sub_pos, sub_nonpos]
    by_cases hopen : rel r left < rel r right
    · simp only [if_pos hopen]
      rw [hev.int_left (show 0 ≤ rel r right by omega) hr' hD,
        hev.int_left hl hl' hD]
      simp only [sub_nonneg, sub_pos]
      by_cases hskip : rel r b.right ≤ rel r left
      · simp only [if_pos hskip]
        exact ih hrest hl hl'
      have hgood : rel r b.left < rel r b.right ∧ rel r b.right ≤ D := by
        rcases hev.sound with h | ⟨-, -, h⟩
        · exact h
        · omega
      simp only [if_neg hskip]
      by_cases hpast : rel r right ≤ rel r b.left
      · simp only [if_pos hpast]
        exact hkept
      simp only [if_neg hpast]
      have hnext := @ih b.right hrest (by omega) hgood.2
      by_cases hgap : rel r left < rel r b.left
      · simp only [if_pos hgap, List.map_append]
        have hfirst := kept_spans rxmit (show -2 ^ 30 < rel r left by omega)
          (show -2 ^ 30 < rel r b.left by omega) (by omega) (by omega)
        refine ⟨by rw [hfirst.1, hnext.1], fun h hh => ?_⟩
        rcases List.mem_append.mp hh with hh | hh
        · exact hfirst.2 h hh
        · exact hnext.2 h hh
      · simp only [if_neg hgap, keep, List.nil_append]
        exact hnext
    · simp only [if_neg hopen]
      rw [hkept.1, keep, if_neg hopen]
      exact ⟨rfl, hkept.2⟩

end

end Netxduo
