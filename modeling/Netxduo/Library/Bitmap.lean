import Mathlib.Data.Set.Insert
import Mathlib.Data.BitVec
import Mathlib.Tactic.Common

/-! A bitmap of what has been seen behind a right edge: bit `i` stands for the number `i` below the edge. -/

namespace Bitmap

variable {w : Nat} {window : BitVec w} {edge n d : Nat} {seen : Set Nat}

/-- The window holds just the numbers seen at or below the edge, as far as it reaches. --/
structure Marks (window : BitVec w) (edge : Nat) (seen : Set Nat) : Prop where
  le : ∀ n ∈ seen, n ≤ edge
  bit : ∀ i < w, window.getLsbD i = true ↔ ∃ n ∈ seen, n + i = edge

/-- Nothing has been seen. --/
theorem marks_empty (edge : Nat) : Marks (0 : BitVec w) edge ∅ := by
  refine ⟨fun n hn => hn.elim, fun i _ => ?_⟩
  constructor
  · intro h
    simp at h
  · rintro ⟨n, hn, -⟩
    exact hn.elim

theorem Marks.seen_iff (h : Marks window edge seen) (hd : d < w) (hn : n + d = edge) :
    window.getLsbD d = true ↔ n ∈ seen := by
  rw [h.bit d hd]
  constructor
  · rintro ⟨m, hm, hedge⟩
    obtain rfl : m = n := by omega
    exact hm
  · exact fun hm => ⟨n, hm, hn⟩

/-- A number above the edge moves the window, by any distance. --/
theorem Marks.advance (h : Marks window edge seen) (hd : 0 < d) :
    Marks (window <<< d ||| 1#w) (edge + d) (insert (edge + d) seen) := by
  refine ⟨fun n hn => ?_, fun i hi => ?_⟩
  · rcases hn with rfl | hn
    · exact Nat.le_refl _
    · exact Nat.le_trans (h.le n hn) (Nat.le_add_right _ _)
  · rw [BitVec.getLsbD_or, BitVec.getLsbD_shiftLeft, BitVec.getLsbD_one]
    simp only [hi, decide_true, Bool.true_and, Bool.or_eq_true, Bool.and_eq_true, Bool.not_eq_true',
      decide_eq_false_iff_not, Nat.not_lt, decide_eq_true_eq, Set.mem_insert_iff]
    constructor
    · rintro (⟨hle, hbit⟩ | ⟨-, rfl⟩)
      · obtain ⟨n, hn, hedge⟩ := (h.bit (i - d) (by omega)).mp hbit
        exact ⟨n, .inr hn, by omega⟩
      · exact ⟨edge + d, .inl rfl, rfl⟩
    · rintro ⟨n, rfl | hn, hedge⟩
      · exact .inr ⟨by omega, by omega⟩
      · have hle := h.le n hn
        exact .inl ⟨by omega, (h.bit (i - d) (by omega)).mpr ⟨n, hn, by omega⟩⟩

/-- A number inside the window is marked. --/
theorem Marks.mark (h : Marks window edge seen) (hn : n + d = edge) :
    Marks (window ||| 1#w <<< d) edge (insert n seen) := by
  refine ⟨fun m hm => ?_, fun i hi => ?_⟩
  · rcases hm with rfl | hm
    · omega
    · exact h.le m hm
  · rw [BitVec.getLsbD_or, BitVec.getLsbD_shiftLeft, BitVec.getLsbD_one, Bool.or_eq_true, h.bit i hi]
    simp only [hi, decide_true, Bool.true_and, Bool.and_eq_true, Bool.not_eq_true', decide_eq_false_iff_not,
      Nat.not_lt, decide_eq_true_eq, Set.mem_insert_iff]
    constructor
    · rintro (⟨m, hm, hedge⟩ | ⟨hle, -, heq⟩)
      · exact ⟨m, .inr hm, hedge⟩
      · exact ⟨n, .inl rfl, by omega⟩
    · rintro ⟨m, rfl | hm, hedge⟩
      · exact .inr ⟨by omega, by omega, by omega⟩
      · exact .inl ⟨m, hm, hedge⟩

end Bitmap
