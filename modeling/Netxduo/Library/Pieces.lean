import Mathlib.Data.List.Basic
import Mathlib.Data.Set.Basic

/-! Pieces of a sequence, each with the position it starts at: when a set of them holds the whole sequence, what it
    then is, and how a pass over an ascending list decides it. -/

namespace Pieces

/-- `last` says that the sequence ends with the piece. --/
structure Piece (α : Type*) where
  start : Nat
  data : List α
  last : Bool

variable {α : Type*} {p q : Piece α} {l : List (Piece α)} {s : Set (Piece α)} {n total : Nat}

namespace Piece

def stop (p : Piece α) : Nat := p.start + p.data.length

/-- What two pieces of one sequence may be to each other: copies, or apart and nothing behind the last one. --/
def Agrees (p q : Piece α) : Prop :=
  p = q ∨ (p.stop ≤ q.start ∧ p.last = false) ∨ (q.stop ≤ p.start ∧ q.last = false)

theorem agrees_refl (p : Piece α) : p.Agrees p := Or.inl rfl

theorem Agrees.symm (h : p.Agrees q) : q.Agrees p := by
  rcases h with rfl | h | h
  · exact Or.inl rfl
  · exact Or.inr (Or.inr h)
  · exact Or.inr (Or.inl h)

/-- Of two pieces the one that starts first ends before the other, and is not the last one. --/
theorem Agrees.before (h : p.Agrees q) (hlt : p.start < q.start) : p.stop ≤ q.start ∧ p.last = false := by
  rcases h with rfl | h | ⟨hle, -⟩
  · exact absurd hlt (Nat.lt_irrefl _)
  · exact h
  · rw [stop] at hle
    omega

end Piece

/-! ### Whole sequences -/

/-- Every position of `[0, total)` is in a piece, and a last piece ends there. --/
structure Complete (s : Set (Piece α)) (total : Nat) : Prop where
  covered : ∀ n < total, ∃ p ∈ s, p.start ≤ n ∧ n < p.stop
  closed : ∃ p ∈ s, p.last = true ∧ p.stop = total

/-- `data` is what the pieces hold, each at its position. --/
structure Holds (s : Set (Piece α)) (data : List α) : Prop where
  complete : Complete s data.length
  at_start : ∀ p ∈ s, ∀ i < p.data.length, data[p.start + i]? = p.data[i]?

/-- A set of pieces holds one sequence at most, whatever the order in which they were found. --/
theorem Holds.unique {data data' : List α} (h : Holds s data) (h' : Holds s data')
    (hs : ∀ p ∈ s, ∀ q ∈ s, p.Agrees q) : data = data' := by
  have hlength : data.length = data'.length := by
    obtain ⟨p, hp, hlast, hstop⟩ := h.complete.closed
    obtain ⟨q, hq, hlast', hstop'⟩ := h'.complete.closed
    rcases hs p hp q hq with rfl | ⟨-, hmore⟩ | ⟨-, hmore⟩
    · rw [← hstop, hstop']
    · rw [hlast] at hmore
      cases hmore
    · rw [hlast'] at hmore
      cases hmore
  refine List.ext_getElem? fun n => ?_
  by_cases hn : n < data.length
  · obtain ⟨p, hp, hle, hlt⟩ := h.complete.covered n hn
    have hi : n - p.start < p.data.length := by
      rw [Piece.stop] at hlt
      omega
    have hget := h.at_start p hp _ hi
    have hget' := h'.at_start p hp _ hi
    rw [Nat.add_sub_cancel' hle] at hget hget'
    rw [hget, hget']
  · rw [List.getElem?_eq_none (by omega), List.getElem?_eq_none (by omega)]

/-- Where a piece is missing nothing is complete. --/
theorem not_complete_of_missing (hne : q.data ≠ []) (hs : ∀ p ∈ s, p.Agrees q ∧ p ≠ q) : ¬ Complete s total := by
  have hpos := List.length_pos_of_ne_nil hne
  have hstop : q.stop = q.start + q.data.length := rfl
  have hapart : ∀ p ∈ s, (p.stop ≤ q.start ∧ p.last = false) ∨ (q.stop ≤ p.start ∧ q.last = false) :=
    fun p hp => (hs p hp).1.resolve_left (hs p hp).2
  rintro ⟨hcover, p, hp, hlast, rfl⟩
  rcases hapart p hp with ⟨-, hmore⟩ | ⟨hle, -⟩
  · rw [hlast] at hmore
    cases hmore
  · have hend : p.start ≤ p.stop := Nat.le_add_right ..
    obtain ⟨r, hr, h₁, h₂⟩ := hcover q.start (by omega)
    rcases hapart r hr with ⟨h₃, -⟩ | ⟨h₃, -⟩
    · omega
    · omega

/-! ### The pass -/

/-- Each piece starts where the one before it ends, the first one at `n`. --/
def Contiguous : Nat → List (Piece α) → Prop
  | _, [] => True
  | n, p :: l => p.start = n ∧ Contiguous p.stop l

@[simp] theorem contiguous_cons : Contiguous n (p :: l) ↔ p.start = n ∧ Contiguous p.stop l := Iff.rfl

theorem Contiguous.le (h : Contiguous n l) (hp : p ∈ l) : n ≤ p.start := by
  induction l generalizing n with
  | nil => cases hp
  | cons q l ih =>
    obtain ⟨rfl, hl⟩ := h
    rcases List.mem_cons.mp hp with rfl | hp
    · exact Nat.le_refl _
    · exact Nat.le_trans (Nat.le_add_right ..) (ih hl hp)

theorem Contiguous.pairwise (h : Contiguous n l) : l.Pairwise fun p q => p.stop ≤ q.start := by
  induction l generalizing n with
  | nil => exact List.Pairwise.nil
  | cons p l ih => exact List.pairwise_cons.mpr ⟨fun q hq => h.2.le hq, ih h.2⟩

/-- Pieces of one sequence in ascending order. --/
structure Ascending (l : List (Piece α)) : Prop where
  starts : l.Pairwise fun p q => p.start < q.start
  agree : ∀ p ∈ l, ∀ q ∈ l, p.Agrees q
  nonempty : ∀ p ∈ l, p.data ≠ []

theorem Ascending.tail (h : Ascending (p :: l)) : Ascending l :=
  ⟨(List.pairwise_cons.mp h.starts).2, fun q hq r hr => h.agree q (List.mem_cons_of_mem p hq) r (List.mem_cons_of_mem p hr),
    fun q hq => h.nonempty q (List.mem_cons_of_mem p hq)⟩

/-- What stands behind a piece starts behind it. --/
theorem Ascending.before (h : Ascending (p :: l)) (hq : q ∈ l) : p.stop ≤ q.start ∧ p.last = false :=
  (h.agree p (List.mem_cons_self ..) q (List.mem_cons_of_mem p hq)).before ((List.pairwise_cons.mp h.starts).1 q hq)

/-- A last piece stands at the end. --/
theorem Ascending.getLast (h : Ascending l) (hp : p ∈ l) (hlast : p.last = true) (hne : l ≠ []) :
    l.getLast hne = p := by
  induction l with
  | nil => cases hp
  | cons q l ih =>
    rcases List.mem_cons.mp hp with rfl | hp
    · cases l with
      | nil => rfl
      | cons r l =>
        have := (h.before (List.mem_cons_self ..)).2
        rw [hlast] at this
        cases this
    · have hl : l ≠ [] := List.ne_nil_of_mem hp
      rw [List.getLast_cons hl]
      exact ih h.tail hp hl

/-- No piece ends behind the one at the end. --/
theorem Ascending.stop_le (h : Ascending l) (hp : p ∈ l) (hne : l ≠ []) : p.stop ≤ (l.getLast hne).stop := by
  induction l generalizing p with
  | nil => cases hp
  | cons q l ih =>
    cases l with
    | nil =>
      cases List.mem_singleton.mp hp
      exact Nat.le_refl _
    | cons r l =>
      rw [List.getLast_cons (List.cons_ne_nil r l)]
      rcases List.mem_cons.mp hp with rfl | hp
      · have hbefore := (h.before (List.mem_cons_self ..)).1
        have hr := ih h.tail (List.mem_cons_self ..) (List.cons_ne_nil r l)
        rw [Piece.stop] at hr
        omega
      · exact ih h.tail hp (List.cons_ne_nil r l)

/-- Where nothing is missing, the pass finds no gap. --/
theorem Ascending.contiguous (h : Ascending l) (hstart : ∀ p ∈ l, n ≤ p.start) (hstop : ∀ p ∈ l, p.stop ≤ total)
    (hcover : ∀ m, n ≤ m → m < total → ∃ p ∈ l, p.start ≤ m ∧ m < p.stop) : Contiguous n l := by
  induction l generalizing n with
  | nil => trivial
  | cons p l ih =>
    have hn := hstart p (List.mem_cons_self ..)
    have hpos := List.length_pos_of_ne_nil (h.nonempty p (List.mem_cons_self ..))
    have htotal := hstop p (List.mem_cons_self ..)
    have hlen : p.stop = p.start + p.data.length := rfl
    refine ⟨?_, ih h.tail (fun q hq => (h.before hq).1) (fun q hq => hstop q (List.mem_cons_of_mem p hq)) ?_⟩
    · obtain ⟨q, hq, hle, -⟩ := hcover n (Nat.le_refl n) (by omega)
      rcases List.mem_cons.mp hq with rfl | hq
      · omega
      · have := (h.before hq).1
        omega
    · intro m hm hlt
      obtain ⟨q, hq, hle, hlt'⟩ := hcover m (by omega) hlt
      rcases List.mem_cons.mp hq with rfl | hq
      · omega
      · exact ⟨q, hq, hle, hlt'⟩

/-- What a contiguous list holds. --/
theorem Contiguous.flatMap (h : Contiguous n l) (hne : l ≠ []) :
    (l.getLast hne).stop = n + (l.flatMap Piece.data).length ∧
      (∀ m, n ≤ m → m < n + (l.flatMap Piece.data).length → ∃ p ∈ l, p.start ≤ m ∧ m < p.stop) ∧
      ∀ p ∈ l, n ≤ p.start ∧ ∀ i < p.data.length, (l.flatMap Piece.data)[p.start - n + i]? = p.data[i]? := by
  induction l generalizing n with
  | nil => exact absurd rfl hne
  | cons p l ih =>
    obtain ⟨rfl, hl⟩ := h
    have hlen : p.stop = p.start + p.data.length := rfl
    have hp : ∀ i < p.data.length, (p.data ++ l.flatMap Piece.data)[p.start - p.start + i]? = p.data[i]? := by
      intro i hi
      rw [Nat.sub_self, Nat.zero_add, List.getElem?_append_left hi]
    rw [List.flatMap_cons, List.length_append]
    cases l with
    | nil =>
      refine ⟨by simp [hlen], fun m hle hlt => ⟨p, List.mem_cons_self .., hle, ?_⟩, fun q hq => ?_⟩
      · rw [hlen]
        simpa using hlt
      · cases List.mem_singleton.mp hq
        exact ⟨Nat.le_refl _, hp⟩
    | cons r l =>
      obtain ⟨hstop, hcover, hget⟩ := ih hl (List.cons_ne_nil r l)
      rw [List.getLast_cons (List.cons_ne_nil r l)]
      refine ⟨by omega, fun m hle hlt => ?_, fun q hq => ?_⟩
      · by_cases hm : m < p.stop
        · exact ⟨p, List.mem_cons_self .., hle, hm⟩
        · obtain ⟨q, hq, hin⟩ := hcover m (by omega) (by omega)
          exact ⟨q, List.mem_cons_of_mem p hq, hin⟩
      · rcases List.mem_cons.mp hq with rfl | hq
        · exact ⟨Nat.le_refl _, hp⟩
        · obtain ⟨hle, hat⟩ := hget q hq
          refine ⟨by omega, fun i hi => ?_⟩
          rw [List.getElem?_append_right (by omega), ← hat i hi]
          congr 1
          omega

/-- The pass finds the sequence whole exactly where it is, and puts it together. --/
theorem Ascending.complete_iff (h : Ascending l) (hne : l ≠ []) :
    (Contiguous 0 l ∧ (l.getLast hne).last = true) ↔ ∃ total, Complete {p | p ∈ l} total := by
  constructor
  · rintro ⟨hl, hlast⟩
    obtain ⟨hstop, hcover, -⟩ := hl.flatMap hne
    refine ⟨(l.flatMap Piece.data).length, fun m hm => ?_, l.getLast hne, List.getLast_mem hne, hlast, ?_⟩
    · exact hcover m (Nat.zero_le m) (by omega)
    · rw [hstop, Nat.zero_add]
  · rintro ⟨total, hcover, p, hp, hlast, rfl⟩
    have heq := h.getLast hp hlast hne
    refine ⟨h.contiguous (fun q _ => Nat.zero_le q.start) (fun q hq => ?_) fun m _ hm => hcover m hm, ?_⟩
    · rw [← heq]
      exact h.stop_le hq hne
    · rw [heq]
      exact hlast

theorem Contiguous.holds (h : Contiguous 0 l) (hne : l ≠ []) (hlast : (l.getLast hne).last = true) :
    Holds {p | p ∈ l} (l.flatMap Piece.data) := by
  obtain ⟨hstop, hcover, hget⟩ := h.flatMap hne
  refine ⟨⟨fun m hm => ?_, l.getLast hne, List.getLast_mem hne, hlast, ?_⟩, fun p hp => ?_⟩
  · exact hcover m (Nat.zero_le m) (by omega)
  · rw [hstop, Nat.zero_add]
  · exact (hget p hp).2

end Pieces
