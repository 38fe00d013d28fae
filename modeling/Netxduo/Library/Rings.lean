import Mathlib.Data.List.Nodup
import Mathlib.Logic.Function.Basic

/-! Doubly linked rings in a memory of cells: a head pointer and two pointers in each cell; a cell is put in behind the
    last one, or taken out wherever it is. -/

namespace Rings

variable {α : Type*} {next prev next' prev' : α → α} {head : Option α} {l r : List α} {a b c : α}

/-- The cells between two others, linked in both directions. --/
def Path (next prev : α → α) : α → List α → α → Prop
  | a, [], b => next a = b ∧ prev b = a
  | a, c :: l, b => (next a = c ∧ prev c = a) ∧ Path next prev c l b

/-- A ring, from its head on; without a cell there is no head. --/
def Circular (next prev : α → α) (head : Option α) : List α → Prop
  | [] => head = none
  | a :: l => head = some a ∧ Path next prev a l a

theorem Circular.head_eq (h : Circular next prev head l) : head = l.head? := by
  cases l with
  | nil => exact h
  | cons a l => exact h.1

theorem path_append : ∀ {l : List α} {a : α}, Path next prev a (l ++ b :: r) c ↔ Path next prev a l b ∧
    Path next prev b r c
  | [], _ => Iff.rfl
  | d :: l, a => by
    show (_ ∧ Path next prev d (l ++ b :: r) c) ↔ ((next a = d ∧ prev d = a) ∧ Path next prev d l b) ∧ _
    rw [path_append]
    exact ⟨fun ⟨h, hl, hr⟩ => ⟨⟨h, hl⟩, hr⟩, fun ⟨⟨h, hl⟩, hr⟩ => ⟨h, hl, hr⟩⟩

/-- Writes to other cells are of no account. --/
theorem Path.congr : ∀ {l : List α} {a : α}, Path next prev a l b → (∀ x ∈ a :: l, next' x = next x) →
    (∀ x ∈ l ++ [b], prev' x = prev x) → Path next' prev' a l b
  | [], a, h, hnext, hprev => by
    refine ⟨?_, ?_⟩
    · rw [hnext a (by simp)]
      exact h.1
    · rw [hprev b (by simp)]
      exact h.2
  | c :: l, a, h, hnext, hprev => by
    refine ⟨⟨?_, ?_⟩, h.2.congr (fun x hx => hnext x (List.mem_cons_of_mem _ hx)) fun x hx =>
      hprev x (List.mem_cons_of_mem _ hx)⟩
    · rw [hnext a List.mem_cons_self]
      exact h.1.1
    · rw [hprev c (by simp)]
      exact h.1.2

/-- A ring can be entered anywhere. --/
theorem Path.rotate (h : Path next prev a (l ++ b :: r) a) : Path next prev b (r ++ a :: l) b := by
  obtain ⟨hl, hr⟩ := path_append.mp h
  exact path_append.mpr ⟨hr, hl⟩

theorem Circular.congr (h : Circular next prev head l) (hnext : ∀ x ∈ l, next' x = next x) (hprev : ∀ x ∈ l, prev' x =
    prev x) :
    Circular next' prev' head l := by
  cases l with
  | nil => exact h
  | cons a l =>
    refine ⟨h.1, h.2.congr hnext fun x hx => hprev x ?_⟩
    rcases List.mem_append.mp hx with hx | hx
    · exact List.mem_cons_of_mem _ hx
    · rw [List.mem_singleton.mp hx]
      exact List.mem_cons_self

/-- The cell behind one that leaves is itself only where there is no other. --/
theorem Circular.next_eq_self {l r : List α} (h : Circular next prev head (l ++ b :: r)) (hn : (l ++ b :: r).Nodup) :
    next b = b ↔ l ++ r = [] := by
  cases l with
  | nil =>
    cases r with
    | nil => exact ⟨fun _ => rfl, fun _ => h.2.1⟩
    | cons c r =>
      refine ⟨fun he => ?_, fun he => by cases he⟩
      have hc := h.2.1.1
      rw [he] at hc
      exact absurd (hc ▸ List.mem_cons_self) (List.nodup_cons.mp hn).1
  | cons a l =>
    refine ⟨fun he => ?_, fun he => by cases he⟩
    have hrotated := h.2.rotate
    have hperm : (b :: (r ++ a :: l)).Perm (a :: l ++ b :: r) :=
      (List.perm_append_comm : (b :: r ++ a :: l).Perm (a :: l ++ b :: r))
    have hnot := (List.nodup_cons.mp (hperm.nodup_iff.mpr hn)).1
    cases r with
    | nil =>
      have ha := hrotated.1.1
      rw [he] at ha
      exact absurd (ha ▸ List.mem_cons_self) hnot
    | cons c r =>
      have hc := hrotated.1.1
      rw [he] at hc
      exact absurd (hc ▸ List.mem_cons_self) hnot

variable [DecidableEq α]

/-! ### Putting a cell in -/

/-- The links with `b` between the last cell and the head. --/
def joinNext (next prev : α → α) (a b : α) : α → α := Function.update (Function.update next b a) (prev a) b

def joinPrev (prev : α → α) (a b : α) : α → α := Function.update (Function.update prev b (prev a)) a b

/-- A ring of one cell. --/
theorem circular_single : Circular (Function.update next b b) (Function.update prev b b) (some b) [b] :=
  ⟨rfl, Function.update_self .., Function.update_self ..⟩

theorem Circular.join (h : Circular next prev (some a) (a :: l)) (hb : b ∉ a :: l) (hn : (a :: l).Nodup) :
    Circular (joinNext next prev a b) (joinPrev prev a b) (some a) (a :: l ++ [b]) := by
  have hba : b ≠ a := fun he => hb (he ▸ List.mem_cons_self)
  have hnew : joinPrev prev a b a = b := Function.update_self ..
  have hlast : joinNext next prev a b (prev a) = b := Function.update_self ..
  have hprev : joinPrev prev a b b = prev a := by
    unfold joinPrev
    rw [Function.update_of_ne hba, Function.update_self]
  refine ⟨rfl, path_append.mpr ?_⟩
  rcases List.eq_nil_or_concat l with rfl | ⟨l, d, rfl⟩
  · obtain ⟨-, hnext, hself⟩ := h
    rw [hself] at hlast hprev
    refine ⟨⟨hlast, hprev⟩, ?_, hnew⟩
    unfold joinNext
    rw [Function.update_of_ne (by rw [hself]; exact hba), Function.update_self]
  · rw [List.concat_eq_append] at h hb hn ⊢
    obtain ⟨hl, hnext, hd⟩ := path_append.mp h.2
    rw [hd] at hlast hprev
    have hbd : b ≠ d := fun he => hb (by simp [he])
    refine ⟨path_append.mpr ⟨?_, hlast, hprev⟩, ?_, hnew⟩
    · have hsplit : (a :: l ++ [d]).Nodup := hn
      rw [List.nodup_append] at hsplit
      refine hl.congr (fun x hx => ?_) fun x hx => ?_
      · unfold joinNext
        have hxd : x ≠ d := hsplit.2.2 x hx d (List.mem_singleton_self d)
        have hxb : x ≠ b := by
          rintro rfl
          exact hb (by rw [← List.cons_append]; exact List.mem_append_left _ hx)
        rw [hd, Function.update_of_ne hxd, Function.update_of_ne hxb]
      · unfold joinPrev
        have hxa : x ≠ a := by
          rintro rfl
          exact (List.nodup_cons.mp hn).1 hx
        have hxb : x ≠ b := by
          rintro rfl
          exact hb (List.mem_cons_of_mem _ hx)
        rw [Function.update_of_ne hxa, Function.update_of_ne hxb]
    · unfold joinNext
      rw [hd, Function.update_of_ne hbd, Function.update_self]

/-! ### Taking a cell out -/

/-- The links around `b`. --/
def leaveNext (next prev : α → α) (b : α) : α → α := Function.update next (prev b) (next b)

def leavePrev (next prev : α → α) (b : α) : α → α := Function.update prev (next b) (prev b)

/-- What is left of a ring entered at the cell that leaves. --/
theorem Path.leave (h : Path next prev b (c :: l) b) (hn : (b :: c :: l).Nodup) :
    Path (leaveNext next prev b) (leavePrev next prev b) c l c := by
  obtain ⟨⟨hc, hb⟩, hl⟩ := h
  have hnot := (List.nodup_cons.mp hn).1
  have hn := (List.nodup_cons.mp hn).2
  rcases List.eq_nil_or_concat l with rfl | ⟨l, d, rfl⟩
  · obtain ⟨-, hd⟩ := hl
    refine ⟨?_, ?_⟩
    · unfold leaveNext
      rw [hd, Function.update_self, hc]
    · unfold leavePrev
      rw [hc, Function.update_self, hd]
  · rw [List.concat_eq_append] at hl hn hnot ⊢
    obtain ⟨hl, -, hd⟩ := path_append.mp hl
    refine path_append.mpr ⟨?_, ?_, ?_⟩
    · have hsplit : (c :: l ++ [d]).Nodup := hn
      rw [List.nodup_append] at hsplit
      refine hl.congr (fun x hx => ?_) fun x hx => ?_
      · unfold leaveNext
        rw [hd, Function.update_of_ne (hsplit.2.2 x hx d (List.mem_singleton_self d))]
      · unfold leavePrev
        rw [hc, Function.update_of_ne (by rintro rfl; exact (List.nodup_cons.mp hn).1 hx)]
    · unfold leaveNext
      rw [hd, Function.update_self, hc]
    · unfold leavePrev
      rw [hc, Function.update_self, hd]

/-- A cell is taken out wherever it is; the head moves on where it was the head. --/
theorem Circular.leave {l r : List α} (h : Circular next prev head (l ++ b :: r)) (hn : (l ++ b :: r).Nodup) (hne :
    l ++ r ≠ []) :
    Circular (leaveNext next prev b) (leavePrev next prev b) (if head = some b then some (next b) else head) (l ++
      r) := by
  cases l with
  | nil =>
    obtain ⟨rfl, hpath⟩ := h
    rw [if_pos rfl]
    cases r with
    | nil => exact absurd rfl hne
    | cons c r =>
      refine ⟨?_, hpath.leave hn⟩
      rw [hpath.1.1]
  | cons a l =>
    obtain ⟨rfl, hpath⟩ := h
    have hab : (some a : Option α) ≠ some b := fun he => by
      obtain rfl := Option.some.inj he
      exact (List.nodup_cons.mp hn).1 (List.mem_append_right _ List.mem_cons_self)
    rw [if_neg hab]
    refine ⟨rfl, ?_⟩
    have hrotated := hpath.rotate
    have hperm : (b :: (r ++ a :: l)).Perm (a :: l ++ b :: r) :=
      (List.perm_append_comm : (b :: r ++ a :: l).Perm (a :: l ++ b :: r))
    have hn' : (b :: (r ++ a :: l)).Nodup := hperm.nodup_iff.mpr hn
    cases r with
    | nil =>
      show Path _ _ a (l ++ []) a
      rw [List.append_nil]
      exact hrotated.leave hn'
    | cons c r =>
      exact (hrotated.leave hn').rotate

end Rings
