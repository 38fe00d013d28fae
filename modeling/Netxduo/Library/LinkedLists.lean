import Mathlib.Data.List.Nodup
import Mathlib.Logic.Function.Basic

/-! Singly linked lists in a memory of cells: a head pointer and one pointer in each cell, taken apart and put together
    by writes to them. -/

namespace LinkedLists

variable {α : Type*} {next next' : α → Option α} {head : Option α} {l r : List α} {a : α}

/-- The cells that are met from a pointer on, up to the null pointer. --/
def Chain (next : α → Option α) : Option α → List α → Prop
  | head, [] => head = none
  | head, a :: l => head = some a ∧ Chain next (next a) l

/-- Writes to other cells are of no account. --/
theorem Chain.congr : ∀ {l : List α} {head : Option α}, Chain next head l → (∀ a ∈ l, next' a = next a) →
    Chain next' head l
  | [], _, h, _ => h
  | a :: _, _, h, hsame => ⟨h.1, by
      rw [hsame a List.mem_cons_self]
      exact h.2.congr fun x hx => hsame x (List.mem_cons_of_mem _ hx)⟩

/-- There is one list from a pointer on. --/
theorem Chain.unique : ∀ {l r : List α} {head : Option α}, Chain next head l → Chain next head r → l = r
  | [], [], _, _, _ => rfl
  | [], _ :: _, _, hl, hr => by cases hl.symm.trans hr.1
  | _ :: _, [], _, hl, hr => by cases hl.1.symm.trans hr
  | a :: l, b :: r, _, hl, hr => by
    obtain rfl : a = b := Option.some.inj (hl.1.symm.trans hr.1)
    rw [hl.2.unique hr.2]

/-- Cells in a row, each of which points to that behind it. --/
theorem chain_range' {next : Nat → Option Nat} {stop : Nat} (hnext : ∀ a, a + 1 < stop → next a = some (a + 1))
    (hlast : ∀ a, a + 1 = stop → next a = none) : ∀ {n a : Nat}, a + n = stop → 0 < n →
    Chain next (some a) (List.range' a n)
  | 0, _, _, hn => absurd hn (Nat.lt_irrefl 0)
  | 1, a, hstop, _ => ⟨rfl, hlast a hstop⟩
  | n + 2, a, hstop, _ => by
    rw [List.range'_succ]
    refine ⟨rfl, ?_⟩
    rw [hnext a (by omega)]
    exact chain_range' hnext hlast (by omega) (Nat.succ_pos n)

variable [DecidableEq α]

/-- A write to a cell that is not in the list. --/
theorem Chain.update (h : Chain next head l) {x : Option α} (ha : a ∉ l) : Chain (Function.update next a x) head l :=
  h.congr fun b hb => Function.update_of_ne (by rintro rfl; exact ha hb) _ _

/-- A new cell in front. --/
theorem Chain.push (h : Chain next head l) (ha : a ∉ l) : Chain (Function.update next a head) (some a) (a :: l) :=
  ⟨rfl, by
    rw [Function.update_self]
    exact h.update ha⟩

/-- A new cell behind the last one. --/
theorem Chain.concat : ∀ {l : List α} {head : Option α} {z a : α}, Chain next head (l ++ [z]) → (l ++ [z]).Nodup →
    a ∉ l ++ [z] → Chain (Function.update (Function.update next z (some a)) a none) head (l ++ [z, a])
  | [], _, z, a, h, _, ha => by
    refine ⟨h.1, ?_, Function.update_self ..⟩
    rw [Function.update_of_ne (by rintro rfl; exact ha List.mem_cons_self), Function.update_self]
  | x :: l, _, z, a, h, hn, ha => by
    obtain ⟨hx, hn⟩ := List.nodup_cons.mp hn
    refine ⟨h.1, ?_⟩
    rw [Function.update_of_ne (by rintro rfl; exact ha List.mem_cons_self),
      Function.update_of_ne (by rintro rfl; exact hx (List.mem_append_right _ List.mem_cons_self))]
    exact h.2.concat hn fun hmem => ha (List.mem_cons_of_mem _ hmem)

/-- The links after the cell behind `previous`, or the first one, was linked around. --/
def unlinkNext (next : α → Option α) (previous x : Option α) : α → Option α :=
  previous.elim next fun p => Function.update next p x

/-- The head after the cell behind `previous`, or the first one, was linked around. --/
def unlinkHead (head previous x : Option α) : Option α := previous.elim x fun _ => head

theorem Chain.skip : ∀ {l : List α} {head : Option α} {p a : α} {r : List α},
    Chain next head (l ++ p :: a :: r) → (l ++ p :: a :: r).Nodup →
    Chain (Function.update next p (next a)) head (l ++ p :: r)
  | [], _, p, a, r, h, hn => by
    obtain ⟨hhead, hp, hr⟩ := h
    refine ⟨hhead, ?_⟩
    rw [Function.update_self]
    exact hr.update fun hmem => (List.nodup_cons.mp hn).1 (List.mem_cons_of_mem _ hmem)
  | x :: l, _, p, a, r, h, hn => by
    obtain ⟨hx, hn⟩ := List.nodup_cons.mp hn
    refine ⟨h.1, ?_⟩
    rw [Function.update_of_ne (by rintro rfl; exact hx (List.mem_append_right _ List.mem_cons_self))]
    exact h.2.skip hn

/-- A cell is taken out where its predecessor is known. --/
theorem Chain.unlink (h : Chain next head (l ++ a :: r)) (hn : (l ++ a :: r).Nodup) :
    Chain (unlinkNext next l.getLast? (next a)) (unlinkHead head l.getLast? (next a)) (l ++ r) := by
  rcases List.eq_nil_or_concat l with rfl | ⟨l, p, rfl⟩
  · exact h.2
  · rw [List.concat_eq_append] at h hn ⊢
    rw [List.getLast?_concat]
    rw [List.append_assoc] at h hn ⊢
    exact h.skip hn

/-- Only the predecessor is written. --/
theorem unlinkNext_of_not_mem {x : Option α} (ha : a ∉ l) : unlinkNext next l.getLast? x a = next a := by
  cases hl : l.getLast? with
  | none => rfl
  | some p => exact Function.update_of_ne (by rintro rfl; exact ha (List.mem_of_getLast? hl)) _ _

/-- Another list is as it was. --/
theorem Chain.unlink_other {m : List α} {x : Option α} (h : Chain next head m) (hdisjoint : ∀ b ∈ m, b ∉ l) :
    Chain (unlinkNext next l.getLast? x) head m :=
  h.congr fun b hb => unlinkNext_of_not_mem (hdisjoint b hb)

/-! ### Searching -/

omit [DecidableEq α] in
/-- The search for a cell with its predecessor, in a number of rounds; there is no result where it needs more. --/
def search (next : α → Option α) (p : α → Bool) : Nat → Option α → Option α → Option (Option (Option α × α))
  | _, _, none => some none
  | 0, _, some _ => none
  | rounds + 1, previous, some a => if p a then some (some (previous, a)) else search next p rounds (some a) (next a)

omit [DecidableEq α] in
/-- A search that ends has found the first cell of its kind, or there is none. --/
theorem search_spec {p : α → Bool} : ∀ {rounds : Nat} {l : List α} {previous head : Option α}
    {found : Option (Option α × α)}, Chain next head l → search next p rounds previous head = some found →
    (found = none ∧ ∀ a ∈ l, p a = false) ∨
      ∃ front a back, l = front ++ a :: back ∧ p a = true ∧ found = some (front.getLast?.or previous, a)
  | _, [], _, _, found, h, hs => by
    obtain rfl := h
    rw [search] at hs
    exact Or.inl ⟨(Option.some.inj hs).symm, fun a ha => absurd ha List.not_mem_nil⟩
  | 0, a :: l, _, _, found, h, hs => by
    rw [h.1, search] at hs
    cases hs
  | rounds + 1, a :: l, previous, _, found, h, hs => by
    rw [h.1, search] at hs
    split at hs
    · rename_i hp
      exact Or.inr ⟨[], a, l, rfl, hp, (Option.some.inj hs).symm⟩
    · rename_i hp
      rcases search_spec h.2 hs with ⟨rfl, hnone⟩ | ⟨front, b, back, rfl, hb, rfl⟩
      · refine Or.inl ⟨rfl, fun x hx => ?_⟩
        rcases List.mem_cons.mp hx with rfl | hx
        · simpa using hp
        · exact hnone x hx
      · refine Or.inr ⟨a :: front, b, back, rfl, hb, ?_⟩
        cases hf : front.getLast? with
        | none =>
          obtain rfl := List.getLast?_eq_none_iff.mp hf
          rfl
        | some x =>
          rw [List.getLast?_cons, hf]
          rfl

omit [DecidableEq α] in
/-- A search ends in as many rounds as the list has cells. --/
theorem search_isSome {p : α → Bool} : ∀ {rounds : Nat} {l : List α} {previous head : Option α}, Chain next head l →
    l.length ≤ rounds → (search next p rounds previous head).isSome
  | _, [], _, _, h, _ => by
    obtain rfl := h
    rw [search]
    rfl
  | 0, _ :: _, _, _, _, hl => by cases hl
  | rounds + 1, a :: l, _, _, h, hl => by
    rw [h.1, search]
    split
    · rfl
    · exact search_isSome h.2 (Nat.le_of_succ_le_succ hl)

end LinkedLists
