import Mathlib
import Netxduo.Library.Merge

/-! How many numbers a list of spans covers, and how many runs these form. -/

namespace Spans

variable {a b : Int} {s : Span} {l : List Span}

/-- The length of a span. --/
def size (s : Span) : Nat := (s.2 - s.1).toNat

theorem encard_Ico (a b : Int) : (Set.Ico a b).encard = ((b - a).toNat : ENat) := by
  rw [← Finset.coe_Ico, Set.encard_coe_eq_coe_finsetCard, Int.card_Ico]

/-- Spans that descend with a gap between any two. --/
def Descending (l : List Span) : Prop := l.Pairwise (fun s t => t.2 < s.1) ∧ ∀ s ∈ l, s.1 < s.2

theorem Descending.tail (h : Descending (s :: l)) : Descending l :=
  ⟨(List.pairwise_cons.mp h.1).2, fun t ht => h.2 t (List.mem_cons_of_mem s ht)⟩

/-- The spans cover as many numbers as their sizes say together. --/
theorem Descending.encard_covers (h : Descending l) : (covers l).encard = ((l.map size).sum : Nat) := by
  induction l with
  | nil => simp
  | cons s l ih =>
    have hdisjoint : Disjoint (Set.Ico s.1 s.2) (covers l) := by
      rw [Set.disjoint_left]
      rintro n ⟨h₁, -⟩ ⟨t, ht, -, h₂⟩
      have := (List.pairwise_cons.mp h.1).1 t ht
      omega
    rw [covers_cons, Set.encard_union_eq hdisjoint, ih h.tail, encard_Ico, List.map_cons, List.sum_cons, size]
    push_cast
    rfl

theorem exists_bound (f : Span → Int) (l : List Span) : ∃ a, ∀ s ∈ l, a ≤ f s := by
  induction l with
  | nil => exact ⟨0, fun s hs => by cases hs⟩
  | cons s l ih =>
    obtain ⟨a, ha⟩ := ih
    refine ⟨min a (f s), fun t ht => ?_⟩
    rcases List.mem_cons.mp ht with rfl | ht
    · exact Int.min_le_right _ _
    · exact Int.le_trans (Int.min_le_left _ _) (ha t ht)

/-- Each of the spans is a run of what they cover, and there is no other one. --/
theorem Descending.encard_runs (h : Descending l) : {run | IsRun (covers l) run}.encard = (l.length : ENat) := by
  obtain ⟨a, ha⟩ := exists_bound Prod.fst l
  obtain ⟨b, hb⟩ := exists_bound (fun s => -s.2) l
  have hapart : Apart a l.reverse (-b) := by
    refine ⟨List.pairwise_reverse.mpr h.1, fun s hs => ?_⟩
    have hs := List.mem_reverse.mp hs
    have hlo := ha s hs
    have hhi := hb s hs
    exact ⟨hlo, h.2 s hs, by omega⟩
  have hcovers : covers l.reverse = covers l := by
    ext n
    simp [covers]
  have hset : {run | IsRun (covers l) run} = {run | run ∈ l} := by
    ext run
    rw [Set.mem_ofPred_eq, Set.mem_ofPred_eq, ← hcovers, ← hapart.mem_iff, List.mem_reverse]
  have hnodup := List.nodup_reverse.mp hapart.nodup
  rw [hset, ← List.coe_toFinset, Set.encard_coe_eq_coe_finsetCard, List.toFinset_card_of_nodup hnodup]

/-- Ascending spans cut by a set are counted one by one. --/
theorem Ordered.encard_inter (h : Ordered a l b) (cut : Set Int) :
    (covers l ∩ cut).encard = (l.map fun s => (Set.Ico s.1 s.2 ∩ cut).encard).sum := by
  induction l generalizing a with
  | nil => simp
  | cons s l ih =>
    have hdisjoint : Disjoint (Set.Ico s.1 s.2 ∩ cut) (covers l ∩ cut) := by
      rw [Set.disjoint_left]
      rintro n ⟨⟨-, h₁⟩, -⟩ ⟨h₂, -⟩
      have := (h.2.2.covers_subset h₂).1
      omega
    rw [covers_cons, Set.union_inter_distrib_right, Set.encard_union_eq hdisjoint, ih h.2.2, List.map_cons, List.sum_cons]

end Spans
