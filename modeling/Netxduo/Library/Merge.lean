import Mathlib.Data.List.DropRight
import Netxduo.Library.Coverage

/-! The maximal runs of what a list of spans covers, and how a single pass over an ascending list finds them: a
    span that continues the last one is joined to it. -/

namespace Spans

variable {a b m n : Int} {s t : Span} {l : List Span} {held : Set Int} {k : Nat}

/-! ### Runs -/

/-- `s` is a maximal run of numbers in `held`. --/
structure IsRun (held : Set Int) (s : Span) : Prop where
  nonempty : s.1 < s.2
  subset : Set.Ico s.1 s.2 ⊆ held
  before : s.1 - 1 ∉ held
  after : s.2 ∉ held

/-- A run that holds a number of another one begins there at the earliest. --/
theorem IsRun.start_le (hs : IsRun held s) (ht : Set.Ico t.1 t.2 ⊆ held) (hns : n ∈ Set.Ico s.1 s.2)
    (hnt : n ∈ Set.Ico t.1 t.2) : s.1 ≤ t.1 := by
  obtain ⟨h₁, h₂⟩ := hns
  obtain ⟨h₃, h₄⟩ := hnt
  by_contra hlt
  exact hs.before (ht ⟨by omega, by omega⟩)

theorem IsRun.le_end (hs : IsRun held s) (ht : Set.Ico t.1 t.2 ⊆ held) (hns : n ∈ Set.Ico s.1 s.2)
    (hnt : n ∈ Set.Ico t.1 t.2) : t.2 ≤ s.2 := by
  obtain ⟨h₁, h₂⟩ := hns
  obtain ⟨h₃, h₄⟩ := hnt
  by_contra hlt
  exact hs.after (ht ⟨by omega, by omega⟩)

/-- Runs that share a number are the same. --/
theorem IsRun.eq (hs : IsRun held s) (ht : IsRun held t) (hns : n ∈ Set.Ico s.1 s.2) (hnt : n ∈ Set.Ico t.1 t.2) :
    s = t := by
  have h₁ := hs.start_le ht.subset hns hnt
  have h₂ := ht.start_le hs.subset hnt hns
  have h₃ := hs.le_end ht.subset hns hnt
  have h₄ := ht.le_end hs.subset hnt hns
  exact Prod.ext (by omega) (by omega)

/-- The spans lie in `[a, b]`, are not empty, and a gap stands between any two. --/
structure Apart (a : Int) (l : List Span) (b : Int) : Prop where
  gaps : l.Pairwise fun s t => s.2 < t.1
  mem : ∀ s ∈ l, a ≤ s.1 ∧ s.1 < s.2 ∧ s.2 ≤ b

theorem Apart.nodup (h : Apart a l b) : l.Nodup := by
  refine h.gaps.imp_of_mem ?_
  rintro s t hs - hlt rfl
  have := h.mem s hs
  omega

theorem Apart.tail (h : Apart a (s :: l) b) : Apart a l b :=
  ⟨(List.pairwise_cons.mp h.gaps).2, fun t ht => h.mem t (List.mem_cons_of_mem s ht)⟩

/-- Two spans that share a number, or border on each other, are the same. --/
theorem Apart.eq_of_near (h : Apart a l b) (hs : s ∈ l) (ht : t ∈ l) (h₁ : s.1 ≤ t.2) (h₂ : t.1 ≤ s.2) : s = t := by
  induction l with
  | nil => cases hs
  | cons u l ih =>
    have hgap := (List.pairwise_cons.mp h.gaps).1
    rcases List.mem_cons.mp hs with rfl | hs'
    · rcases List.mem_cons.mp ht with rfl | ht'
      · rfl
      · have := hgap t ht'
        omega
    · rcases List.mem_cons.mp ht with rfl | ht'
      · have := hgap s hs'
        omega
      · exact ih h.tail hs' ht'

/-- Spans with gaps between them are the runs of what they cover. --/
theorem Apart.mem_iff (h : Apart a l b) : s ∈ l ↔ IsRun (covers l) s := by
  constructor
  · intro hs
    obtain ⟨-, hpos, -⟩ := h.mem s hs
    refine ⟨hpos, ?_, ?_, ?_⟩
    · rintro n ⟨h₁, h₂⟩
      exact ⟨s, hs, h₁, h₂⟩
    · rintro ⟨t, ht, h₁, h₂⟩
      have heq := h.eq_of_near hs ht (by omega) (by omega)
      subst heq
      omega
    · rintro ⟨t, ht, h₁, h₂⟩
      have heq := h.eq_of_near hs ht (by omega) (by omega)
      subst heq
      omega
  · intro hs
    obtain ⟨t, ht, h₁, h₂⟩ := hs.subset ⟨Int.le_refl _, hs.nonempty⟩
    obtain ⟨-, hpos, -⟩ := h.mem t ht
    have hsub : Set.Ico t.1 t.2 ⊆ covers l := fun n hn => ⟨t, ht, hn.1, hn.2⟩
    have hle := hs.start_le hsub ⟨Int.le_refl _, hs.nonempty⟩ ⟨h₁, h₂⟩
    have hend := hs.le_end hsub ⟨Int.le_refl _, hs.nonempty⟩ ⟨h₁, h₂⟩
    have hge : s.2 ≤ t.2 := by
      by_contra hlt
      obtain ⟨u, hu, h₃, h₄⟩ := hs.subset (show t.2 ∈ Set.Ico s.1 s.2 from ⟨by omega, by omega⟩)
      have heq := h.eq_of_near ht hu (by omega) (by omega)
      subst heq
      omega
    have heq : s = t := Prod.ext (by omega) (by omega)
    rw [heq]
    exact ht

/-! ### Joining -/

/-- `s` behind the spans of `l`: it extends the last one where it continues it. --/
def join (l : List Span) (s : Span) : List Span :=
  match l.getLast? with
  | some t => if t.2 = s.1 then l.dropLast ++ [(t.1, s.2)] else l ++ [s]
  | none => [s]

@[simp] theorem join_nil : join [] s = [s] := rfl

theorem join_concat : join (l ++ [t]) s = if t.2 = s.1 then l ++ [(t.1, s.2)] else l ++ [t] ++ [s] := by
  simp [join]

/-- A span that lies behind the others is joined to the last one, or stands behind a gap. --/
theorem Apart.join (h : Apart a l m) (ha : a ≤ s.1) (hm : m ≤ s.1) (hs : s.1 < s.2) :
    Apart a (join l s) s.2 ∧ covers (Spans.join l s) = covers l ∪ Set.Ico s.1 s.2 := by
  rcases List.eq_nil_or_concat l with rfl | ⟨q, t, rfl⟩
  · refine ⟨⟨List.pairwise_singleton .., fun u hu => ?_⟩, by simp⟩
    cases List.mem_singleton.mp hu
    exact ⟨ha, hs, Int.le_refl _⟩
  · rw [List.concat_eq_append] at h ⊢
    obtain ⟨hq, -, hqt⟩ := List.pairwise_append.mp h.gaps
    have hgap : ∀ u ∈ q, u.2 < t.1 := fun u hu => hqt u hu t (List.mem_singleton_self t)
    have hmem : ∀ u ∈ q, a ≤ u.1 ∧ u.1 < u.2 ∧ u.2 ≤ m := fun u hu => h.mem u (List.mem_append_left _ hu)
    obtain ⟨ht₁, ht₂, ht₃⟩ := h.mem t (by simp)
    rw [join_concat]
    split_ifs with htouch
    · refine ⟨⟨?_, ?_⟩, ?_⟩
      · refine List.pairwise_append.mpr ⟨hq, List.pairwise_singleton .., fun u hu v hv => ?_⟩
        cases List.mem_singleton.mp hv
        exact hgap u hu
      · intro u hu
        rcases List.mem_append.mp hu with hu | hu
        · have := hmem u hu
          omega
        · cases List.mem_singleton.mp hu
          exact ⟨ht₁, by dsimp only; omega, Int.le_refl _⟩
      · simp only [covers_append, covers_cons, covers_nil, Set.union_empty, Set.union_assoc]
        rw [← htouch, Set.Ico_union_Ico_eq_Ico (by omega) (by omega)]
    · refine ⟨⟨?_, ?_⟩, by simp [Set.union_assoc]⟩
      · refine List.pairwise_append.mpr ⟨h.gaps, List.pairwise_singleton .., fun u hu v hv => ?_⟩
        cases List.mem_singleton.mp hv
        have := h.mem u hu
        rcases List.mem_append.mp hu with hu | hu
        · have := hgap u hu
          omega
        · cases List.mem_singleton.mp hu
          omega
      · intro u hu
        rcases List.mem_append.mp hu with hu | hu
        · have := h.mem u hu
          omega
        · cases List.mem_singleton.mp hu
          exact ⟨ha, hs, Int.le_refl _⟩

/-- The list with every span joined to the one it continues. --/
def merge (l : List Span) : List Span := l.foldl join []

theorem merge_concat : merge (l ++ [s]) = join (merge l) s := by
  rw [merge, List.foldl_append]
  rfl

/-- What the pass over an ascending list makes of it. --/
theorem Ordered.merge (h : Ordered a l b) : Apart a (merge l) b ∧ covers (Spans.merge l) = covers l := by
  induction l using List.reverseRecOn generalizing b with
  | nil => exact ⟨⟨List.Pairwise.nil, fun s hs => by cases hs⟩, rfl⟩
  | append_singleton l s ih =>
    obtain ⟨m, hl, hm, hs, hb⟩ := ordered_append.mp h
    obtain ⟨hapart, hcovers⟩ := ih hl
    have hle := hl.le
    obtain ⟨hjoin, hcov⟩ := hapart.join (Int.le_trans hle hm) hm hs
    rw [merge_concat, hcov, hcovers, covers_append, covers_cons, covers_nil, Set.union_empty]
    refine ⟨⟨hjoin.gaps, fun t ht => ?_⟩, rfl⟩
    obtain ⟨h₁, h₂, h₃⟩ := hjoin.mem t ht
    exact ⟨h₁, h₂, Int.le_trans h₃ hb⟩

/-- The pass finds the maximal runs, and nothing else. --/
theorem Ordered.mem_merge (h : Ordered a l b) : s ∈ Spans.merge l ↔ IsRun (covers l) s := by
  obtain ⟨hapart, hcovers⟩ := h.merge
  rw [hapart.mem_iff, hcovers]

/-! ### A bounded number of spans -/

/-- `join` into a list of `k` spans at most: the first one makes room. --/
def joinWithin (k : Nat) (l : List Span) (s : Span) : List Span :=
  match l.getLast? with
  | some t =>
    if t.2 = s.1 then l.dropLast ++ [(t.1, s.2)] else if l.length < k then l ++ [s] else l.tail ++ [s]
  | none => [s]

theorem joinWithin_concat : joinWithin k (l ++ [t]) s =
    if t.2 = s.1 then l ++ [(t.1, s.2)]
    else if l.length + 1 < k then l ++ [t] ++ [s] else (l ++ [t]).tail ++ [s] := by
  simp [joinWithin]

theorem joinWithin_rtake (hk : 0 < k) : joinWithin k (l.rtake k) s = (join l s).rtake k := by
  obtain ⟨k, rfl⟩ := Nat.exists_eq_add_one.mpr hk
  rcases List.eq_nil_or_concat l with rfl | ⟨q, t, rfl⟩
  · rw [List.rtake_nil, join_nil, ← List.nil_append [s], List.rtake_concat_succ, List.rtake_nil]
    rfl
  · rw [List.concat_eq_append, List.rtake_concat_succ, joinWithin_concat, join_concat]
    split_ifs with htouch hroom
    · rw [List.rtake_concat_succ]
    · -- fewer than `k` spans are kept: these are all
      have hshort : q.length < k := by
        rw [List.rtake, List.length_drop] at hroom
        omega
      simp only [List.rtake_concat_succ]
      obtain ⟨k, rfl⟩ := Nat.exists_eq_add_one.mpr (Nat.lt_of_le_of_lt (Nat.zero_le _) hshort)
      rw [List.rtake_concat_succ, List.rtake, List.rtake, show q.length - (k + 1) = 0 by omega,
        show q.length - k = 0 by omega]
    · rw [List.rtake_concat_succ]
      congr 1
      have hlong : k ≤ q.length := by
        rw [List.rtake, List.length_drop] at hroom
        omega
      rw [← List.rtake_concat_succ, List.rtake, List.rtake, List.tail_drop, List.length_append, List.length_singleton,
        show q.length + 1 - (k + 1) + 1 = q.length + 1 - k by omega]

/-- The bounded pass keeps the last `k` spans. --/
theorem foldl_joinWithin (hk : 0 < k) (q : List Span) :
    q.foldl (joinWithin k) (l.rtake k) = (q.foldl join l).rtake k := by
  induction q generalizing l with
  | nil => rfl
  | cons s q ih => rw [List.foldl_cons, List.foldl_cons, joinWithin_rtake hk, ih]

/-- The `k` spans kept include the one that holds `n` exactly where fewer than `k` lie above it. --/
theorem Apart.mem_rtake (h : Apart a l b) (hs : s ∈ l) (h₁ : s.1 ≤ n) (h₂ : n < s.2) :
    s ∈ l.rtake k ↔ {t | t ∈ l ∧ n < t.1}.encard < k := by
  have hnodup := h.nodup
  obtain ⟨l₁, l₂, rfl⟩ := List.append_of_mem hs
  obtain ⟨-, hgaps, hbelow⟩ := List.pairwise_append.mp h.gaps
  have habove := (List.pairwise_cons.mp hgaps).1
  have hset : {t | t ∈ l₁ ++ s :: l₂ ∧ n < t.1} = {t | t ∈ l₂} := by
    ext t
    simp only [List.mem_append, List.mem_cons, Set.mem_ofPred_eq]
    constructor
    · rintro ⟨ht | rfl | ht, hlt⟩
      · have := hbelow t ht s (List.mem_cons_self ..)
        have := h.mem t (List.mem_append_left _ ht)
        omega
      · omega
      · exact ht
    · intro ht
      have := habove t ht
      exact ⟨Or.inr (Or.inr ht), by omega⟩
  have hnot : s ∉ l₂ := (List.nodup_cons.mp (List.nodup_append.mp hnodup).2.1).1
  have hcard : {t | t ∈ l₂}.encard = l₂.length := by
    have hnd : l₂.Nodup := (List.nodup_cons.mp (List.nodup_append.mp hnodup).2.1).2
    rw [← List.coe_toFinset, Set.encard_coe_eq_coe_finsetCard, List.toFinset_card_of_nodup hnd]
  rw [hset, hcard, Nat.cast_lt]
  have hlen : (l₁ ++ s :: l₂).length = l₁.length + 1 + l₂.length := by
    rw [List.length_append, List.length_cons]
    omega
  rw [List.rtake, hlen]
  constructor
  · intro hmem
    by_contra hlong
    rw [List.append_cons, List.drop_append, List.drop_of_length_le (by simp; omega), List.nil_append] at hmem
    exact hnot (List.mem_of_mem_drop hmem)
  · intro hshort
    rw [List.drop_append_of_le_length (by omega)]
    exact List.mem_append_right _ (List.mem_cons_self ..)

end Spans
