import Mathlib
import Netxduo.Library.SpanCounts
import Netxduo.Tcp.Evidence
import Netxduo.Tcp.Opened

/-! The edge below which a hole counts as lost, `sack_lost_edge`: two criteria, the number of reported ranges above an
    octet and the number of reported octets, folded into one edge in a pass over the holes from the highest on. -/

namespace Netxduo
open Serial Spans

/-! ### What the peer has reported -/

/-- The holes ascend without overlap between the cumulative acknowledgment and the highest evidence. --/
def HolesOrdered (ack fack : ULONG) (holes : List SackHole) : Prop :=
  Ordered 0 (holes.map (SackHole.span ack)) (rel ack fack)

/-- The octets reported, by their distance from the acknowledgment. --/
def sackedOctets (ack fack : ULONG) (holes : List SackHole) : Set Int :=
  Set.Ico 0 (rel ack fack) \ covers (holes.map (SackHole.span ack))

/-- `IsLost` of RFC 6675: three reported ranges above the octet, or more than `threshold` reported octets. --/
def IsLost (ack fack : ULONG) (holes : List SackHole) (threshold : Nat) (x : Int) : Prop :=
  3 ≤ {run | IsRun (sackedOctets ack fack holes ∩ Set.Ioi x) run}.encard ∨
    (threshold : ENat) < (sackedOctets ack fack holes ∩ Set.Ioi x).encard

/-- The sizes of the reported ranges above the holes, from the highest range on. --/
def sackRanges : ULONG → List SackHole → List Nat
  | _, [] => []
  | cursor, h :: rest =>
    if cursor - h.right = 0 then sackRanges h.left rest else (cursor - h.right).toNat :: sackRanges h.left rest

/-- The three highest ranges hold more than `threshold` octets, or no more than that are reported at all. --/
def BytesFirst (threshold : Nat) (ranges : List Nat) : Prop :=
  threshold < (ranges.take 3).sum ∨ ranges.sum ≤ threshold

/-! ### Ranges as spans -/

/-- The reported ranges above the holes, which descend. --/
def sackedSpans (ack : ULONG) : Int → List SackHole → List Span
  | _, [] => []
  | cursor, h :: rest => keep (rel ack h.right) cursor ++ sackedSpans ack (rel ack h.left) rest

/-- The holes descend below `cursor`. --/
def HolesBelow (ack : ULONG) : Int → List SackHole → Prop
  | cursor, [] => 0 ≤ cursor
  | cursor, h :: rest =>
    0 ≤ rel ack h.left ∧ rel ack h.left < rel ack h.right ∧ rel ack h.right ≤ cursor ∧ HolesBelow ack (rel ack h.left) rest

section
variable {ack fack cursor edge bytes threshold : ULONG} {c x : Int} {h : SackHole} {holes rest pre post : List SackHole}
  {ranges : Nat}

theorem HolesBelow.nonneg (h : HolesBelow ack c holes) : 0 ≤ c := by
  cases holes with
  | nil => exact h
  | cons k rest =>
    obtain ⟨h₁, h₂, h₃, -⟩ := h
    omega

theorem HolesBelow.mem (h : HolesBelow ack c holes) {k : SackHole} (hk : k ∈ holes) :
    0 ≤ rel ack k.left ∧ rel ack k.left < rel ack k.right ∧ rel ack k.right ≤ c := by
  induction holes generalizing c with
  | nil => cases hk
  | cons k' rest ih =>
    obtain ⟨h₁, h₂, h₃, h₄⟩ := h
    rcases List.mem_cons.mp hk with rfl | hk
    · exact ⟨h₁, h₂, h₃⟩
    · have := ih h₄ hk
      omega

theorem holesBelow_concat (h : HolesBelow ack c rest) :
    (∀ k, 0 ≤ rel ack k.left → rel ack k.left < rel ack k.right → (∀ k' ∈ rest, rel ack k.right ≤ rel ack k'.left) →
      rel ack k.right ≤ c → HolesBelow ack c (rest ++ [k])) := by
  intro k h₁ h₂ h₃ h₄
  induction rest generalizing c with
  | nil => exact ⟨h₁, h₂, h₄, h₁⟩
  | cons k' rest ih =>
    obtain ⟨g₁, g₂, g₃, g₄⟩ := h
    exact ⟨g₁, g₂, g₃, ih g₄ (fun k'' hk => h₃ k'' (List.mem_cons_of_mem k' hk)) (h₃ k' (List.mem_cons_self ..))⟩

/-- The holes above one of them, and those below it. --/
theorem HolesBelow.split (h : HolesBelow ack c (pre ++ k :: post)) :
    HolesBelow ack c (pre ++ [k]) ∧ ∀ k' ∈ post, rel ack k'.right ≤ rel ack k.left := by
  induction pre generalizing c with
  | nil =>
    obtain ⟨h₁, h₂, h₃, h₄⟩ := h
    exact ⟨⟨h₁, h₂, h₃, h₁⟩, fun k' hk => (h₄.mem hk).2.2⟩
  | cons u pre ih =>
    obtain ⟨h₁, h₂, h₃, h₄⟩ := h
    obtain ⟨hupper, hunder⟩ := ih h₄
    exact ⟨⟨h₁, h₂, h₃, hupper⟩, hunder⟩

/-- Ascending holes, read from the highest one on. --/
theorem holesBelow_reverse {a : Int} (ha : 0 ≤ a) (h : Ordered a (holes.map (SackHole.span ack)) c) :
    HolesBelow ack c holes.reverse := by
  induction holes generalizing a with
  | nil => exact Int.le_trans ha h
  | cons k rest ih =>
    obtain ⟨h₁, h₂, h₃⟩ := h
    have h₁ : a ≤ rel ack k.left := h₁
    have h₂ : rel ack k.left < rel ack k.right := h₂
    have h₃ : Ordered (rel ack k.right) (rest.map (SackHole.span ack)) c := h₃
    rw [List.reverse_cons]
    refine holesBelow_concat (ih (by omega) h₃) k (by omega) h₂ (fun k' hk => ?_) h₃.le
    exact (h₃.mem (List.mem_map_of_mem (List.mem_reverse.mp hk))).1

theorem mem_sackedSpans (h : HolesBelow ack c rest) {s : Span} (hs : s ∈ sackedSpans ack c rest) :
    s.1 < s.2 ∧ s.2 ≤ c := by
  induction rest generalizing c with
  | nil => cases hs
  | cons k rest ih =>
    obtain ⟨h₁, h₂, h₃, h₄⟩ := h
    rcases List.mem_append.mp hs with hs | hs
    · unfold keep at hs
      split at hs
      · cases List.mem_singleton.mp hs
        exact ⟨by assumption, Int.le_refl _⟩
      · cases hs
    · have := ih h₄ hs
      omega

theorem descending_sackedSpans (h : HolesBelow ack c rest) : Descending (sackedSpans ack c rest) := by
  refine ⟨?_, fun s hs => (mem_sackedSpans h hs).1⟩
  induction rest generalizing c with
  | nil => exact List.Pairwise.nil
  | cons k rest ih =>
    obtain ⟨h₁, h₂, h₃, h₄⟩ := h
    refine List.pairwise_append.mpr ⟨?_, ih h₄, fun s hs t ht => ?_⟩
    · unfold keep
      split
      · exact List.pairwise_singleton ..
      · exact List.Pairwise.nil
    · have ht := mem_sackedSpans h₄ ht
      unfold keep at hs
      split at hs
      · cases List.mem_singleton.mp hs
        show t.2 < rel ack k.right
        omega
      · cases hs

/-- The reported ranges down to the lowest of the holes are what lies outside of them. --/
theorem covers_sackedSpans (h : HolesBelow ack c (pre ++ [k])) :
    covers (sackedSpans ack c (pre ++ [k])) = Set.Ico (rel ack k.right) c \ covers (pre.map (SackHole.span ack)) := by
  induction pre generalizing c with
  | nil => simp [sackedSpans]
  | cons k' pre ih =>
    obtain ⟨h₁, h₂, h₃, h₄⟩ := h
    have hlow := (h₄.mem (k := k) (by simp))
    have hpre : ∀ n ∈ covers (pre.map (SackHole.span ack)), n < rel ack k'.left := by
      rintro n ⟨s, hs, -, hn⟩
      obtain ⟨k'', hk, rfl⟩ := List.mem_map.mp hs
      have := h₄.mem (k := k'') (by simp [hk])
      have hn : n < rel ack k''.right := hn
      omega
    rw [List.cons_append, sackedSpans, covers_append, covers_keep, ih h₄, List.map_cons, covers_cons]
    ext n
    have hn := hpre n
    simp only [Set.mem_union, Set.mem_sdiff, Set.mem_Ico, SackHole.span, not_or]
    constructor
    · rintro (hin | ⟨hin, hout⟩)
      · exact ⟨by omega, by omega, fun hc => by have := hn hc; omega⟩
      · exact ⟨by omega, by omega, hout⟩
    · rintro ⟨hin, hnot, hout⟩
      by_cases hup : rel ack k'.right ≤ n
      · exact .inl (by omega)
      · exact .inr ⟨by omega, hout⟩

/-- A difference of two places, where the first is not below the second. --/
theorem toNat_sub_rel {x y : ULONG} (h : rel ack y ≤ rel ack x) (hy : 0 ≤ rel ack y) :
    ((x - y).toNat : Int) = rel ack x - rel ack y := by
  have hx := rel_bounds ack x
  have hint : (x - y).toInt = rel ack x - rel ack y := int_sub_rel (by omega) (by omega)
  have := BitVec.toInt_eq_toNat_cond (x - y)
  split at this <;> omega

theorem map_size_sackedSpans (h : HolesBelow ack (rel ack cursor) rest) :
    (sackedSpans ack (rel ack cursor) rest).map size = sackRanges cursor rest := by
  induction rest generalizing cursor with
  | nil => rfl
  | cons k rest ih =>
    obtain ⟨h₁, h₂, h₃, h₄⟩ := h
    have hgap := toNat_sub_rel h₃ (by omega)
    rw [sackedSpans, sackRanges, List.map_append, ih h₄]
    by_cases hzero : cursor - k.right = 0
    · rw [hzero] at hgap
      have hgap : (0 : Int) = rel ack cursor - rel ack k.right := hgap
      rw [if_pos hzero, keep, if_neg (by omega)]
      rfl
    · have hpos : (cursor - k.right).toNat ≠ 0 := fun h0 => hzero (BitVec.eq_of_toNat_eq h0)
      rw [if_neg hzero, keep, if_pos (by omega), List.map_singleton, size]
      have hsize : (rel ack cursor - rel ack k.right).toNat = (cursor - k.right).toNat := by omega
      rw [hsize]
      rfl

/-- Whether an octet of a hole is lost, counted over the ranges above it. --/
theorem isLost_iff {n : Nat} (hordered : HolesOrdered ack fack holes) (hsplit : holes.reverse = pre ++ k :: post)
    (hx₁ : rel ack k.left ≤ x) (hx₂ : x < rel ack k.right) :
    IsLost ack fack holes n x ↔
      3 ≤ (sackRanges fack (pre ++ [k])).length ∨ n < (sackRanges fack (pre ++ [k])).sum := by
  have hbelow := holesBelow_reverse (Int.le_refl 0) hordered
  rw [hsplit] at hbelow
  obtain ⟨hupper, hunder⟩ := hbelow.split
  have hset : sackedOctets ack fack holes ∩ Set.Ioi x = covers (sackedSpans ack (rel ack fack) (pre ++ [k])) := by
    rw [covers_sackedSpans hupper]
    have hmem : ∀ k', k' ∈ holes ↔ k' ∈ pre ∨ k' = k ∨ k' ∈ post := fun k' => by
      rw [← List.mem_reverse, hsplit, List.mem_append, List.mem_cons]
    have hk := hbelow.mem (k := k) (by simp)
    ext n
    constructor
    · rintro ⟨⟨⟨hn₁, hn₂⟩, hout⟩, hlt⟩
      have hlt : x < n := hlt
      refine ⟨⟨?_, hn₂⟩, ?_⟩
      · by_contra hin
        exact hout ⟨k.span ack, List.mem_map_of_mem ((hmem k).mpr (.inr (.inl rfl))), by
          show rel ack k.left ≤ n
          omega, by
          show n < rel ack k.right
          omega⟩
      · rintro ⟨s, hs, hns⟩
        obtain ⟨k', hk', rfl⟩ := List.mem_map.mp hs
        exact hout ⟨k'.span ack, List.mem_map_of_mem ((hmem k').mpr (.inl hk')), hns⟩
    · rintro ⟨⟨hn₁, hn₂⟩, hout⟩
      refine ⟨⟨⟨by omega, hn₂⟩, ?_⟩, show x < n by omega⟩
      rintro ⟨s, hs, hs₁, hs₂⟩
      obtain ⟨k', hk', rfl⟩ := List.mem_map.mp hs
      have hs₂ : n < rel ack k'.right := hs₂
      rcases (hmem k').mp hk' with hpre | rfl | hpost
      · exact hout ⟨k'.span ack, List.mem_map_of_mem hpre, hs₁, hs₂⟩
      · omega
      · have := hunder k' hpost
        omega
  have hdesc := descending_sackedSpans hupper
  have hsizes := map_size_sackedSpans hupper
  rw [IsLost, hset, hdesc.encard_runs, hdesc.encard_covers, hsizes, ← hsizes, List.length_map]
  refine or_congr ?_ ?_
  · exact Nat.cast_le (α := ENat) (m := 3)
  · exact Nat.cast_lt

/-! ### The pass -/

/-- The edge `e` is right for the holes below `cursor`, with `bytes` octets in `ranges` ranges reported above it. --/
def Agrees (ack : ULONG) (threshold : Nat) (e : Int) : ULONG → Nat → Nat → List SackHole → Prop
  | _, _, _, [] => True
  | cursor, bytes, ranges, h :: rest =>
    let gap := (cursor - h.right).toNat
    let ranges := if cursor - h.right = 0 then ranges else ranges + 1
    (∀ x, rel ack h.left ≤ x → x < rel ack h.right → (x < e ↔ 3 ≤ ranges ∨ threshold < bytes + gap)) ∧
      Agrees ack threshold e h.left (bytes + gap) ranges rest

theorem sum_sackRanges_cons (cursor : ULONG) (h : SackHole) (rest : List SackHole) :
    (sackRanges cursor (h :: rest)).sum = (cursor - h.right).toNat + (sackRanges h.left rest).sum := by
  rw [sackRanges]
  split
  · rename_i hzero
    rw [hzero]
    exact (Nat.zero_add _).symm
  · rw [List.sum_cons]

/-- All that is reported fits below half the sequence space. --/
theorem HolesBelow.sum_le (h : HolesBelow ack (rel ack cursor) rest) :
    ((sackRanges cursor rest).sum : Int) ≤ rel ack cursor := by
  induction rest generalizing cursor with
  | nil => exact h
  | cons k rest ih =>
    obtain ⟨h₁, h₂, h₃, h₄⟩ := h
    have hgap := toNat_sub_rel h₃ (by omega)
    have := ih h₄
    rw [sum_sackRanges_cons, Int.natCast_add]
    omega

/-- The comparison of two places that are both not below the acknowledgment. --/
theorem int_sub_nonneg {ack x y : ULONG} (hx : 0 ≤ rel ack x) (hy : 0 ≤ rel ack y) :
    INT (x - y) = rel ack x - rel ack y := by
  have h₁ := rel_bounds ack x
  have h₂ := rel_bounds ack y
  exact int_sub_rel (by omega) (by omega)

/-- The place `n` octets below one that lies that far up. --/
theorem rel_sub_nonneg {x n : ULONG} (h : (n.toNat : Int) ≤ rel ack x) : rel ack (x - n) = rel ack x - n.toNat := by
  have hx := rel_bounds ack x
  have hn : n.toInt = n.toNat := by
    have := BitVec.toInt_eq_toNat_cond n
    split at this <;> omega
  have heq : x - n - ack = (x - ack) - n := by grind
  have hx' : (x - ack).toInt = rel ack x := rfl
  rw [rel, heq, BitVec.toInt_sub, hn, hx']
  exact bmod_eq (w := 32) (by omega) (by omega)

/-- Once enough octets are reported the edge stays. --/
theorem lostEdgeLoop_fired (threshold bytes : ULONG) (ranges : Nat) (edge : ULONG)
    (h : HolesBelow ack (rel ack cursor) rest) (hfired : threshold.toNat < bytes.toNat)
    (hsum : bytes.toNat + (sackRanges cursor rest).sum < 2 ^ 32) (hedge : rel ack cursor ≤ rel ack edge) :
    sackLostEdgeLoop threshold rest edge cursor bytes ranges = edge ∧
      Agrees ack threshold.toNat (rel ack edge) cursor bytes.toNat ranges rest := by
  induction rest generalizing cursor bytes ranges with
  | nil => exact ⟨rfl, trivial⟩
  | cons k rest ih =>
    obtain ⟨h₁, h₂, h₃, h₄⟩ := h
    have hint : INT (k.right - edge) = rel ack k.right - rel ack edge := int_sub_nonneg (by omega) (by omega)
    rw [sum_sackRanges_cons] at hsum
    have hbytes : (bytes + (cursor - k.right)).toNat = bytes.toNat + (cursor - k.right).toNat :=
      BitVec.toNat_add_of_lt (by omega)
    have hnot : ¬(bytes ≤ threshold ∧ cursor - k.right > threshold - bytes) := fun hc => by
      have hle : bytes.toNat ≤ threshold.toNat := hc.1
      omega
    have hstay : ¬(ranges + 1 = fastRetransmitThreshold ∧ INT (k.right - edge) > 0) := fun hc => by omega
    rw [sackLostEdgeLoop, Agrees]
    dsimp only
    rw [if_neg hnot, if_neg hstay]
    by_cases hzero : cursor - k.right = 0
    · rw [if_neg (not_not.mpr hzero), if_pos hzero, hzero]
      obtain ⟨hloop, hagrees⟩ := ih _ ranges h₄ hfired (by omega) (by omega)
      refine ⟨hloop, fun x _ hx => ?_, hagrees⟩
      exact iff_of_true (by omega) (.inr (by omega))
    · rw [if_pos hzero, if_neg hzero]
      obtain ⟨hloop, hagrees⟩ := ih (bytes + (cursor - k.right)) (ranges + 1) h₄ (by omega)
        (by omega) (by omega)
      rw [hbytes] at hagrees
      refine ⟨hloop, fun x _ hx => ?_, hagrees⟩
      exact iff_of_true (by omega) (.inr (by omega))

/-- The edge never rises above the place reached. --/
theorem lostEdgeLoop_le (threshold bytes : ULONG) (ranges : Nat) (edge : ULONG)
    (h : HolesBelow ack (rel ack cursor) rest) (hsmall : bytes.toNat + (sackRanges cursor rest).sum < 2 ^ 32)
    (hedge : 0 ≤ rel ack edge) {m : Int} (hm : rel ack edge ≤ m) (hc : rel ack cursor ≤ m) :
    0 ≤ rel ack (sackLostEdgeLoop threshold rest edge cursor bytes ranges) ∧
      rel ack (sackLostEdgeLoop threshold rest edge cursor bytes ranges) ≤ m := by
  induction rest generalizing cursor bytes ranges edge with
  | nil => exact ⟨hedge, hm⟩
  | cons k rest ih =>
    obtain ⟨h₁, h₂, h₃, h₄⟩ := h
    have hgap := toNat_sub_rel h₃ (by omega)
    rw [sum_sackRanges_cons] at hsmall
    have hbytes : (bytes + (cursor - k.right)).toNat = bytes.toNat + (cursor - k.right).toNat :=
      BitVec.toNat_add_of_lt (by omega)
    rw [sackLostEdgeLoop]
    dsimp only
    by_cases hzero : cursor - k.right = 0
    · rw [if_neg (not_not.mpr hzero)]
      exact ih _ _ _ h₄ (by omega) hedge hm (by omega)
    · rw [if_pos hzero]
      have hfirst : 0 ≤ rel ack (if bytes ≤ threshold ∧ cursor - k.right > threshold - bytes then
            cursor - (threshold - bytes) else edge) ∧
          rel ack (if bytes ≤ threshold ∧ cursor - k.right > threshold - bytes then
            cursor - (threshold - bytes) else edge) ≤ m := by
        split
        · rename_i hc
          have hlt : (threshold - bytes).toNat < (cursor - k.right).toNat := hc.2
          rw [rel_sub_nonneg (by omega)]
          omega
        · exact ⟨hedge, hm⟩
      generalize (if bytes ≤ threshold ∧ cursor - k.right > threshold - bytes then
            cursor - (threshold - bytes) else edge) = first at hfirst
      split
      · exact ih _ _ _ h₄ (by omega) (by omega) (by omega) (by omega)
      · exact ih _ _ _ h₄ (by omega) hfirst.1 hfirst.2 (by omega)

/-- Once three ranges are reported, and not enough octets yet: the edge stays, unless the octets come to be enough
    further down. Then it falls below the place reached. --/
theorem lostEdgeLoop_ranges (threshold bytes : ULONG) (ranges : Nat) (edge : ULONG)
    (h : HolesBelow ack (rel ack cursor) rest) (hranges : 3 ≤ ranges)
    (hfew : bytes.toNat ≤ threshold.toNat) (hsum : bytes.toNat + (sackRanges cursor rest).sum < 2 ^ 32)
    (hedge : rel ack cursor ≤ rel ack edge) :
    (bytes.toNat + (sackRanges cursor rest).sum ≤ threshold.toNat →
      sackLostEdgeLoop threshold rest edge cursor bytes ranges = edge ∧
        Agrees ack threshold.toNat (rel ack edge) cursor bytes.toNat ranges rest) ∧
    (threshold.toNat < bytes.toNat + (sackRanges cursor rest).sum →
      rel ack (sackLostEdgeLoop threshold rest edge cursor bytes ranges) ≤ rel ack cursor) := by
  induction rest generalizing cursor bytes ranges with
  | nil =>
    refine ⟨fun _ => ⟨rfl, trivial⟩, fun hlt => ?_⟩
    have hlt : threshold.toNat < bytes.toNat + 0 := hlt
    omega
  | cons k rest ih =>
    obtain ⟨h₁, h₂, h₃, h₄⟩ := h
    have hint : INT (k.right - edge) = rel ack k.right - rel ack edge := int_sub_nonneg (by omega) (by omega)
    have hgap := toNat_sub_rel h₃ (by omega)
    rw [sum_sackRanges_cons] at hsum ⊢
    have hbytes : (bytes + (cursor - k.right)).toNat = bytes.toNat + (cursor - k.right).toNat :=
      BitVec.toNat_add_of_lt (by omega)
    have hstay : ∀ e : ULONG, ¬(ranges + 1 = fastRetransmitThreshold ∧ INT (k.right - e) > 0) := fun e hc => by
      have : ranges + 1 = 3 := hc.1
      omega
    rw [sackLostEdgeLoop, Agrees]
    dsimp only
    rw [if_neg (hstay _)]
    by_cases hzero : cursor - k.right = 0
    · rw [if_neg (not_not.mpr hzero), if_pos hzero, hzero]
      have hz : (0 : ULONG).toNat = 0 := rfl
      obtain ⟨hkeep, hfall⟩ := ih _ ranges h₄ hranges hfew (by omega) (by omega)
      refine ⟨fun hle => ?_, fun hlt => ?_⟩
      · obtain ⟨hloop, hagrees⟩ := hkeep (by omega)
        exact ⟨hloop, fun x _ hx => iff_of_true (by omega) (.inl hranges), hagrees⟩
      · have := hfall (by omega)
        omega
    · rw [if_pos hzero, if_neg hzero]
      by_cases hfire : threshold.toNat < bytes.toNat + (cursor - k.right).toNat
      · -- the octets are enough now
        have hroom : (threshold - bytes).toNat = threshold.toNat - bytes.toNat := BitVec.toNat_sub_of_le hfew
        have hc : bytes ≤ threshold ∧ cursor - k.right > threshold - bytes :=
          ⟨hfew, show (threshold - bytes).toNat < (cursor - k.right).toNat by omega⟩
        have hrel : rel ack (cursor - (threshold - bytes)) = rel ack cursor - (threshold - bytes).toNat :=
          rel_sub_nonneg (by omega)
        rw [if_pos hc]
        obtain ⟨hloop, -⟩ := lostEdgeLoop_fired threshold (bytes + (cursor - k.right)) (ranges + 1)
          (cursor - (threshold - bytes)) h₄ (by omega) (by omega) (by omega)
        refine ⟨fun hle => by omega, fun _ => ?_⟩
        rw [hloop]
        omega
      · have hc : ¬(bytes ≤ threshold ∧ cursor - k.right > threshold - bytes) := fun hc => by
          have hroom : (threshold - bytes).toNat = threshold.toNat - bytes.toNat := BitVec.toNat_sub_of_le hfew
          have hlt : (threshold - bytes).toNat < (cursor - k.right).toNat := hc.2
          omega
        rw [if_neg hc]
        obtain ⟨hkeep, hfall⟩ := ih (bytes + (cursor - k.right)) (ranges + 1) h₄ (by omega) (by omega)
          (by omega) (by omega)
        rw [hbytes] at hkeep hfall
        refine ⟨fun hle => ?_, fun hlt => ?_⟩
        · obtain ⟨hloop, hagrees⟩ := hkeep (by omega)
          exact ⟨hloop, fun x _ hx => iff_of_true (by omega) (.inl (by omega)), hagrees⟩
        · have := hfall (by omega)
          omega

/-- From the start: the edge is right for every hole exactly where the octets are enough at the third range already,
    or never. --/
theorem lostEdgeLoop_agrees (threshold bytes : ULONG) (ranges : Nat)
    (h : HolesBelow ack (rel ack cursor) rest) (hranges : ranges < 3)
    (hfew : bytes.toNat ≤ threshold.toNat) (hsum : bytes.toNat + (sackRanges cursor rest).sum < 2 ^ 32) :
    Agrees ack threshold.toNat (rel ack (sackLostEdgeLoop threshold rest ack cursor bytes ranges)) cursor bytes.toNat
        ranges rest ↔
      threshold.toNat < bytes.toNat + ((sackRanges cursor rest).take (3 - ranges)).sum ∨
        bytes.toNat + (sackRanges cursor rest).sum ≤ threshold.toNat := by
  induction rest generalizing cursor bytes ranges with
  | nil => exact iff_of_true trivial (.inr (by exact hfew))
  | cons k rest ih =>
    obtain ⟨h₁, h₂, h₃, h₄⟩ := h
    have hgap := toNat_sub_rel h₃ (by omega)
    have hself : rel ack ack = 0 := rel_self ack
    have hint : INT (k.right - ack) = rel ack k.right := rfl
    have hsum' := hsum
    rw [sum_sackRanges_cons] at hsum
    have hbytes : (bytes + (cursor - k.right)).toNat = bytes.toNat + (cursor - k.right).toNat :=
      BitVec.toNat_add_of_lt (by omega)
    rw [sackLostEdgeLoop, Agrees, sackRanges]
    dsimp only
    by_cases hzero : cursor - k.right = 0
    · rw [if_neg (not_not.mpr hzero), if_pos hzero, if_pos hzero, hzero]
      have hz : bytes.toNat + (0 : ULONG).toNat = bytes.toNat := Nat.add_zero _
      rw [hz, ← ih _ _ h₄ hranges hfew (by omega)]
      obtain ⟨-, hle⟩ := lostEdgeLoop_le threshold bytes ranges ack h₄
        (by omega) (by omega) (m := rel ack k.left) (by omega) (Int.le_refl _)
      refine and_iff_right fun x hx _ => iff_of_false (by omega) (by omega)
    · rw [if_pos hzero, if_neg hzero, if_neg hzero]
      have hpos : (cursor - k.right).toNat ≠ 0 := fun h0 => hzero (BitVec.eq_of_toNat_eq h0)
      have htake : ((cursor - k.right).toNat :: sackRanges k.left rest).take (3 - ranges) =
          (cursor - k.right).toNat :: (sackRanges k.left rest).take (3 - (ranges + 1)) := by
        rw [show 3 - ranges = (3 - (ranges + 1)) + 1 by omega, List.take_succ_cons]
      rw [htake, List.sum_cons, List.sum_cons]
      have hroom : (threshold - bytes).toNat = threshold.toNat - bytes.toNat := BitVec.toNat_sub_of_le hfew
      by_cases hfire : threshold.toNat < bytes.toNat + (cursor - k.right).toNat
      · -- the octets are enough first: the edge lies in this range
        have hc : bytes ≤ threshold ∧ cursor - k.right > threshold - bytes :=
          ⟨hfew, show (threshold - bytes).toNat < (cursor - k.right).toNat by omega⟩
        have hrel : rel ack (cursor - (threshold - bytes)) = rel ack cursor - (threshold - bytes).toNat :=
          rel_sub_nonneg (by omega)
        have hstay : ¬(ranges + 1 = fastRetransmitThreshold ∧ INT (k.right - (cursor - (threshold - bytes))) > 0) := by
          rintro ⟨-, hgt⟩
          rw [@int_sub_nonneg ack _ _ (by omega) (by omega)] at hgt
          omega
        rw [if_pos hc, if_neg hstay]
        obtain ⟨hloop, hagrees⟩ := lostEdgeLoop_fired threshold (bytes + (cursor - k.right)) (ranges + 1)
          (cursor - (threshold - bytes)) h₄ (by omega) (by omega) (by omega)
        rw [hloop]
        rw [hbytes] at hagrees
        refine iff_of_true ⟨fun x _ hx => iff_of_true (by omega) (.inr hfire), hagrees⟩ (.inl (by omega))
      · have hc : ¬(bytes ≤ threshold ∧ cursor - k.right > threshold - bytes) := fun hc => by
          have hlt : (threshold - bytes).toNat < (cursor - k.right).toNat := hc.2
          omega
        rw [if_neg hc]
        by_cases hthird : ranges + 1 = fastRetransmitThreshold
        · -- this is the third range, with too few octets above
          have hthree : ranges + 1 = 3 := hthird
          rw [if_pos ⟨hthird, by rw [hint]; omega⟩]
          obtain ⟨hkeep, hfall⟩ := lostEdgeLoop_ranges threshold (bytes + (cursor - k.right))
            (ranges + 1) k.right h₄ (by omega) (by omega) (by omega) (by omega)
          rw [hbytes] at hkeep hfall
          have hnone : (sackRanges k.left rest).take (3 - (ranges + 1)) = [] := by
            rw [hthree, Nat.sub_self, List.take_zero]
          rw [hnone, List.sum_nil]
          constructor
          · rintro ⟨hhole, -⟩
            refine .inr (Nat.le_of_not_lt fun hlt => ?_)
            have hle := hfall (by omega)
            have := (hhole (rel ack k.left) (Int.le_refl _) h₂).mpr (.inl (by omega))
            omega
          · rintro (hlt | hle)
            · omega
            · obtain ⟨hloop, hagrees⟩ := hkeep (by omega)
              rw [hloop]
              exact ⟨fun x _ hx => iff_of_true hx (.inl (by omega)), hagrees⟩
        · have hfewer : ranges + 1 ≠ 3 := hthird
          rw [if_neg (fun hboth => hthird hboth.1)]
          have hrest := ih (bytes + (cursor - k.right)) (ranges + 1) h₄ (by omega) (by omega) (by omega)
          rw [hbytes] at hrest
          rw [← Nat.add_assoc, ← Nat.add_assoc, ← hrest]
          obtain ⟨-, hle⟩ := lostEdgeLoop_le threshold (bytes + (cursor - k.right))
            (ranges + 1) ack h₄ (by omega) (by omega) (m := rel ack k.left) (by omega) (Int.le_refl _)
          refine and_iff_right fun x hx _ => iff_of_false (by omega) (by omega)

/-! ### The edge and the rule -/

theorem length_sackRanges_cons (cursor : ULONG) (h : SackHole) (rest : List SackHole) :
    (sackRanges cursor (h :: rest)).length =
      (if cursor - h.right = 0 then 0 else 1) + (sackRanges h.left rest).length := by
  rw [sackRanges]
  split
  · exact (Nat.zero_add _).symm
  · rw [List.length_cons, Nat.add_comm]

/-- The edge is right for the holes below a place exactly where it is right for each of them. --/
theorem agrees_iff {n bytes : Nat} {e : Int} :
    Agrees ack n e cursor bytes ranges rest ↔
      ∀ pre k post, rest = pre ++ k :: post → ∀ x, rel ack k.left ≤ x → x < rel ack k.right →
        (x < e ↔ 3 ≤ ranges + (sackRanges cursor (pre ++ [k])).length ∨
          n < bytes + (sackRanges cursor (pre ++ [k])).sum) := by
  induction rest generalizing cursor bytes ranges with
  | nil =>
    refine iff_of_true trivial fun pre k post hsplit => ?_
    exact absurd hsplit.symm (List.append_ne_nil_of_right_ne_nil pre (List.cons_ne_nil k post))
  | cons h rest ih =>
    have hcount : (if cursor - h.right = 0 then ranges else ranges + 1) =
        ranges + if cursor - h.right = 0 then 0 else 1 := by split <;> rfl
    rw [Agrees]
    rw [hcount, ih]
    constructor
    · rintro ⟨hfirst, hothers⟩ pre k post hsplit x h₁ h₂
      cases pre with
      | nil =>
        cases hsplit
        rw [List.nil_append, length_sackRanges_cons, sum_sackRanges_cons]
        exact hfirst x h₁ h₂
      | cons u pre =>
        cases hsplit
        rw [List.cons_append, length_sackRanges_cons, sum_sackRanges_cons, ← Nat.add_assoc, ← Nat.add_assoc]
        exact hothers pre k post rfl x h₁ h₂
    · intro hall
      refine ⟨fun x h₁ h₂ => ?_, fun pre k post hsplit x h₁ h₂ => ?_⟩
      · have := hall [] h rest rfl x h₁ h₂
        rw [List.nil_append, length_sackRanges_cons, sum_sackRanges_cons] at this
        exact this
      · have := hall (h :: pre) k post (by rw [hsplit]; rfl) x h₁ h₂
        rw [List.cons_append, length_sackRanges_cons, sum_sackRanges_cons, ← Nat.add_assoc, ← Nat.add_assoc] at this
        exact this

/-- A place for every distance. --/
theorem exists_rel (ack : ULONG) (x : Int) (h₁ : 0 ≤ x) (h₂ : x < 2 ^ 31) : ∃ b : ULONG, rel ack b = x := by
  refine ⟨ack + BitVec.ofNat 32 x.toNat, ?_⟩
  have hself : rel ack ack = 0 := rel_self ack
  rw [rel_add_ofNat] <;> omega

/-- The edge agrees with the rule on every octet of every hole exactly where the octets are enough at the third range
    already, or never. --/
theorem sackLostEdge_iff (s : Socket) (fack : ULONG) (holes : List SackHole) (hmss : s.connectMss.toNat < 2 ^ 31)
    (hordered : HolesOrdered s.sack.highAck fack holes) :
    (∀ h ∈ holes, ∀ b : ULONG, rel s.sack.highAck h.left ≤ rel s.sack.highAck b →
        rel s.sack.highAck b < rel s.sack.highAck h.right →
        (INT (sackLostEdge s holes fack - b) > 0 ↔
          IsLost s.sack.highAck fack holes (2 * s.connectMss.toNat) (rel s.sack.highAck b))) ↔
      BytesFirst (2 * s.connectMss.toNat) (sackRanges fack holes.reverse) := by
  have hbelow := holesBelow_reverse (Int.le_refl 0) hordered
  have hfack := rel_bounds s.sack.highAck fack
  have hsum := hbelow.sum_le
  have hthreshold : ((BitVec.ofNat 32 (fastRetransmitThreshold - 1)) * s.connectMss).toNat = 2 * s.connectMss.toNat := by
    have htwo : (BitVec.ofNat 32 (fastRetransmitThreshold - 1) : ULONG).toNat = 2 := rfl
    rw [BitVec.toNat_mul, htwo]
    exact Nat.mod_eq_of_lt (by omega)
  have hzero : (0 : ULONG).toNat = 0 := rfl
  obtain ⟨hlow, -⟩ := lostEdgeLoop_le ((BitVec.ofNat 32 (fastRetransmitThreshold - 1)) * s.connectMss)
    0 0 s.sack.highAck hbelow (by omega) (by rw [rel_self])
    (m := rel s.sack.highAck fack) (by rw [rel_self]; exact hbelow.nonneg) (Int.le_refl _)
  have hagrees := lostEdgeLoop_agrees ((BitVec.ofNat 32 (fastRetransmitThreshold - 1)) * s.connectMss)
    0 0 hbelow (by omega) (by omega) (by omega)
  rw [agrees_iff, hthreshold, hzero, Nat.zero_add, Nat.zero_add] at hagrees
  rw [BytesFirst, ← hagrees]
  change 0 ≤ rel s.sack.highAck (sackLostEdge s holes fack) at hlow
  have hplace : ∀ b : ULONG, 0 ≤ rel s.sack.highAck b →
      (INT (sackLostEdge s holes fack - b) > 0 ↔ rel s.sack.highAck b < rel s.sack.highAck (sackLostEdge s holes fack)) := by
    intro b hb
    rw [int_sub_nonneg hlow hb]
    omega
  constructor
  · intro hall pre k post hsplit x h₁ h₂
    have hk : k ∈ holes.reverse := by rw [hsplit]; simp
    have hpos := hbelow.mem hk
    have hright := rel_bounds s.sack.highAck k.right
    obtain ⟨b, rfl⟩ := exists_rel s.sack.highAck x (by omega) (by omega)
    have := hall k (List.mem_reverse.mp hk) b h₁ h₂
    rw [hplace b (by omega), isLost_iff hordered hsplit h₁ h₂] at this
    rw [Nat.zero_add, Nat.zero_add]
    exact this
  · intro hall k hk b h₁ h₂
    have hk := List.mem_reverse.mpr hk
    have hpos := hbelow.mem hk
    obtain ⟨pre, post, hsplit⟩ := List.append_of_mem hk
    have := hall pre k post hsplit (rel s.sack.highAck b) h₁ h₂
    rw [Nat.zero_add, Nat.zero_add] at this
    rw [hplace b (by omega), isLost_iff hordered hsplit h₁ h₂]
    exact this

/-! ### A large range below three small ones -/

/-- Four holes; the ranges above them hold 4000, 1, 1 and 1 octets. --/
def mixedHoles : List SackHole := [⟨0, 1000, 0⟩, ⟨5000, 6000, 5000⟩, ⟨6001, 7000, 6001⟩, ⟨7001, 8000, 7001⟩]

theorem mixedHoles_ordered : HolesOrdered 0 8001 mixedHoles := by
  refine ⟨by decide, by decide, by decide, by decide, by decide, by decide, by decide, by decide, ?_⟩
  show rel (0 : ULONG) 8000 ≤ rel 0 8001
  decide

/-- With the large range alone every criterion is met at the same range. --/
theorem sackLostEdge_iff_large :
    (∀ h ∈ [(⟨0, 1000, 0⟩ : SackHole)], ∀ b : ULONG, rel (0 : ULONG) h.left ≤ rel 0 b → rel 0 b < rel 0 h.right →
        (INT (sackLostEdge (Socket.opened 0 0 1000 1000) [⟨0, 1000, 0⟩] 5000 - b) > 0 ↔
          IsLost 0 5000 [⟨0, 1000, 0⟩] (2 * 1460) (rel 0 b))) ↔
      BytesFirst (2 * 1460) (sackRanges 5000 [⟨0, 1000, 0⟩]) :=
  sackLostEdge_iff (Socket.opened 0 0 1000 1000) 5000 [⟨0, 1000, 0⟩] (by decide)
    ⟨by decide, by decide, show rel (0 : ULONG) 1000 ≤ rel 0 5000 by decide⟩

/-- The octet 5000 has three ranges above it, and lies above the edge: the large range below it has moved the edge
    down. --/
theorem lost_above_edge :
    HolesOrdered 0 8001 mixedHoles ∧ ⟨5000, 6000, 5000⟩ ∈ mixedHoles ∧
      IsLost 0 8001 mixedHoles (2 * 1460) (rel 0 (5000 : ULONG)) ∧
      sackLostEdge (Socket.opened 0 0 1000 1000) mixedHoles 8001 = 2083 ∧
      ¬INT (sackLostEdge (Socket.opened 0 0 1000 1000) mixedHoles 8001 - 5000) > 0 := by
  refine ⟨mixedHoles_ordered, by decide, ?_, by decide, by decide⟩
  have hsplit : mixedHoles.reverse = [⟨7001, 8000, 7001⟩, ⟨6001, 7000, 6001⟩] ++ ⟨5000, 6000, 5000⟩ :: [⟨0, 1000, 0⟩] :=
    rfl
  exact (isLost_iff mixedHoles_ordered hsplit (by decide) (by decide)).mpr (.inl (by decide))

end

end Netxduo
