import Mathlib
import Netxduo.Library.Checked
import Netxduo.Tcp.LostEdge

/-! The octets in flight, `_nx_tcp_sack_recovery_pipe`: hole by hole from three cursors what RFC 6675 counts octet by
    octet. -/

namespace Netxduo
open Serial Spans Checked

/-! ### The sum -/

/-- The sum of `_nx_tcp_sack_recovery_pipe`, for a lost edge. --/
def sackPipe (holes : List SackHole) (fack edge highRxt dataEnd : ULONG) : ULONG :=
  let pipe := dataEnd - fack
  let pipe := if INT (highRxt - fack) > 0 then pipe + (highRxt - fack) else pipe
  (holes.map (sackPipeHole highRxt edge)).foldl (· + ·) pipe

/-- What one hole adds, first the part not lost, then the part sent again. --/
def sackPipeHoleChecked (highRxt edge pipe : ULONG) (h : SackHole) : Option ULONG := do
  let left := if INT (edge - h.left) > 0 then edge else h.left
  let pipe ← add pipe (if INT (h.right - left) > 0 then h.right - left else 0)
  let left := if INT (highRxt - h.right) > 0 then h.right else highRxt
  add pipe (if INT (left - h.left) > 0 then left - h.left else 0)

/-- The same sum, with the difference that is not guarded and every addition checked. --/
def sackPipeChecked (holes : List SackHole) (fack edge highRxt dataEnd : ULONG) : Option ULONG :=
  if INT (dataEnd - fack) < 0 then none
  else do
    let pipe ← add (dataEnd - fack) (if INT (highRxt - fack) > 0 then highRxt - fack else 0)
    holes.foldlM (sackPipeHoleChecked highRxt edge) pipe

/-! ### What is counted -/

/-- The octets of `[high_ack, data end)` that are neither reported nor lost. --/
def outstandingOctets (ack fack edge dataEnd : ULONG) (holes : List SackHole) : Set Int :=
  {x | 0 ≤ x ∧ x < rel ack dataEnd ∧ x ∉ sackedOctets ack fack holes ∧ rel ack edge ≤ x}

/-- The octets sent again that are not reported. --/
def resentOctets (ack fack highRxt : ULONG) (holes : List SackHole) : Set Int :=
  {x | 0 ≤ x ∧ x < rel ack highRxt ∧ x ∉ sackedOctets ack fack holes}

/-- The scoreboard the pipe is taken from. The retransmission mark lies at the end of the data at most, and not half the
    sequence space behind it; the same holds of the mark of an uncertain flight and the acknowledgment. --/
structure PipeBase (s : Socket) : Prop where
  ordered : HolesOrdered s.sack.highAck (sackView s).2 (sackView s).1
  within : rel s.sack.highAck (sackView s).2 ≤ rel s.sack.highAck (sackDataEnd s)
  resent : rel s.sack.highAck s.sack.txHighRxt ≤ rel s.sack.highAck (sackDataEnd s)
  reach : rel s.sack.highAck (sackDataEnd s) ≤ rel s.sack.highAck s.sack.txHighRxt + 2 ^ 31
  uncertain : s.sack.flags.uncertain = true → -2 ^ 31 < rel s.sack.highAck s.sack.uncertainStart

/-- The pipe for a lost edge is the number of octets, and no sum on the way overflows. --/
structure PipeCounts (s : Socket) (edge pipe : ULONG) : Prop where
  octets : (pipe.toNat : ENat) =
    (outstandingOctets s.sack.highAck (sackView s).2 edge (sackDataEnd s) (sackView s).1).encard +
      (resentOctets s.sack.highAck (sackView s).2 s.sack.txHighRxt (sackView s).1).encard
  checked : sackPipeChecked (sackView s).1 (sackView s).2 edge s.sack.txHighRxt (sackDataEnd s) = some pipe

section
variable {ack fack edge highRxt dataEnd pipe x y : ULONG} {a b : Int} {h : SackHole} {holes : List SackHole}

/-! ### Counting -/

/-- The part of a hole from the edge on. --/
def keptPart (ack edge : ULONG) (h : SackHole) : Nat := (rel ack h.right - max (rel ack h.left) (rel ack edge)).toNat

/-- The part of a hole below the retransmission mark. --/
def resentPart (ack highRxt : ULONG) (h : SackHole) : Nat :=
  (min (rel ack h.right) (rel ack highRxt) - rel ack h.left).toNat

theorem encard_keptPart (ack edge : ULONG) (h : SackHole) :
    (Set.Ico (h.span ack).1 (h.span ack).2 ∩ Set.Ici (rel ack edge)).encard = (keptPart ack edge h : ENat) := by
  rw [keptPart, ← encard_Ico]
  congr 1
  ext n
  simp only [SackHole.span, Set.mem_inter_iff, Set.mem_Ico, Set.mem_Ici]
  omega

theorem encard_resentPart (ack highRxt : ULONG) (h : SackHole) :
    (Set.Ico (h.span ack).1 (h.span ack).2 ∩ Set.Iio (rel ack highRxt)).encard = (resentPart ack highRxt h : ENat) := by
  rw [resentPart, ← encard_Ico]
  congr 1
  ext n
  simp only [SackHole.span, Set.mem_inter_iff, Set.mem_Ico, Set.mem_Iio]
  omega

/-- The octets counted by parts of holes. --/
theorem encard_parts {cut : Set Int} {part : SackHole → Nat} (hordered : Ordered a (holes.map (SackHole.span ack)) b)
    (hpart : ∀ h, (Set.Ico (h.span ack).1 (h.span ack).2 ∩ cut).encard = (part h : ENat)) :
    (covers (holes.map (SackHole.span ack)) ∩ cut).encard = ((holes.map part).sum : Nat) := by
  rw [hordered.encard_inter, List.map_map]
  clear hordered
  induction holes with
  | nil => rfl
  | cons h holes ih =>
    rw [List.map_cons, List.sum_cons, ih, Function.comp_apply, hpart, List.map_cons, List.sum_cons]
    push_cast
    rfl

/-- The octets not reported: those of the holes, and those above all evidence. --/
theorem not_mem_sackedOctets {n : Int} (hn : 0 ≤ n) :
    n ∉ sackedOctets ack fack holes ↔ rel ack fack ≤ n ∨ n ∈ covers (holes.map (SackHole.span ack)) := by
  rw [sackedOctets, Set.mem_sdiff, Set.mem_Ico, not_and_not_right]
  constructor
  · intro himp
    by_cases hlt : n < rel ack fack
    · exact .inr (himp ⟨hn, hlt⟩)
    · exact .inl (by omega)
  · rintro (hle | hin) ⟨-, hlt⟩
    · omega
    · exact hin

theorem encard_outstanding (hordered : HolesOrdered ack fack holes) (hwithin : rel ack fack ≤ rel ack dataEnd)
    (hedge : rel ack edge ≤ rel ack fack) :
    (outstandingOctets ack fack edge dataEnd holes).encard =
      ((rel ack dataEnd - rel ack fack).toNat + (holes.map (keptPart ack edge)).sum : Nat) := by
  have hfack : 0 ≤ rel ack fack := hordered.le
  have hset : outstandingOctets ack fack edge dataEnd holes =
      Set.Ico (rel ack fack) (rel ack dataEnd) ∪ (covers (holes.map (SackHole.span ack)) ∩ Set.Ici (rel ack edge)) := by
    ext n
    constructor
    · rintro ⟨h₁, h₂, h₃, h₄⟩
      rcases (not_mem_sackedOctets h₁).mp h₃ with hle | hin
      · exact .inl ⟨hle, h₂⟩
      · exact .inr ⟨hin, h₄⟩
    · rintro (⟨h₁, h₂⟩ | ⟨hin, hge⟩)
      · exact ⟨by omega, h₂, (not_mem_sackedOctets (by omega)).mpr (.inl h₁), by omega⟩
      · obtain ⟨h₁, h₂⟩ := hordered.covers_subset hin
        exact ⟨h₁, by omega, (not_mem_sackedOctets h₁).mpr (.inr hin), hge⟩
  have hdisjoint : Disjoint (Set.Ico (rel ack fack) (rel ack dataEnd))
      (covers (holes.map (SackHole.span ack)) ∩ Set.Ici (rel ack edge)) := by
    rw [Set.disjoint_left]
    rintro n ⟨h₁, -⟩ ⟨hin, -⟩
    have := (hordered.covers_subset hin).2
    omega
  rw [hset, Set.encard_union_eq hdisjoint, encard_Ico, encard_parts hordered (encard_keptPart ack edge)]
  push_cast
  rfl

theorem encard_resent (hordered : HolesOrdered ack fack holes) :
    (resentOctets ack fack highRxt holes).encard =
      ((rel ack highRxt - rel ack fack).toNat + (holes.map (resentPart ack highRxt)).sum : Nat) := by
  have hfack : 0 ≤ rel ack fack := hordered.le
  have hset : resentOctets ack fack highRxt holes =
      Set.Ico (rel ack fack) (rel ack highRxt) ∪ (covers (holes.map (SackHole.span ack)) ∩ Set.Iio (rel ack highRxt)) := by
    ext n
    constructor
    · rintro ⟨h₁, h₂, h₃⟩
      rcases (not_mem_sackedOctets h₁).mp h₃ with hle | hin
      · exact .inl ⟨hle, h₂⟩
      · exact .inr ⟨hin, h₂⟩
    · rintro (⟨h₁, h₂⟩ | ⟨hin, hlt⟩)
      · exact ⟨by omega, h₂, (not_mem_sackedOctets (by omega)).mpr (.inl h₁)⟩
      · obtain ⟨h₁, h₂⟩ := hordered.covers_subset hin
        exact ⟨h₁, hlt, (not_mem_sackedOctets h₁).mpr (.inr hin)⟩
  have hdisjoint : Disjoint (Set.Ico (rel ack fack) (rel ack highRxt))
      (covers (holes.map (SackHole.span ack)) ∩ Set.Iio (rel ack highRxt)) := by
    rw [Set.disjoint_left]
    rintro n ⟨h₁, -⟩ ⟨hin, -⟩
    have := (hordered.covers_subset hin).2
    omega
  rw [hset, Set.encard_union_eq hdisjoint, encard_Ico, encard_parts hordered (encard_resentPart ack highRxt)]
  push_cast
  rfl

/-! ### Summing -/

/-- A guarded difference is what lies between the two places. --/
theorem toNat_guarded (ack x y : ULONG) (h₁ : -2 ^ 31 ≤ rel ack x - rel ack y) (h₂ : rel ack x - rel ack y < 2 ^ 31) :
    (if INT (x - y) > 0 then x - y else 0).toNat = (rel ack x - rel ack y).toNat := by
  have hint : INT (x - y) = rel ack x - rel ack y := int_sub_rel h₁ h₂
  have hint' : (x - y).toInt = rel ack x - rel ack y := hint
  have hcond := BitVec.toInt_eq_toNat_cond (x - y)
  split
  · split at hcond <;> omega
  · have hzero : (0 : ULONG).toNat = 0 := rfl
    omega

/-- A hole adds its two parts. --/
theorem sackPipeHole_spec (highRxt pipe : ULONG) (hl : 0 ≤ rel ack h.left) (hlt : rel ack h.left < rel ack h.right) (hedge : 0 ≤ rel ack edge)
    (hreach : rel ack h.right ≤ rel ack highRxt + 2 ^ 31)
    (hroom : pipe.toNat + keptPart ack edge h + resentPart ack highRxt h < 2 ^ 32) :
    sackPipeHoleChecked highRxt edge pipe h = some (pipe + sackPipeHole highRxt edge h) ∧
      (pipe + sackPipeHole highRxt edge h).toNat = pipe.toNat + keptPart ack edge h + resentPart ack highRxt h := by
  have hr := rel_bounds ack h.right
  have he := rel_bounds ack edge
  have hx := rel_bounds ack highRxt
  have hfirst : INT (edge - h.left) = rel ack edge - rel ack h.left := int_sub_rel (by omega) (by omega)
  have hsecond : INT (highRxt - h.right) = rel ack highRxt - rel ack h.right := int_sub_rel (by omega) (by omega)
  unfold sackPipeHoleChecked sackPipeHole
  dsimp only
  generalize hleft : (if INT (edge - h.left) > 0 then edge else h.left) = left
  generalize hmark : (if INT (highRxt - h.right) > 0 then h.right else highRxt) = mark
  have hleftRel : rel ack left = max (rel ack h.left) (rel ack edge) := by
    rw [← hleft, hfirst]
    split <;> omega
  have hmarkRel : rel ack mark = min (rel ack h.right) (rel ack highRxt) := by
    rw [← hmark, hsecond]
    split <;> omega
  have hkept := toNat_guarded ack h.right left (by omega) (by omega)
  have hresent := toNat_guarded ack mark h.left (by omega) (by omega)
  rw [hleftRel] at hkept
  rw [hmarkRel] at hresent
  change _ = keptPart ack edge h at hkept
  change _ = resentPart ack highRxt h at hresent
  generalize (if INT (h.right - left) > 0 then h.right - left else 0) = kept at hkept
  generalize (if INT (mark - h.left) > 0 then mark - h.left else 0) = resent at hresent
  have hsum : pipe.toNat + kept.toNat < 2 ^ 32 := by omega
  have hsumNat := toNat_add hsum
  have hnext : (pipe + kept).toNat + resent.toNat < 2 ^ 32 := by omega
  rw [add_eq hsum, Option.bind_eq_bind, Option.bind_some, add_eq hnext, ← BitVec.add_assoc]
  refine ⟨rfl, ?_⟩
  rw [toNat_add hnext]
  omega

theorem keptPart_le (edge : ULONG) (hlt : rel ack h.left < rel ack h.right) :
    (keptPart ack edge h : Int) ≤ rel ack h.right - rel ack h.left := by
  rw [keptPart]
  omega

theorem resentPart_le (highRxt : ULONG) (hlt : rel ack h.left < rel ack h.right) :
    (resentPart ack highRxt h : Int) ≤ rel ack h.right - rel ack h.left := by
  rw [resentPart]
  omega

/-- The loop over the holes adds the parts of all of them, and stays below `2 ^ 32` as long as twice the way ahead
    fits. --/
theorem sackPipe_holes (edge highRxt pipe : ULONG)
    (hordered : Ordered a (holes.map (SackHole.span ack)) b) (ha : 0 ≤ a) (hedge : 0 ≤ rel ack edge)
    (hreach : b ≤ rel ack highRxt + 2 ^ 31) (hroom : (pipe.toNat : Int) + 2 * (b - a) < 2 ^ 32) :
    holes.foldlM (sackPipeHoleChecked highRxt edge) pipe =
        some ((holes.map (sackPipeHole highRxt edge)).foldl (· + ·) pipe) ∧
      ((holes.map (sackPipeHole highRxt edge)).foldl (· + ·) pipe).toNat =
        pipe.toNat + ((holes.map (keptPart ack edge)).sum + (holes.map (resentPart ack highRxt)).sum) := by
  induction holes generalizing a pipe with
  | nil => exact ⟨rfl, rfl⟩
  | cons h holes ih =>
    obtain ⟨h₁, h₂, h₃⟩ := hordered
    have h₁ : a ≤ rel ack h.left := h₁
    have h₂ : rel ack h.left < rel ack h.right := h₂
    have h₃ : Ordered (rel ack h.right) (holes.map (SackHole.span ack)) b := h₃
    have hle := h₃.le
    have hkept := keptPart_le edge h₂
    have hresent := resentPart_le highRxt h₂
    obtain ⟨hstep, hvalue⟩ := sackPipeHole_spec highRxt pipe (by omega) h₂ hedge (by omega) (by omega)
    obtain ⟨hrest, hsum⟩ := ih (pipe + sackPipeHole highRxt edge h) h₃ (by omega) (by omega)
    rw [List.foldlM_cons, hstep, List.map_cons, List.foldl_cons]
    refine ⟨hrest, ?_⟩
    rw [hsum, hvalue, List.map_cons, List.sum_cons, List.map_cons, List.sum_cons]
    omega

/-- For every lost edge up to the highest evidence the sum is the number of octets, and nothing overflows. --/
theorem sackPipe_counts (hordered : HolesOrdered ack fack holes) (hwithin : rel ack fack ≤ rel ack dataEnd)
    (hresent : rel ack highRxt ≤ rel ack dataEnd) (hreach : rel ack dataEnd ≤ rel ack highRxt + 2 ^ 31)
    (hedge : 0 ≤ rel ack edge) (hedge' : rel ack edge ≤ rel ack fack) :
    sackPipeChecked holes fack edge highRxt dataEnd = some (sackPipe holes fack edge highRxt dataEnd) ∧
      ((sackPipe holes fack edge highRxt dataEnd).toNat : ENat) =
        (outstandingOctets ack fack edge dataEnd holes).encard + (resentOctets ack fack highRxt holes).encard := by
  have hfack : 0 ≤ rel ack fack := hordered.le
  have hd := rel_bounds ack dataEnd
  have hx := rel_bounds ack highRxt
  have hbase : INT (dataEnd - fack) = rel ack dataEnd - rel ack fack := int_sub_rel (by omega) (by omega)
  have hbaseNat := toNat_sub_rel hwithin hfack
  have hmark := toNat_guarded ack highRxt fack (by omega) (by omega)
  have hplain : (if INT (highRxt - fack) > 0 then dataEnd - fack + (highRxt - fack) else dataEnd - fack) =
      dataEnd - fack + if INT (highRxt - fack) > 0 then highRxt - fack else 0 := by
    split
    · rfl
    · exact (BitVec.add_zero _).symm
  unfold sackPipeChecked sackPipe
  dsimp only
  rw [hplain, if_neg (by omega)]
  generalize (if INT (highRxt - fack) > 0 then highRxt - fack else 0) = extra at hmark
  have hsum : (dataEnd - fack).toNat + extra.toNat < 2 ^ 32 := by omega
  have hsumNat := toNat_add hsum
  obtain ⟨hrun, hvalue⟩ := sackPipe_holes edge highRxt (dataEnd - fack + extra) hordered
    (Int.le_refl 0) hedge (by omega) (by omega)
  rw [add_eq hsum, Option.bind_eq_bind, Option.bind_some]
  refine ⟨hrun, ?_⟩
  rw [hvalue, encard_outstanding hordered hwithin hedge', encard_resent hordered, ← Nat.cast_add]
  congr 1
  omega

/-! ### The pipe of a socket -/

/-- The lost edge lies between the acknowledgment and the highest evidence. --/
theorem sackLostEdge_within {s : Socket} (hordered : HolesOrdered s.sack.highAck fack holes) :
    0 ≤ rel s.sack.highAck (sackLostEdge s holes fack) ∧
      rel s.sack.highAck (sackLostEdge s holes fack) ≤ rel s.sack.highAck fack := by
  have hbelow := holesBelow_reverse (Int.le_refl 0) hordered
  have hsum := hbelow.sum_le
  have hfack := rel_bounds s.sack.highAck fack
  have hzero : (0 : ULONG).toNat = 0 := rfl
  exact lostEdgeLoop_le _ 0 0 s.sack.highAck hbelow (by omega) (by rw [rel_self])
    (by rw [rel_self]; exact hbelow.nonneg) (Int.le_refl _)

/-- An uncertain flight brings the edge down, not below the acknowledgment. --/
theorem PipeBase.lostEdge {s : Socket} (h : PipeBase s) :
    0 ≤ rel s.sack.highAck (sackRecoveryPipe s).2.sack.lostEdge ∧
      rel s.sack.highAck (sackRecoveryPipe s).2.sack.lostEdge ≤ rel s.sack.highAck (sackView s).2 := by
  obtain ⟨hlow, hhigh⟩ := sackLostEdge_within h.ordered
  have hself : rel s.sack.highAck s.sack.highAck = 0 := rel_self _
  have hfack : 0 ≤ rel s.sack.highAck (sackView s).2 := h.ordered.le
  have hedge : (sackRecoveryPipe s).2.sack.lostEdge =
      if s.sack.flags.uncertain = true ∧ INT (sackLostEdge s (sackView s).1 (sackView s).2 - s.sack.uncertainStart) > 0 then
        if INT (s.sack.highAck - s.sack.uncertainStart) > 0 then s.sack.highAck else s.sack.uncertainStart
      else sackLostEdge s (sackView s).1 (sackView s).2 := rfl
  rw [hedge]
  generalize sackLostEdge s (sackView s).1 (sackView s).2 = edge at hlow hhigh
  by_cases hmark : s.sack.flags.uncertain = true ∧ INT (edge - s.sack.uncertainStart) > 0
  · rw [if_pos hmark]
    have hstart := rel_bounds s.sack.highAck s.sack.uncertainStart
    have hfar := h.uncertain hmark.1
    have hint : INT (s.sack.highAck - s.sack.uncertainStart) =
        rel s.sack.highAck s.sack.highAck - rel s.sack.highAck s.sack.uncertainStart := int_sub_rel (by omega) (by omega)
    split
    · omega
    · have habove : INT (edge - s.sack.uncertainStart) = rel s.sack.highAck edge - rel s.sack.highAck s.sack.uncertainStart :=
        int_sub_nonneg hlow (by omega)
      have := hmark.2
      omega
  · rw [if_neg hmark]
    exact ⟨hlow, hhigh⟩

end

/-- For the edge the socket computes the pipe is the number of octets neither reported nor lost and of those sent again
    and not reported; the sum is the same number for every other edge. --/
theorem sackRecoveryPipe_counts (s : Socket) (h : PipeBase s) :
    PipeCounts s (sackRecoveryPipe s).2.sack.lostEdge (sackRecoveryPipe s).1 ∧
      ∀ edge, 0 ≤ rel s.sack.highAck edge → rel s.sack.highAck edge ≤ rel s.sack.highAck (sackView s).2 →
        PipeCounts s edge (sackPipe (sackView s).1 (sackView s).2 edge s.sack.txHighRxt (sackDataEnd s)) := by
  have hall : ∀ edge, 0 ≤ rel s.sack.highAck edge → rel s.sack.highAck edge ≤ rel s.sack.highAck (sackView s).2 →
      PipeCounts s edge (sackPipe (sackView s).1 (sackView s).2 edge s.sack.txHighRxt (sackDataEnd s)) := by
    intro edge h₁ h₂
    obtain ⟨hchecked, hoctets⟩ := sackPipe_counts h.ordered h.within h.resent h.reach h₁ h₂
    exact ⟨hoctets, hchecked⟩
  obtain ⟨hlow, hhigh⟩ := h.lostEdge
  exact ⟨hall _ hlow hhigh, hall⟩

/-- A socket with a block of the peer behind a hole of 1000 octets that has been sent again up to 400. --/
def Socket.oneHole : Socket :=
  let s := Socket.opened 0 0xFFFFFFFF 1000 60000
  { s with
    snd := { s.snd with txSequence := 9000, txOutstandingBytes := 9000 }
    sack := { s.sack with blocks := [⟨1000, 5000⟩], txHighRxt := 400 } }

theorem oneHole_base : PipeBase .oneHole where
  ordered := ⟨by decide, by decide, show rel (0 : ULONG) 1000 ≤ rel 0 5000 by decide⟩
  within := by decide
  resent := by decide
  reach := by decide
  uncertain := fun h => by cases h

/-- The hole is lost, so only what was sent again and what lies above the block counts. --/
theorem sackRecoveryPipe_counts_oneHole :
    (sackRecoveryPipe .oneHole).1 = 4400 ∧
      PipeCounts .oneHole (sackRecoveryPipe .oneHole).2.sack.lostEdge (sackRecoveryPipe .oneHole).1 :=
  ⟨by decide, (sackRecoveryPipe_counts .oneHole oneHole_base).1⟩

end Netxduo
