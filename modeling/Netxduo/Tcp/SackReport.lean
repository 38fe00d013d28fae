import Netxduo.Library.Merge
import Netxduo.Tcp.Evidence
import Netxduo.Tcp.Options
import Netxduo.Tcp.Stream

/-! What the SACK option tells the peer: the runs of octets held out of order, as far as the option has room,
    the one of the most recent segment first, and a duplicate once. -/

namespace Netxduo
open Serial Spans Runs

/-! ### The option -/

/-- `_nx_tcp_sack_sequence_write` --/
def sequenceWrite (x : ULONG) : List UInt8 :=
  [UInt8.ofBitVec (x.extractLsb' 24 8), UInt8.ofBitVec (x.extractLsb' 16 8), UInt8.ofBitVec (x.extractLsb' 8 8),
    UInt8.ofBitVec (x.extractLsb' 0 8)]

/-- The octets `_nx_tcp_sack_option_build` writes for its blocks; none where there is nothing to report. --/
def sackOptionWrite (blocks : List SackBlock) : List UInt8 :=
  if blocks.length = 0 then []
  else
    [tcpNopKind, tcpNopKind, tcpSackKind, UInt8.ofNat (2 + blocks.length <<< 3)] ++
      blocks.flatMap fun b => sequenceWrite b.left ++ sequenceWrite b.right

/-- `timestamp_size` of `_nx_tcp_packet_send_control` --/
def timestampSize (ip : Ip) (s : Socket) (control : ULONG) : Nat :=
  if ip.build.timestamp && s.rcv.timestampEnabled && control &&& tcpSynBit == 0 && control &&& tcpRstBit == 0 then 12
  else 0

/-- `header_size` of `_nx_tcp_packet_send_control` for every segment but a SYN: the data offset field, in its
    place in the header word. --/
def headerSize (ip : Ip) (s : Socket) (control : ULONG) (option : List UInt8) : ULONG :=
  let optionSize := if option.length % 4 ≠ 0 then 0 else option.length
  (0x50000000 : ULONG) + BitVec.ofNat 32 (optionSize >>> 2) <<< 28 +
    BitVec.ofNat 32 (timestampSize ip s control >>> 2) <<< 28

/-- A duplicate waits to be reported. --/
def Socket.duplicatePending (s : Socket) : Bool := s.rcv.dsackLeft != s.rcv.dsackRight

/-- The blocks of the option behind the duplicate. --/
def sackOrdinary (ip : Ip) (s : Socket) : List SackBlock :=
  (sackOptionBuild ip s).1.drop s.duplicatePending.toNat

/-- The number of blocks the option has room for, besides a duplicate. --/
def sackLimit (ip : Ip) (s : Socket) : Nat :=
  (if ip.build.timestamp && s.rcv.timestampEnabled then 3 else 4) - s.duplicatePending.toNat

/-- The octets the receive queue holds from `rxSequence` on, by their distance from it. --/
def Socket.heldAbove (s : Socket) : Set Int :=
  {x | 0 ≤ x ∧ x ∈ covers (spans s.rcv.rxSequence s.rcv.receiveQueue)}

/-- Where the most recent segment ahead of the stream begins. --/
def Socket.recent (s : Socket) : Int := rel s.rcv.rxSequence s.rcv.sackRecentSequence

/-- What the option is to say. --/
structure SackReported (ip : Ip) (s : Socket) : Prop where
  /-- The header fits into 60 bytes, and its data offset field says how long it is. --/
  header : ∀ control, 20 + (sackOptionWrite (sackOptionBuild ip s).1).length + timestampSize ip s control ≤ 60 ∧
    4 * (headerSize ip s control (sackOptionWrite (sackOptionBuild ip s).1) >>> 28).toNat =
      20 + (sackOptionWrite (sackOptionBuild ip s).1).length + timestampSize ip s control
  runs : ∀ b ∈ sackOrdinary ip s, IsRun s.heldAbove (b.span s.rcv.rxSequence)
  disjoint : (sackOrdinary ip s).Pairwise fun b c =>
    Disjoint (Set.Ico (b.span s.rcv.rxSequence).1 (b.span s.rcv.rxSequence).2)
      (Set.Ico (c.span s.rcv.rxSequence).1 (c.span s.rcv.rxSequence).2)
  recent : s.sackPermitted = true → s.recent ∈ s.heldAbove →
    ∃ b rest, sackOrdinary ip s = b :: rest ∧ (b.span s.rcv.rxSequence).1 ≤ s.recent ∧
      s.recent < (b.span s.rcv.rxSequence).2
  /-- A duplicate comes first, and no later option repeats it. --/
  duplicate : s.sackPermitted = true → s.duplicatePending = true →
    (sackOptionBuild ip s).1 = ⟨s.rcv.dsackLeft, s.rcv.dsackRight⟩ :: sackOrdinary ip s ∧
      (sackOptionBuild ip s).2.duplicatePending = false
  noDuplicate : s.duplicatePending = false → (sackOptionBuild ip s).1 = sackOrdinary ip s

/-- Fewer runs than the option has blocks lie above the most recent segment, if that is still out of order. --/
def SackRoom (ip : Ip) (s : Socket) : Prop :=
  s.sackPermitted = true → s.recent ∈ s.heldAbove →
    {run | IsRun s.heldAbove run ∧ s.recent < run.1}.encard < sackLimit ip s

/-! ### Collecting -/

section
variable {ip : Ip} {s : Socket} {r irs : ULONG} {q ready pending : List Packet} {blocks : List SackBlock} {k : Nat}
  {b : Int} {fin : Bool}

/-- The loop joins the packets ahead into runs, and keeps the last ones. --/
theorem map_sackCollect (h : ∀ p ∈ q, p.Located r ∧ 0 < p.hi r) :
    (sackCollect r k q blocks).map (SackBlock.span r) =
      (spans r q).foldl (joinWithin k) (blocks.map (SackBlock.span r)) := by
  induction q generalizing blocks with
  | nil => rfl
  | cons p q ih =>
    obtain ⟨hp, hpos⟩ := h p (List.mem_cons_self ..)
    have hend : rel r p.endSequence = p.hi r := hp.rel_end
    have hint : INT (p.endSequence - r) > 0 := by
      show 0 < rel r p.endSequence
      omega
    rw [sackCollect, if_pos hint, ih fun p' hp' => h p' (List.mem_cons_of_mem p hp'), spans_cons, List.foldl_cons]
    congr 1
    rcases List.eq_nil_or_concat blocks with rfl | ⟨l, last, rfl⟩
    · simp only [List.getLast?_nil, List.map_cons, List.map_nil, joinWithin, SackBlock.span, hend]
      rfl
    · have htouch : last.right = p.beginSequence ↔ (last.span r).2 = p.lo r :=
        (rel_injective r).eq_iff.symm
      simp only [List.concat_eq_append, List.getLast?_concat, List.map_append, List.map_cons, List.map_nil,
        joinWithin_concat, List.dropLast_concat, List.length_append, List.length_singleton, List.length_map, htouch]
      split_ifs
      · simp only [List.map_append, List.map_cons, List.map_nil, SackBlock.span, hend]
      · simp only [List.map_append, List.map_cons, List.map_nil, SackBlock.span, hend]
        rfl
      · simp only [List.map_append, List.map_tail, List.map_cons, List.map_nil, SackBlock.span, hend]
        rfl

/-- What the cumulative acknowledgment covers is no block. --/
theorem sackCollect_behind (h : ∀ p ∈ ready, rel r p.endSequence = p.hi r ∧ p.hi r ≤ 0) :
    sackCollect r k (ready ++ pending) blocks = sackCollect r k pending blocks := by
  induction ready with
  | nil => rfl
  | cons p ready ih =>
    obtain ⟨hend, hle⟩ := h p (List.mem_cons_self ..)
    have hint : ¬INT (p.endSequence - r) > 0 := by
      show ¬0 < rel r p.endSequence
      omega
    rw [List.cons_append, sackCollect, if_neg hint]
    exact ih fun p' hp' => h p' (List.mem_cons_of_mem p hp')

/-- Seen from `r`, the packets of `ready` end at `r` at the latest, and the others lie ahead. --/
structure Ahead (r : ULONG) (ready pending : List Packet) : Prop where
  behind : ∀ p ∈ ready, rel r p.endSequence = p.hi r ∧ p.hi r ≤ 0
  ahead : ∀ p ∈ pending, p.Located r ∧ 0 < p.hi r
  ordered : Ordered 0 (spans r pending) (2 ^ 30)

theorem Ahead.covers (h : Ahead r ready pending) :
    {x | 0 ≤ x ∧ x ∈ covers (spans r (ready ++ pending))} = Spans.covers (spans r pending) := by
  ext x
  rw [spans_append, covers_append]
  constructor
  · rintro ⟨hx, ⟨t, ht, h₁, h₂⟩ | hp⟩
    · obtain ⟨p, hp, rfl⟩ := List.mem_map.mp ht
      have h₃ : p.hi r ≤ 0 := (h.behind p hp).2
      have h₄ : x < p.hi r := h₂
      omega
    · exact hp
  · intro hp
    exact ⟨(h.ordered.covers_subset hp).1, Or.inr hp⟩

/-- The queue, seen from `rxSequence`: the FIN of the peer counts once it is taken. --/
theorem Receives.ahead (h : Receives ip irs s fin) :
    Ahead s.rcv.rxSequence s.rcv.readyPackets s.rcv.pendingPackets := by
  have hr := h.receiving
  have hrx := h.receivedEnd
  generalize s.receivedEnd irs = d at hr hrx
  have hfin := Bool.toNat_le fin
  have hrel : rel d s.rcv.rxSequence = fin.toNat := by
    rw [hrx, rel_add_ofNat] <;> rw [rel_self] <;> omega
  have hcredit := hr.content.credit
  have hbound := hr.content.bound
  refine ⟨fun p hp => ?_, fun p hp => ?_, ?_⟩
  · have hloc := hr.content.located_ready hp
    have hle := (hr.content.within_ready.mem hp).2.2
    have hlower := hloc.lower
    have hlohi := hloc.le
    rw [Packet.hi_advance hrel hloc (by omega) (by omega), rel_rebase (r := d), hloc.rel_end, hrel]
    · omega
    · rw [hloc.rel_end, hrel]
      omega
    · rw [hloc.rel_end, hrel]
      omega
  · have hloc := hr.content.located_pending hp
    have hgap := hr.content.gap p hp
    obtain ⟨-, hlt, hle⟩ := hr.content.within.mem hp
    have hlo := Packet.lo_advance hrel hloc (by omega) (by omega)
    have hhi := Packet.hi_advance hrel hloc (by omega) (by omega)
    exact ⟨⟨hloc.wf, by omega, by omega, by omega⟩, by omega⟩
  · rw [spans_advance hrel (fun p hp => hr.content.located_pending hp) (by omega) (by omega)]
    have hord := hr.content.within.ordered
    have hgap := hr.content.gap
    generalize s.rcv.pendingPackets = pending at hord hgap
    have hfrom : Ordered (fin.toNat : Int) (spans d pending) (2 ^ 30 + fin.toNat) := by
      cases pending with
      | nil => exact show (fin.toNat : Int) ≤ 2 ^ 30 + fin.toNat by omega
      | cons p pending =>
        have := hgap p (List.mem_cons_self ..)
        exact ⟨show (fin.toNat : Int) ≤ p.lo d by omega, hord.2.1, hord.2.2.upper (by omega)⟩
    have hshift := (ordered_shift (-(fin.toNat : Int))).mpr hfrom
    convert hshift using 1 <;> omega

/-- The blocks collected, in ascending order. --/
def sackHeld (ip : Ip) (s : Socket) : List SackBlock :=
  sackCollect s.rcv.rxSequence (sackLimit ip s) s.rcv.pendingPackets []

theorem Receives.map_sackHeld (h : Receives ip irs s fin) :
    (sackHeld ip s).map (SackBlock.span s.rcv.rxSequence) =
      (merge (spans s.rcv.rxSequence s.rcv.pendingPackets)).rtake (sackLimit ip s) := by
  have hpos : 0 < sackLimit ip s := by
    rw [sackLimit]
    have := Bool.toNat_le s.duplicatePending
    split <;> omega
  have hpass := foldl_joinWithin (l := []) hpos (spans s.rcv.rxSequence s.rcv.pendingPackets)
  rw [List.rtake_nil] at hpass
  rw [sackHeld, map_sackCollect h.ahead.ahead, List.map_nil, hpass, merge]

theorem Receives.heldAbove (h : Receives ip irs s fin) :
    s.heldAbove = covers (spans s.rcv.rxSequence s.rcv.pendingPackets) := by
  rw [← h.ahead.covers, Socket.heldAbove, h.receiving.queue]

/-- The blocks `_nx_tcp_sack_option_build` collects: none where the tail of the queue is not ahead. --/
def sackGathered (s : Socket) (limit : Nat) : List SackBlock :=
  match s.rcv.receiveQueueHead, s.rcv.tailPacket with
  | some _, some tail =>
    if INT (tail.endSequence - s.rcv.rxSequence) ≤ 0 then []
    else sackCollect s.rcv.rxSequence limit s.rcv.receiveQueue []
  | _, _ => []

theorem Receives.sackGathered (h : Receives ip irs s fin) : Netxduo.sackGathered s (sackLimit ip s) = sackHeld ip s := by
  have ha := h.ahead
  have hqueue := h.receiving.queue
  have htail := h.receiving.tailPacket
  have hhead := h.receiving.head
  rw [hqueue] at htail hhead
  unfold Netxduo.sackGathered
  rw [htail, hhead, hqueue, sackCollect_behind ha.behind]
  rcases List.eq_nil_or_concat s.rcv.pendingPackets with hnil | ⟨q, t, hq⟩
  · -- the tail is behind, or there is none
    rw [sackHeld, hnil, List.append_nil]
    rcases List.eq_nil_or_concat s.rcv.readyPackets with hnil' | ⟨q', t', hq'⟩
    · rw [hnil']
      rfl
    · have hle : INT (t'.endSequence - s.rcv.rxSequence) ≤ 0 := by
        obtain ⟨hend, hle⟩ := ha.behind t' (by rw [hq']; simp)
        rw [← hend] at hle
        exact hle
      rw [hq', List.concat_eq_append, List.getLast?_concat]
      cases List.head? ((q' ++ [t']).map (·.addr)) with
      | none => rfl
      | some addr => exact if_pos hle
  · have hpos : ¬INT (t.endSequence - s.rcv.rxSequence) ≤ 0 := by
      obtain ⟨hloc, hpos⟩ := ha.ahead t (by rw [hq]; simp)
      rw [← hloc.rel_end] at hpos
      exact Int.not_le.mpr hpos
    have hsome : ((s.rcv.readyPackets ++ s.rcv.pendingPackets).map (·.addr)).head?.isSome = true := by
      rw [hq]
      simp
    obtain ⟨addr, haddr⟩ := Option.isSome_iff_exists.mp hsome
    rw [haddr, hq, List.concat_eq_append, ← List.append_assoc, List.getLast?_concat, ← List.concat_eq_append, ← hq]
    exact if_neg hpos

/-- The test for the block of the most recent segment. --/
def holdsRecent (s : Socket) (b : SackBlock) : Bool :=
  decide (INT (s.rcv.sackRecentSequence - b.left) ≥ 0) && decide (INT (b.right - s.rcv.sackRecentSequence) > 0)

/-- The block that is to come first: the one that holds the most recent segment, else the last one. --/
def recentIndex (s : Socket) (blocks : List SackBlock) : Nat :=
  (blocks.findIdx? (holdsRecent s)).getD (blocks.length - 1)

/-- The blocks in the order they are written. --/
def sackOrder (s : Socket) (blocks : List SackBlock) : List SackBlock :=
  match blocks[recentIndex s blocks]? with
  | some first => first :: (blocks.eraseIdx (recentIndex s blocks)).reverse
  | none => []

theorem sackOptionBuild_eq (hp : s.sackPermitted = true) :
    sackOptionBuild ip s =
      if s.duplicatePending then
        (⟨s.rcv.dsackLeft, s.rcv.dsackRight⟩ :: sackOrder s (sackGathered s (sackLimit ip s)),
          { s with rcv := { s.rcv with dsackLeft := 0, dsackRight := 0 } })
      else (sackOrder s (sackGathered s (sackLimit ip s)), s) := by
  rw [sackOptionBuild, if_pos hp, sackLimit]
  cases hdup : s.duplicatePending with
  | false =>
    rw [Socket.duplicatePending] at hdup
    rw [hdup]
    rfl
  | true =>
    rw [Socket.duplicatePending] at hdup
    rw [hdup]
    rfl

theorem Receives.sackOrdinary (h : Receives ip irs s fin) (hp : s.sackPermitted = true) :
    Netxduo.sackOrdinary ip s = sackOrder s (sackHeld ip s) := by
  rw [Netxduo.sackOrdinary, sackOptionBuild_eq hp, h.sackGathered]
  cases s.duplicatePending with
  | false => rfl
  | true => rfl

theorem recentIndex_lt (s : Socket) (hne : blocks ≠ []) : recentIndex s blocks < blocks.length := by
  have hpos := List.length_pos_iff.mpr hne
  rw [recentIndex]
  cases hfind : blocks.findIdx? (holdsRecent s) with
  | none =>
    rw [Option.getD_none]
    omega
  | some i => exact (List.findIdx?_eq_some_iff_findIdx_eq.mp hfind).1

theorem sackOrder_eq (s : Socket) (hne : blocks ≠ []) :
    sackOrder s blocks =
      blocks.get ⟨recentIndex s blocks, recentIndex_lt s hne⟩ :: (blocks.eraseIdx (recentIndex s blocks)).reverse := by
  rw [sackOrder, List.getElem?_eq_getElem (recentIndex_lt s hne), List.get_eq_getElem]

/-- The blocks written are the blocks collected. --/
theorem sackOrder_perm (s : Socket) (blocks : List SackBlock) : (sackOrder s blocks).Perm blocks := by
  by_cases hne : blocks = []
  · rw [hne]
    rfl
  · rw [sackOrder_eq s hne]
    exact ((List.reverse_perm _).cons _).trans (List.getElem_cons_eraseIdx_perm (recentIndex_lt s hne))

/-- The test of the source, for a block less than a quarter of the space ahead and any recent segment. --/
theorem holds_iff {x left right : ULONG} (h₁ : 0 ≤ rel r left) (h₂ : rel r left ≤ rel r right)
    (h₃ : rel r right ≤ 2 ^ 30) :
    INT (x - left) ≥ 0 ∧ INT (right - x) > 0 ↔ rel r left ≤ rel r x ∧ rel r x < rel r right := by
  have hlower := le_two_mul_rel r x
  have hupper := two_mul_rel_lt r x
  rw [INT, INT, toInt_sub_sub x left r, toInt_sub_sub right x r]
  change (rel r x - rel r left).bmod (2 ^ 32) ≥ 0 ∧ (rel r right - rel r x).bmod (2 ^ 32) > 0 ↔ _
  rw [Int.bmod_def, Int.bmod_def]
  split_ifs <;> omega

/-! ### What is reported -/

theorem Receives.mem_sackHeld (h : Receives ip irs s fin) {c : SackBlock} (hc : c ∈ sackHeld ip s) :
    c.span s.rcv.rxSequence ∈ (merge (spans s.rcv.rxSequence s.rcv.pendingPackets)).rtake (sackLimit ip s) := by
  rw [← h.map_sackHeld]
  exact List.mem_map_of_mem hc

theorem Receives.run_iff (h : Receives ip irs s fin) {run : Span} :
    run ∈ merge (spans s.rcv.rxSequence s.rcv.pendingPackets) ↔ IsRun s.heldAbove run := by
  rw [h.heldAbove]
  exact h.ahead.ordered.mem_merge

theorem Receives.isRun (h : Receives ip irs s fin) {c : SackBlock} (hc : c ∈ sackHeld ip s) :
    IsRun s.heldAbove (c.span s.rcv.rxSequence) :=
  h.run_iff.mp (List.mem_of_mem_drop (h.mem_sackHeld hc))

/-- A block collected holds the most recent segment exactly as the source tests it. --/
theorem Receives.holds_iff (h : Receives ip irs s fin) {c : SackBlock} (hc : c ∈ sackHeld ip s) :
    holdsRecent s c = true ↔ (c.span s.rcv.rxSequence).1 ≤ s.recent ∧ s.recent < (c.span s.rcv.rxSequence).2 := by
  obtain ⟨h₁, h₂, h₃⟩ := h.ahead.ordered.merge.1.mem _ (List.mem_of_mem_drop (h.mem_sackHeld hc))
  rw [holdsRecent, Bool.and_eq_true, decide_eq_true_iff, decide_eq_true_iff]
  exact Netxduo.holds_iff h₁ (Int.le_of_lt h₂) h₃

/-- The first block holds the most recent segment exactly where a block does. --/
theorem Receives.first_iff (h : Receives ip irs s fin) :
    (∃ c rest, sackOrder s (sackHeld ip s) = c :: rest ∧ (c.span s.rcv.rxSequence).1 ≤ s.recent ∧
        s.recent < (c.span s.rcv.rxSequence).2) ↔
      ∃ c ∈ sackHeld ip s, (c.span s.rcv.rxSequence).1 ≤ s.recent ∧ s.recent < (c.span s.rcv.rxSequence).2 := by
  constructor
  · rintro ⟨c, rest, heq, hin⟩
    refine ⟨c, (sackOrder_perm s _).mem_iff.mp ?_, hin⟩
    rw [heq]
    exact List.mem_cons_self ..
  · rintro ⟨c, hc, hin⟩
    have hne : sackHeld ip s ≠ [] := List.ne_nil_of_mem hc
    refine ⟨_, _, sackOrder_eq s hne, ?_⟩
    have hfind := List.findIdx?_eq_some_of_exists ⟨c, hc, (h.holds_iff hc).mpr hin⟩
    obtain ⟨hlt, hhold, -⟩ := List.findIdx?_eq_some_iff_getElem.mp hfind
    have hindex : recentIndex s (sackHeld ip s) = (sackHeld ip s).findIdx (holdsRecent s) := by
      rw [recentIndex, hfind, Option.getD_some]
    simp only [hindex, List.get_eq_getElem]
    exact (h.holds_iff (List.getElem_mem hlt)).mp hhold

/-- The run of the most recent segment is collected exactly where there is room for it. --/
theorem Receives.collected_iff (h : Receives ip irs s fin) (hheld : s.recent ∈ s.heldAbove) :
    (∃ c ∈ sackHeld ip s, (c.span s.rcv.rxSequence).1 ≤ s.recent ∧ s.recent < (c.span s.rcv.rxSequence).2) ↔
      {run | IsRun s.heldAbove run ∧ s.recent < run.1}.encard < sackLimit ip s := by
  obtain ⟨hapart, hcovers⟩ := h.ahead.ordered.merge
  rw [h.heldAbove, ← hcovers] at hheld
  obtain ⟨run, hrun, h₁, h₂⟩ := hheld
  have hcount := hapart.mem_rtake (k := sackLimit ip s) hrun h₁ h₂
  simp only [h.run_iff] at hcount
  rw [← hcount, ← h.map_sackHeld, List.mem_map]
  constructor
  · rintro ⟨c, hc, hin⟩
    exact ⟨c, hc, (h.isRun hc).eq (h.run_iff.mp hrun) hin ⟨h₁, h₂⟩⟩
  · rintro ⟨c, hc, rfl⟩
    exact ⟨c, hc, h₁, h₂⟩

theorem Receives.disjoint_sackHeld (h : Receives ip irs s fin) :
    (sackHeld ip s).Pairwise fun b c =>
      Disjoint (Set.Ico (b.span s.rcv.rxSequence).1 (b.span s.rcv.rxSequence).2)
        (Set.Ico (c.span s.rcv.rxSequence).1 (c.span s.rcv.rxSequence).2) := by
  have hgaps := h.ahead.ordered.merge.1.gaps
  have hkept : ((sackHeld ip s).map (SackBlock.span s.rcv.rxSequence)).Pairwise fun b c => b.2 < c.1 := by
    rw [h.map_sackHeld]
    exact hgaps.sublist (List.drop_sublist ..)
  rw [List.pairwise_map] at hkept
  refine hkept.imp fun hlt => ?_
  rw [Set.disjoint_left]
  rintro n ⟨-, h₁⟩ ⟨h₂, -⟩
  omega

/-! ### The size of the header -/

theorem length_sackOptionWrite (blocks : List SackBlock) :
    (sackOptionWrite blocks).length = if blocks.length = 0 then 0 else 4 + 8 * blocks.length := by
  unfold sackOptionWrite
  split
  · rfl
  · simp [sequenceWrite, List.length_flatMap, Nat.mul_comm]
    omega

theorem Receives.length_sackHeld (h : Receives ip irs s fin) : (sackHeld ip s).length ≤ sackLimit ip s := by
  have hlen := congrArg List.length h.map_sackHeld
  rw [List.length_map, List.rtake, List.length_drop] at hlen
  omega

theorem Receives.length_sackOptionBuild (h : Receives ip irs s fin) :
    (sackOptionBuild ip s).1.length ≤ if ip.build.timestamp && s.rcv.timestampEnabled then 3 else 4 := by
  have hlen := h.length_sackHeld
  have hperm := (sackOrder_perm s (sackHeld ip s)).length_eq
  cases hp : s.sackPermitted with
  | false =>
    rw [sackOptionBuild, hp]
    exact Nat.zero_le _
  | true =>
    rw [sackOptionBuild_eq hp, h.sackGathered]
    rw [sackLimit] at hlen
    cases hdup : s.duplicatePending with
    | false =>
      rw [hdup, ← hperm] at hlen
      exact hlen
    | true =>
      rw [hdup, ← hperm, Bool.toNat_true] at hlen
      rw [if_pos rfl, List.length_cons]
      split_ifs at hlen ⊢ <;> omega

theorem timestampSize_le (ip : Ip) (s : Socket) (control : ULONG) :
    timestampSize ip s control = 0 ∨
      timestampSize ip s control = 12 ∧ (ip.build.timestamp && s.rcv.timestampEnabled) = true := by
  unfold timestampSize
  split
  · rename_i h
    rw [Bool.and_eq_true, Bool.and_eq_true] at h
    exact Or.inr ⟨rfl, h.1.1⟩
  · exact Or.inl rfl

/-- Ten words of options at most: the field does not overflow. --/
theorem headerSize_fits {option : List UInt8} {control : ULONG} (hword : option.length % 4 = 0)
    (hle : option.length + timestampSize ip s control ≤ 40) :
    4 * (headerSize ip s control option >>> 28).toNat = 20 + option.length + timestampSize ip s control := by
  obtain ⟨n, hn⟩ : ∃ n, option.length = 4 * n := ⟨option.length / 4, by omega⟩
  have hts : ∃ m, timestampSize ip s control = 4 * m := by
    rcases timestampSize_le ip s control with h | ⟨h, -⟩
    · exact ⟨0, h⟩
    · exact ⟨3, h⟩
  obtain ⟨m, hm⟩ := hts
  rw [headerSize, hn, hm, if_neg (by omega)]
  have hshift : ∀ k, (4 * k) >>> 2 = k := fun k => by
    rw [Nat.shiftRight_eq_div_pow]
    omega
  rw [hshift, hshift]
  have hn10 : n + m ≤ 10 := by omega
  have hbase : BitVec.toNat (0x50000000 : ULONG) = 0x50000000 := rfl
  simp only [hbase, BitVec.toNat_ushiftRight, BitVec.toNat_add, BitVec.toNat_shiftLeft, BitVec.toNat_ofNat,
    Nat.shiftRight_eq_div_pow, Nat.shiftLeft_eq]
  omega

theorem Receives.header (h : Receives ip irs s fin) (control : ULONG) :
    20 + (sackOptionWrite (sackOptionBuild ip s).1).length + timestampSize ip s control ≤ 60 ∧
      4 * (headerSize ip s control (sackOptionWrite (sackOptionBuild ip s).1) >>> 28).toNat =
        20 + (sackOptionWrite (sackOptionBuild ip s).1).length + timestampSize ip s control := by
  have hlen := h.length_sackOptionBuild
  have hwrite := length_sackOptionWrite (sackOptionBuild ip s).1
  have hfits : (sackOptionWrite (sackOptionBuild ip s).1).length + timestampSize ip s control ≤ 40 := by
    rcases timestampSize_le ip s control with hts | ⟨hts, htrue⟩
    · split_ifs at hlen hwrite <;> omega
    · rw [htrue, if_pos rfl] at hlen
      split_ifs at hwrite <;> omega
  refine ⟨by omega, headerSize_fits ?_ hfits⟩
  split_ifs at hwrite <;> omega

/-! ### The whole option -/

/-- The option says what it is to say exactly where it has room for the run of the most recent segment: the
    lowest runs make room for the higher ones, whichever of them the segment has changed. --/
theorem sackReported_iff (h : Receives ip irs s fin) : SackReported ip s ↔ SackRoom ip s := by
  constructor
  · intro hr hp hheld
    have hfirst := hr.recent hp hheld
    rw [h.sackOrdinary hp, h.first_iff, h.collected_iff hheld] at hfirst
    exact hfirst
  · intro hroom
    cases hp : s.sackPermitted with
    | false =>
      have hnone : sackOptionBuild ip s = ([], s) := by rw [sackOptionBuild, hp]; rfl
      have hord : sackOrdinary ip s = [] := by rw [sackOrdinary, hnone, List.drop_nil]
      refine ⟨h.header, ?_, ?_, ?_, ?_, ?_⟩
      · intro c hc
        rw [hord] at hc
        cases hc
      · rw [hord]
        exact List.Pairwise.nil
      · intro hp'
        rw [hp] at hp'
        cases hp'
      · intro hp'
        rw [hp] at hp'
        cases hp'
      · intro _
        rw [hord, hnone]
    | true =>
      have hord := h.sackOrdinary hp
      have hperm := sackOrder_perm s (sackHeld ip s)
      refine ⟨h.header, ?_, ?_, ?_, ?_, ?_⟩
      · intro c hc
        rw [hord] at hc
        exact h.isRun (hperm.mem_iff.mp hc)
      · rw [hord]
        exact (hperm.pairwise_iff fun hd => hd.symm).mpr h.disjoint_sackHeld
      · intro _ hheld
        rw [hord, h.first_iff, h.collected_iff hheld]
        exact hroom hp hheld
      · intro _ hdup
        rw [hord, sackOptionBuild_eq hp, h.sackGathered, hdup]
        exact ⟨rfl, rfl⟩
      · intro hdup
        rw [hord, sackOptionBuild_eq hp, h.sackGathered, hdup]
        rfl

/-- A socket that has heard single octets, in the order of the list. --/
def octetsAt (sequences : List ULONG) : Socket :=
  sequences.zipIdx.foldl (fun s a => step .ideal s (.segment (.plain a.2 a.1 1 tcpAckBit [7]) 0))
    (.opened 0 0 1000 1000)

theorem receives_octetsAt {l : List ULONG} {sequence : ULONG} (h : ∃ fin, Receives .ideal 0 (octetsAt l) fin)
    (hnew : l.length ∉ (octetsAt l).rcv.receiveQueue.map (·.addr)) :
    ∃ fin, Receives .ideal 0 (octetsAt (l ++ [sequence])) fin := by
  obtain ⟨fin, hr⟩ := h
  have hwf : (Packet.plain 0 0 1 tcpAckBit [7]).WellFormed := ⟨by decide, by decide⟩
  have hstep : octetsAt (l ++ [sequence]) =
      step .ideal (octetsAt l) (.segment (.plain l.length sequence 1 tcpAckBit [7]) 0) := by
    rw [octetsAt, List.zipIdx_append, List.foldl_append, Nat.zero_add]
    rfl
  obtain ⟨_, _, fin', -, -, hr'⟩ := hr.next (.segment (.plain l.length sequence 1 tcpAckBit [7]) 0) (by
    intro p hp
    cases List.mem_singleton.mp hp
    exact ⟨⟨hwf.length_eq, hwf.length_lt⟩, hnew⟩)
  rw [hstep]
  exact ⟨_, hr'⟩

theorem receives_octetsAt_nil : ∃ fin, Receives .ideal 0 (octetsAt []) fin :=
  ⟨false, (opened_established 0 0 1000 (by decide)).receives⟩

/-- A single octet behind a gap is the one run there is. --/
theorem sackReported_one : SackReported .ideal (octetsAt [3]) := by
  obtain ⟨fin, hr⟩ : ∃ fin, Receives .ideal 0 (octetsAt [3]) fin :=
    @receives_octetsAt [] 3 receives_octetsAt_nil (by decide)
  refine (sackReported_iff hr).mpr fun _ _ => ?_
  have hspans : spans (octetsAt [3]).rcv.rxSequence (octetsAt [3]).rcv.receiveQueue = [(2, 3)] := by decide
  have hnone : {run : Span | IsRun (octetsAt [3]).heldAbove run ∧ (octetsAt [3]).recent < run.1} = ∅ := by
    rw [Socket.heldAbove, hspans, show (octetsAt [3]).recent = 2 by decide]
    ext run
    rw [Set.mem_ofPred_eq, Set.mem_empty_iff_false, iff_false]
    rintro ⟨hrun, hlt⟩
    obtain ⟨-, hstart⟩ := hrun.subset ⟨Int.le_refl _, hrun.nonempty⟩
    rw [covers_cons, covers_nil, Set.union_empty] at hstart
    have := hstart.2
    omega
  rw [hnone, Set.encard_empty]
  decide

/-- The fifth run is the lowest one: the option names four others, and begins with the highest. --/
theorem sack_drops_recent :
    (∃ fin, Receives .ideal 0 (octetsAt [4, 6, 8, 10, 2]) fin) ∧ ¬SackReported .ideal (octetsAt [4, 6, 8, 10, 2]) ∧
      sackOrdinary .ideal (octetsAt [4, 6, 8, 10, 2]) = [⟨10, 11⟩, ⟨8, 9⟩, ⟨6, 7⟩, ⟨4, 5⟩] := by
  have hblocks : sackOrdinary .ideal (octetsAt [4, 6, 8, 10, 2]) = [⟨10, 11⟩, ⟨8, 9⟩, ⟨6, 7⟩, ⟨4, 5⟩] := by decide
  refine ⟨?_, fun hr => ?_, hblocks⟩
  · have h₁ : ∃ fin, Receives .ideal 0 (octetsAt [4]) fin := @receives_octetsAt [] 4 receives_octetsAt_nil (by decide)
    have h₂ : ∃ fin, Receives .ideal 0 (octetsAt [4, 6]) fin := @receives_octetsAt [4] 6 h₁ (by decide)
    have h₃ : ∃ fin, Receives .ideal 0 (octetsAt [4, 6, 8]) fin := @receives_octetsAt [4, 6] 8 h₂ (by decide)
    have h₄ : ∃ fin, Receives .ideal 0 (octetsAt [4, 6, 8, 10]) fin := @receives_octetsAt [4, 6, 8] 10 h₃ (by decide)
    exact @receives_octetsAt [4, 6, 8, 10] 2 h₄ (by decide)
  · have hheld : (octetsAt [4, 6, 8, 10, 2]).recent ∈ (octetsAt [4, 6, 8, 10, 2]).heldAbove :=
      ⟨by decide, (1, 2), by decide, by decide, by decide⟩
    obtain ⟨b, rest, heq, hle, -⟩ := hr.recent (by decide) hheld
    rw [hblocks, List.cons.injEq] at heq
    obtain ⟨rfl, -⟩ := heq
    revert hle
    decide

end

end Netxduo
