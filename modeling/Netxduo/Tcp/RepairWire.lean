import Netxduo.Tcp.Evidence
import Netxduo.Tcp.Retransmit
import Netxduo.Tcp.Opened
import Netxduo.Tcp.Acceptance
import Netxduo.Tcp.Segmentation

/-! What the SACK repairs of `_nx_tcp_socket_sack_retransmit` put on the wire, whatever the scoreboard holds and the
    packet pool does. -/

namespace Netxduo
open Serial

/-! ### What a repair is -/

/-- The peer's window has at most `2 ^ 30` octets, a field of 16 bits shifted by 14 at most, and the packets of the queue
    lie within half the sequence space about the acknowledgment. --/
structure Repairable (s : Socket) : Prop where
  window : s.snd.txWindowAdvertised.toNat ≤ 2 ^ 30
  placed : ∀ p ∈ s.snd.transmitSent, -2 ^ 30 ≤ rel s.sack.highAck p.sequence ∧
    rel s.sack.highAck p.sequence + p.octets.length < 2 ^ 31

/-- Octets of a queued packet under their own sequence numbers, one segment of them at most, inside the window. --/
structure IsRepair (s : Socket) (seg : Segment) : Prop where
  original : ∃ p ∈ s.snd.transmitSent, ∃ k, k + seg.octets.length ≤ p.octets.length ∧
    seg.sequenceNumber = p.sequence + BitVec.ofNat 32 k ∧ seg.octets = (p.octets.drop k).take seg.octets.length
  segment : seg.octets.length ≤ s.connectMss.toNat
  within : rel s.sack.highAck (seg.sequenceNumber + BitVec.ofNat 32 seg.octets.length) ≤
    s.snd.txWindowAdvertised.toNat

/-- The terms the repairs are bound by are the same, and the queue holds the same octets. --/
structure SameRepairs (s t : Socket) : Prop where
  highAck : t.sack.highAck = s.sack.highAck
  window : t.snd.txWindowAdvertised = s.snd.txWindowAdvertised
  connectMss : t.connectMss = s.connectMss
  queue : ∀ p ∈ t.snd.transmitSent, ∃ q ∈ s.snd.transmitSent, q.sequence = p.sequence ∧ q.octets = p.octets

/-- A repair went out: it is paid for, octet by octet. --/
structure RepairSent (s t : Socket) (seg : Segment) : Prop where
  wire : t.wire = s.wire ++ [seg]
  repair : IsRepair s seg
  nonempty : 0 < seg.octets.length
  paid : seg.octets.length + t.sack.prrCredit.toNat = s.sack.prrCredit.toNat
  same : SameRepairs s t

section
variable {ip : Ip} {s t u : Socket} {r : Repair} {p : TxPacket} {seg : Segment} {ack b e edge x : ULONG}

theorem SameRepairs.repairable (h : SameRepairs s t) (hs : Repairable s) : Repairable t := by
  refine ⟨by rw [h.window]; exact hs.window, fun p hp => ?_⟩
  obtain ⟨q, hq, hsequence, hoctets⟩ := h.queue p hp
  rw [h.highAck, ← hsequence, ← hoctets]
  exact hs.placed q hq

theorem SameRepairs.isRepair (h : SameRepairs s t) (hseg : IsRepair t seg) : IsRepair s seg := by
  obtain ⟨⟨p, hp, k, hk, hplace, hcut⟩, hmss, hwithin⟩ := hseg
  obtain ⟨q, hq, hsequence, hoctets⟩ := h.queue p hp
  refine ⟨⟨q, hq, k, ?_, ?_, ?_⟩, ?_, ?_⟩
  · rw [hoctets]
    exact hk
  · rw [hsequence]
    exact hplace
  · rw [hoctets]
    exact hcut
  · rw [← h.connectMss]
    exact hmss
  · rw [← h.highAck, ← h.window]
    exact hwithin

/-! ### Ranges -/

/-- Clipping a range to what is acknowledged and to the window never makes it longer. --/
theorem clip_le {window : ULONG} (hwindow : window.toNat ≤ 2 ^ 30)
    (hack : INT (e - (ack + window)) > 0 → INT (ack - b) ≤ 2 ^ 30)
    (hpos : INT ((if INT (e - (ack + window)) > 0 then ack + window else e) -
      (if INT (ack - b) > 0 then ack else b)) > 0) :
    ((if INT (e - (ack + window)) > 0 then ack + window else e) - (if INT (ack - b) > 0 then ack else b)).toNat ≤
      (e - b).toNat := by
  have hlow : e - ack = (e - b) - (ack - b) := by grind
  have hfar : e - (ack + window) = (e - b) - (ack - b) - window := by grind
  have hnear : ack + window - b = (ack - b) + window := by grind
  have hspan : ack + window - ack = window := by grind
  rw [hfar] at hpos hack ⊢
  generalize hlen : e - b = len at *
  generalize hgap : ack - b = gap at *
  have h₁ := len.isLt
  have h₂ := gap.isLt
  rw [int_pos_iff] at hack
  rw [BitVec.toNat_sub, BitVec.toNat_sub] at hack
  have hgapInt : gap.toNat < 2 ^ 31 → INT gap = gap.toNat := fun hlt => by
    have hcond := BitVec.toInt_eq_toNat_cond gap
    unfold INT
    split at hcond <;> omega
  by_cases hedge : INT (len - gap - window) > 0
  · rw [if_pos hedge] at hpos ⊢
    rw [int_pos_iff, BitVec.toNat_sub, BitVec.toNat_sub] at hedge
    by_cases hclip : INT gap > 0
    · rw [if_pos hclip, hspan]
      rw [int_pos_iff] at hclip
      have := hgapInt hclip.2
      have := hack hedge
      omega
    · rw [if_neg hclip, hnear] at hpos ⊢
      rw [int_pos_iff, BitVec.toNat_add] at hpos
      rw [BitVec.toNat_add]
      omega
  · rw [if_neg hedge] at hpos ⊢
    by_cases hclip : INT gap > 0
    · rw [if_pos hclip, hlow] at hpos ⊢
      rw [int_pos_iff, BitVec.toNat_sub] at hpos
      rw [int_pos_iff] at hclip
      rw [BitVec.toNat_sub]
      omega
    · rw [if_neg hclip, hlen]

/-- The range of a repair costs at most the credit, fits one segment and ends inside the window. --/
theorem repairRange_bounds (hwindow : s.snd.txWindowAdvertised.toNat ≤ 2 ^ 30)
    (hack : r.rescue = false → INT (s.sack.highAck - r.sequence) ≤ 2 ^ 30) (h : repairRange ip s r p = some (b, e)) :
    INT (e - b) > 0 ∧ (e - b).toNat ≤ s.sack.prrCredit.toNat ∧ (e - b).toNat ≤ (payloadMss ip s).toNat ∧
      INT (e - (s.sack.highAck + s.snd.txWindowAdvertised)) ≤ 0 := by
  unfold repairRange at h
  dsimp only at h
  generalize (if INT (p.endSequence - r.limit) > 0 then r.limit else p.endSequence) = last at h
  have hself : INT (s.sack.highAck + s.snd.txWindowAdvertised - (s.sack.highAck + s.snd.txWindowAdvertised)) = 0 := by
    rw [BitVec.sub_self]
    rfl
  have hend : ∀ e₀ : ULONG, INT ((if INT (e₀ - (s.sack.highAck + s.snd.txWindowAdvertised)) > 0 then
      s.sack.highAck + s.snd.txWindowAdvertised else e₀) - (s.sack.highAck + s.snd.txWindowAdvertised)) ≤ 0 := by
    intro e₀
    split
    · exact Int.le_of_eq hself
    · omega
  cases hrescue : r.rescue with
  | false =>
    rw [hrescue] at h
    simp only [Bool.false_eq_true, and_false, if_false] at h
    generalize hfirst : (if last - r.sequence > s.sack.prrCredit then r.sequence + s.sack.prrCredit else last) = first at h
    generalize hsecond : (if first - r.sequence > payloadMss ip s then r.sequence + payloadMss ip s else first) = second
      at h
    have hcredit : (first - r.sequence).toNat ≤ s.sack.prrCredit.toNat := by
      rw [← hfirst]
      split
      · rw [show r.sequence + s.sack.prrCredit - r.sequence = s.sack.prrCredit by grind]
      · rename_i hle
        exact BitVec.not_lt.mp hle
    have hsegment : (second - r.sequence).toNat ≤ (payloadMss ip s).toNat ∧
        (second - r.sequence).toNat ≤ (first - r.sequence).toNat := by
      rw [← hsecond]
      split
      · rename_i hgt
        rw [show r.sequence + payloadMss ip s - r.sequence = payloadMss ip s by grind]
        exact ⟨Nat.le_refl _, Nat.le_of_lt hgt⟩
      · rename_i hle
        exact ⟨BitVec.not_lt.mp hle, Nat.le_refl _⟩
    obtain ⟨hpos, h⟩ := Option.ite_none_left_eq_some.mp h
    obtain ⟨rfl, rfl⟩ := Prod.mk.inj (Option.some.inj h)
    have hle := clip_le hwindow (fun _ => hack hrescue) (Int.not_le.mp hpos)
    exact ⟨Int.not_le.mp hpos, by omega, by omega, hend second⟩
  | true =>
    rw [hrescue] at h
    simp only [and_true, if_true] at h
    generalize hfirst : (if last - p.sequence > s.sack.prrCredit then last - s.sack.prrCredit else p.sequence) = first at h
    generalize hsecond : (if last - first > payloadMss ip s then last - payloadMss ip s else first) = second at h
    have hcredit : (last - first).toNat ≤ s.sack.prrCredit.toNat := by
      rw [← hfirst]
      split
      · rw [show last - (last - s.sack.prrCredit) = s.sack.prrCredit by grind]
      · rename_i hle
        exact BitVec.not_lt.mp hle
    have hsegment : (last - second).toNat ≤ (payloadMss ip s).toNat ∧ (last - second).toNat ≤ (last - first).toNat := by
      rw [← hsecond]
      split
      · rename_i hgt
        rw [show last - (last - payloadMss ip s) = payloadMss ip s by grind]
        exact ⟨Nat.le_refl _, Nat.le_of_lt hgt⟩
      · rename_i hle
        exact ⟨BitVec.not_lt.mp hle, Nat.le_refl _⟩
    obtain ⟨hinside, h⟩ := Option.ite_none_left_eq_some.mp h
    obtain ⟨hpos, h⟩ := Option.ite_none_left_eq_some.mp h
    obtain ⟨rfl, rfl⟩ := Prod.mk.inj (Option.some.inj h)
    have hle := clip_le hwindow (fun hgt => absurd hgt hinside) (Int.not_le.mp hpos)
    exact ⟨Int.not_le.mp hpos, by omega, by omega, hend last⟩

/-! ### The packet of a repair -/

theorem mem_of_repairSearch {q : List TxPacket} (h : repairSearch x q = .found p) :
    p ∈ q ∧ INT (p.endSequence - x) > 0 ∧ ¬INT (x - p.sequence) < 0 ∧ p.payload ≠ 0 := by
  induction q with
  | nil => cases h
  | cons p' q ih =>
    rw [repairSearch] at h
    by_cases hpast : INT (p'.endSequence - x) > 0
    · rw [if_pos hpast] at h
      by_cases hblocked : INT (x - p'.sequence) < 0 ∨ p'.payload = 0 ∨ p'.txDone = false
      · rw [if_pos hblocked] at h
        cases h
      · rw [if_neg hblocked] at h
        cases h
        exact ⟨List.mem_cons_self .., hpast, fun hlt => hblocked (.inl hlt), fun hzero => hblocked (.inr (.inl hzero))⟩
    · rw [if_neg hpast] at h
      obtain ⟨hp, hrest⟩ := ih h
      exact ⟨List.mem_cons_of_mem p' hp, hrest⟩

theorem mem_repairQueue (h : p ∈ repairQueue s x) : p ∈ s.snd.transmitSent := by
  unfold repairQueue at h
  split at h
  · split at h
    · exact h
    · exact (List.dropWhile_suffix _).subset h
  · exact h

theorem toNat_payload (h : p.octets.length < 2 ^ 32) : p.payload.toNat = p.octets.length := by
  rw [TxPacket.payload, BitVec.toNat_ofNat]
  exact Nat.mod_eq_of_lt h

theorem endSequence_sub (p : TxPacket) : p.endSequence - p.sequence = p.payload := by
  unfold TxPacket.endSequence
  grind

/-- What is selected lies in the packet that was found for it. --/
theorem rel_of_found (hs : Repairable s) (hp : p ∈ s.snd.transmitSent) (hend : INT (p.endSequence - x) > 0)
    (hbegin : ¬INT (x - p.sequence) < 0) : INT (s.sack.highAck - x) ≤ 2 ^ 30 := by
  obtain ⟨hlow, hhigh⟩ := hs.placed p hp
  have hlength : p.payload.toNat = p.octets.length := toNat_payload (by omega)
  have hsplit : p.endSequence - x = p.payload - (x - p.sequence) := by
    unfold TxPacket.endSequence
    grind
  rw [hsplit, int_pos_iff, BitVec.toNat_sub] at hend
  rw [int_neg_iff] at hbegin
  have hplace : rel s.sack.highAck (p.sequence + BitVec.ofNat 32 (x - p.sequence).toNat) =
      rel s.sack.highAck p.sequence + (x - p.sequence).toNat := rel_add_ofNat (by omega) (by omega)
  rw [BitVec.ofNat_toNat, BitVec.setWidth_eq, show p.sequence + (x - p.sequence) = x by grind] at hplace
  have hself : rel s.sack.highAck s.sack.highAck = 0 := rel_self _
  have hbounds := rel_bounds s.sack.highAck x
  rw [@int_sub_rel s.sack.highAck s.sack.highAck x (by omega) (by omega)]
  omega

/-! ### Sending -/

theorem sackSentLoop_frame (bank : Bool) (sequence limit : ULONG) (indices : List Nat) (k : SackRecovery) :
    (sackSentLoop bank sequence limit indices k).highAck = k.highAck ∧
      (sackSentLoop bank sequence limit indices k).prrCredit = k.prrCredit := by
  induction indices generalizing k with
  | nil => exact ⟨rfl, rfl⟩
  | cons i rest ih =>
    rw [sackSentLoop]
    split
    · exact ih _
    · exact ih k

theorem sackRecoverySent_frame (s : Socket) (sequence bytes : ULONG) (rescue : Bool) :
    (sackRecoverySent s sequence bytes rescue).sack.highAck = s.sack.highAck ∧
      (sackRecoverySent s sequence bytes rescue).sack.prrCredit =
        if s.sack.prrCredit > bytes then s.sack.prrCredit - bytes else 0 := by
  unfold sackRecoverySent
  dsimp only
  split
  · exact ⟨rfl, rfl⟩
  · split
    · exact sackSentLoop_frame ..
    · exact ⟨rfl, rfl⟩

theorem sackRecoverySent_rest (s : Socket) (sequence bytes : ULONG) (rescue : Bool) :
    sackRecoverySent s sequence bytes rescue =
      { s with sack := (sackRecoverySent s sequence bytes rescue).sack } := by
  unfold sackRecoverySent
  dsimp only
  split <;> rfl

/-- The debit and the header, for octets of the queue that the credit covers. --/
theorem repairSent_segment (ip : Ip) (sequence : ULONG) (octets : List UInt8) {bytes : ULONG} (rescue : Bool)
    (hlength : octets.length = bytes.toNat) (hpos : 0 < bytes.toNat) (hcredit : bytes.toNat ≤ s.sack.prrCredit.toNat)
    (hseg : ∀ seg : Segment, seg.sequenceNumber = sequence → seg.octets = octets → IsRepair s seg) :
    ∃ seg, RepairSent s (retransmitSegment ip (sackRecoverySent s sequence bytes rescue) sequence octets) seg := by
  obtain ⟨hack, hpaid⟩ := sackRecoverySent_frame s sequence bytes rescue
  have hrest := sackRecoverySent_rest s sequence bytes rescue
  generalize sackRecoverySent s sequence bytes rescue = t at hack hpaid hrest
  generalize t.sack = k at hack hpaid hrest
  subst hrest
  refine ⟨_, ⟨rfl, hseg _ rfl rfl, ?_, ?_, ⟨hack, rfl, rfl, fun q hq => ⟨q, hq, rfl, rfl⟩⟩⟩⟩
  · show 0 < octets.length
    omega
  · show octets.length + k.prrCredit.toNat = _
    rw [hpaid]
    split
    · rename_i hgt
      have hgt : bytes.toNat < s.sack.prrCredit.toNat := hgt
      rw [BitVec.toNat_sub_of_le (Nat.le_of_lt hgt)]
      omega
    · rename_i hle
      have hle : ¬bytes.toNat < s.sack.prrCredit.toNat := hle
      show octets.length + 0 = _
      omega

theorem RepairSent.asked (h : RepairSent s t seg) (n : Nat) : RepairSent s { t with asked := n } seg :=
  ⟨h.wire, h.repair, h.nonempty, h.paid, ⟨h.same.highAck, h.same.window, h.same.connectMss, h.same.queue⟩⟩

/-- The driver owns the packet, or has done with it. --/
theorem RepairSent.retransmitted (h : RepairSent s (retransmitSegment ip u p.sequence p.octets) seg) :
    RepairSent s (retransmitPacket ip u p) seg := by
  refine ⟨h.wire, h.repair, h.nonempty, h.paid, ⟨h.same.highAck, h.same.window, h.same.connectMss, fun q hq => ?_⟩⟩
  obtain ⟨q', hq', rfl⟩ := List.mem_map.mp hq
  obtain ⟨q'', hq'', hsequence, hoctets⟩ := h.same.queue q' hq'
  refine ⟨q'', hq'', ?_, ?_⟩
  · rw [hsequence]
    split <;> rfl
  · rw [hoctets]
    split <;> rfl

/-- Octets of a queued packet from `sequence` on. --/
theorem isRepair_of (ip : Ip) (hs : Repairable s) (hp : p ∈ s.snd.transmitSent) {sequence bytes : ULONG}
    (hpos : 0 < bytes.toNat)
    (hcut : ((p.octets.drop (sequence - p.sequence).toNat).take bytes.toNat).length = bytes.toNat)
    (hmss : bytes.toNat ≤ (payloadMss ip s).toNat)
    (hedge : INT (sequence + bytes - (s.sack.highAck + s.snd.txWindowAdvertised)) ≤ 0)
    (hsequence : seg.sequenceNumber = sequence)
    (hoctets : seg.octets = (p.octets.drop (sequence - p.sequence).toNat).take bytes.toNat) : IsRepair s seg := by
  obtain ⟨hlow, hhigh⟩ := hs.placed p hp
  have hwindow := hs.window
  have hlen : seg.octets.length = bytes.toNat := by rw [hoctets, hcut]
  have hroom : (sequence - p.sequence).toNat + bytes.toNat ≤ p.octets.length := by
    rw [List.length_take, List.length_drop] at hcut
    omega
  have hplace : sequence = p.sequence + BitVec.ofNat 32 (sequence - p.sequence).toNat := by
    rw [BitVec.ofNat_toNat, BitVec.setWidth_eq]
    grind
  have hend : rel s.sack.highAck (sequence + bytes) =
      rel s.sack.highAck p.sequence + ((sequence - p.sequence).toNat + bytes.toNat : Nat) := by
    rw [← rel_add_ofNat (w := 32) (by omega) (by omega), BitVec.ofNat_add, BitVec.ofNat_toNat, BitVec.ofNat_toNat,
      BitVec.setWidth_eq, BitVec.setWidth_eq]
    congr 1
    grind
  have hlimit : rel s.sack.highAck (s.sack.highAck + s.snd.txWindowAdvertised) = s.snd.txWindowAdvertised.toNat := by
    have hself : rel s.sack.highAck s.sack.highAck = 0 := rel_self _
    have := @rel_add_ofNat 32 s.sack.highAck s.sack.highAck s.snd.txWindowAdvertised.toNat (by omega) (by omega)
    rw [BitVec.ofNat_toNat, BitVec.setWidth_eq] at this
    omega
  refine ⟨⟨p, hp, (sequence - p.sequence).toNat, by rw [hlen]; exact hroom, by rw [hsequence]; exact hplace,
    by rw [hlen]; exact hoctets⟩, ?_, ?_⟩
  · rw [hlen]
    exact Nat.le_trans hmss (BitVec.le_def.mp (payloadMss_le ip s))
  · rw [@int_sub_rel s.sack.highAck _ _ (by omega) (by omega)] at hedge
    rw [hsequence, hlen, BitVec.ofNat_toNat, BitVec.setWidth_eq]
    omega

theorem RepairSent.ofAsked {n : Nat} (h : RepairSent { s with asked := n } t seg) : RepairSent s t seg :=
  ⟨h.wire, ⟨h.repair.original, h.repair.segment, h.repair.within⟩, h.nonempty, h.paid,
    ⟨h.same.highAck, h.same.window, h.same.connectMss, h.same.queue⟩⟩

/-- The whole of a packet. --/
theorem repairSent_packet (ip : Ip) (hs : Repairable s) (hp : p ∈ s.snd.transmitSent) (hpayload : p.payload ≠ 0)
    (rescue : Bool)
    (hcredit : p.payload.toNat ≤ s.sack.prrCredit.toNat) (hmss : p.payload.toNat ≤ (payloadMss ip s).toNat)
    (hedge : INT (p.endSequence - (s.sack.highAck + s.snd.txWindowAdvertised)) ≤ 0) :
    ∃ seg, RepairSent s
      (retransmitPacket ip (sackRecoverySent s p.sequence (p.endSequence - p.sequence) rescue) p) seg := by
  obtain ⟨hlow, hhigh⟩ := hs.placed p hp
  have hlength : p.payload.toNat = p.octets.length := toNat_payload (by omega)
  have hpos : 0 < p.payload.toNat := Nat.pos_of_ne_zero fun h => hpayload (BitVec.eq_of_toNat_eq h)
  have hall : (p.octets.drop (p.sequence - p.sequence).toNat).take p.payload.toNat = p.octets := by
    rw [BitVec.sub_self, hlength]
    exact List.take_length
  rw [endSequence_sub]
  obtain ⟨seg, hsent⟩ := repairSent_segment ip p.sequence p.octets rescue hlength.symm hpos hcredit
    fun seg hsequence hoctets => isRepair_of ip hs hp hpos (by rw [hall, hlength]) hmss hedge hsequence
      (hoctets.trans hall.symm)
  exact ⟨seg, hsent.retransmitted⟩

/-- A repair that is not built changes nothing but the count of the questions asked. --/
theorem repairSend_false (h : (repairSend ip s r p b e).1 = false) :
    (repairSend ip s r p b e).2 = { s with asked := s.asked + 1 } := by
  unfold repairSend at h ⊢
  by_cases hpart : b ≠ p.sequence ∨ e ≠ p.endSequence
  · rw [if_pos hpart] at h ⊢
    dsimp only at h ⊢
    cases hcopy : (dataSlice ip s p b (e - b)).1 with
    | some octets =>
      rw [hcopy] at h
      cases h
    | none =>
      rw [hcopy] at h
      dsimp only at h ⊢
      split at h
      · cases h
      · rename_i hnot
        rw [if_neg hnot]
        rfl
  · rw [if_neg hpart] at h
    cases h

/-- A repair is not built, or it goes out as its range or as the whole packet. --/
theorem repairSend_spec (hs : Repairable s) (hp : p ∈ s.snd.transmitSent) (hpayload : p.payload ≠ 0)
    (hpos : INT (e - b) > 0) (hcredit : (e - b).toNat ≤ s.sack.prrCredit.toNat)
    (hmss : (e - b).toNat ≤ (payloadMss ip s).toNat)
    (hedge : INT (e - (s.sack.highAck + s.snd.txWindowAdvertised)) ≤ 0) :
    (repairSend ip s r p b e).1 = false ∨
      (repairSend ip s r p b e).1 = true ∧ ∃ seg, RepairSent s (repairSend ip s r p b e).2 seg := by
  rw [int_pos_iff] at hpos
  unfold repairSend
  by_cases hpart : b ≠ p.sequence ∨ e ≠ p.endSequence
  · rw [if_pos hpart]
    have hs' : Repairable { s with asked := s.asked + 1 } := ⟨hs.window, hs.placed⟩
    have hslice : dataSlice ip s p b (e - b) =
        (if ip.packetAllocate s.asked = true ∧
            ((p.octets.drop (b - p.sequence).toNat).take (e - b).toNat).length = (e - b).toNat then
          some ((p.octets.drop (b - p.sequence).toNat).take (e - b).toNat) else none, { s with asked := s.asked + 1 }) := rfl
    rw [hslice]
    dsimp only
    by_cases hcopy : ip.packetAllocate s.asked = true ∧
        ((p.octets.drop (b - p.sequence).toNat).take (e - b).toNat).length = (e - b).toNat
    · rw [if_pos hcopy]
      obtain ⟨seg, hsent⟩ := repairSent_segment (s := { s with asked := s.asked + 1 }) ip b _ r.rescue hcopy.2
        hpos.1 hcredit fun seg hsequence hoctets =>
          isRepair_of ip hs' hp hpos.1 hcopy.2 hmss (by rw [show b + (e - b) = e by grind]; exact hedge)
            hsequence hoctets
      exact .inr ⟨rfl, seg, (hsent.asked _).ofAsked⟩
    · rw [if_neg hcopy]
      dsimp only
      split
      · rename_i hwhole
        obtain ⟨seg, hsent⟩ := repairSent_packet ip hs' hp hpayload r.rescue hwhole.2.1 hwhole.1 hwhole.2.2
        exact .inr ⟨rfl, seg, hsent.ofAsked⟩
      · exact .inl rfl
  · rw [if_neg hpart]
    obtain ⟨rfl, rfl⟩ : b = p.sequence ∧ e = p.endSequence := by
      rw [not_or, not_not, not_not] at hpart
      exact hpart
    rw [endSequence_sub] at hcredit hmss
    obtain ⟨seg, hsent⟩ := repairSent_packet ip hs hp hpayload r.rescue hcredit hmss hedge
    exact .inr ⟨rfl, seg, hsent⟩

/-! ### The loop -/

/-- A round ends the loop, moving the search at most, or it sends a repair and goes on. --/
theorem sackRetransmit_step (ip : Ip) (hs : Repairable s) :
    (∃ c n, ∀ rounds, sackRetransmit ip (rounds + 1) s = { s with sack.cursor := c, asked := n }) ∨
      ∃ t seg, RepairSent s t seg ∧ ∀ rounds, sackRetransmit ip (rounds + 1) s = sackRetransmit ip rounds t := by
  by_cases hzero : s.sack.prrCredit = 0
  · exact .inl ⟨s.sack.cursor, s.asked, fun rounds => by rw [sackRetransmit, if_pos hzero]⟩
  cases hnext : sackRecoveryNext (s.txQueueStopped ip).2 (s.txQueueStopped ip).1 with
  | none =>
    refine .inl ⟨s.sack.cursor, s.asked + 1, fun rounds => ?_⟩
    rw [sackRetransmit, if_neg hzero]
    dsimp only
    rw [hnext]
    rfl
  | some r =>
    cases hsearch : repairSearch r.sequence (repairQueue (s.txQueueStopped ip).2 r.sequence) with
    | none =>
      refine .inl ⟨none, s.asked + 1, fun rounds => ?_⟩
      rw [sackRetransmit, if_neg hzero]
      dsimp only
      rw [hnext]
      dsimp only
      rw [hsearch]
      rfl
    | blocked p =>
      refine .inl ⟨some p.addr, s.asked + 1, fun rounds => ?_⟩
      rw [sackRetransmit, if_neg hzero]
      dsimp only
      rw [hnext]
      dsimp only
      rw [hsearch]
      rfl
    | found p =>
      obtain ⟨hp, hend, hbegin, hpayload⟩ := mem_of_repairSearch hsearch
      have hp : p ∈ s.snd.transmitSent := mem_repairQueue hp
      have hround : ∀ rounds, sackRetransmit ip (rounds + 1) s =
          ((repairRange ip { s with sack.cursor := some p.addr, asked := s.asked + 1 } r p).elim
            { s with sack.cursor := some p.addr, asked := s.asked + 1 } fun range =>
              let sent := repairSend ip { s with sack.cursor := some p.addr, asked := s.asked + 1 } r p range.1 range.2
              if sent.1 then sackRetransmit ip rounds sent.2 else sent.2) := by
        intro rounds
        rw [sackRetransmit, if_neg hzero]
        dsimp only
        rw [hnext]
        dsimp only
        rw [hsearch]
        dsimp only
        show _ = Option.elim (repairRange ip { (s.txQueueStopped ip).2 with sack.cursor := some p.addr } r p) _ _
        cases repairRange ip { (s.txQueueStopped ip).2 with sack.cursor := some p.addr } r p <;> rfl
      generalize hu : ({ s with sack.cursor := some p.addr, asked := s.asked + 1 } : Socket) = u at hround
      cases hrange : repairRange ip u r p with
      | none =>
        refine .inl ⟨some p.addr, s.asked + 1, fun rounds => ?_⟩
        rw [hround, hrange, ← hu]
        rfl
      | some range =>
        obtain ⟨b, e⟩ := range
        have hsu : Repairable u := by
          rw [← hu]
          exact ⟨hs.window, hs.placed⟩
        have hpu : p ∈ u.snd.transmitSent := by
          rw [← hu]
          exact hp
        obtain ⟨hpos, hcredit, hmss, hedge⟩ := repairRange_bounds hsu.window
          (fun _ => rel_of_found hsu hpu hend hbegin) hrange
        rcases @repairSend_spec ip u r p b e hsu hpu hpayload hpos hcredit hmss hedge with hfalse | ⟨htrue, seg, hsent⟩
        · refine .inl ⟨some p.addr, s.asked + 2, fun rounds => ?_⟩
          rw [hround, hrange]
          dsimp only [Option.elim]
          rw [hfalse, if_neg Bool.false_ne_true, repairSend_false hfalse, ← hu]
        · refine .inr ⟨(repairSend ip u r p b e).2, seg, ?_, fun rounds => ?_⟩
          · rw [← hu] at hsent ⊢
            exact ⟨hsent.wire, ⟨hsent.repair.original, hsent.repair.segment, hsent.repair.within⟩, hsent.nonempty,
              hsent.paid, ⟨hsent.same.highAck, hsent.same.window, hsent.same.connectMss, hsent.same.queue⟩⟩
          · rw [hround, hrange]
            dsimp only [Option.elim]
            rw [htrue, if_pos rfl]

/-- More rounds than the credit has octets make no difference. --/
theorem sackRetransmit_ends (ip : Ip) (rounds : Nat) : ∀ s rounds', Repairable s → s.sack.prrCredit.toNat < rounds →
    s.sack.prrCredit.toNat < rounds' → sackRetransmit ip rounds s = sackRetransmit ip rounds' s := by
  induction rounds with
  | zero => exact fun s rounds' _ h => absurd h (Nat.not_lt_zero _)
  | succ rounds ih =>
    intro s rounds' hs h h'
    obtain ⟨rounds', rfl⟩ := Nat.exists_eq_add_one_of_ne_zero (Nat.ne_of_gt (Nat.lt_of_le_of_lt (Nat.zero_le _) h'))
    rcases sackRetransmit_step ip hs with ⟨c, n, hround⟩ | ⟨t, seg, hsent, hround⟩
    · rw [hround, hround]
    · have hpaid := hsent.paid
      have hnonempty := hsent.nonempty
      rw [hround, hround]
      exact ih t rounds' (hsent.same.repairable hs) (by omega) (by omega)

/-- What the rounds send: repairs, paid for from the credit. --/
theorem sackRetransmit_sends (ip : Ip) (rounds : Nat) : ∀ s, Repairable s → ∃ segs,
    (sackRetransmit ip rounds s).wire = s.wire ++ segs ∧
      (segs.map (·.octets.length)).sum + (sackRetransmit ip rounds s).sack.prrCredit.toNat = s.sack.prrCredit.toNat ∧
      (∀ seg ∈ segs, IsRepair s seg) ∧
      (segs = [] → ∃ c n, sackRetransmit ip rounds s = { s with sack.cursor := c, asked := n }) := by
  induction rounds with
  | zero => exact fun s _ => ⟨[], (List.append_nil _).symm, Nat.zero_add _, by simp, fun _ => ⟨s.sack.cursor, s.asked, rfl⟩⟩
  | succ rounds ih =>
    intro s hs
    rcases sackRetransmit_step ip hs with ⟨c, n, hround⟩ | ⟨t, seg, hsent, hround⟩
    · rw [hround]
      exact ⟨[], (List.append_nil _).symm, Nat.zero_add _, by simp, fun _ => ⟨c, n, rfl⟩⟩
    · obtain ⟨segs, hwire, hsum, hall, -⟩ := ih t (hsent.same.repairable hs)
      have hpaid := hsent.paid
      rw [hround]
      refine ⟨seg :: segs, ?_, ?_, ?_, fun h => by cases h⟩
      · rw [hwire, hsent.wire, List.append_assoc]
        rfl
      · rw [List.map_cons, List.sum_cons]
        omega
      · intro seg' hseg'
        rcases List.mem_cons.mp hseg' with rfl | hseg'
        · exact hsent.repair
        · exact hsent.same.isRepair (hall seg' hseg')

end

/-- The loop ends; it sends repairs that the credit at entry pays for, and a repair that is not built changes nothing. --/
theorem sackRepairs (ip : Ip) (s : Socket) (hs : Repairable s) :
    (∀ rounds, s.sack.prrCredit.toNat < rounds →
      sackRetransmit ip rounds s = sackRetransmit ip (s.sack.prrCredit.toNat + 1) s) ∧
    (∀ rounds, ∃ segs, (sackRetransmit ip rounds s).wire = s.wire ++ segs ∧
      (segs.map (·.octets.length)).sum + (sackRetransmit ip rounds s).sack.prrCredit.toNat = s.sack.prrCredit.toNat ∧
      (∀ seg ∈ segs, IsRepair s seg) ∧
      (segs = [] → ∃ c n, sackRetransmit ip rounds s = { s with sack.cursor := c, asked := n })) ∧
    ∀ (t : Socket) r p b e, (repairSend ip t r p b e).1 = false →
      (repairSend ip t r p b e).2 = { t with asked := t.asked + 1 } :=
  ⟨fun rounds h => sackRetransmit_ends ip rounds s _ hs h (Nat.lt_succ_self _),
    fun rounds => sackRetransmit_sends ip rounds s hs, fun _ _ _ _ _ h => repairSend_false h⟩

/-! ### A packet of a hundred octets -/

/-- A hundred octets are outstanding, and the credit covers ten of them. --/
def Socket.repairing : Socket :=
  let s := Socket.opened 0 0 1000 60000
  { s with
    snd := { s.snd with
      txSequence := 101
      txOutstandingBytes := 100
      transmitSent := [⟨7, 1, 20, List.replicate 100 0, true⟩] }
    sack := { s.sack with highAck := 1, prrCredit := 10 } }

/-- The ten octets go out, and no credit is left. --/
theorem sackRepairs_ten : ∃ segs, (sackRetransmit .ideal 11 .repairing).wire = Socket.repairing.wire ++ segs ∧
    (segs.map (·.octets.length)).sum + (sackRetransmit .ideal 11 .repairing).sack.prrCredit.toNat = 10 := by
  have hs : Repairable .repairing := ⟨by decide, fun p hp => by
    obtain rfl := List.mem_singleton.mp hp
    decide⟩
  obtain ⟨segs, hwire, hsum, -⟩ := (sackRepairs .ideal .repairing hs).2.1 11
  exact ⟨segs, hwire, hsum⟩

/-- Without a packet for the copy nothing goes out, but the cursor stands at the packet the range was found in. --/
theorem cursor_moves :
    (sackRetransmit { Ip.ideal with packetAllocate := fun _ => false } 11 .repairing).wire = Socket.repairing.wire ∧
      (sackRetransmit { Ip.ideal with packetAllocate := fun _ => false } 11 .repairing).sack.cursor ≠
        Socket.repairing.sack.cursor := by
  decide +kernel

end Netxduo
