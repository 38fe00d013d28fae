import Mathlib
import Netxduo.Syncache.Cache
import Netxduo.Tcp.Opened
import Netxduo.Tcp.PacketProcess

/-! The acceptance test of RFC 9293 3.10.7.4, and the two tests of the stack: the one of a synchronized socket and the one
    of the SYN cache. -/

namespace Netxduo

/-! ### The table -/

/-- `RCV.NXT =< x < RCV.NXT+RCV.WND`, modulo 2^32. --/
def InWindow (next window x : ULONG) : Prop := (x - next).toNat < window.toNat

/-- The four cases: a segment of no or some length, against no or some window. --/
def RfcAcceptable (next window sequence length : ULONG) : Prop :=
  if length = 0 then if window = 0 then sequence = next else InWindow next window sequence
  else if window = 0 then False
  else InWindow next window sequence ∨ InWindow next window (sequence + length - 1)

/-- Some octet of the segment lies in the window. --/
def Overlaps (next window sequence length : ULONG) : Prop :=
  ∃ k : Nat, k < length.toNat ∧ InWindow next window (sequence + BitVec.ofNat 32 k)

/-- The segment begins before the window, and goes on behind it. --/
def Spanning (next window sequence length : ULONG) : Prop :=
  window ≠ 0 ∧ sequence ≠ next ∧ (next - sequence).toNat + window.toNat < length.toNat

/-- What a closed window lets through: a reset, urgent data or a bare acknowledgment. --/
def PassesClosed (h : TcpHeader) : Prop :=
  h.has tcpRstBit = true ∨ h.has tcpUrgBit = true ∨ h.word3 &&& tcpControlMask = tcpAckBit

/-- The length the SYN cache counts. --/
def Syncache.Segment.counted (g : Syncache.Segment) : ULONG := g.length + if g.fin then 1 else 0

section
variable {next window sequence length x : ULONG}

/-! ### Places -/

theorem int_nonneg_iff (x : ULONG) : INT x ≥ 0 ↔ x.toNat < 2 ^ 31 := by
  have h : INT x = x.toInt := rfl
  have hcond := BitVec.toInt_eq_toNat_cond x
  have hlt := x.isLt
  split at hcond <;> omega

theorem int_pos_iff (x : ULONG) : INT x > 0 ↔ 0 < x.toNat ∧ x.toNat < 2 ^ 31 := by
  have h : INT x = x.toInt := rfl
  have hcond := BitVec.toInt_eq_toNat_cond x
  have hlt := x.isLt
  split at hcond <;> omega

theorem int_neg_iff (x : ULONG) : INT x < 0 ↔ 2 ^ 31 ≤ x.toNat := by
  have := int_nonneg_iff x
  omega

theorem ulong_eq_zero_iff (x : ULONG) : x = 0 ↔ x.toNat = 0 := by
  rw [← BitVec.toNat_inj]
  rfl

theorem ulong_eq_iff_sub (x y : ULONG) : x = y ↔ (x - y).toNat = 0 := by
  rw [← ulong_eq_zero_iff]
  constructor
  · rintro rfl
    exact BitVec.sub_self x
  · intro h
    have hx : x = (x - y) + y := (BitVec.sub_add_cancel x y).symm
    rw [hx, h]
    exact BitVec.zero_add y

/-- The distance of the end of a segment. --/
theorem toNat_end (next sequence length : ULONG) :
    (sequence + length - next).toNat = ((sequence - next).toNat + length.toNat) % 2 ^ 32 := by
  rw [show sequence + length - next = (sequence - next) + length by grind, BitVec.toNat_add]

theorem toNat_back (x y : ULONG) : (x - y).toNat = (2 ^ 32 - (y - x).toNat) % 2 ^ 32 := by
  rw [show x - y = -(y - x) by grind, BitVec.toNat_neg]

/-! ### The tests -/

/-- An overlap, by where the segment begins and how far it reaches. --/
theorem overlaps_iff : Overlaps next window sequence length ↔
    0 < window.toNat ∧ 0 < length.toNat ∧
      ((sequence - next).toNat < window.toNat ∨ 2 ^ 32 < (sequence - next).toNat + length.toNat) := by
  have hlt := (sequence - next).isLt
  have hplace : ∀ k : Nat, (sequence + BitVec.ofNat 32 k - next).toNat = ((sequence - next).toNat + k) % 2 ^ 32 := by
    intro k
    rw [toNat_end, BitVec.toNat_ofNat, Nat.add_mod_mod]
  have hw := window.isLt
  constructor
  · rintro ⟨k, hk, hin⟩
    have hin : (sequence + BitVec.ofNat 32 k - next).toNat < window.toNat := hin
    rw [hplace] at hin
    have hl := length.isLt
    omega
  · rintro ⟨hwindow, hlength, hstart | hend⟩
    · refine ⟨0, hlength, ?_⟩
      show (sequence + BitVec.ofNat 32 0 - next).toNat < window.toNat
      rw [hplace]
      omega
    · refine ⟨2 ^ 32 - (sequence - next).toNat, by omega, ?_⟩
      show (sequence + BitVec.ofNat 32 (2 ^ 32 - (sequence - next).toNat) - next).toNat < window.toNat
      rw [hplace]
      omega

/-- The overlap is the table, and the segments around the whole window. --/
theorem overlaps_iff_rfc (hlength : length ≠ 0) (hroom : window.toNat + length.toNat ≤ 2 ^ 31) :
    Overlaps next window sequence length ↔
      RfcAcceptable next window sequence length ∨ Spanning next window sequence length := by
  have hpos : 0 < length.toNat := Nat.pos_of_ne_zero (mt (ulong_eq_zero_iff length).mpr hlength)
  have hlt := (sequence - next).isLt
  have hlast : (sequence + length - 1 - next).toNat = ((sequence - next).toNat + (length.toNat - 1)) % 2 ^ 32 := by
    have hone : (length - 1).toNat = length.toNat - 1 := BitVec.toNat_sub_of_le (by exact hpos)
    rw [show sequence + length - 1 - next = sequence + (length - 1) - next by grind, toNat_end, hone]
  have hback := toNat_back next sequence
  have hseq := ulong_eq_iff_sub sequence next
  have hwindow := ulong_eq_zero_iff window
  rw [overlaps_iff, RfcAcceptable, if_neg hlength, Spanning, InWindow, InWindow, hlast]
  by_cases hzero : window = 0
  · rw [if_pos hzero]
    have := hwindow.mp hzero
    constructor
    · rintro ⟨h, -⟩
      omega
    · rintro (h | h)
      · exact h.elim
      · exact absurd hzero h.1
  · rw [if_neg hzero]
    have hopen : window.toNat ≠ 0 := mt hwindow.mpr hzero
    constructor
    · rintro ⟨-, -, hin | hreach⟩
      · exact .inl (.inl hin)
      · by_cases hstart : (sequence - next).toNat < window.toNat
        · exact .inl (.inl hstart)
        · by_cases hin : ((sequence - next).toNat + (length.toNat - 1)) % 2 ^ 32 < window.toNat
          · exact .inl (.inr hin)
          · exact .inr ⟨hzero, fun heq => by have := hseq.mp heq; omega, by omega⟩
    · rintro ((hin | hin) | ⟨-, hne, hspan⟩)
      · exact ⟨by omega, hpos, .inl hin⟩
      · refine ⟨by omega, hpos, ?_⟩
        omega
      · have := mt hseq.mpr hne
        exact ⟨by omega, hpos, .inr (by omega)⟩

end

/-- The SYN cache follows the table, with a FIN counted. --/
theorem cache_acceptable_iff (e : Syncache.Entry) (g : Syncache.Segment) :
    Syncache.Cache.acceptable g e = true ↔
      RfcAcceptable (e.terms.irs + 1) e.terms.rxWindow g.sequence g.counted := by
  unfold Syncache.Cache.acceptable RfcAcceptable InWindow Syncache.Segment.counted
  dsimp only
  generalize g.length + (if g.fin = true then (1 : ULONG) else 0) = length
  have hlast : g.sequence - (e.terms.irs + 1) + length - 1 = g.sequence + length - 1 - (e.terms.irs + 1) := by grind
  have hzero : g.sequence - (e.terms.irs + 1) = 0 ↔ g.sequence = e.terms.irs + 1 := by
    rw [ulong_eq_zero_iff, ulong_eq_iff_sub]
  rw [hlast]
  split
  · split
    · rw [decide_eq_true_iff, hzero]
    · rw [decide_eq_true_iff]
      rfl
  · split
    · exact iff_of_false Bool.false_ne_true id
    · rw [decide_eq_true_iff]
      rfl

/-- A socket takes a segment with data that overlaps the window, and a segment without by the table, past which a closed
    window lets some. --/
theorem socket_acceptable_iff (s : Socket) (p : Packet)
    (hroom : (acceptWindow s).toNat + p.dataLength.toNat ≤ 2 ^ 31) (hwindow : (acceptWindow s).toNat < 2 ^ 31) :
    outsideOfWindow s p = false ↔
      if p.dataLength = 0 then
        RfcAcceptable s.rcv.rxSequence (acceptWindow s) p.header.sequenceNumber 0 ∨
          (acceptWindow s = 0 ∧ PassesClosed p.header)
      else Overlaps s.rcv.rxSequence (acceptWindow s) p.header.sequenceNumber p.dataLength := by
  unfold outsideOfWindow
  dsimp only
  generalize acceptWindow s = window at hroom hwindow
  generalize p.header.sequenceNumber = sequence
  generalize s.rcv.rxSequence = next
  have hlt := (sequence - next).isLt
  have hopen := ulong_eq_zero_iff window
  by_cases hempty : p.dataLength = 0
  · rw [if_pos hempty, if_pos hempty, RfcAcceptable, if_pos rfl]
    by_cases hzero : window = 0
    · rw [if_pos hzero, if_pos hzero, Bool.not_eq_false', PassesClosed]
      simp only [Bool.or_eq_true, beq_iff_eq, hzero, true_and, or_assoc]
    · rw [if_neg hzero, if_neg hzero, Bool.not_eq_false', Bool.and_eq_true, decide_eq_true_iff, decide_eq_true_iff,
        int_nonneg_iff, int_pos_iff, InWindow]
      have hahead : (next + window - sequence).toNat = (window.toNat + (next - sequence).toNat) % 2 ^ 32 := by
        rw [show next + window - sequence = window + (next - sequence) by grind, BitVec.toNat_add]
      have hback := toNat_back next sequence
      rw [hahead]
      constructor
      · rintro ⟨h₁, h₂⟩
        exact .inl (by omega)
      · rintro (h | ⟨h, -⟩)
        · omega
        · exact absurd h hzero
  · have hpos : p.dataLength.toNat ≠ 0 := mt (ulong_eq_zero_iff _).mpr hempty
    rw [if_neg hempty, if_neg hempty, overlaps_iff, Bool.not_eq_false', Bool.and_eq_true, Bool.and_eq_true,
      decide_eq_true_iff, decide_eq_true_iff, decide_eq_true_iff, int_neg_iff, int_pos_iff, toNat_end]
    have hleft : (sequence - (next + window)).toNat = ((sequence - next).toNat + (2 ^ 32 - window.toNat)) % 2 ^ 32 := by
      rw [show sequence - (next + window) = (sequence - next) - window by grind, BitVec.toNat_sub, Nat.add_comm]
    have hgt : window > 0 ↔ 0 < window.toNat := Iff.rfl
    rw [hleft, hgt]
    omega

/-! ### The two tests side by side -/

/-- The SYN cache accepts by the table, the socket whatever overlaps the window. A segment with data and without a FIN
    that the cache accepts is accepted by the socket; the socket accepts those around the whole window besides. --/
theorem acceptance_tests (s : Socket) (p : Packet) (e : Syncache.Entry) (g : Syncache.Segment)
    (hroom : (acceptWindow s).toNat + p.dataLength.toNat ≤ 2 ^ 31) (hwindow : (acceptWindow s).toNat < 2 ^ 31) :
    (Syncache.Cache.acceptable g e = true ↔
      RfcAcceptable (e.terms.irs + 1) e.terms.rxWindow g.sequence g.counted) ∧
    (outsideOfWindow s p = false ↔
      if p.dataLength = 0 then
        RfcAcceptable s.rcv.rxSequence (acceptWindow s) p.header.sequenceNumber 0 ∨
          (acceptWindow s = 0 ∧ PassesClosed p.header)
      else Overlaps s.rcv.rxSequence (acceptWindow s) p.header.sequenceNumber p.dataLength) ∧
    (e.terms.irs + 1 = s.rcv.rxSequence → e.terms.rxWindow = acceptWindow s →
      g.sequence = p.header.sequenceNumber → g.length = p.dataLength → g.fin = false → p.dataLength ≠ 0 →
      (outsideOfWindow s p = false ↔ Syncache.Cache.acceptable g e = true ∨
        Spanning s.rcv.rxSequence (acceptWindow s) p.header.sequenceNumber p.dataLength)) := by
  refine ⟨cache_acceptable_iff e g, socket_acceptable_iff s p hroom hwindow,
    fun hnext hwnd hsequence hlength hfin hdata => ?_⟩
  have hcounted : g.counted = p.dataLength := by
    rw [Syncache.Segment.counted, hfin, hlength]
    exact BitVec.add_zero _
  rw [socket_acceptable_iff s p hroom hwindow, if_neg hdata, overlaps_iff_rfc hdata hroom, cache_acceptable_iff, hnext,
    hwnd, hsequence, hcounted]

/-- An entry whose SYN-ACK offered a window of 4 octets from sequence number 1 on. --/
def Syncache.Entry.narrow : Syncache.Entry where
  state := .synReceived
  peer := ⟨.v4 0x0A000001, 1000, 80⟩
  interface := none
  ipv6Addr := none
  terms := ⟨0, 0, 1000, 536, 536, false, false, 0, 0, 0, 4, 4, 536⟩
  time := 0
  retries := 0

/-- A socket in the same place, with the same window. --/
def Socket.narrow : Socket := Socket.opened 0 0 4 1000

/-- Six octets from sequence number 0 on, around the window. --/
def Packet.around : Packet := .plain 7 0 1 tcpAckBit [1, 2, 3, 4, 5, 6]

theorem acceptance_tests_around :
    outsideOfWindow .narrow .around = false ↔ Syncache.Cache.acceptable ⟨0, 1, 1000, 6, false, none⟩ .narrow = true ∨
      Spanning 1 4 0 6 :=
  (acceptance_tests .narrow .around .narrow ⟨0, 1, 1000, 6, false, none⟩ (by decide) (by decide)).2.2 rfl (by decide)
    rfl (by decide) rfl (by decide)

/-- The socket takes the segment around the window, the cache does not; a FIN alone at a closed window is nothing for the
    table, and the socket takes it. --/
theorem around_differs :
    outsideOfWindow .narrow .around = false ∧
      Syncache.Cache.acceptable ⟨0, 1, 1000, 6, false, none⟩ .narrow = false ∧
      outsideOfWindow (Socket.opened 0 0 0 1000) (.plain 7 1 1 (tcpAckBit ||| tcpFinBit) []) = false ∧
      ¬RfcAcceptable 1 0 1 1 := by
  refine ⟨by decide, by decide, by decide, fun h => ?_⟩
  unfold RfcAcceptable at h
  rw [if_neg (by decide), if_pos rfl] at h
  exact h

end Netxduo
