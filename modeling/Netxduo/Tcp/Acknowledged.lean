import Netxduo.Tcp.Closing
import Netxduo.Tcp.Flight

/-! The account of the transmit queue: `txOutstandingBytes` is what lies between SND.UNA and the end of the data, over
    whole runs, and an acknowledgment takes just the packets it covers off the queue. -/

namespace Netxduo
open Serial Spans Runs

/-! ### What the acknowledgment check does to the flight -/

section
variable {ip : Ip} {s t : Socket}

theorem releaseCount_content {start ending ack : ULONG} {queue queue' : List TxPacket}
    (h : queue'.map TxPacket.content = queue.map TxPacket.content) :
    releaseCount start ending ack queue' = releaseCount start ending ack queue := by
  induction queue' generalizing queue with
  | nil =>
    cases queue with
    | nil => rfl
    | cons p rest => simp at h
  | cons p rest ih =>
    cases queue with
    | nil => simp at h
    | cons q rest' =>
      simp only [List.map_cons, List.cons.injEq] at h
      have hend : p.content.endSequence = q.content.endSequence := congrArg TxPacket.endSequence h.1
      have hend' : p.endSequence = q.endSequence := hend
      rw [releaseCount, releaseCount, hend', ih h.2]

/-- What the check covers, in terms of the state before it. --/
theorem ackCovers_flight (ip : Ip) (s : Socket) (start ending ack : ULONG) :
    SameFlight { s.snd with finAcked := (ackCovers ip s start ending ack).2.snd.finAcked } (ackCovers ip s start ending ack).2.snd ∧
      (ack = ending → (ackCovers ip s start ending ack).1 = s.snd.transmitSent.length) ∧
      (ack ≠ ending → (ackCovers ip s start ending ack).1 = releaseCount start ending ack s.snd.transmitSent ∧
        (ackCovers ip s start ending ack).2.snd.finAcked = s.snd.finAcked) ∧
      ((ackCovers ip s start ending ack).2.snd.finAcked = s.snd.finAcked ∨ State.finWait1.code ≤ s.state.code) := by
  unfold ackCovers
  by_cases heq : ack = ending
  · rw [if_pos heq]
    dsimp only
    split
    · exact ⟨⟨rfl, rfl, rfl, rfl, rfl, rfl⟩, fun _ => rfl, fun hne => absurd heq hne, .inr ‹_›⟩
    · exact ⟨.refl _, fun _ => rfl, fun hne => absurd heq hne, .inl rfl⟩
  · rw [if_neg heq]
    have hdup := (sending_checkDuplicate ip s start ack).resends.snd
    exact ⟨⟨hdup.txSequence, rfl, hdup.txWindowAdvertised, hdup.txOutstandingBytes, hdup.sndWinScaleValue,
      hdup.transmitSent⟩, fun h => absurd h heq, fun _ => ⟨releaseCount_content hdup.transmitSent, hdup.finAcked⟩,
      .inl hdup.finAcked⟩

/-- How many packets an acknowledgment takes off the queue. --/
def coveredCount (s : Socket) (ack : ULONG) : Nat :=
  if ack = endingTxSequence s then s.snd.transmitSent.length
  else releaseCount (dataUnacked s) (endingTxSequence s) ack s.snd.transmitSent

/-- From `s` to `t` an acknowledgment is refused, for it lies above the last number sent. --/
structure Refused (s t : Socket) (ack : ULONG) : Prop where
  above : INT (ack - endingTxSequence s) > 0
  snd : SameFlight s.snd t.snd

/-- From `s` to `t` an acknowledgment is taken in. --/
structure Taken (s t : Socket) (h : TcpHeader) : Prop where
  txSequence : t.snd.txSequence = s.snd.txSequence
  sndWinScaleValue : t.snd.sndWinScaleValue = s.snd.sndWinScaleValue
  window : t.snd.txWindowAdvertised = s.snd.txWindowAdvertised ∨
    t.snd.txWindowAdvertised = (h.word3 &&& lower16Mask) <<< s.snd.sndWinScaleValue
  finAcked : t.snd.finAcked = s.snd.finAcked ∨
    h.acknowledgmentNumber = endingTxSequence s ∧ State.finWait1.code ≤ s.state.code
  outstanding : t.snd.txOutstandingBytes = s.snd.txOutstandingBytes - ackedBytes s h.acknowledgmentNumber
  queue : t.snd.transmitSent.map TxPacket.content =
    (s.snd.transmitSent.drop (coveredCount s h.acknowledgmentNumber)).map TxPacket.content

theorem ackCheck_flight (ip : Ip) (s : Socket) {h : TcpHeader} (hack : h.has tcpAckBit = true) :
    Refused s (socketStateAckCheck ip s h).2 h.acknowledgmentNumber ∨ Taken s (socketStateAckCheck ip s h).2 h := by
  have htake : SameFlight s.snd _ := (sending_sackTakeAck ip s h.acknowledgmentNumber).resends.snd
  have hstate : _ = s.state := (sending_sackTakeAck ip s h.acknowledgmentNumber).resends.state
  unfold socketStateAckCheck
  rw [if_pos hack]
  dsimp only
  generalize sackTakeAck ip s h.acknowledgmentNumber = s₁ at htake hstate ⊢
  obtain ⟨hcovers, hall, hsome, hfin⟩ := ackCovers_flight ip s₁ (dataUnacked s) (endingTxSequence s) h.acknowledgmentNumber
  have hsent : (ackCovers ip s₁ (dataUnacked s) (endingTxSequence s) h.acknowledgmentNumber).2.snd.transmitSent.map
      TxPacket.content = s.snd.transmitSent.map TxPacket.content := hcovers.transmitSent.trans htake.transmitSent
  have hcount : (ackCovers ip s₁ (dataUnacked s) (endingTxSequence s) h.acknowledgmentNumber).1 =
      coveredCount s h.acknowledgmentNumber := by
    unfold coveredCount
    split
    · rename_i heq
      rw [hall heq]
      simpa using congrArg List.length htake.transmitSent
    · rename_i hne
      rw [(hsome hne).1]
      exact releaseCount_content htake.transmitSent
  generalize ackCovers ip s₁ (dataUnacked s) (endingTxSequence s) h.acknowledgmentNumber = res at *
  obtain ⟨count, s₂⟩ := res
  dsimp only at *
  subst hcount
  split
  · rename_i hrefuse
    obtain ⟨-, hne, habove⟩ := hrefuse
    refine .inl ⟨habove, ?_⟩
    have hack := ackOnly_packetSendAck ip s₂ (endingTxSequence s)
    rw [hack.snd]
    exact htake.trans ⟨hcovers.txSequence, (hsome hne).2, hcovers.txWindowAdvertised, hcovers.txOutstandingBytes,
      hcovers.sndWinScaleValue, hcovers.transmitSent⟩
  · right
    have hprobe := sameFlight_answerProbe ip s₂ h (endingTxSequence s) (coveredCount s h.acknowledgmentNumber)
    generalize answerProbe ip s₂ h (endingTxSequence s) (coveredCount s h.acknowledgmentNumber) = s₃ at hprobe ⊢
    have hcredit := sameFlight_creditAcked ip s₃ (dataUnacked s) h.acknowledgmentNumber (ackedBytes s h.acknowledgmentNumber)
    generalize creditAcked ip s₃ (dataUnacked s) h.acknowledgmentNumber (ackedBytes s h.acknowledgmentNumber) = s₄
      at hcredit ⊢
    obtain ⟨window, hwindow, hupdate⟩ := sameFlight_updateWindow s₄ h (dataUnacked s) (endingTxSequence s) s₁.rcv.searchEnd
    generalize updateWindow s₄ h (dataUnacked s) (endingTxSequence s) s₁.rcv.searchEnd = s₅ at hupdate ⊢
    have hanswer := sameFlight_probeAnswered s₅ h.acknowledgmentNumber
    generalize probeAnswered s₅ h.acknowledgmentNumber = s₆ at hanswer ⊢
    have hrelease := sameFlight_releaseAcked ip s₆ h.acknowledgmentNumber (ackedBytes s h.acknowledgmentNumber)
      (coveredCount s h.acknowledgmentNumber)
    refine ⟨?_, ?_, ?_, ?_, ?_, ?_⟩
    · rw [hrelease.txSequence, hanswer.txSequence, hupdate.txSequence, hcredit.txSequence, hprobe.txSequence,
        hcovers.txSequence, htake.txSequence]
    · rw [hrelease.sndWinScaleValue, hanswer.sndWinScaleValue, hupdate.sndWinScaleValue, hcredit.sndWinScaleValue,
        hprobe.sndWinScaleValue, hcovers.sndWinScaleValue, htake.sndWinScaleValue]
    · rw [hrelease.txWindowAdvertised, hanswer.txWindowAdvertised, hupdate.txWindowAdvertised]
      rw [hcredit.txWindowAdvertised, hprobe.txWindowAdvertised, hcovers.txWindowAdvertised, htake.txWindowAdvertised,
        hcredit.sndWinScaleValue, hprobe.sndWinScaleValue, hcovers.sndWinScaleValue, htake.sndWinScaleValue] at hwindow
      exact hwindow
    · rw [hrelease.finAcked, hanswer.finAcked, hupdate.finAcked, hcredit.finAcked, hprobe.finAcked]
      by_cases heq : h.acknowledgmentNumber = endingTxSequence s
      · rcases hfin with hfin | hfin
        · exact .inl (hfin.trans htake.finAcked)
        · exact .inr ⟨heq, hstate ▸ hfin⟩
      · exact .inl ((hsome heq).2.trans htake.finAcked)
    · rw [hrelease.txOutstandingBytes, hanswer.txOutstandingBytes, hupdate.txOutstandingBytes, hcredit.txOutstandingBytes,
        hprobe.txOutstandingBytes, hcovers.txOutstandingBytes, htake.txOutstandingBytes]
    · rw [hrelease.transmitSent, List.map_drop, hanswer.transmitSent, hupdate.transmitSent, hcredit.transmitSent,
        hprobe.transmitSent, hsent, List.map_drop]

end

/-! ### The account -/

/-- The number behind the last octet sent. The FIN has the number after it. --/
def dataEnd (s : Socket) : ULONG :=
  if State.finWait1.code ≤ s.state.code then s.snd.txSequence - 1 else s.snd.txSequence

/-- SND.UNA behind an acknowledgment: one in the range moves it, over the data at most. --/
def sndUna (s : Socket) (una ack : ULONG) : ULONG :=
  if INT (ack - una) > 0 ∧ INT (endingTxSequence s - ack) ≥ 0 then if INT (ack - dataEnd s) > 0 then dataEnd s else ack
  else una

/-- What is outstanding lies between SND.UNA and the end of the data, and the queue holds it unless it has been given
    up. The rest is what the account needs of the handshake and of the state. --/
structure Account (una : ULONG) (gave : Prop) (s : Socket) : Prop where
  outstanding : s.snd.txOutstandingBytes = dataEnd s - una
  bound : s.snd.txOutstandingBytes.toNat ≤ 2 ^ 30 - 2
  queue : InFlight una s.snd.transmitSent s.snd.txOutstandingBytes.toNat ∨
    s.snd.transmitSent = [] ∧ State.finWait1.code ≤ s.state.code ∧ gave
  unsent : s.state.code < State.finWait1.code → s.snd.finAcked = false
  finished : State.finWait1.code ≤ s.state.code → finPending s = false → s.snd.txOutstandingBytes = 0
  window : s.snd.txWindowAdvertised.toNat ≤ 2 ^ 30 - 2
  scale : s.snd.sndWinScaleValue ≤ 14

section
variable {ip : Ip} {s t : Socket} {una ack : ULONG} {gave gave' : Prop}

theorem Account.dataEnd_eq (h : Account una gave s) :
    dataEnd s = una + BitVec.ofInt 32 s.snd.txOutstandingBytes.toNat := by
  have hout := h.outstanding
  rw [BitVec.ofInt_natCast, BitVec.ofNat_toNat, BitVec.setWidth_eq, hout]
  grind

/-- The range reaches over the data by the FIN and the probe. --/
theorem Account.ending (h : Account una gave s) : ∃ e : Nat, e ≤ 2 ∧
    endingTxSequence s = una + BitVec.ofInt 32 (s.snd.txOutstandingBytes.toNat + e) := by
  have hend := h.dataEnd_eq
  have hone : (1 : ULONG) = BitVec.ofInt 32 (1 : Nat) := rfl
  obtain ⟨e, he, hseq⟩ : ∃ e : Nat, e ≤ 1 ∧ s.snd.txSequence = dataEnd s + BitVec.ofInt 32 e := by
    unfold dataEnd
    split
    · exact ⟨1, Nat.le_refl 1, by rw [← hone]; grind⟩
    · exact ⟨0, Nat.zero_le 1, (BitVec.add_zero _).symm⟩
  unfold endingTxSequence
  split
  · refine ⟨e + 1, by omega, ?_⟩
    rw [hseq, hend, hone, BitVec.add_assoc, BitVec.add_assoc, ← BitVec.ofInt_add, ← BitVec.ofInt_add]
    rfl
  · refine ⟨e, by omega, ?_⟩
    rw [hseq, hend, BitVec.add_assoc, ← BitVec.ofInt_add]

theorem Account.dataUnacked_eq (h : Account una gave s) :
    dataUnacked s = una ∨ s.snd.txOutstandingBytes = 0 ∧ dataEnd s = una ∧ dataUnacked s = una + 1 := by
  have hout := h.outstanding
  unfold dataUnacked
  dsimp only
  by_cases hfin : State.finWait1.code ≤ s.state.code
  · have hend : dataEnd s = s.snd.txSequence - 1 := if_pos hfin
    by_cases hpending : finPending s = true
    · rw [if_pos hpending, hout, hend]
      exact .inl (by grind)
    · have hzero := h.finished hfin (by simpa using hpending)
      rw [hzero] at hout
      have heq : dataEnd s = una := by grind
      refine .inr ⟨hzero, heq, ?_⟩
      rw [if_neg hpending, hzero, ← heq, hend]
      grind
  · have hend : dataEnd s = s.snd.txSequence := if_neg hfin
    have hpending : finPending s = false := by
      rw [finPending]
      cases hs : s.state <;> simp [hs, State.code] at hfin ⊢
    rw [if_neg (by rw [hpending]; decide), hout, hend]
    exact .inl (by grind)

/-- The octets an acknowledgment covers: it moves SND.UNA over just as many as it takes off what is outstanding. --/
theorem Account.advance (h : Account una gave s) (hstart : dataUnacked s = una) (ack : ULONG) :
    ∃ j : Nat, j ≤ s.snd.txOutstandingBytes.toNat ∧ ackedBytes s ack = BitVec.ofNat 32 j ∧
      sndUna s una ack = una + BitVec.ofInt 32 j ∧ (ack = endingTxSequence s → j = s.snd.txOutstandingBytes.toNat) ∧
      ((INT (ack - una) < 0 ∨ INT (endingTxSequence s - ack) < 0) ∧ j = 0 ∨
        ∃ n : Nat, n ≤ 2 ^ 30 ∧ ack = una + BitVec.ofInt 32 n ∧ 0 ≤ INT (endingTxSequence s - ack) ∧
          j = min n s.snd.txOutstandingBytes.toNat) := by
  have hbound := h.bound
  have hdata := h.dataEnd_eq
  obtain ⟨e, he, hending⟩ := h.ending
  obtain ⟨n, hn, hlow, hhigh⟩ : ∃ n : Int, ack = una + BitVec.ofInt 32 n ∧ -2 ^ 31 ≤ n ∧ n < 2 ^ 31 := by
    refine ⟨(ack - una).toInt, ?_, BitVec.le_toInt (ack - una), BitVec.toInt_lt⟩
    rw [BitVec.ofInt_toInt]
    grind
  generalize hout : s.snd.txOutstandingBytes.toNat = out at *
  have hack : INT (ack - una) = n := by rw [hn, int_offset_zero una hlow hhigh]
  have hnone : una = una + BitVec.ofInt 32 (0 : Nat) := (BitVec.add_zero una).symm
  have hself : ack = endingTxSequence s → n = out + e := by
    intro heq
    rw [← hack, heq, hending, int_offset_zero una (by omega) (by omega)]
  unfold ackedBytes sndUna
  rw [hstart]
  by_cases hneg : n < 0
  · rw [if_neg (by omega), if_neg (by omega)]
    exact ⟨0, Nat.zero_le _, rfl, hnone, fun heq => by have := hself heq; omega, .inl ⟨.inl (by omega), rfl⟩⟩
  have hrange : INT (endingTxSequence s - ack) = out + e - n := by
    rw [hending, hn, int_offset una (by omega) (by omega)]
  by_cases habove : out + e - n < 0
  · rw [if_neg (by omega), if_neg (by omega)]
    exact ⟨0, Nat.zero_le _, rfl, hnone, fun heq => by have := hself heq; omega, .inl ⟨.inr (by omega), rfl⟩⟩
  obtain ⟨n, rfl⟩ := Int.eq_ofNat_of_zero_le (Int.not_lt.mp hneg)
  refine ⟨min n out, Nat.min_le_right _ _, ?_, ?_, fun heq => by have := hself heq; omega,
    .inr ⟨n, by omega, hn, by omega, rfl⟩⟩
  · have hsub : ack - una = BitVec.ofNat 32 n := by
      rw [hn, BitVec.ofInt_natCast]
      grind
    have hval : (ack - una).toNat = n := by rw [hsub, BitVec.toNat_ofNat, Nat.mod_eq_of_lt (by omega)]
    by_cases hzero : n = 0
    · rw [if_neg (by omega), hzero, Nat.zero_min]
      rfl
    · rw [if_pos ⟨by omega, by omega⟩]
      split
      · rename_i hgt
        rw [gt_iff_lt, BitVec.lt_def, hval, hout] at hgt
        rw [Nat.min_eq_right (by omega), ← hout, BitVec.ofNat_toNat, BitVec.setWidth_eq]
      · rename_i hle
        rw [gt_iff_lt, BitVec.lt_def, hval, hout] at hle
        rw [Nat.min_eq_left (by omega), hsub]
  · have hover : INT (ack - dataEnd s) = n - out := by
      rw [hn, hdata, int_offset una (by omega) (by omega)]
    by_cases hzero : n = 0
    · rw [if_neg (by omega), hzero, Nat.zero_min]
      exact hnone
    · rw [if_pos ⟨by omega, by omega⟩]
      split
      · rw [hdata, Nat.min_eq_right (by omega)]
      · rw [hn, Nat.min_eq_left (by omega)]

/-- The packets an acknowledgment takes off the queue, and the ones it leaves. --/
theorem Account.covers (h : Account una gave s) (hstart : dataUnacked s = una)
    (hq : InFlight una s.snd.transmitSent s.snd.txOutstandingBytes.toNat) {j : Nat}
    (hending : ack = endingTxSequence s → j = s.snd.txOutstandingBytes.toNat)
    (hj : (INT (ack - una) < 0 ∨ INT (endingTxSequence s - ack) < 0) ∧ j = 0 ∨
      ∃ n : Nat, n ≤ 2 ^ 30 ∧ ack = una + BitVec.ofInt 32 n ∧ 0 ≤ INT (endingTxSequence s - ack) ∧
        j = min n s.snd.txOutstandingBytes.toNat) :
    InFlight (una + BitVec.ofInt 32 j) (s.snd.transmitSent.drop (coveredCount s ack))
        (s.snd.txOutstandingBytes.toNat - j) ∧
      ∀ p ∈ s.snd.transmitSent.take (coveredCount s ack), INT (p.endSequence - (una + BitVec.ofInt 32 j)) ≤ 0 := by
  have hbound := h.bound
  unfold coveredCount
  split
  · rename_i heq
    rw [hending heq, List.drop_length, List.take_length, Nat.sub_self]
    refine ⟨inFlight_nil _, fun p hp => ?_⟩
    obtain ⟨k, hf, hhead⟩ := hq
    obtain ⟨x, h₁, h₂, h₃⟩ := hf.ends p hp
    have hk : k < 2 ^ 30 := by
      cases hlist : s.snd.transmitSent with
      | nil =>
        rw [hlist] at hp
        cases hp
      | cons q rest =>
        have hlt := hhead q (by rw [hlist]; rfl)
        rw [hlist] at hf
        exact Nat.lt_of_lt_of_le hlt hf.2.2.1
    rw [h₃, int_offset una (by omega) (by omega)]
    omega
  · rw [hstart]
    rcases hj with ⟨hout, rfl⟩ | ⟨n, hn, rfl, hrange, rfl⟩
    · have hnone : releaseCount una (endingTxSequence s) ack s.snd.transmitSent = 0 := by
        cases s.snd.transmitSent with
        | nil => rfl
        | cons p rest =>
          rw [releaseCount, if_pos]
          rcases hout with hout | hout
          · exact .inl hout
          · exact .inr (.inl hout)
      have hself : una + BitVec.ofInt 32 (0 : Nat) = una := BitVec.add_zero una
      rw [hnone, List.drop_zero, List.take_zero, hself, Nat.sub_zero]
      exact ⟨hq, fun p hp => absurd hp List.not_mem_nil⟩
    · exact releaseCount_inFlight hq (by omega) hn hrange

theorem dataEnd_congr (hsequence : t.snd.txSequence = s.snd.txSequence)
    (hcode : State.finWait1.code ≤ t.state.code ↔ State.finWait1.code ≤ s.state.code) : dataEnd t = dataEnd s := by
  unfold dataEnd
  rw [hsequence]
  exact if_congr hcode rfl rfl

/-- What does not touch the flight keeps the account, as long as the FIN stays where it is. --/
theorem Account.moved (h : Account una gave s) (hsnd : SameFlight s.snd t.snd)
    (hcode : State.finWait1.code ≤ t.state.code ↔ State.finWait1.code ≤ s.state.code)
    (hpending : State.finWait1.code ≤ s.state.code → finPending t = false →
      finPending s = false ∨ s.snd.txOutstandingBytes = 0) : Account una gave t := by
  obtain ⟨h₁, h₂, h₃, h₄, h₅, h₆, h₇⟩ := h
  obtain ⟨e₁, e₂, e₃, e₄, e₅, e₆⟩ := hsnd
  have hend : dataEnd t = dataEnd s := dataEnd_congr e₁ hcode
  refine ⟨by rw [e₄, hend, h₁], by rw [e₄]; exact h₂, ?_, fun hc => ?_, fun hc hp => ?_, by rw [e₃]; exact h₆,
    by rw [e₅]; exact h₇⟩
  · rw [e₄, hcode]
    rcases h₃ with h₃ | ⟨hnil, hfin, hgave⟩
    · exact .inl (h₃.content e₆)
    · refine .inr ⟨?_, hfin, hgave⟩
      rw [hnil] at e₆
      simpa using e₆
  · rw [e₂]
    exact h₄ (Nat.not_le.mp fun hs => Nat.not_le.mpr hc (hcode.mpr hs))
  · rw [e₄]
    rcases hpending (hcode.mp hc) hp with hp | hzero
    · exact h₅ (hcode.mp hc) hp
    · exact hzero

theorem Account.same (h : Account una gave s) (hsnd : SameFlight s.snd t.snd) (hstate : t.state = s.state) :
    Account una gave t := by
  refine h.moved hsnd (by rw [hstate]) fun _ hp => .inl ?_
  rw [finPending, hsnd.finAcked, hstate] at hp
  exact hp

/-- What is left on the queue ends behind SND.UNA. --/
theorem Account.above (h : Account una gave s) : ∀ p ∈ s.snd.transmitSent, INT (p.endSequence - una) > 0 := by
  have hbound := h.bound
  rcases h.queue with hq | ⟨hnil, -, -⟩
  · exact hq.above (by omega)
  · rw [hnil]
    exact nofun

theorem toNat_scaled (w : ULONG) {k : Nat} (hk : k ≤ 14) : ((w &&& lower16Mask) <<< k).toNat ≤ 2 ^ 30 - 2 := by
  have hmask : (w &&& lower16Mask).toNat < 2 ^ 16 := by
    rw [BitVec.toNat_and]
    exact Nat.lt_of_le_of_lt Nat.and_le_right (by decide)
  have hpow : 2 ^ k ≤ 2 ^ 14 := Nat.pow_le_pow_right (by decide) hk
  have hmul : (w &&& lower16Mask).toNat * 2 ^ k ≤ (2 ^ 16 - 1) * 2 ^ 14 := Nat.mul_le_mul (by omega) hpow
  rw [BitVec.toNat_shiftLeft, Nat.shiftLeft_eq]
  exact Nat.le_trans (Nat.mod_le _ _) (Nat.le_trans hmul (by decide))

/-! ### The acknowledgment -/

/-- From `s` to `t` the account goes on with `una`, and the packets taken off are just the ones it covers. --/
structure Settles (una : ULONG) (gave : Prop) (s t : Socket) : Prop where
  account : Account una gave t
  sent : dataEnd t = dataEnd s
  released : ∃ released left, s.snd.transmitSent.map TxPacket.content = released ++ left ∧
    t.snd.transmitSent.map TxPacket.content = left ∧ Releases una released left

theorem releases_content {una : ULONG} {released left : List TxPacket} (h : Releases una released left) :
    Releases una (released.map TxPacket.content) (left.map TxPacket.content) := by
  obtain ⟨h₁, h₂⟩ := h
  refine ⟨fun p hp => ?_, fun p hp => ?_⟩
  · obtain ⟨q, hq, rfl⟩ := List.mem_map.mp hp
    exact h₁ q hq
  · obtain ⟨q, hq, rfl⟩ := List.mem_map.mp hp
    exact h₂ q hq

/-- Nothing is taken off. --/
theorem Account.settles (h : Account una gave s) (hsnd : SameFlight s.snd t.snd) (hstate : t.state = s.state) :
    Settles una gave s t := by
  refine ⟨h.same hsnd hstate, dataEnd_congr hsnd.txSequence (by rw [hstate]), [], s.snd.transmitSent.map TxPacket.content, rfl, hsnd.transmitSent, nofun, ?_⟩
  exact (@releases_content una [] s.snd.transmitSent ⟨nofun, h.above⟩).2

/-- An acknowledgment that is refused moves nothing. --/
theorem sndUna_refused (una : ULONG) (habove : INT (ack - endingTxSequence s) > 0) : sndUna s una ack = una :=
  if_neg fun hc => by
    have := int_sub_neg habove
    omega

/-- The state behind an acknowledgment that is taken in, from what is subtracted and what is left. --/
theorem Account.taken (h : Account una gave s) {hd : TcpHeader} (ht : Taken s t hd) (hstate : t.state = s.state) {j : Nat}
    (hj : j ≤ s.snd.txOutstandingBytes.toNat) (hacked : ackedBytes s hd.acknowledgmentNumber = BitVec.ofNat 32 j)
    (hall : hd.acknowledgmentNumber = endingTxSequence s → j = s.snd.txOutstandingBytes.toNat)
    (hqueue : InFlight (una + BitVec.ofInt 32 j) t.snd.transmitSent (s.snd.txOutstandingBytes.toNat - j) ∨
      t.snd.transmitSent = [] ∧ State.finWait1.code ≤ s.state.code ∧ gave) :
    Account (una + BitVec.ofInt 32 j) gave t := by
  have hbound := h.bound
  have hout : t.snd.txOutstandingBytes.toNat = s.snd.txOutstandingBytes.toNat - j := by
    rw [ht.outstanding, hacked, BitVec.toNat_sub_of_le, BitVec.toNat_ofNat, Nat.mod_eq_of_lt (by omega)]
    rw [BitVec.le_def, BitVec.toNat_ofNat, Nat.mod_eq_of_lt (by omega)]
    exact hj
  have hend : dataEnd t = dataEnd s := by rw [dataEnd, dataEnd, hstate, ht.txSequence]
  refine ⟨?_, by omega, ?_, fun hcode => ?_, fun hcode hpending => ?_, ?_, ?_⟩
  · rw [ht.outstanding, hacked, hend, h.outstanding, BitVec.ofInt_natCast]
    grind
  · rw [hout, hstate]
    exact hqueue
  · rw [hstate] at hcode
    rcases ht.finAcked with hsame | ⟨-, hlate⟩
    · exact hsame.trans (h.unsent hcode)
    · omega
  · apply BitVec.eq_of_toNat_eq
    rw [hout]
    rcases ht.finAcked with hsame | ⟨heq, -⟩
    · rw [hstate] at hcode
      rw [finPending, hsame, hstate] at hpending
      have hzero := h.finished hcode hpending
      rw [hzero]
      exact Nat.zero_sub j
    · rw [hall heq]
      exact Nat.sub_self _
  · rcases ht.window with hsame | hnew
    · rw [hsame]
      exact h.window
    · rw [hnew]
      exact toNat_scaled hd.word3 h.scale
  · rw [ht.sndWinScaleValue]
    exact h.scale

/-- Once the FIN is acknowledged, there is nothing left to take off. --/
theorem Account.idle (h : Account una gave s) (hzero : s.snd.txOutstandingBytes = 0) (hend : dataEnd s = una) (ack : ULONG) :
    s.snd.transmitSent = [] ∧ ackedBytes s ack = BitVec.ofNat 32 0 ∧ sndUna s una ack = una := by
  refine ⟨?_, ?_, ?_⟩
  · rcases h.queue with hq | ⟨hnil, -, -⟩
    · rw [hzero] at hq
      exact hq.empty
    · exact hnil
  · unfold ackedBytes
    rw [hzero]
    split
    · rename_i hc
      split
      · rfl
      · rename_i hle
        exact BitVec.eq_of_toNat_eq (Nat.le_zero.mp (by simpa [BitVec.lt_def] using hle))
    · rfl
  · unfold sndUna
    split
    · rename_i hc
      rw [hend, if_pos hc.1]
    · rfl

/-- `_nx_tcp_socket_state_ack_check` moves SND.UNA, and settles the queue with it. --/
theorem Account.ackCheck (h : Account una gave s) (ip : Ip) {hd : TcpHeader} (hack : hd.has tcpAckBit = true) :
    Settles (sndUna s una hd.acknowledgmentNumber) gave s (socketStateAckCheck ip s hd).2 := by
  have hstate := (sending_socketStateAckCheck ip s hd).aside.state
  have hbound := h.bound
  have hflight := ackCheck_flight ip s hack
  generalize (socketStateAckCheck ip s hd).2 = t at hstate hflight ⊢
  rcases hflight with hrefused | ht
  · rw [sndUna_refused una hrefused.above]
    exact h.settles hrefused.snd hstate
  have hnothing : s.snd.transmitSent = [] → t.snd.transmitSent = [] := by
    intro hnil
    have hqueue := ht.queue
    rw [hnil, List.drop_nil] at hqueue
    simpa using hqueue
  have hsent : dataEnd t = dataEnd s := dataEnd_congr ht.txSequence (by rw [hstate])
  have hquiet : ∀ {una' : ULONG}, s.snd.transmitSent = [] → Account una' gave t → Settles una' gave s t := fun hnil hacc =>
    ⟨hacc, hsent, [], [], by rw [hnil]; rfl, by rw [hnothing hnil]; rfl, nofun, nofun⟩
  rcases h.dataUnacked_eq with hstart | ⟨hzero, hend, -⟩
  · obtain ⟨j, hj, hacked, huna, hall, hcase⟩ := h.advance hstart hd.acknowledgmentNumber
    rw [huna]
    rcases h.queue with hq | ⟨hnil, hcode, hgave⟩
    · obtain ⟨hleft, hcovered⟩ := h.covers hstart hq hall hcase
      refine ⟨h.taken ht hstate hj hacked hall (.inl (hleft.content ht.queue)), hsent, _, _, ?_, ht.queue,
        releases_content ⟨hcovered, hleft.above (by omega)⟩⟩
      rw [← List.map_append, List.take_append_drop]
    · exact hquiet hnil (h.taken ht hstate hj hacked hall (.inr ⟨hnothing hnil, hcode, hgave⟩))
  · obtain ⟨hnil, hacked, huna⟩ := h.idle hzero hend hd.acknowledgmentNumber
    have hself : una + BitVec.ofInt 32 (0 : Nat) = una := BitVec.add_zero una
    have hacc := h.taken (j := 0) ht hstate (Nat.zero_le _) hacked (fun _ => by rw [hzero]; rfl)
      (.inl (by
        rw [hnothing hnil, hzero]
        exact inFlight_nil _))
    rw [huna]
    rw [hself] at hacc
    exact hquiet hnil hacc

/-! ### The states -/

theorem Settles.moved {u : Socket} (h : Settles una gave s t) (hsnd : SameFlight t.snd u.snd)
    (hcode : State.finWait1.code ≤ u.state.code ↔ State.finWait1.code ≤ t.state.code)
    (hpending : State.finWait1.code ≤ t.state.code → finPending u = false →
      finPending t = false ∨ t.snd.txOutstandingBytes = 0) : Settles una gave s u := by
  obtain ⟨released, left, hlist, hleft, hreleases⟩ := h.released
  exact ⟨h.account.moved hsnd hcode hpending, (dataEnd_congr hsnd.txSequence hcode).trans h.sent, released, left, hlist,
    hsnd.transmitSent.trans hleft, hreleases⟩

theorem Settles.same {u : Socket} (h : Settles una gave s t) (hsnd : SameFlight t.snd u.snd) (hstate : u.state = t.state) :
    Settles una gave s u := by
  obtain ⟨released, left, hlist, hleft, hreleases⟩ := h.released
  exact ⟨h.account.same hsnd hstate, (dataEnd_congr hsnd.txSequence (by rw [hstate])).trans h.sent, released, left, hlist,
    hsnd.transmitSent.trans hleft, hreleases⟩

/-- The number of the FIN acknowledges all the data. --/
theorem Account.finUna (h : Account una gave s) (hcode : State.finWait1.code ≤ s.state.code) :
    sndUna s una s.snd.txSequence = dataEnd s := by
  have hbound := h.bound
  have hend := h.dataEnd_eq
  have hseq : s.snd.txSequence = una + BitVec.ofInt 32 (s.snd.txOutstandingBytes.toNat + 1) := by
    have hdata : dataEnd s = s.snd.txSequence - 1 := if_pos hcode
    have hone : (1 : ULONG) = BitVec.ofInt 32 1 := rfl
    rw [BitVec.ofInt_add, ← BitVec.add_assoc, ← hend, hdata, ← hone]
    grind
  have hover : INT (s.snd.txSequence - dataEnd s) = 1 := by
    rw [hend, hseq, int_offset una (by omega) (by omega)]
    omega
  have habove : INT (s.snd.txSequence - una) = s.snd.txOutstandingBytes.toNat + 1 := by
    rw [hseq, int_offset_zero una (by omega) (by omega)]
  have hrange : 0 ≤ INT (endingTxSequence s - s.snd.txSequence) := by
    unfold endingTxSequence
    split
    · have hnext : s.snd.txSequence + 1 - s.snd.txSequence = 1 := by grind
      rw [hnext]
      decide
    · rw [BitVec.sub_self]
      decide
  rw [sndUna, if_pos ⟨by omega, hrange⟩, if_pos (by omega)]

theorem Account.spent (h : Account una gave s) (hend : una = dataEnd s) : s.snd.txOutstandingBytes = 0 := by
  rw [h.outstanding, hend]
  exact BitVec.sub_self _

theorem Settles.established (h : Settles una gave s t) (hstate : t.state = .established) (ip : Ip) :
    Settles una gave s (socketStateEstablished ip t) := by
  unfold socketStateEstablished
  split
  · have hack := ackOnly_packetSendAck ip { t with
      state := .closeWait
      rcv := { t.rcv with rxSequence := t.rcv.rxSequence + 1, receiveSuspensionList := [] } } t.snd.txSequence
    refine h.moved (by rw [hack.snd]; exact .refl _) ?_ fun hc => ?_
    · rw [hack.state, hstate]
      simp [State.code]
    · rw [hstate] at hc
      exact absurd hc (by decide)
  · exact h

theorem Settles.finWait1 (h : Settles una gave s t) (hstate : t.state = .finWait1) (ip : Ip) :
    Settles una gave s (socketStateFinWait1 ip t) := by
  have hpending : finPending t = !t.snd.finAcked := by
    rw [finPending, hstate]
    cases t.snd.finAcked <;> rfl
  unfold socketStateFinWait1
  split
  · rename_i hfin
    refine h.moved ⟨rfl, rfl, rfl, rfl, rfl, rfl⟩ ?_ fun _ _ => .inl ?_
    · rw [hstate]
      simp [State.code]
    · rw [hpending, hfin.1]
      rfl
  split
  · rename_i hfin
    have hack := ackOnly_packetSendAck ip { t with
      state := .timedWait
      snd.timeout := ip.tcp2MslTimerRate
      rcv.rxSequence := t.rcv.rxSequence + 1 } t.snd.txSequence
    refine h.moved (by rw [hack.snd]; exact ⟨rfl, rfl, rfl, rfl, rfl, rfl⟩) ?_ fun _ _ => .inl ?_
    · rw [hack.state, hstate]
      simp [State.code]
    · rw [hpending, hfin.1]
      rfl
  split
  · have hack := ackOnly_packetSendAck ip { t with state := .closing, rcv.rxSequence := t.rcv.rxSequence + 1 }
      t.snd.txSequence
    refine h.moved (by rw [hack.snd]; exact .refl _) ?_ fun _ hp => .inl ?_
    · rw [hack.state, hstate]
      simp [State.code]
    · rw [finPending, hack.snd, hack.state] at hp
      rw [hpending]
      simpa using hp
  · exact h

theorem Settles.finWait2 (h : Settles una gave s t) (hstate : t.state = .finWait2) (ip : Ip) :
    Settles una gave s (socketStateFinWait2 ip t) := by
  unfold socketStateFinWait2
  split
  · have hack := ackOnly_packetSendAck ip { t with
      state := .timedWait
      snd.timeout := ip.tcp2MslTimerRate
      rcv.rxSequence := t.rcv.rxSequence + 1 } t.snd.txSequence
    refine h.moved (by rw [hack.snd]; exact ⟨rfl, rfl, rfl, rfl, rfl, rfl⟩) ?_ fun _ _ => .inl ?_
    · rw [hack.state, hstate]
      simp [State.code]
    · rw [finPending, hstate]
      cases t.snd.finAcked <;> rfl
  · exact h

theorem Settles.dispatch (h : Settles una gave s t) {ip : Ip} (reads : Nat) (p : Packet)
    (hdata : t.state.connected → t.state.finTaken = false →
      (socketStateDataCheck ip reads t p).state = t.state ∧ (socketStateDataCheck ip reads t p).snd = t.snd)
    (hspent : State.finWait1.code ≤ t.state.code → acksFin t p.header = true → t.snd.txOutstandingBytes = 0)
    (hopen : (socketStateDispatch ip reads t p).state.connected) :
    Settles una gave s (socketStateDispatch ip reads t p) := by
  have hchecked : t.state.connected → t.state.finTaken = false →
      Settles una gave s (socketStateDataCheck ip reads t p) ∧ (socketStateDataCheck ip reads t p).state = t.state := by
    intro hc hf
    obtain ⟨hstate, hsnd⟩ := hdata hc hf
    exact ⟨h.same (by rw [hsnd]; exact .refl _) hstate, hstate⟩
  unfold socketStateDispatch at hopen ⊢
  cases hstate : t.state with
  | established =>
    obtain ⟨hset, hsame⟩ := hchecked (by rw [hstate]; decide) (by rw [hstate]; rfl)
    exact hset.established (hsame.trans hstate) ip
  | finWait1 =>
    obtain ⟨hset, hsame⟩ := hchecked (by rw [hstate]; decide) (by rw [hstate]; rfl)
    exact hset.finWait1 (hsame.trans hstate) ip
  | finWait2 =>
    obtain ⟨hset, hsame⟩ := hchecked (by rw [hstate]; decide) (by rw [hstate]; rfl)
    exact hset.finWait2 (hsame.trans hstate) ip
  | closing =>
    dsimp only
    unfold socketStateClosing
    split
    · rename_i hfin
      refine h.moved ⟨rfl, rfl, rfl, rfl, rfl, rfl⟩ ?_ fun hc _ => .inr (hspent hc hfin)
      rw [hstate]
      simp [State.code]
    · exact h
  | lastAck =>
    rw [hstate] at hopen
    dsimp only at hopen ⊢
    unfold socketStateLastAck at hopen ⊢
    split
    · rename_i hfin
      rw [if_pos hfin] at hopen
      exact absurd hopen (not_connected_cleanup t)
    · exact h
  | timedWait =>
    dsimp only
    split
    · have hack := ackOnly_packetSendAck ip { t with state := .timedWait, snd.timeout := ip.tcp2MslTimerRate }
        t.snd.txSequence
      exact h.same (by rw [hack.snd]; exact ⟨rfl, rfl, rfl, rfl, rfl, rfl⟩) (hack.state.trans hstate.symm)
    · exact h
  | closeWait | closed | listen | synSent | synReceived => exact h

/-! ### A segment -/

/-- The acknowledgment of a segment is looked at. --/
def ackSeen (ip : Ip) (s : Socket) (p : Packet) : Bool :=
  let young :=
    match packetTimestamp ip s p with
    | some value => decide (INT (value - s.rcv.tsRecent) ≥ 0)
    | none => true
  young && !outsideOfWindow (reopenWindow ip s) p && !p.header.has tcpRstBit && !p.header.has tcpSynBit &&
    p.header.has tcpAckBit

theorem sndUna_congr (hsnd : t.snd = s.snd) (hstate : t.state = s.state) (una ack : ULONG) :
    sndUna t una ack = sndUna s una ack := by
  have hend : dataEnd t = dataEnd s := by rw [dataEnd, dataEnd, hsnd, hstate]
  rw [sndUna, sndUna, hend, endingTxSequence_congr hsnd]

/-- From the acknowledgment on. --/
theorem Account.accepted {irs : ULONG} {fin : Bool} (h : Account una gave s) (reads : Nat) {p : Packet}
    (hr : Receives ip irs s fin) (hp : p.WellFormed) (henter : p.octets ≠ [] → p.Enters s.rcv)
    (hrst : p.header.has tcpRstBit = false) (hopen : (processAccepted ip reads s p).state.connected) :
    Settles (if p.header.has tcpAckBit then sndUna s una p.header.acknowledgmentNumber else una) gave s
      (processAccepted ip reads s p) := by
  obtain ⟨t, ht, hmoved, hget, -⟩ := sackOptions_read ip s p
  have hat : Account una gave t := h.same (by rw [hmoved.snd]; exact .refl _) hmoved.state
  have hcheck : Aside s (socketStateAckCheck ip t p.header).2 :=
    hget.trans (sending_socketStateAckCheck ip t p.header).aside
  unfold processAccepted at hopen ⊢
  dsimp only at hopen ⊢
  rw [ht] at hopen ⊢
  by_cases hack : p.header.has tcpAckBit = true
  · rw [if_pos hack]
    have hset : Settles (sndUna s una p.header.acknowledgmentNumber) gave s (socketStateAckCheck ip t p.header).2 := by
      have hset := hat.ackCheck ip hack
      rw [sndUna_congr hmoved.snd hmoved.state] at hset
      obtain ⟨hacc, hsent, hreleased⟩ := hset
      rw [hmoved.snd] at hreleased
      exact ⟨hacc, hsent.trans (dataEnd_congr (by rw [hmoved.snd]) (by rw [hmoved.state])), hreleased⟩
    have hfin : State.finWait1.code ≤ s.state.code → acksFin (socketStateAckCheck ip t p.header).2 p.header = true →
        (socketStateAckCheck ip t p.header).2.snd.txOutstandingBytes = 0 := by
      intro hcode hfin
      rw [acksFin, Bool.and_eq_true, Bool.and_eq_true, beq_iff_eq] at hfin
      have hsame : (socketStateAckCheck ip t p.header).2.snd.txSequence = s.snd.txSequence := by
        rw [← hmoved.snd]
        rcases ackCheck_flight ip t hack with hr | ht
        · exact hr.snd.txSequence
        · exact ht.txSequence
      refine hset.account.spent ?_
      rw [hfin.1.2, hsame, h.finUna hcode, dataEnd, dataEnd, hcheck.state, hsame]
    generalize socketStateAckCheck ip t p.header = res at hset hcheck hfin hopen ⊢
    obtain ⟨accepted, u⟩ := res
    dsimp only at hset hcheck hfin hopen ⊢
    by_cases hno : accepted = false
    · rw [if_pos hno]
      exact hset
    rw [if_neg hno] at hopen ⊢
    by_cases hbad : p.header.headerLength > 20 ∧ mssOptionLegal p.options = false
    · rw [if_pos hbad, rejectOptions, if_neg (by rw [hrst]; decide)] at hopen
      exact absurd hopen (not_connected_reset _)
    rw [if_neg hbad] at hopen ⊢
    refine hset.dispatch reads p (fun hc hf => ?_) (fun hc => hfin (hcheck.state ▸ hc)) hopen
    have hrx : s.rcv.rxSequence = s.receivedEnd irs := by
      rw [hcheck.state] at hc hf
      have hnot := hr.state hc
      rw [hf] at hnot
      have hend := hr.receivedEnd
      rw [← hnot] at hend
      simpa using hend
    refine @dataCheck_keeps _ _ reads _ s.rcv.readyPackets s.rcv.pendingPackets ?_ hp
      fun hne => (henter hne).sameQueue hcheck.rcv
    rw [hcheck.rcv.rxSequence, hrx]
    exact hr.receiving.sameQueue hcheck.rcv
  · have hnone : socketStateAckCheck ip t p.header = (false, t) := by
      unfold socketStateAckCheck
      rw [if_neg hack]
    rw [if_neg hack, hnone]
    dsimp only
    rw [if_pos rfl]
    exact h.settles (by rw [hmoved.snd]; exact .refl _) hmoved.state

end

end Netxduo
