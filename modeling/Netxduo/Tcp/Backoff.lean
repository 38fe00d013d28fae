import Netxduo.Tcp.Opened
import Netxduo.Tcp.Steps

/-! The back-off of the timer: what an expiration of the data, window probe and FIN ladders leaves in `timeout`, over
    any number of expirations. -/

namespace Netxduo

open Runs

/-! ### The rungs -/

/-- The timeout of the ladder at the present count of retries. --/
def rung (x : Transmit) : ULONG := x.timeoutRate <<< (x.timeoutRetries * x.timeoutShift).toNat

/-- The next rung loses no bit of the rate. --/
def NextFits (x : Transmit) : Prop :=
  x.timeoutRate ≠ 0 ∧ x.timeoutRate.toNat * 2 ^ ((x.timeoutRetries.toNat + 1) * x.timeoutShift.toNat) < 2 ^ 32

/-- The timer runs out at the next tick, and the connection may try again. --/
def expires (ip : Ip) (s : Socket) : Prop :=
  s.snd.timeout ≠ 0 ∧ s.snd.timeout ≤ ip.tcpFastTimerRate ∧ retriesExhausted s = false ∧
    ¬(s.snd.userTimeout ≠ 0 ∧ s.snd.stallTicks + ip.tcpFastTimerRate ≥ s.snd.userTimeout)

/-- The FIN is out and not acknowledged. --/
def State.finWaits (x : State) : Prop := x = .finWait1 ∨ x = .closing ∨ x = .lastAck

/-- The expiration sends something again. --/
def Climbs (ip : Ip) (s : Socket) : Prop :=
  expires ip s ∧ (s.snd.transmitSent ≠ [] ∨ s.snd.zeroWindowProbeHasData = true ∨ s.state.finWaits)

/-- From `x` to `x'` the ladder stays where it is and the timer runs, or it is wound one rung up. --/
structure Winds (x x' : Transmit) : Prop where
  running : x'.timeout ≠ 0
  rate : x'.timeoutRate = x.timeoutRate
  shift : x'.timeoutShift = x.timeoutShift
  wound : x'.timeoutRetries = x.timeoutRetries ∨
    x'.timeoutRetries = x.timeoutRetries + 1 ∧ x'.timeout = rung x' ∧ rung x ≤ x'.timeout

section
variable {x : Transmit}

theorem shifted_toNat {rate count shift : ULONG} {n : Nat} (hn : count.toNat ≤ n) (hrate : rate ≠ 0)
    (h : rate.toNat * 2 ^ (n * shift.toNat) < 2 ^ 32) :
    (rate <<< (count * shift).toNat).toNat = rate.toNat * 2 ^ (count.toNat * shift.toNat) := by
  have hpos : 0 < rate.toNat := by
    rcases Nat.eq_zero_or_pos rate.toNat with hz | hpos
    · exact absurd (BitVec.eq_of_toNat_eq hz) hrate
    · exact hpos
  have hle : count.toNat * shift.toNat ≤ n * shift.toNat := Nat.mul_le_mul_right _ hn
  have hexp : n * shift.toNat < 32 := by
    by_contra hlarge
    have hpow : 2 ^ 32 ≤ 2 ^ (n * shift.toNat) := Nat.pow_le_pow_right (by omega) (Nat.not_lt.mp hlarge)
    have hmul : 2 ^ (n * shift.toNat) ≤ rate.toNat * 2 ^ (n * shift.toNat) := Nat.le_mul_of_pos_left _ hpos
    omega
  have hproduct : (count * shift).toNat = count.toNat * shift.toNat := by
    rw [BitVec.toNat_mul, Nat.mod_eq_of_lt]
    omega
  have hpow : 2 ^ (count.toNat * shift.toNat) ≤ 2 ^ (n * shift.toNat) := Nat.pow_le_pow_right (by omega) hle
  have hlt : rate.toNat * 2 ^ (count.toNat * shift.toNat) < 2 ^ 32 :=
    Nat.lt_of_le_of_lt (Nat.mul_le_mul_left _ hpow) h
  rw [BitVec.toNat_shiftLeft, hproduct, Nat.shiftLeft_eq, Nat.mod_eq_of_lt hlt]

/-- A rung that fits is no lower than the last one, and not zero. --/
theorem NextFits.climb (h : NextFits x) :
    x.timeoutRate <<< ((x.timeoutRetries + 1) * x.timeoutShift).toNat ≠ 0 ∧
      rung x ≤ x.timeoutRate <<< ((x.timeoutRetries + 1) * x.timeoutShift).toNat := by
  obtain ⟨hrate, hfits⟩ := h
  have hpos : 0 < x.timeoutRate.toNat := by
    rcases Nat.eq_zero_or_pos x.timeoutRate.toNat with hz | hpos
    · exact absurd (BitVec.eq_of_toNat_eq hz) hrate
    · exact hpos
  have hle : (x.timeoutRetries + 1).toNat ≤ x.timeoutRetries.toNat + 1 := by
    rw [BitVec.toNat_add]
    exact Nat.mod_le _ _
  have hnext := shifted_toNat hle hrate hfits
  have hlast := shifted_toNat (Nat.le_succ x.timeoutRetries.toNat) hrate hfits
  have hmono : x.timeoutRetries.toNat * x.timeoutShift.toNat ≤ (x.timeoutRetries + 1).toNat * x.timeoutShift.toNat := by
    rcases Nat.eq_zero_or_pos x.timeoutShift.toNat with hz | hshift
    · rw [hz, Nat.mul_zero]
      exact Nat.zero_le _
    · refine Nat.mul_le_mul_right _ ?_
      have hexp : (x.timeoutRetries.toNat + 1) * x.timeoutShift.toNat < 32 := by
        by_contra hlarge
        have hpow : 2 ^ 32 ≤ 2 ^ ((x.timeoutRetries.toNat + 1) * x.timeoutShift.toNat) :=
          Nat.pow_le_pow_right (by omega) (Nat.not_lt.mp hlarge)
        have hmul := Nat.le_mul_of_pos_left (2 ^ ((x.timeoutRetries.toNat + 1) * x.timeoutShift.toNat)) hpos
        omega
      have hsmall : x.timeoutRetries.toNat + 1 ≤ (x.timeoutRetries.toNat + 1) * x.timeoutShift.toNat :=
        Nat.le_mul_of_pos_right _ hshift
      rw [BitVec.toNat_add]
      change _ ≤ (x.timeoutRetries.toNat + 1) % 2 ^ 32
      omega
  refine ⟨fun hz => ?_, ?_⟩
  · rw [hz] at hnext
    have hpow : 0 < 2 ^ ((x.timeoutRetries + 1).toNat * x.timeoutShift.toNat) := Nat.two_pow_pos _
    have hprod := Nat.mul_pos hpos hpow
    rw [← hnext] at hprod
    exact absurd hprod (Nat.lt_irrefl 0)
  · rw [BitVec.le_def, rung, hlast, hnext]
    exact Nat.mul_le_mul_left _ (Nat.pow_le_pow_right (by omega) hmono)

theorem Winds.of_eq {x' : Transmit} (hrun : x.timeout ≠ 0) (htimeout : x'.timeout = x.timeout)
    (hrate : x'.timeoutRate = x.timeoutRate) (hshift : x'.timeoutShift = x.timeoutShift)
    (hretries : x'.timeoutRetries = x.timeoutRetries) : Winds x x' :=
  ⟨htimeout ▸ hrun, hrate, hshift, .inl hretries⟩

theorem NextFits.winds {x' : Transmit} (h : NextFits x) (hrate : x'.timeoutRate = x.timeoutRate)
    (hshift : x'.timeoutShift = x.timeoutShift) (hretries : x'.timeoutRetries = x.timeoutRetries + 1)
    (htimeout : x'.timeout = x.timeoutRate <<< ((x.timeoutRetries + 1) * x.timeoutShift).toNat) : Winds x x' := by
  obtain ⟨hne, hle⟩ := h.climb
  refine ⟨htimeout ▸ hne, hrate, hshift, .inr ⟨hretries, ?_, htimeout ▸ hle⟩⟩
  rw [rung, hrate, hshift, hretries, htimeout]

theorem Winds.refl (hrun : x.timeout ≠ 0) : Winds x x := .of_eq hrun rfl rfl rfl rfl

end

/-! ### What leaves the timer alone -/

/-- The timer and what it is wound by are the same. --/
structure SameTimer (x x' : Transmit) : Prop where
  timeout : x'.timeout = x.timeout
  rate : x'.timeoutRate = x.timeoutRate
  shift : x'.timeoutShift = x.timeoutShift
  retries : x'.timeoutRetries = x.timeoutRetries

section
variable {x y z : Transmit} (ip : Ip) (s : Socket)

theorem SameTimer.refl (x : Transmit) : SameTimer x x := ⟨rfl, rfl, rfl, rfl⟩

theorem SameTimer.trans (h : SameTimer x y) (h' : SameTimer y z) : SameTimer x z :=
  ⟨h'.timeout.trans h.timeout, h'.rate.trans h.rate, h'.shift.trans h.shift, h'.retries.trans h.retries⟩

theorem SameTimer.of_eq (h : y = x) : SameTimer x y := h ▸ .refl x

theorem SameTimer.ite {t u : Socket} {c : Prop} [Decidable c] (h : SameTimer x t.snd) (h' : SameTimer x u.snd) :
    SameTimer x (if c then t else u).snd := by
  split
  · exact h
  · exact h'

theorem Winds.trans_same (h : Winds x y) (h' : SameTimer y z) : Winds x z := by
  refine ⟨h'.timeout ▸ h.running, h'.rate.trans h.rate, h'.shift.trans h.shift, ?_⟩
  rcases h.wound with hsame | ⟨hretries, hrung, hle⟩
  · exact .inl (h'.retries.trans hsame)
  · refine .inr ⟨h'.retries.trans hretries, ?_, h'.timeout ▸ hle⟩
    rw [rung, h'.timeout, h'.rate, h'.shift, h'.retries]
    exact hrung

theorem SameTimer.trans_winds (h : SameTimer x y) (h' : Winds y z) : Winds x z := by
  refine ⟨h'.running, h'.rate.trans h.rate, h'.shift.trans h.shift, ?_⟩
  have hrung : rung y = rung x := by rw [rung, rung, h.rate, h.shift, h.retries]
  rw [← h.retries, ← hrung]
  exact h'.wound

theorem sameTimer_retransmitPacket (p : TxPacket) : SameTimer s.snd (retransmitPacket ip s p).snd := ⟨rfl, rfl, rfl, rfl⟩

theorem sameTimer_retransmitSegment (sequence : ULONG) (octets : List UInt8) :
    SameTimer s.snd ((retransmitSegment ip s sequence octets).driverTakes ip).2.snd := ⟨rfl, rfl, rfl, rfl⟩

theorem sameTimer_retransmitWalk (needFast : Bool) (blocks : List SackBlock) (sackHigh : ULONG) (q : List TxPacket)
    (available : ULONG) : SameTimer s.snd (retransmitWalk ip needFast blocks sackHigh q available s).snd := by
  induction q generalizing s available with
  | nil => exact .refl _
  | cons p rest ih =>
    unfold retransmitWalk
    refine .ite (.refl _) (.ite (ih _ _) (.ite (.refl _) (.ite (ih _ _) (.ite ?_ (.ite (.refl _) ?_)))))
    · -- a part of the packet goes out as a copy
      generalize (if INT (p.sequence - dataUnacked s) > 0 then p.sequence else dataUnacked s) = first
      generalize (if s.snd.fastRecovery = false ∧ INT (s.snd.txRtoNext - first) > 0 then s.snd.txRtoNext
        else first) = sendBegin
      refine .ite (.refl _) ?_
      dsimp only
      generalize (if (if available < payloadMss ip s then available else payloadMss ip s) > p.endSequence - sendBegin
        then p.endSequence - sendBegin else if available < payloadMss ip s then available else payloadMss ip s) = bytes
      have hcopy : SameTimer s.snd (dataSlice ip s p sendBegin bytes).2.snd := .refl _
      generalize dataSlice ip s p sendBegin bytes = res at hcopy
      obtain ⟨copy, s₁⟩ := res
      dsimp only at hcopy ⊢
      refine .ite hcopy ?_
      have hmark : SameTimer s.snd { s₁ with
          snd.txRtoNext := if s₁.snd.fastRecovery then s₁.snd.txRtoNext else sendBegin + bytes
          sack.txHighRxt := sendBegin + bytes }.snd := hcopy.trans ⟨rfl, rfl, rfl, rfl⟩
      cases copy with
      | none =>
        have hsend := hmark.trans (sameTimer_retransmitPacket ip _ p)
        exact .ite hsend (hsend.trans (ih _ _))
      | some octets =>
        have hsend := hmark.trans (sameTimer_retransmitSegment ip _ sendBegin octets)
        exact .ite hsend (hsend.trans (ih _ _))
    · -- the packet goes out as it is
      have hmark : SameTimer s.snd (if s.snd.fastRecovery = false ∧ INT (s.snd.txRtoEnd - s.snd.txRtoNext) > 0 then
          { s with snd.txRtoNext := p.endSequence } else s).snd := .ite ⟨rfl, rfl, rfl, rfl⟩ (.refl _)
      have hhigh : ∀ t : Socket, SameTimer t.snd (if INT (p.endSequence - t.sack.txHighRxt) > 0 then
          { t with sack.txHighRxt := p.endSequence } else t).snd := fun t => .ite (.refl _) (.refl _)
      have hsend := (hmark.trans (sameTimer_retransmitPacket ip _ p)).trans (hhigh _)
      exact .ite hsend (hsend.trans (ih _ _))

/-! ### The ladders -/

theorem probeSend_winds (h : NextFits s.snd) : Winds s.snd (probeSend ip s).snd := by
  have hsnd := (ackOnly_packetSendControl ip { s with snd := { s.snd with
    timeoutRetries := s.snd.timeoutRetries + 1
    zeroWindowProbeFailure := s.snd.zeroWindowProbeFailure + 1
    timeout := s.snd.timeoutRate <<< ((s.snd.timeoutRetries + 1) * s.snd.timeoutShift).toNat } }
    tcpAckBit s.snd.zeroWindowProbeSequence [] [s.snd.zeroWindowProbeData]).snd
  have hwinds : Winds s.snd { s.snd with
      timeoutRetries := s.snd.timeoutRetries + 1
      zeroWindowProbeFailure := s.snd.zeroWindowProbeFailure + 1
      timeout := s.snd.timeoutRate <<< ((s.snd.timeoutRetries + 1) * s.snd.timeoutShift).toNat } :=
    h.winds rfl rfl rfl rfl
  exact hwinds.trans_same (.of_eq hsnd)

/-- The window probe ladder. --/
theorem windowProbe_winds (hrun : s.snd.timeout ≠ 0)
    (h : s.snd.transmitSent ≠ [] ∨ s.snd.zeroWindowProbeHasData = true → NextFits s.snd) :
    Winds s.snd (windowProbe ip s).snd := by
  unfold windowProbe
  split
  · rename_i p rest hsent
    have hfits : NextFits s.snd := h (.inl (by rw [hsent]; exact List.cons_ne_nil p rest))
    split
    · split
      · rename_i data _
        have hload : SameTimer s.snd (probeLoad s data).snd := ⟨rfl, rfl, rfl, rfl⟩
        exact hload.trans_winds (probeSend_winds ip _ hfits)
      · exact .refl hrun
    · split
      · exact probeSend_winds ip s hfits
      · exact .refl hrun
  · split
    · rename_i hdata
      exact probeSend_winds ip s (h (.inr hdata))
    · exact .refl hrun

/-- The data ladder: a timeout outside a fast recovery. --/
theorem retransmitQueue_winds (hfast : s.snd.fastRecovery = false) (h : NextFits s.snd) :
    Winds s.snd (retransmitQueue ip s false).snd := by
  have hforget : forgetBlocks s false = { s with sack := { s.sack.reset with blocks := [] } } :=
    if_pos ⟨rfl, hfast⟩
  have hloss : Winds s.snd (enterLoss (forgetBlocks s false) false).snd := by
    rw [hforget, enterLoss, if_pos (.inr hfast)]
    exact h.winds rfl rfl rfl rfl
  unfold retransmitQueue
  dsimp only
  split
  · exact hloss
  · exact hloss.trans_same (sameTimer_retransmitWalk ip _ _ _ _ _ _)

/-- A timeout sends something again, or there is nothing to send. --/
theorem retransmitTimeout_winds (hrun : s.snd.timeout ≠ 0)
    (h : s.snd.transmitSent ≠ [] ∨ s.snd.zeroWindowProbeHasData = true ∨ s.state.finWaits → NextFits s.snd)
    (hstate : (retransmitTimeout ip s).state.connected) : Winds s.snd (retransmitTimeout ip s).snd := by
  unfold retransmitTimeout at hstate ⊢
  split at hstate
  · rename_i hqueue
    rw [if_pos hqueue]
    set s₁ : Socket := { s with snd := { s.snd with
      txSequenceRecover := s.snd.txSequence - 1
      fastRecovery := false } } with hs₁
    have hwalk : SameTimer s.snd (rtoWalk s₁ false).snd ∧ (rtoWalk s₁ false).snd.fastRecovery = false ∧
        (rtoWalk s₁ false).snd.transmitSent = s.snd.transmitSent ∧
        (rtoWalk s₁ false).snd.zeroWindowProbeHasData = s.snd.zeroWindowProbeHasData ∧
        (rtoWalk s₁ false).snd.txWindowAdvertised = s.snd.txWindowAdvertised := by
      unfold rtoWalk
      split
      · split <;> exact ⟨⟨rfl, rfl, rfl, rfl⟩, rfl, rfl, rfl, rfl⟩
      · exact ⟨⟨rfl, rfl, rfl, rfl⟩, rfl, rfl, rfl, rfl⟩
    obtain ⟨htimer, hfast, hsent, hdata, hwindow⟩ := hwalk
    have hfits : s.snd.transmitSent ≠ [] ∨ s.snd.zeroWindowProbeHasData = true → NextFits (rtoWalk s₁ false).snd := by
      intro hclimb
      have hs : NextFits s.snd := h (hclimb.imp_right .inl)
      unfold NextFits
      rw [htimer.rate, htimer.retries, htimer.shift]
      exact hs
    unfold socketRetransmit
    dsimp only
    split
    · refine htimer.trans_winds (windowProbe_winds ip _ (htimer.timeout ▸ hrun) fun hclimb => hfits ?_)
      rw [hsent, hdata] at hclimb
      exact hclimb
    · rename_i hopen
      have hqueued : s.snd.transmitSent ≠ [] := by
        rcases hqueue with hq | ⟨hzero, -⟩
        · exact hq
        · exact absurd (hwindow.trans hzero) hopen
      have hplain : ¬((rtoWalk s₁ false).sackPermitted = true ∧ (false = true ∨ (rtoWalk s₁ false).snd.fastRecovery = true)) := by
        rw [hfast]
        rintro ⟨-, hf | hf⟩ <;> cases hf
      rw [if_neg hplain]
      have hclear : SameTimer s.snd { (rtoWalk s₁ false).snd with zeroWindowProbeHasData := false } :=
        htimer.trans ⟨rfl, rfl, rfl, rfl⟩
      exact hclear.trans_winds
        (retransmitQueue_winds ip { rtoWalk s₁ false with snd.zeroWindowProbeHasData := false } hfast (hfits (.inl hqueued)))
  · rename_i hqueue
    rw [if_neg hqueue]
    split at hstate
    · rename_i hfin
      rw [if_pos hfin]
      have hwinds : Winds s.snd { s.snd with
          timeoutRetries := s.snd.timeoutRetries + 1
          timeout := s.snd.timeoutRate <<< ((s.snd.timeoutRetries + 1) * s.snd.timeoutShift).toNat } :=
        (h (.inr (.inr hfin))).winds rfl rfl rfl rfl
      exact hwinds.trans_same (.of_eq (ackOnly_packetSendFin ip _ _).snd)
    · rename_i hfin
      rw [if_neg hfin]
      split at hstate
      · exact absurd hstate (not_connected_cleanup s)
      · rename_i hwait
        rw [if_neg hwait]
        exact .refl hrun

/-! ### A tick -/

/-- A tick leaves the timer running or ends the connection, and what it winds is the next rung. --/
theorem fastPeriodicProcessing_winds (hrun : s.snd.timeout ≠ 0) (h : Climbs ip s → NextFits s.snd)
    (hstate : (fastPeriodicProcessing ip s).state.connected) : Winds s.snd (fastPeriodicProcessing ip s).snd := by
  have hack := ackOnly_delayedAck_timer ip s
  unfold fastPeriodicProcessing retransmitTimer at hstate ⊢
  generalize delayedAck ip s = s₁ at hack hstate ⊢
  have hsnd := hack.snd
  rw [if_pos (by rw [hsnd]; exact hrun)] at hstate ⊢
  dsimp only at hstate ⊢
  split at hstate
  · exact absurd hstate (not_connected_reset _)
  · rename_i huser
    rw [if_neg huser]
    split at hstate
    · rename_i hwait
      rw [if_pos hwait]
      have hrate : s₁.snd.timeoutRate = s.snd.timeoutRate := by rw [hsnd]
      have hshift : s₁.snd.timeoutShift = s.snd.timeoutShift := by rw [hsnd]
      have hretries : s₁.snd.timeoutRetries = s.snd.timeoutRetries := by rw [hsnd]
      refine ⟨?_, hrate, hshift, .inl hretries⟩
      change s₁.snd.timeout - ip.tcpFastTimerRate ≠ 0
      intro hz
      have hne : s₁.snd.timeout = ip.tcpFastTimerRate := by
        rw [← BitVec.sub_add_cancel s₁.snd.timeout ip.tcpFastTimerRate, hz]
        exact BitVec.zero_add _
      exact absurd hwait (hne ▸ BitVec.lt_irrefl _)
    · rename_i hdue
      rw [if_neg hdue]
      split at hstate
      · exact absurd hstate (not_connected_reset _)
      · rename_i hleft
        rw [if_neg hleft]
        have hexpires : expires ip s := by
          refine ⟨hrun, ?_, ?_, ?_⟩
          · rw [← hsnd]
            exact BitVec.not_lt.mp hdue
          · have hleft' := Bool.eq_false_iff.mpr hleft
            unfold retriesExhausted at hleft' ⊢
            rw [← hsnd]
            exact hleft'
          · rw [← hsnd]
            exact huser
        have htick : SameTimer s.snd { s₁.snd with stallTicks := s₁.snd.stallTicks + ip.tcpFastTimerRate } :=
          (SameTimer.of_eq hsnd).trans ⟨rfl, rfl, rfl, rfl⟩
        refine htick.trans_winds ?_
        refine retransmitTimeout_winds ip { s₁ with snd.stallTicks := s₁.snd.stallTicks + ip.tcpFastTimerRate }
          (by rw [hsnd]; exact hrun) (fun hclimb => ?_) hstate
        rw [hack.state, hsnd] at hclimb
        have hfits := h ⟨hexpires, hclimb⟩
        unfold NextFits at hfits ⊢
        rw [hsnd]
        exact hfits

end

theorem Winds.rung_le {x x' : Transmit} (h : Winds x x') : rung x ≤ rung x' := by
  rcases h.wound with hsame | ⟨-, hrung, hle⟩
  · rw [rung, rung, h.rate, h.shift, hsame]
    exact BitVec.le_refl _
  · rw [← hrung]
    exact hle

/-- `_nx_tcp_socket_transmit_configure` --/
def socketTransmitConfigure (s : Socket) (maxQueueDepth timeout maxRetries timeoutShift : ULONG) : Socket :=
  { s with snd := { s.snd with
    timeoutRate := timeout
    timeoutMaxRetries := maxRetries
    timeoutShift := timeoutShift &&& 0xFF
    transmitQueueMaximum := maxQueueDepth } }

end Netxduo
