import Netxduo.Tcp.Acknowledged
import Netxduo.Tcp.Segmentation

/-! The account of the transmit queue in every run: sending, acknowledging, sending again and closing. -/

namespace Netxduo
open Serial Spans Runs

section
variable {ip : Ip} {s t : Socket} {una : ULONG} {gave gave' : Prop}

/-! ### A segment -/

/-- A segment that passed the timestamp test. --/
theorem Account.inWindow {irs : ULONG} {fin : Bool} (h : Account una gave s) (reads : Nat) {p : Packet}
    (hr : Receives ip irs s fin) (hfresh : (Action.segment p reads).Fresh s) (value : Option ULONG)
    (hopen : (processWindow ip reads s p value).state.connected) :
    Settles (if !outsideOfWindow (reopenWindow ip s) p && !p.header.has tcpRstBit && !p.header.has tcpSynBit &&
        p.header.has tcpAckBit then sndUna s una p.header.acknowledgmentNumber else una) gave s
      (processWindow ip reads s p value) := by
  obtain ⟨hwf, haddr⟩ := hfresh p (List.mem_singleton_self p)
  have hreopen := undisturbed_reopenWindow ip s
  obtain ⟨hmoved, hwire⟩ := unmoved_reopenWindow ip s
  have htime := ackOnly_recordTimestamp (reopenWindow ip s) p value
  have hrecord := (unmoved_recordTimestamp (reopenWindow ip s) p value).1.after hmoved hwire
  have hquiet : ∀ {t : Socket}, t.snd = s.snd → t.state = s.state → Settles una gave s t := fun hsnd hstate =>
    h.settles (by rw [hsnd]; exact .refl _) hstate
  unfold processWindow at hopen ⊢
  dsimp only at hopen ⊢
  by_cases hout : outsideOfWindow (reopenWindow ip s) p = true
  · rw [if_pos hout, if_neg (by simp [hout])]
    have hanswer := ackOnly_answerOutside ip (reopenWindow ip s) p
    exact hquiet (hanswer.snd.trans hmoved.snd) (hanswer.state.trans hmoved.state)
  rw [if_neg hout] at hopen ⊢
  have hchallenge := ackOnly_challengeAck ip (recordTimestamp (reopenWindow ip s) p value)
  have hchallenged := hquiet (hchallenge.snd.trans hrecord.snd) (hchallenge.state.trans hrecord.state)
  by_cases hrst : p.header.has tcpRstBit = true
  · rw [if_pos hrst] at hopen
    rw [if_pos hrst, if_neg (by simp [hrst])]
    by_cases htimed : (recordTimestamp (reopenWindow ip s) p value).state = .timedWait
    · rw [if_pos htimed]
      exact hquiet hrecord.snd hrecord.state
    rw [if_neg htimed] at hopen ⊢
    split
    · exact hchallenged
    · rename_i hseq
      rw [if_neg hseq] at hopen
      exact absurd hopen (not_connected_reset _)
  rw [if_neg hrst] at hopen ⊢
  by_cases hsyn : p.header.has tcpSynBit = true
  · rw [if_pos hsyn, if_neg (by simp [hsyn])]
    exact hchallenged
  rw [if_neg hsyn] at hopen ⊢
  have hacc : Account una gave (recordTimestamp (reopenWindow ip s) p value) :=
    h.same (by rw [hrecord.snd]; exact .refl _) hrecord.state
  have hset := hacc.accepted reads (p := p) (hr.undisturbed (hreopen.trans htime.undisturbed) hrecord.state) hwf
    (fun hne => (enters_of_accepted (hreopen.receiving hr.receiving) hwf (by rw [hmoved.queue]; exact haddr) hne
      (by simpa using hout)).sameQueue htime.rcv) (by simpa using hrst) hopen
  rw [sndUna_congr hrecord.snd hrecord.state] at hset
  obtain ⟨hacc', hsent, hreleased⟩ := hset
  rw [hrecord.snd] at hreleased
  have hseen : (!outsideOfWindow (reopenWindow ip s) p && !p.header.has tcpRstBit && !p.header.has tcpSynBit &&
      p.header.has tcpAckBit) = p.header.has tcpAckBit := by
    simp [hout, hrst, hsyn]
  rw [hseen]
  exact ⟨hacc', hsent.trans (dataEnd_congr (by rw [hrecord.snd]) (by rw [hrecord.state])), hreleased⟩

theorem Account.segment {irs : ULONG} {fin : Bool} (h : Account una gave s) (reads : Nat) {p : Packet}
    (hr : Receives ip irs s fin) (hfresh : (Action.segment p reads).Fresh s)
    (hopen : (socketPacketProcess ip reads s p).state.connected) :
    Settles (if ackSeen ip s p then sndUna s una p.header.acknowledgmentNumber else una) gave s
      (socketPacketProcess ip reads s p) := by
  unfold socketPacketProcess at hopen ⊢
  unfold ackSeen
  cases hstamp : packetTimestamp ip s p with
  | none =>
    rw [hstamp] at hopen
    have hset := h.inWindow reads hr hfresh none hopen
    simpa using hset
  | some value =>
    rw [hstamp] at hopen
    dsimp only at hopen ⊢
    by_cases hstale : p.header.has tcpRstBit = false ∧ INT (value - s.rcv.tsRecent) < 0
    · rw [if_pos hstale, if_neg (by simp [hstale.2])]
      have hack := ackOnly_packetSendAck ip s s.snd.txSequence
      exact h.settles (by rw [hack.snd]; exact .refl _) hack.state
    · rw [if_neg hstale] at hopen ⊢
      have hset := h.inWindow reads hr hfresh (some value) hopen
      rw [not_and_or] at hstale
      rcases hstale with hrst | hyoung
      · rw [Bool.not_eq_false] at hrst
        rw [if_neg (by simp [hrst])] at hset ⊢
        exact hset
      · simpa [Int.not_lt.mp hyoung] using hset

/-! ### Sending -/

theorem sendWindow_le (s : Socket) : sendWindow s ≤ s.snd.txWindowAdvertised := by
  unfold sendWindow
  split
  · split
    · exact cap_le_bound _ _
    · exact BitVec.le_of_lt ‹_›
  · exact BitVec.le_refl _

/-- With what is outstanding, a round stays inside the window of the peer. --/
theorem roundWindow_fits (ip : Ip) (s : Socket) (length : ULONG) (stopped : Bool)
    (hne : roundWindow ip s length stopped ≠ 0) :
    s.snd.txOutstandingBytes.toNat + (roundWindow ip s length stopped).toNat ≤ s.snd.txWindowAdvertised.toNat := by
  have hroom : sendRoom s ≤ lessOutstanding s s.snd.txWindowAdvertised := by
    unfold sendRoom
    split
    · exact cap_le _ _
    · exact lessOutstanding_mono s (sendWindow_le s)
  have hround : roundWindow ip s length stopped ≤ lessOutstanding s s.snd.txWindowAdvertised := by
    refine BitVec.le_trans ?_ hroom
    unfold roundWindow
    refine BitVec.le_trans (cap_le _ _) ?_
    split
    · exact BitVec.not_lt.mp BitVec.not_lt_zero
    · exact txWindowCurrent_le s stopped
  generalize roundWindow ip s length stopped = w at hne hround ⊢
  unfold lessOutstanding at hround
  split at hround
  · bv_omega
  · bv_omega

/-- New octets join the queue and what is outstanding. --/
theorem Account.sendPart (h : Account una gave s) (hstate : s.state = .established ∨ s.state = .closeWait)
    {part : List UInt8} (hne : part ≠ []) (addr : Nat)
    (hfits : s.snd.txOutstandingBytes.toNat + part.length ≤ s.snd.txWindowAdvertised.toNat) :
    Account una gave (sendPart ip s part addr).2 := by
  have hearly : ¬State.finWait1.code ≤ s.state.code := by
    rcases hstate with hs | hs
    · rw [hs]
      decide
    · rw [hs]
      decide
  have hwindow := h.window
  have hend : dataEnd s = s.snd.txSequence := if_neg hearly
  have hq : InFlight una s.snd.transmitSent s.snd.txOutstandingBytes.toNat :=
    h.queue.resolve_right fun hc => hearly hc.2.1
  -- a queue that is empty leaves nothing outstanding
  have hsum : (if s.snd.transmitSent = [] then 0 else s.snd.txOutstandingBytes) + BitVec.ofNat 32 part.length =
      s.snd.txOutstandingBytes + BitVec.ofNat 32 part.length := by
    split
    · rename_i hnil
      rw [hnil] at hq
      rw [show s.snd.txOutstandingBytes = 0 from BitVec.eq_of_toNat_eq hq.nil_out]
    · rfl
  have hout : (s.snd.txOutstandingBytes + BitVec.ofNat 32 part.length).toNat =
      s.snd.txOutstandingBytes.toNat + part.length := by
    rw [BitVec.toNat_add, BitVec.toNat_ofNat, Nat.mod_eq_of_lt (a := part.length) (by omega), Nat.mod_eq_of_lt (by omega)]
  have hsequence : s.snd.txSequence = una + BitVec.ofNat 32 s.snd.txOutstandingBytes.toNat := by
    rw [← hend, h.dataEnd_eq, BitVec.ofInt_natCast]
  obtain ⟨p, hp, hpart, hx⟩ : ∃ p : TxPacket, p.sequence = s.snd.txSequence ∧ p.octets = part ∧
      SameFlight { s.snd with
        txSequence := s.snd.txSequence + BitVec.ofNat 32 part.length
        txOutstandingBytes := s.snd.txOutstandingBytes + BitVec.ofNat 32 part.length
        transmitSent := s.snd.transmitSent ++ [p] } (Netxduo.sendPart ip s part addr).2.snd := by
    refine ⟨⟨addr, s.snd.txSequence, segmentHeaderLength ip (newSegment ip s part), part,
      ((newSegment ip s part).driverTakes ip).1⟩, rfl, rfl, ?_⟩
    unfold Netxduo.sendPart enqueueSent
    exact .ite ⟨rfl, rfl, rfl, hsum, rfl, rfl⟩ ⟨rfl, rfl, rfl, hsum, rfl, rfl⟩
  have hafter : (Netxduo.sendPart ip s part addr).2.state = s.state := (sending_sendPart ip s part addr).aside.state
  generalize (Netxduo.sendPart ip s part addr).2 = t at hx hafter ⊢
  have hend' : dataEnd t = s.snd.txSequence + BitVec.ofNat 32 part.length := by
    rw [dataEnd, hafter, if_neg hearly, hx.txSequence]
  refine ⟨?_, ?_, .inl ?_, fun hc => ?_, fun hc => absurd (hafter ▸ hc) hearly, ?_, ?_⟩
  · rw [hx.txOutstandingBytes, hend', h.outstanding, hend]
    grind
  · rw [hx.txOutstandingBytes]
    dsimp only
    omega
  · rw [hx.txOutstandingBytes]
    dsimp only
    rw [hout, ← hpart]
    refine (hq.join (p := p) (hp.trans hsequence) (by rw [hpart]; exact hne) (by rw [hpart]; omega)).content ?_
    exact hx.transmitSent
  · rw [hx.finAcked]
    exact h.unsent (hafter ▸ hc)
  · rw [hx.txWindowAdvertised]
    exact hwindow
  · rw [hx.sndWinScaleValue]
    exact h.scale

theorem sameFlight_sendBlocked (s : Socket) (octets : List UInt8) (wait : Option Nat) :
    SameFlight s.snd (sendBlocked s octets wait).2.snd ∧ (sendBlocked s octets wait).2.state = s.state := by
  have harm : SameFlight s.snd (zeroWindowProbeArm s octets).snd ∧ (zeroWindowProbeArm s octets).state = s.state := by
    unfold zeroWindowProbeArm
    split
    · exact ⟨.refl _, rfl⟩
    · dsimp only
      split
      · split
        · exact ⟨⟨rfl, rfl, rfl, rfl, rfl, rfl⟩, rfl⟩
        · exact ⟨.refl _, rfl⟩
      · split
        · exact ⟨⟨rfl, rfl, rfl, rfl, rfl, rfl⟩, rfl⟩
        · exact ⟨⟨rfl, rfl, rfl, rfl, rfl, rfl⟩, rfl⟩
  unfold sendBlocked
  cases wait with
  | some thread => exact ⟨harm.1.trans ⟨rfl, rfl, rfl, rfl, rfl, rfl⟩, harm.2⟩
  | none =>
    dsimp only
    split
    · exact harm
    · exact harm

theorem Account.ite {u : Socket} {c : Prop} [Decidable c] (h : Account una gave t) (h' : Account una gave u) :
    Account una gave (if c then t else u) := by
  split
  · exact h
  · exact h'

theorem Account.send (h : Account una gave s) (octets : List UInt8) (addr : Nat) (copies : Bool) (wait : Option Nat) :
    Account una gave (socketSend ip s octets addr copies wait).2 := by
  unfold socketSend
  split
  · exact h
  split
  · exact h
  rename_i hne hstate
  have hopen : (s.txQueueStopped ip).2.state = .established ∨ (s.txQueueStopped ip).2.state = .closeWait := by
    by_contra hc
    rw [not_or] at hc
    exact hstate hc
  have hstop : Account una gave (s.txQueueStopped ip).2 := h.same (.refl _) rfl
  generalize s.txQueueStopped ip = res at hopen hstop ⊢
  obtain ⟨stopped, s₁⟩ := res
  dsimp only at hopen hstop ⊢
  have hask : Account una gave (s₁.packetAllocate ip).2 := hstop.same (.refl _) rfl
  split
  · rename_i hgo
    have hfits := roundWindow_fits ip s₁ _ stopped hgo.1
    generalize roundWindow ip s₁ (BitVec.ofNat 32 octets.length) stopped = w at hgo hfits ⊢
    have hpos : 0 < w.toNat := Nat.pos_of_ne_zero fun hz => hgo.1 (BitVec.eq_of_toNat_eq hz)
    have hpart : octets.take w.toNat ≠ [] := by
      rw [Ne, List.take_eq_nil_iff]
      rintro (hz | hnil)
      · omega
      · exact hne hnil
    have hlen : (octets.take w.toNat).length ≤ w.toNat := List.length_take_le _ _
    have hroom : s₁.snd.txOutstandingBytes.toNat + (octets.take w.toNat).length ≤ s₁.snd.txWindowAdvertised.toNat := by
      omega
    split
    · split
      · exact hask.sendPart hopen hpart addr hroom
      · exact hask
    · exact hstop.sendPart hopen hpart addr hroom
  · obtain ⟨hsnd, hsame⟩ := sameFlight_sendBlocked s₁ octets wait
    exact hstop.same hsnd hsame

theorem Account.transmitCheck (h : Account una gave s) (waiting : ULONG) :
    Account una gave (socketStateTransmitCheck ip s waiting) := by
  have hstop : Account una gave (s.txQueueStopped ip).2 := h.same (.refl _) rfl
  unfold socketStateTransmitCheck
  split
  · exact h
  · exact .ite (hstop.same ⟨rfl, rfl, rfl, rfl, rfl, rfl⟩ rfl) hstop

/-! ### Closing -/

theorem Account.mono (h : Account una gave s) (hgave : gave → gave') : Account una gave' s := by
  obtain ⟨h₁, h₂, h₃, h₄, h₅, h₆, h₇⟩ := h
  exact ⟨h₁, h₂, h₃.imp id fun ⟨hnil, hcode, hg⟩ => ⟨hnil, hcode, hgave hg⟩, h₄, h₅, h₆, h₇⟩

/-- The FIN takes the number behind the data. --/
theorem Account.disconnectFin (h : Account una gave s) (hstate : s.state = .established ∨ s.state = .closeWait) :
    Account una gave (disconnectFin ip s) := by
  have hearly : s.state.code < State.finWait1.code := by
    rcases hstate with hs | hs
    · rw [hs]
      decide
    · rw [hs]
      decide
  have hlate : State.finWait1.code ≤ (disconnectEnter s).state.code := by
    unfold disconnectEnter
    dsimp only
    split
    · decide
    · decide
  have henter : Account una gave (disconnectEnter s) := by
    have hend : dataEnd (disconnectEnter s) = dataEnd s := by
      rw [dataEnd, if_pos hlate, dataEnd, if_neg (by omega)]
      show s.snd.txSequence + 1 - 1 = s.snd.txSequence
      grind
    refine ⟨by rw [hend]; exact h.outstanding, h.bound, .inl ?_, fun hc => absurd hlate (by omega), fun _ hp => ?_, h.window,
      h.scale⟩
    · exact h.queue.resolve_right fun hc => absurd hc.2.1 (by omega)
    · have hacked : (disconnectEnter s).snd.finAcked = false := h.unsent hearly
      rw [finPending, hacked] at hp
      unfold disconnectEnter at hp
      dsimp only at hp
      split at hp
      · cases hp
      · cases hp
  have hack := ackOnly_packetSendFin ip (disconnectEnter s) ((disconnectEnter s).snd.txSequence - 1)
  exact henter.same (by unfold Netxduo.disconnectFin; dsimp only; rw [hack.snd]; exact .refl _) hack.state

/-- The queue is given up with the call. --/
theorem Account.finish (h : Account una gave s) (hcode : State.finWait1.code ≤ s.state.code) (hgave : gave') :
    Account una gave' (disconnectFinish s) := by
  obtain ⟨x, hx, hempty, hsame⟩ : ∃ x, (disconnectFinish s).snd = x ∧ x.transmitSent = [] ∧
      SameFlight { s.snd with transmitSent := [] } x := by
    refine ⟨_, rfl, ?_, ?_⟩
    · unfold disconnectFinish
      dsimp only
      split
      · rfl
      · rename_i hnil
        exact not_not.mp hnil
    · unfold disconnectFinish
      dsimp only
      split
      · exact ⟨rfl, rfl, rfl, rfl, rfl, rfl⟩
      · rename_i hnil
        exact ⟨rfl, rfl, rfl, rfl, rfl, by rw [not_not.mp hnil]⟩
  have hstate := state_disconnectFinish s
  have hbase : Account una gave' { s with snd.transmitSent := [] } :=
    ⟨h.outstanding, h.bound, .inr ⟨rfl, hcode, hgave⟩, h.unsent, h.finished, h.window, h.scale⟩
  exact hbase.same (by rw [hx]; exact hsame) hstate

/-- The call gives the transmit queue up. --/
def Action.givesUp : Action → Prop
  | .disconnect wait ipThread => wait = false ∨ ipThread = true
  | _ => False

theorem Account.disconnect (h : Account una gave s) (wait ipThread : Bool)
    (hopen : (socketDisconnect ip s wait ipThread).state.connected) :
    Account una (gave ∨ (Action.disconnect wait ipThread).givesUp) (socketDisconnect ip s wait ipThread) := by
  unfold socketDisconnect at hopen ⊢
  by_cases hstate : s.state ≠ .established ∧ s.state ≠ .closeWait
  · rw [if_pos hstate]
    exact h.mono .inl
  rw [if_neg hstate] at hopen ⊢
  by_cases hreset : wait = false ∧ ip.build.disableResetDisconnect = false
  · rw [if_pos hreset, state_disconnectFinish] at hopen
    exact absurd hopen (not_connected_cleanup _)
  rw [if_neg hreset] at hopen ⊢
  have hfin : Account una gave (Netxduo.disconnectFin ip s) := h.disconnectFin (by
    by_contra hc
    rw [not_or] at hc
    exact hstate hc)
  dsimp only at hopen ⊢
  split
  · exact (hfin.mono Or.inl).same (.refl _) rfl
  · rename_i hwait
    refine hfin.finish ?_ (.inr ?_)
    · have hack := ackOnly_packetSendFin ip (disconnectEnter s) ((disconnectEnter s).snd.txSequence - 1)
      have hcode : State.finWait1.code ≤ (disconnectEnter s).state.code := by
        unfold disconnectEnter
        dsimp only
        split
        · decide
        · decide
      rw [← hack.state] at hcode
      exact hcode
    · show wait = false ∨ ipThread = true
      cases wait with
      | false => exact .inl rfl
      | true =>
        cases ipThread with
        | false => exact absurd ⟨rfl, rfl⟩ hwait
        | true => exact .inr rfl

theorem Account.disconnectResume (h : Account una gave s) (hopen : (disconnectResume s).state.connected) :
    Account una gave (disconnectResume s) := by
  unfold Netxduo.disconnectResume at hopen ⊢
  split
  · rename_i hwaits
    rw [if_pos hwaits] at hopen
    dsimp only at hopen ⊢
    split
    · rename_i htimed
      have hcode : State.finWait1.code ≤ s.state.code := by
        rw [htimed]
        decide
      have hzero := h.finished hcode (by rw [finPending, htimed]; cases s.snd.finAcked <;> rfl)
      -- behind the FIN the queue is empty
      have hempty : s.snd.transmitSent = [] := by
        rcases h.queue with hq | ⟨hnil, -, -⟩
        · rw [hzero] at hq
          exact hq.empty
        · exact hnil
      have hfinish : SameFlight s.snd (disconnectFinish { s with disconnectSuspended := false }).snd := by
        unfold disconnectFinish
        dsimp only
        rw [if_neg (not_not.mpr hempty)]
        exact ⟨rfl, rfl, rfl, rfl, rfl, rfl⟩
      exact h.same hfinish (state_disconnectFinish _)
    · rename_i htimed
      rw [if_neg htimed, state_disconnectFinish] at hopen
      exact absurd hopen (not_connected_cleanup _)
  · exact h

/-! ### The timer -/

theorem Account.timeout (h : Account una gave s) (hopen : (retransmitTimeout ip s).state.connected) :
    Account una gave (retransmitTimeout ip s) := by
  unfold retransmitTimeout at hopen ⊢
  split
  · have hbase : Account una gave { s with snd := { s.snd with
        txSequenceRecover := s.snd.txSequence - 1
        fastRecovery := false } } := h.same ⟨rfl, rfl, rfl, rfl, rfl, rfl⟩ rfl
    have hsend := (sending_socketRetransmit ip { s with snd := { s.snd with
        txSequenceRecover := s.snd.txSequence - 1
        fastRecovery := false } } false).resends
    exact hbase.same hsend.snd hsend.state
  rename_i hdata
  rw [if_neg hdata] at hopen
  split
  · have hack := ackOnly_packetSendFin ip { s with snd := { s.snd with
        timeoutRetries := s.snd.timeoutRetries + 1
        timeout := s.snd.timeoutRate <<< ((s.snd.timeoutRetries + 1) * s.snd.timeoutShift).toNat } }
        (s.snd.txSequence - 1)
    exact h.same (by dsimp only; rw [hack.snd]; exact ⟨rfl, rfl, rfl, rfl, rfl, rfl⟩) hack.state
  rename_i hfin
  rw [if_neg hfin] at hopen
  split
  · rename_i htimed
    rw [if_pos htimed] at hopen
    exact absurd hopen (not_connected_cleanup s)
  · exact h

theorem Account.timer (h : Account una gave s) (hopen : (fastPeriodicProcessing ip s).state.connected) :
    Account una gave (fastPeriodicProcessing ip s) := by
  have hack := ackOnly_delayedAck_timer ip s
  have hdelayed : Account una gave (Netxduo.delayedAck ip s) := h.same (by rw [hack.snd]; exact .refl _) hack.state
  unfold fastPeriodicProcessing retransmitTimer at hopen ⊢
  generalize Netxduo.delayedAck ip s = t at hdelayed hopen ⊢
  have htick : ∀ n m : ULONG, Account una gave { t with snd := { t.snd with stallTicks := n, timeout := m } } :=
    fun n m => hdelayed.same ⟨rfl, rfl, rfl, rfl, rfl, rfl⟩ rfl
  by_cases hrun : t.snd.timeout ≠ 0
  · rw [if_pos hrun] at hopen ⊢
    dsimp only at hopen ⊢
    by_cases huser : t.snd.userTimeout ≠ 0 ∧ t.snd.stallTicks + ip.tcpFastTimerRate ≥ t.snd.userTimeout
    · rw [if_pos huser] at hopen
      exact absurd hopen (not_connected_reset _)
    rw [if_neg huser] at hopen ⊢
    by_cases hwait : t.snd.timeout > ip.tcpFastTimerRate
    · rw [if_pos hwait]
      exact htick _ _
    rw [if_neg hwait] at hopen ⊢
    split
    · rename_i hexhausted
      rw [if_pos hexhausted] at hopen
      exact absurd hopen (not_connected_reset _)
    · rename_i hexhausted
      rw [if_neg hexhausted] at hopen
      exact (htick _ t.snd.timeout).timeout hopen
  · rw [if_neg hrun]
    exact htick 0 t.snd.timeout

/-! ### In every run -/

/-- SND.UNA behind a step: it follows the segments, and not what the socket counts. --/
def Action.unaAfter (ip : Ip) (s : Socket) (una : ULONG) : Action → ULONG
  | .segment p _ =>
    if State.established.code ≤ s.state.code ∧ ackSeen ip s p = true then sndUna s una p.header.acknowledgmentNumber
    else una
  | _ => una

/-- One step of a socket and of its SND.UNA. --/
def trackedStep (ip : Ip) (x : Socket × ULONG) (a : Action) : Socket × ULONG := (step ip x.1 a, a.unaAfter ip x.1 x.2)

/-- The transmit half the handshake leaves. The window of the peer is 16 bits, scaled by 14 at most. --/
structure Socket.Idle (s : Socket) : Prop where
  transmitSent : s.snd.transmitSent = []
  txOutstandingBytes : s.snd.txOutstandingBytes = 0
  finAcked : s.snd.finAcked = false
  window : s.snd.txWindowAdvertised.toNat ≤ 2 ^ 30 - 2
  scale : s.snd.sndWinScaleValue ≤ 14

theorem Socket.Idle.account (h : s.Idle) (hstate : s.state = .established) : Account s.snd.txSequence gave s := by
  have hearly : ¬State.finWait1.code ≤ s.state.code := by
    rw [hstate]
    decide
  refine ⟨?_, ?_, .inl ?_, fun _ => h.finAcked, fun hc => absurd hc hearly, h.window, h.scale⟩
  · rw [h.txOutstandingBytes, dataEnd, if_neg hearly]
    exact (BitVec.sub_self _).symm
  · rw [h.txOutstandingBytes]
    decide
  · rw [h.transmitSent, h.txOutstandingBytes]
    exact inFlight_nil _

theorem Account.segmentStep {irs : ULONG} {fin : Bool} (h : Account una gave s) (reads : Nat) {p : Packet}
    (hr : Receives ip irs s fin) (ha : (Action.segment p reads).Fresh s)
    (hopen : (step ip s (.segment p reads)).state.connected) :
    Settles ((Action.segment p reads).unaAfter ip s una) gave s (step ip s (.segment p reads)) := by
  simp only [step, Action.unaAfter] at hopen ⊢
  by_cases hc : State.established.code ≤ s.state.code
  · rw [if_pos hc] at hopen ⊢
    have hset := h.segment reads hr ha hopen
    simpa [hc] using hset
  · rw [if_neg hc, if_neg fun hand => hc hand.1]
    exact h.settles (.refl _) rfl

theorem Account.step {irs : ULONG} {fin : Bool} (h : Account una gave s) (hr : Receives ip irs s fin) {a : Action}
    (ha : a.Fresh s) (hopen : (step ip s a).state.connected) :
    Account (a.unaAfter ip s una) (gave ∨ a.givesUp) (step ip s a) := by
  cases a with
  | segment p reads => exact (h.segmentStep reads hr ha hopen).account.mono .inl
  | receive wait =>
    obtain ⟨ready', hp, -, -⟩ := socketReceive_delivers hr.receiving wait
    exact (h.same (by rw [hp.snd]; exact .refl _) hp.state).mono .inl
  | send octets addr copies wait => exact (h.send octets addr copies wait).mono .inl
  | transmitCheck waiting => exact (h.transmitCheck waiting).mono .inl
  | disconnect wait ipThread => exact h.disconnect wait ipThread hopen
  | disconnectResume => exact (h.disconnectResume hopen).mono .inl
  | timer => exact (h.timer hopen).mono .inl
  | transmitted addr =>
    refine (h.mono Or.inl).same ⟨rfl, rfl, rfl, rfl, rfl, ?_⟩ rfl
    simp only [Netxduo.step, packetTransmitRelease, List.map_map]
    refine List.map_congr_left fun q _ => ?_
    simp only [Function.comp_apply]
    split
    · rfl
    · rfl

theorem account_of_run {irs : ULONG} {s₀ : Socket} {x : Socket × ULONG} {actions : List Action}
    (hs₀ : s₀.Established irs) (hidle : s₀.Idle)
    (h : Run (trackedStep ip) (fun x a => a.Fresh x.1) (s₀, s₀.snd.txSequence) actions x) :
    (∃ fin, Receives ip irs x.1 fin) ∧
      (x.1.state.connected → Account x.2 (∃ a ∈ actions, a.givesUp) x.1) := by
  refine h.invariant (P := fun actions x => (∃ fin, Receives ip irs x.1 fin) ∧
    (x.1.state.connected → Account x.2 (∃ a ∈ actions, a.givesUp) x.1))
    ⟨⟨false, hs₀.receives⟩, fun _ => hidle.account hs₀.state⟩ ?_
  rintro actions ⟨s, una⟩ a ⟨⟨fin, hr⟩, hacc⟩ ha
  obtain ⟨ready', pending', out, front, fin', hh, -⟩ := step_hears a hr.receiving (fun hc hf => by
    have hend := hr.receivedEnd
    rw [← hr.state hc, hf] at hend
    simpa using hend.symm) ha
  obtain ⟨_, _, _, -, -, hr'⟩ := hr.next a ha
  refine ⟨⟨_, hr'⟩, fun hopen => ?_⟩
  refine ((hacc (hh.state hopen).1).step hr ha hopen).mono ?_
  rintro (⟨b, hb, hgives⟩ | hgives)
  · exact ⟨b, List.mem_append_left _ hb, hgives⟩
  · exact ⟨a, List.mem_append_right _ (List.mem_singleton_self a), hgives⟩

/-- In every run what is outstanding is the data behind SND.UNA, and the queue holds it until a call gives it up; an
    acknowledgment subtracts what it moves SND.UNA by, and takes just the packets off that it covers. --/
theorem acks_accounted {irs : ULONG} {s₀ : Socket} {x : Socket × ULONG} {actions : List Action}
    (hs₀ : s₀.Established irs) (hidle : s₀.Idle)
    (h : Run (trackedStep ip) (fun x a => a.Fresh x.1) (s₀, s₀.snd.txSequence) actions x) (hc : x.1.state.connected) :
    x.1.snd.txOutstandingBytes = dataEnd x.1 - x.2 ∧
    ((∀ a ∈ actions, ¬a.givesUp) →
      (x.1.snd.transmitSent.map fun p => (p.unacked x.2).length).sum = x.1.snd.txOutstandingBytes.toNat) ∧
    ∀ (p : Packet) (reads : Nat), (Action.segment p reads).Fresh x.1 →
      let y := trackedStep ip x (.segment p reads)
      y.1.state.connected →
        y.1.snd.txOutstandingBytes = x.1.snd.txOutstandingBytes - (y.2 - x.2) ∧
        ∃ released left, x.1.snd.transmitSent.map TxPacket.content = released ++ left ∧
          y.1.snd.transmitSent.map TxPacket.content = left ∧ Releases y.2 released left := by
  obtain ⟨⟨fin, hr⟩, hacc⟩ := account_of_run hs₀ hidle h
  have hx := hacc hc
  refine ⟨hx.outstanding, fun hkept => ?_, ?_⟩
  · rcases hx.queue with hq | ⟨-, -, a, ha, hgives⟩
    · have hbound := hx.bound
      exact hq.unacked (by omega)
    · exact absurd hgives (hkept a ha)
  · intro p reads hfresh y hopen
    have hset := hx.segmentStep reads hr hfresh hopen
    refine ⟨?_, hset.released⟩
    have hout : y.1.snd.txOutstandingBytes = dataEnd y.1 - y.2 := hset.account.outstanding
    have hsent : dataEnd y.1 = dataEnd x.1 := hset.sent
    rw [hout, hsent, hx.outstanding]
    grind

end

/-- Three octets in two packets, and an acknowledgment inside the second one. --/
def twoPackets : List Action :=
  [.send [1, 2] 1 false none, .send [3, 4] 2 false none, .segment (.plain 3 1 4 tcpAckBit []) 0]

theorem acks_accounted_two :
    let x := twoPackets.foldl (trackedStep .ideal) (.opened 0 0 1000 1000, 1)
    x.1.snd.txOutstandingBytes = dataEnd x.1 - x.2 ∧
      (x.1.snd.transmitSent.map fun p => (p.unacked x.2).length).sum = x.1.snd.txOutstandingBytes.toNat := by
  intro x
  have hrun : Run (trackedStep .ideal) (fun x a => a.Fresh x.1) (.opened 0 0 1000 1000, 1) twoPackets x :=
    .next (.next (.next .start nofun) nofun) fun q hq => by
      cases List.mem_singleton.mp hq
      exact ⟨⟨by decide, by decide⟩, nofun⟩
  obtain ⟨hout, hqueue, -⟩ := acks_accounted (opened_established 0 0 1000 (by decide))
    ⟨rfl, rfl, rfl, by decide, by decide⟩ hrun (by decide)
  refine ⟨hout, hqueue fun a ha => ?_⟩
  simp only [twoPackets, List.mem_cons, List.not_mem_nil, or_false] at ha
  rcases ha with rfl | rfl | rfl <;> exact id

/-- The IP thread closes the connection with two octets on the way: they leave the queue and stay outstanding. --/
theorem flush_keeps_outstanding :
    ∃ x, Run (trackedStep .ideal) (fun x a => a.Fresh x.1) (.opened 0 0 1000 1000, 1)
        [.send [1, 2] 1 false none, .disconnect true true] x ∧ x.1.state = .finWait1 ∧
      (x.1.snd.transmitSent.map fun p => (p.unacked x.2).length).sum = 0 ∧ x.1.snd.txOutstandingBytes = 2 :=
  ⟨_, .next (.next .start nofun) nofun, by decide, by decide, by decide⟩

end Netxduo
