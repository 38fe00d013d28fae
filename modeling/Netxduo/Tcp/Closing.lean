import Netxduo.Tcp.Backoff
import Netxduo.Tcp.BlindSegments
import Netxduo.Tcp.Stream

/-! Closing: what the acknowledgment of the FIN does in FIN_WAIT_1, CLOSING and LAST_ACK, and what is taken for one. The
    flag of the zero window probe moves the end of the range by one, and nothing clears it on the way to the close. -/

namespace Netxduo
open Serial Spans Runs

/-! ### The acknowledgment of the FIN -/

/-- The segment passes every test in front of its acknowledgment, and its options are legal. What CLOSING and LAST_ACK
    look at begins at the next number: the FIN of the peer is behind them. --/
structure Acceptable (ip : Ip) (s : Socket) (p : Packet) : Prop where
  ack : p.header.has tcpAckBit = true
  rst : p.header.has tcpRstBit = false
  syn : p.header.has tcpSynBit = false
  young : ∀ value ∈ packetTimestamp ip s p, 0 ≤ INT (value - s.rcv.tsRecent)
  inside : outsideOfWindow (reopenWindow ip s) p = false
  options : p.header.headerLength > 20 → mssOptionLegal p.options = true
  next : s.state = .closing ∨ s.state = .lastAck → p.header.sequenceNumber = s.rcv.rxSequence

/-- The FIN of the peer lies behind a gap. --/
def Receive.finGap (r : Receive) : Prop := r.finReceived = true ∧ r.finSequence ≠ r.rxSequence

/-- From `s` to `t` the close goes on for the FIN is acknowledged. Where the FIN of the peer lies behind a gap,
    FIN_WAIT_1 remembers the acknowledgment until the gap is filled. --/
def GoesOn (s t : Socket) : Prop :=
  match s.state with
  | .finWait1 => t.snd.finAcked = true ∧ (t.state = .finWait2 ∨ t.state = .timedWait ∨ t.rcv.finGap)
  | .closing => t.state = .timedWait
  | .lastAck => t.state = .closed ∨ t.state = .listen
  | _ => True

/-- SND.NXT acknowledges the FIN, and no number above it is accepted. --/
structure AcksRight (ip : Ip) (s : Socket) : Prop where
  goesOn : ∀ (reads : Nat) (p : Packet), (Action.segment p reads).Fresh s → Acceptable ip s p →
    p.header.acknowledgmentNumber = s.snd.txSequence → GoesOn s (step ip s (.segment p reads))
  refuses : ∀ h : TcpHeader, INT (h.acknowledgmentNumber - s.snd.txSequence) > 0 →
    (socketStateAckCheck ip s h).1 = false

/-! ### What an acknowledgment leaves alone -/

section
variable {ip : Ip} {s t u : Socket}

theorem SameFlight.ite {x : Transmit} {c : Prop} [Decidable c] (h : SameFlight x s.snd) (h' : SameFlight x t.snd) :
    SameFlight x (if c then s else t).snd := by
  split
  · exact h
  · exact h'

/-- The fields of the flight are left alone. --/
theorem sameFlight_growWindow (ip : Ip) (s : Socket) (acked : ULONG) : SameFlight s.snd (growWindow ip s acked).snd :=
  .ite (.ite (.refl _) ⟨rfl, rfl, rfl, rfl, rfl, rfl⟩)
    (.ite (.ite ⟨rfl, rfl, rfl, rfl, rfl, rfl⟩ ⟨rfl, rfl, rfl, rfl, rfl, rfl⟩) ⟨rfl, rfl, rfl, rfl, rfl, rfl⟩)

theorem sameFlight_answerProbe (ip : Ip) (s : Socket) (h : TcpHeader) (ending : ULONG) (count : Nat) :
    SameFlight s.snd (answerProbe ip s h ending count).snd :=
  .ite (sending_packetSendAck ip s SameFlight.refl ending).resends.snd (.refl _)

theorem sameFlight_creditAcked (ip : Ip) (s : Socket) (start ack acked : ULONG) :
    SameFlight { s.snd with txOutstandingBytes := s.snd.txOutstandingBytes - acked }
      (creditAcked ip s start ack acked).snd := by
  have hleave : SameFlight s.snd (leaveRecovery s ack).snd := .ite ⟨rfl, rfl, rfl, rfl, rfl, rfl⟩ (.refl _)
  unfold creditAcked
  split
  · dsimp only
    generalize leaveRecovery s ack = s₁ at hleave ⊢
    have hgrow : ∀ s : Socket, SameFlight s.snd (growWindow ip s acked).snd := fun s => sameFlight_growWindow ip s acked
    exact ⟨(hgrow _).txSequence.trans hleave.txSequence, (hgrow _).finAcked.trans hleave.finAcked,
      (hgrow _).txWindowAdvertised.trans hleave.txWindowAdvertised,
      congrArg (· - acked) ((hgrow _).txOutstandingBytes.trans hleave.txOutstandingBytes),
      (hgrow _).sndWinScaleValue.trans hleave.sndWinScaleValue, (hgrow _).transmitSent.trans hleave.transmitSent⟩
  · rename_i hzero
    rw [not_not.mp hzero]
    exact ⟨rfl, rfl, rfl, (BitVec.sub_zero _).symm, rfl, rfl⟩

theorem sameFlight_updateWindow (s : Socket) (h : TcpHeader) (start ending endingRx : ULONG) :
    ∃ window, (window = s.snd.txWindowAdvertised ∨ window = (h.word3 &&& lower16Mask) <<< s.snd.sndWinScaleValue) ∧
      SameFlight { s.snd with txWindowAdvertised := window } (updateWindow s h start ending endingRx).snd := by
  unfold updateWindow
  dsimp only
  split
  · exact ⟨_, .inr rfl, rfl, rfl, rfl, rfl, rfl, rfl⟩
  · exact ⟨_, .inl rfl, .refl _⟩

theorem sameFlight_probeAnswered (s : Socket) (ack : ULONG) : SameFlight s.snd (probeAnswered s ack).snd :=
  .ite ⟨rfl, rfl, rfl, rfl, rfl, rfl⟩ (.refl _)

theorem sameFlight_releaseAcked (ip : Ip) (s : Socket) (ack acked : ULONG) (count : Nat) :
    SameFlight { s.snd with transmitSent := s.snd.transmitSent.drop count } (releaseAcked ip s ack acked count).snd := by
  have hrelease : SameFlight { s.snd with transmitSent := s.snd.transmitSent.drop count }
      (if count ≠ 0 then releasePackets s count else s).snd := by
    split
    · unfold releasePackets
      exact .ite ⟨rfl, rfl, rfl, rfl, rfl, rfl⟩ (.ite ⟨rfl, rfl, rfl, rfl, rfl, rfl⟩
        (.ite ⟨rfl, rfl, rfl, rfl, rfl, rfl⟩ ⟨rfl, rfl, rfl, rfl, rfl, rfl⟩))
    · rename_i hzero
      rw [not_not.mp hzero]
      exact .refl _
  unfold releaseAcked
  split
  · rename_i hzero
    rw [hzero.1]
    exact .refl _
  · exact hrelease.trans (sending_resumeSending ip _ ack).resends.snd

/-- An acknowledgment of everything that was sent is accepted, and acknowledges the FIN. --/
theorem ackCheck_ending (ip : Ip) (s : Socket) {h : TcpHeader} (hack : h.has tcpAckBit = true)
    (hending : h.acknowledgmentNumber = endingTxSequence s) :
    (socketStateAckCheck ip s h).1 = true ∧ (socketStateAckCheck ip s h).2.snd.txSequence = s.snd.txSequence ∧
      (State.finWait1.code ≤ s.state.code → (socketStateAckCheck ip s h).2.snd.finAcked = true) := by
  have htake : Sending ip SameFlight s _ := sending_sackTakeAck ip s h.acknowledgmentNumber
  unfold socketStateAckCheck
  rw [if_pos hack]
  dsimp only
  generalize sackTakeAck ip s h.acknowledgmentNumber = s₁ at htake ⊢
  rw [ackCovers, if_pos hending]
  dsimp only
  rw [if_neg fun hc => hc.2.1 hending]
  dsimp only
  generalize hs₂ : (if State.finWait1.code ≤ s₁.state.code then _ else s₁ : Socket) = s₂
  have hprobe := sameFlight_answerProbe ip s₂ h (endingTxSequence s) s₁.snd.transmitSent.length
  generalize answerProbe ip s₂ h (endingTxSequence s) s₁.snd.transmitSent.length = s₃ at hprobe ⊢
  have hcredit := sameFlight_creditAcked ip s₃ (dataUnacked s) h.acknowledgmentNumber (ackedBytes s h.acknowledgmentNumber)
  generalize creditAcked ip s₃ (dataUnacked s) h.acknowledgmentNumber (ackedBytes s h.acknowledgmentNumber) = s₄ at hcredit ⊢
  obtain ⟨window, -, hupdate⟩ := sameFlight_updateWindow s₄ h (dataUnacked s) (endingTxSequence s) s₁.rcv.searchEnd
  generalize updateWindow s₄ h (dataUnacked s) (endingTxSequence s) s₁.rcv.searchEnd = s₅ at hupdate ⊢
  have hanswer := sameFlight_probeAnswered s₅ h.acknowledgmentNumber
  generalize probeAnswered s₅ h.acknowledgmentNumber = s₆ at hanswer ⊢
  have hrelease := sameFlight_releaseAcked ip s₆ h.acknowledgmentNumber (ackedBytes s h.acknowledgmentNumber)
    s₁.snd.transmitSent.length
  refine ⟨rfl, ?_, fun hstate => ?_⟩
  · rw [hrelease.txSequence, hanswer.txSequence, hupdate.txSequence, hcredit.txSequence, hprobe.txSequence,
      ← htake.resends.snd.txSequence, ← hs₂]
    split
    · rfl
    · rfl
  · rw [← htake.aside.state] at hstate
    rw [hrelease.finAcked, hanswer.finAcked, hupdate.finAcked, hcredit.finAcked, hprobe.finAcked, ← hs₂, if_pos hstate]

/-- A number above everything that was sent is not accepted. --/
theorem ackCheck_above (ip : Ip) (s : Socket) {h : TcpHeader} (habove : INT (h.acknowledgmentNumber - endingTxSequence s) > 0) :
    (socketStateAckCheck ip s h).1 = false := by
  have hne : h.acknowledgmentNumber ≠ endingTxSequence s := by
    intro heq
    rw [heq, BitVec.sub_self] at habove
    exact absurd habove (by decide)
  unfold socketStateAckCheck
  split
  · dsimp only
    rw [ackCovers, if_neg hne]
    dsimp only
    rw [if_pos ⟨releaseCount_above (int_sub_neg habove) _, hne, habove⟩]
  · rfl

/-! ### The states -/

theorem finWait1_goesOn (ip : Ip) {u : Socket} (h : u.snd.finAcked = true) :
    (socketStateFinWait1 ip u).snd.finAcked = true ∧ ((socketStateFinWait1 ip u).state = .finWait2 ∨
      (socketStateFinWait1 ip u).state = .timedWait ∨ (socketStateFinWait1 ip u).rcv.finGap) := by
  unfold socketStateFinWait1
  cases hrecv : u.rcv.finReceived with
  | false =>
    rw [if_pos ⟨h, rfl⟩]
    exact ⟨h, .inl rfl⟩
  | true =>
    rw [if_neg (by simp)]
    by_cases hseq : u.rcv.finSequence = u.rcv.rxSequence
    · rw [if_pos ⟨h, hseq⟩]
      have hack := ackOnly_packetSendAck ip { u with
        state := .timedWait
        snd.timeout := ip.tcp2MslTimerRate
        rcv.rxSequence := u.rcv.rxSequence + 1 } u.snd.txSequence
      exact ⟨by rw [hack.snd]; exact h, .inr (.inl hack.state)⟩
    · rw [if_neg fun hc => hseq hc.2, if_neg fun hc => hseq hc.2]
      exact ⟨h, .inr (.inr ⟨hrecv, hseq⟩)⟩

/-- The data of a segment leaves the state and the transmit half alone. --/
theorem dataCheck_keeps (reads : Nat) {p : Packet} {ready pending : List Packet}
    (h : Receiving ip s.rcv.rxSequence s.rcv ready pending) (hp : p.WellFormed) (henter : p.octets ≠ [] → p.Enters s.rcv) :
    (socketStateDataCheck ip reads s p).state = s.state ∧ (socketStateDataCheck ip reads s p).snd = s.snd := by
  have hrecord : ∀ a : Arrival, (recordFin s a).state = s.state ∧ (recordFin s a).snd = s.snd := by
    intro a
    obtain ⟨finSequence, finReceived, hkept⟩ := recordFin_kept s a
    rw [hkept]
    exact ⟨rfl, rfl⟩
  by_cases hnil : p.octets = []
  · have hempty := @dataCheck_empty ip s _ reads hp hnil
    exact ⟨hempty.state.trans (hrecord _).1, hempty.snd.trans (hrecord _).2⟩
  · obtain ⟨_, _, _, hprog, -⟩ := dataCheck_sound reads h (henter hnil)
    exact ⟨hprog.state.trans (hrecord _).1, hprog.snd.trans (hrecord _).2⟩

/-- From the acknowledgment on, while no probe is under way. --/
theorem processAccepted_goesOn {irs : ULONG} {fin : Bool} (reads : Nat) {p : Packet} (hr : Receives ip irs s fin)
    (hs : s.state.finWaits) (hflag : s.snd.zeroWindowProbeHasData = false) (hp : p.WellFormed)
    (henter : p.octets ≠ [] → p.Enters s.rcv) (hack : p.header.has tcpAckBit = true)
    (hoptions : p.header.headerLength > 20 → mssOptionLegal p.options = true)
    (hnext : s.state = .closing ∨ s.state = .lastAck → p.header.sequenceNumber = s.rcv.rxSequence)
    (hnumber : p.header.acknowledgmentNumber = s.snd.txSequence) : GoesOn s (processAccepted ip reads s p) := by
  obtain ⟨t, ht, hmoved, hget, -⟩ := sackOptions_read ip s p
  have hending : p.header.acknowledgmentNumber = endingTxSequence t := by
    rw [endingTxSequence, hmoved.snd, hflag, hnumber]
    rfl
  obtain ⟨haccept, hsequence, hacked⟩ := ackCheck_ending ip t hack hending
  have hcheck : Aside s (socketStateAckCheck ip t p.header).2 :=
    hget.trans (sending_socketStateAckCheck ip t p.header).aside
  rw [hmoved.snd] at hsequence
  rw [hmoved.state] at hacked
  unfold processAccepted
  dsimp only
  rw [ht, haccept, if_neg (by simp), if_neg fun hc => by simp [hoptions hc.1] at hc]
  generalize (socketStateAckCheck ip t p.header).2 = u at hsequence hacked hcheck ⊢
  have hfin : acksFin u p.header = true ∨ s.state = .finWait1 := by
    rcases hs with hs | hs
    · exact .inr hs
    · refine .inl ?_
      rw [acksFin, hack, hnumber, hsequence, hnext hs, hcheck.rcv.rxSequence]
      simp
  unfold socketStateDispatch GoesOn
  rw [hcheck.state]
  rcases hs with hs | hs | hs
  · rw [hs]
    dsimp only
    have hrx : s.rcv.rxSequence = s.receivedEnd irs := by
      have hfin := hr.state (by rw [hs]; decide)
      rw [hr.receivedEnd, ← hfin, hs]
      simp [State.finTaken]
    have hrecv : Receiving ip u.rcv.rxSequence u.rcv s.rcv.readyPackets s.rcv.pendingPackets := by
      rw [hcheck.rcv.rxSequence, hrx]
      exact hr.receiving.sameQueue hcheck.rcv
    obtain ⟨-, hsnd⟩ := dataCheck_keeps reads hrecv hp fun hne => (henter hne).sameQueue hcheck.rcv
    refine finWait1_goesOn ip ?_
    rw [hsnd]
    exact hacked (by rw [hs])
  · rw [hs]
    dsimp only
    rw [socketStateClosing, if_pos (hfin.resolve_right (by rw [hs]; decide))]
  · rw [hs]
    dsimp only
    rw [socketStateLastAck, if_pos (hfin.resolve_right (by rw [hs]; decide)), socketBlockCleanup]
    dsimp only
    split
    · exact .inl rfl
    · exact .inr rfl

/-! ### In every run -/

theorem Receives.undisturbed {irs : ULONG} {fin : Bool} (h : Receives ip irs s fin) (hund : Undisturbed ip s t)
    (hstate : t.state = s.state) : Receives ip irs t fin := by
  have hnext := (h.hears (hund.hears (.of_state hstate) false []) (by simpa using hund.receiving h.receiving)).2
  rw [Bool.or_false] at hnext
  exact hnext

theorem segment_goesOn {irs : ULONG} {fin : Bool} (reads : Nat) {p : Packet} (hr : Receives ip irs s fin)
    (hs : s.state.finWaits) (hflag : s.snd.zeroWindowProbeHasData = false) (hfresh : (Action.segment p reads).Fresh s)
    (hp : Acceptable ip s p) (hnumber : p.header.acknowledgmentNumber = s.snd.txSequence) :
    GoesOn s (step ip s (.segment p reads)) := by
  obtain ⟨hwf, haddr⟩ := hfresh p (List.mem_singleton_self p)
  have hconnected : State.established.code ≤ s.state.code := by
    rcases hs with hs | hs | hs
    · rw [hs]
      decide
    · rw [hs]
      decide
    · rw [hs]
      decide
  have hreopen := undisturbed_reopenWindow ip s
  have hopen := (unmoved_reopenWindow ip s).1
  have hwindow : ∀ value, GoesOn s (processWindow ip reads s p value) := by
    intro value
    have htime := ackOnly_recordTimestamp (reopenWindow ip s) p value
    have hund : Undisturbed ip s (recordTimestamp (reopenWindow ip s) p value) := hreopen.trans htime.undisturbed
    have hmoved := (unmoved_recordTimestamp (reopenWindow ip s) p value).1.after hopen (unmoved_reopenWindow ip s).2
    have hr' : Receives ip irs (recordTimestamp (reopenWindow ip s) p value) fin := hr.undisturbed hund hmoved.state
    unfold processWindow
    dsimp only
    rw [if_neg (by rw [hp.inside]; decide), if_neg (by rw [hp.rst]; decide), if_neg (by rw [hp.syn]; decide)]
    have hgo := processAccepted_goesOn reads (p := p) hr' (by rw [hmoved.state]; exact hs) (by rw [hmoved.snd]; exact hflag)
      hwf (fun hne => (enters_of_accepted (hreopen.receiving hr.receiving) hwf (by rw [hopen.queue]; exact haddr) hne
        hp.inside).sameQueue htime.rcv) hp.ack hp.options
      (by rw [hmoved.state, hmoved.rxSequence]; exact hp.next) (by rw [hmoved.snd]; exact hnumber)
    unfold GoesOn at hgo ⊢
    rw [hmoved.state] at hgo
    exact hgo
  simp only [step]
  rw [if_pos hconnected]
  unfold socketPacketProcess
  cases hstamp : packetTimestamp ip s p with
  | none => exact hwindow none
  | some value =>
    have hyoung := hp.young value hstamp
    dsimp only
    rw [if_neg (by omega)]
    exact hwindow (some value)

/-- In every run, what is acknowledged in the closing states is right just where no probe is under way. --/
theorem acks_right_iff {irs : ULONG} {s₀ : Socket} {actions : List Action} (hs₀ : s₀.Established irs)
    (h : Run (step ip) (fun s a => a.Fresh s) s₀ actions s) (hs : s.state.finWaits) :
    AcksRight ip s ↔ s.snd.zeroWindowProbeHasData = false := by
  constructor
  · intro hright
    by_contra hflag
    rw [Bool.not_eq_false] at hflag
    -- the number of the probe is the last one of the range, behind the FIN
    have hending : s.snd.txSequence + 1 = endingTxSequence s := by
      rw [endingTxSequence, if_pos hflag]
    have haccepted := (ackCheck_ending ip s (h := ⟨0, s.snd.txSequence + 1, tcpAckBit, 0⟩)
      (show (tcpAckBit &&& tcpAckBit != 0) = true by decide) hending).1
    have habove : INT (s.snd.txSequence + 1 - s.snd.txSequence) > 0 := by
      rw [BitVec.add_comm, BitVec.add_sub_cancel]
      decide
    rw [hright.refuses ⟨0, s.snd.txSequence + 1, tcpAckBit, 0⟩ habove] at haccepted
    cases haccepted
  · intro hflag
    obtain ⟨fin, hr⟩ := receives_of_run hs₀ h
    refine ⟨fun reads p hfresh hp hnumber => segment_goesOn reads hr hs hflag hfresh hp hnumber, fun h habove => ?_⟩
    refine ackCheck_above ip s ?_
    rw [endingTxSequence, hflag]
    exact habove

end

/-- A connection that is closed with nothing on the way. --/
theorem acks_right_iff_idle :
    let s := step .ideal (.opened 0 0 1000 1000) (.disconnect true false)
    AcksRight .ideal s ↔ s.snd.zeroWindowProbeHasData = false :=
  @acks_right_iff _ _ 0 _ _ (opened_established 0 0 1000 (by decide)) (.single nofun) (.inl (by decide))

/-- The peer has closed its window, and a writer has come across it before the connection is closed. --/
def closedOnProbe : List Action := [.send [1] 1 false none, .disconnect true false]

/-- The acknowledgment of the FIN is not seen, and the number above it is taken for one. --/
theorem probe_hides_fin :
    ∃ s, Run (step .ideal) (fun s a => a.Fresh s) (.opened 0 0 1000 0) closedOnProbe s ∧ s.state = .finWait1 ∧
      Acceptable .ideal s (.plain 2 1 s.snd.txSequence tcpAckBit []) ∧
      ¬GoesOn s (step .ideal s (.segment (.plain 2 1 s.snd.txSequence tcpAckBit []) 0)) ∧
      (socketStateAckCheck .ideal s ⟨1, s.snd.txSequence + 1, tcpAckBit, 0⟩).1 = true := by
  have hrun : Run (step .ideal) (fun s a => a.Fresh s) (.opened 0 0 1000 0) closedOnProbe
    (closedOnProbe.foldl (step .ideal) (.opened 0 0 1000 0)) := .next (.next .start nofun) nofun
  refine ⟨_, hrun, by decide, ⟨by decide, by decide, by decide, nofun, by decide, by decide, by decide⟩, ?_, by decide⟩
  intro hgo
  exact absurd (show _ ∧ _ from hgo).1 (by decide)

end Netxduo
