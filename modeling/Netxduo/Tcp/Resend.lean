import Netxduo.Tcp.AckCheck
import Netxduo.Tcp.Frame
import Netxduo.Tcp.Options

/-! What the transmit path leaves alone when it sends again or accounts for an acknowledgment: the receive
    queue, the numbers of the connection, and what the queued packets hold. -/

namespace Netxduo

/-- The packet, whether the driver is done with it or not. --/
def TxPacket.content (p : TxPacket) : TxPacket := { p with txDone := true }

/-- The two agree on the numbers of the flight and on the packets that make it up. --/
structure SameFlight (x x' : Transmit) : Prop where
  txSequence : x'.txSequence = x.txSequence
  finAcked : x'.finAcked = x.finAcked
  txWindowAdvertised : x'.txWindowAdvertised = x.txWindowAdvertised
  txOutstandingBytes : x'.txOutstandingBytes = x.txOutstandingBytes
  sndWinScaleValue : x'.sndWinScaleValue = x.sndWinScaleValue
  transmitSent : x'.transmitSent.map TxPacket.content = x.transmitSent.map TxPacket.content

theorem SameFlight.refl (x : Transmit) : SameFlight x x := ⟨rfl, rfl, rfl, rfl, rfl, rfl⟩

theorem SameFlight.trans {x x' x'' : Transmit} (h : SameFlight x x') (h' : SameFlight x' x'') : SameFlight x x'' :=
  ⟨h'.txSequence.trans h.txSequence, h'.finAcked.trans h.finAcked,
    h'.txWindowAdvertised.trans h.txWindowAdvertised, h'.txOutstandingBytes.trans h.txOutstandingBytes,
    h'.sndWinScaleValue.trans h.sndWinScaleValue, h'.transmitSent.trans h.transmitSent⟩

/-- The receive half, seen from the transmit path: nothing happens to it but that segments acknowledge what
    has been received. --/
structure Aside (s t : Socket) : Prop where
  state : t.state = s.state
  clientType : t.clientType = s.clientType
  connectMss : t.connectMss = s.connectMss
  sackPermitted : t.sackPermitted = s.sackPermitted
  rcv : SameQueue s.rcv t.rcv
  handed : t.handed = s.handed
  wire : ∃ sent, t.wire = s.wire ++ sent ∧ ∀ g ∈ sent, g.acknowledgmentNumber = s.rcv.rxSequence

/-- From `s` to `t` the transmit path at most sends octets again that are queued already. --/
structure Resends (s t : Socket) : Prop extends Aside s t where
  snd : SameFlight s.snd t.snd

/-- The two agree on the queue, and on what the window is computed from but what was sent last. --/
structure SameTerms (r r' : Receive) : Prop extends SameQueue r r' where
  rxWindowCap : r'.rxWindowCap = r.rxWindowCap
  rcvWinScaleValue : r'.rcvWinScaleValue = r.rcvWinScaleValue
  timestampEnabled : r'.timestampEnabled = r.timestampEnabled

/-- The two moreover agree on the window sent last. --/
structure SameWindow (r r' : Receive) : Prop extends SameTerms r r' where
  rxWindowLastSent : r'.rxWindowLastSent = r.rxWindowLastSent

/-- Any flight. --/
def FreeFlight (_ _ : Transmit) : Prop := True

/-- What the transmit path does to a socket, one thing after the other: it changes the transmit half within the
    bounds of `F`, makes a note in the receive half, or sends a segment with the window of the moment. --/
inductive Sending (ip : Ip) (F : Transmit → Transmit → Prop) : Socket → Socket → Prop
  | refl (s : Socket) : Sending ip F s s
  | quiet (s : Socket) {x : Transmit} (k : SackRecovery) (n : Nat) (h : F s.snd x) :
      Sending ip F s { s with snd := x, sack := k, asked := n }
  | noted (s : Socket) {r : Receive} (h : SameWindow s.rcv r) : Sending ip F s { s with rcv := r }
  | sent (s : Socket) {r : Receive} {g : Segment} (h : SameTerms s.rcv r)
      (last : r.rxWindowLastSent = windowField ip s <<< ip.rcvScale s)
      (ack : g.acknowledgmentNumber = s.rcv.rxSequence) (window : g.window = windowField ip s) (n : Nat) :
      Sending ip F s { s with wire := s.wire ++ [g], rcv := r, asked := n }
  | trans {s t u : Socket} (h : Sending ip F s t) (h' : Sending ip F t u) : Sending ip F s u

section
variable {s t u : Socket}

theorem Aside.refl (s : Socket) : Aside s s := ⟨rfl, rfl, rfl, rfl, .refl _, rfl, [], by simp⟩

theorem Aside.trans (h : Aside s t) (h' : Aside t u) : Aside s u := by
  obtain ⟨sent, hw, hack⟩ := h.wire
  obtain ⟨sent', hw', hack'⟩ := h'.wire
  refine ⟨h'.state.trans h.state, h'.clientType.trans h.clientType, h'.connectMss.trans h.connectMss,
    h'.sackPermitted.trans h.sackPermitted, h.rcv.trans h'.rcv, h'.handed.trans h.handed, sent ++ sent',
    by rw [hw', hw, List.append_assoc], fun g hg => ?_⟩
  rcases List.mem_append.mp hg with hg | hg
  · exact hack g hg
  · rw [hack' g hg, h.rcv.rxSequence]

theorem Aside.ite {c : Prop} [Decidable c] (h : Aside s t) (h' : Aside s u) : Aside s (if c then t else u) := by
  split
  · exact h
  · exact h'

/-- The transmit half may change. --/
theorem aside_snd (s : Socket) (x : Transmit) (k : SackRecovery) : Aside s { s with snd := x, sack := k } :=
  ⟨rfl, rfl, rfl, rfl, .refl _, rfl, [], by simp⟩

theorem AckOnly.aside (h : AckOnly s t) : Aside s t :=
  ⟨h.state, h.clientType, h.connectMss, h.sackPermitted, h.rcv, h.handed, h.wire⟩

theorem Resends.refl (s : Socket) : Resends s s := ⟨.refl s, .refl _⟩

theorem Resends.trans (h : Resends s t) (h' : Resends t u) : Resends s u :=
  ⟨h.toAside.trans h'.toAside, h.snd.trans h'.snd⟩

theorem Resends.ite {c : Prop} [Decidable c] (h : Resends s t) (h' : Resends s u) : Resends s (if c then t else u) := by
  split
  · exact h
  · exact h'

section
variable {ip : Ip} {F G : Transmit → Transmit → Prop}

theorem Sending.ite {c : Prop} [Decidable c] (h : Sending ip F s t) (h' : Sending ip F s u) :
    Sending ip F s (if c then t else u) := by
  split
  · exact h
  · exact h'

theorem Sending.mono (h : Sending ip F s t) (hFG : ∀ x x', F x x' → G x x') : Sending ip G s t := by
  induction h with
  | refl s => exact .refl s
  | quiet s k n h => exact .quiet s k n (hFG _ _ h)
  | noted s h => exact .noted s h
  | sent s h last ack window n => exact .sent s h last ack window n
  | trans _ _ ih ih' => exact ih.trans ih'

theorem Sending.free (h : Sending ip F s t) : Sending ip FreeFlight s t := h.mono fun _ _ _ => trivial

/-- Whatever the transmit path does, it stays beside the receive half. --/
theorem Sending.aside (h : Sending ip F s t) : Aside s t := by
  induction h with
  | refl s => exact .refl s
  | quiet s k n h => exact ⟨rfl, rfl, rfl, rfl, .refl _, rfl, [], by simp⟩
  | noted s h => exact ⟨rfl, rfl, rfl, rfl, h.toSameQueue, rfl, [], by simp⟩
  | sent s h last ack window n => exact ⟨rfl, rfl, rfl, rfl, h.toSameQueue, rfl, _, rfl, by simpa using ack⟩
  | trans _ _ ih ih' => exact ih.trans ih'

theorem Sending.resends (h : Sending ip SameFlight s t) : Resends s t := by
  refine ⟨h.aside, ?_⟩
  induction h with
  | refl s => exact .refl _
  | quiet s k n h => exact h
  | noted s h => exact .refl _
  | sent s h last ack window n => exact .refl _
  | trans _ _ ih ih' => exact ih.trans ih'

end

end

section
variable (ip : Ip) (s : Socket)

/-! ### Small steps -/

/-- The scoreboard and the questions asked may change. --/
theorem sending_sack {ip : Ip} (k : SackRecovery) (n : Nat) :
    Sending ip SameFlight s { s with sack := k, asked := n } :=
  .quiet s k n (.refl _)

theorem sending_snd {ip : Ip} (x : Transmit) (k : SackRecovery) :
    Sending ip FreeFlight s { s with snd := x, sack := k } :=
  .quiet s k s.asked trivial

theorem sending_flight {ip : Ip} {x : Transmit} (k : SackRecovery) (h : SameFlight s.snd x) :
    Sending ip SameFlight s { s with snd := x, sack := k } :=
  .quiet s k s.asked h

theorem sending_driverTakes : Sending ip SameFlight s (s.driverTakes ip).2 := sending_sack s _ _

theorem sending_delayedAck {ip : Ip} {F : Transmit → Transmit → Prop} (timeout : ULONG) :
    Sending ip F s { s with rcv.delayedAckTimeout := timeout } :=
  .noted s ⟨⟨⟨rfl, rfl, rfl, rfl, rfl, rfl, rfl, rfl, rfl, rfl, rfl⟩, rfl, rfl, rfl⟩, rfl⟩

theorem sending_retransmitSegment {F : Transmit → Transmit → Prop} (sequence : ULONG) (octets : List UInt8) :
    Sending ip F s (retransmitSegment ip s sequence octets) := by
  refine .sent s ?_ ?_ ?_ ?_ s.asked
  · exact ⟨⟨rfl, rfl, rfl, rfl, rfl, rfl, rfl, rfl, rfl, rfl, rfl⟩, rfl, rfl, rfl⟩
  · rfl
  · rfl
  · rfl

/-- A control segment that acknowledges `rxSequence`. --/
theorem sending_packetSendControl {F : Transmit → Transmit → Prop} (hF : ∀ x, F x x) (control txSequence : ULONG)
    (blocks : List SackBlock) (data : List UInt8) :
    Sending ip F s (packetSendControl ip s control txSequence s.rcv.rxSequence blocks data) := by
  unfold packetSendControl Socket.packetAllocate
  dsimp only
  split
  · refine .sent s ?_ ?_ ?_ ?_ (s.asked + 1)
    · exact ⟨⟨rfl, rfl, rfl, rfl, rfl, rfl, rfl, rfl, rfl, rfl, rfl⟩, rfl, rfl, rfl⟩
    · rfl
    · rfl
    · rfl
  · exact .quiet s s.sack (s.asked + 1) (hF s.snd)

theorem sending_sackOptionBuild {F : Transmit → Transmit → Prop} : Sending ip F s (sackOptionBuild ip s).2 := by
  unfold sackOptionBuild
  split
  · dsimp only
    split
    · exact .noted s ⟨⟨⟨rfl, rfl, rfl, rfl, rfl, rfl, rfl, rfl, rfl, rfl, rfl⟩, rfl, rfl, rfl⟩, rfl⟩
    · exact .refl s
  · exact .refl s

theorem sending_packetSendAck {F : Transmit → Transmit → Prop} (hF : ∀ x, F x x) (txSequence : ULONG) :
    Sending ip F s (packetSendAck ip s txSequence) :=
  ((sending_sackOptionBuild ip s).trans
    (sending_packetSendControl ip (sackOptionBuild ip s).2 hF tcpAckBit txSequence (sackOptionBuild ip s).1 [])).trans
    (sending_delayedAck _ _)

theorem content_txDone (q : List TxPacket) (addr : Nat) (done : Bool) :
    (q.map fun p => if p.addr = addr then { p with txDone := done } else p).map TxPacket.content =
      q.map TxPacket.content := by
  rw [List.map_map]
  apply List.map_congr_left
  intro p _
  show TxPacket.content (if p.addr = addr then _ else p) = _
  split <;> rfl

theorem sending_retransmitPacket (p : TxPacket) : Sending ip SameFlight s (retransmitPacket ip s p) :=
  ((sending_retransmitSegment ip s p.sequence p.octets).trans (sending_driverTakes ip _)).trans
    (sending_flight _ _ ⟨rfl, rfl, rfl, rfl, rfl, content_txDone _ _ _⟩)

theorem sending_dataSlice (p : TxPacket) (sequence bytes : ULONG) :
    Sending ip SameFlight s (dataSlice ip s p sequence bytes).2 :=
  sending_sack s _ _

theorem sending_packetSendProbe (txSequence : ULONG) (data : UInt8) :
    Sending ip SameFlight s (packetSendProbe ip s txSequence data) :=
  (sending_packetSendControl ip s .refl tcpAckBit txSequence [] [data]).trans (sending_delayedAck _ _)

/-! ### The scoreboard -/

theorem sending_sackGrow : Sending ip SameFlight s (sackGrow ip s).2 := by
  unfold sackGrow Socket.packetAllocate
  split
  · exact .refl s
  · dsimp only
    split
    · exact sending_sack s _ _
    · exact sending_sack s _ _

theorem sending_sackRebuildGrow (blocks : List SackBlock) (fack : ULONG) (discard : Bool) (tries : Nat) :
    Sending ip SameFlight s (sackRebuildGrow ip blocks fack discard tries s).2 := by
  induction tries generalizing s with
  | zero => exact .refl s
  | succ tries ih =>
    have hk : Sending ip SameFlight s _ := sending_sack s (sackRebuild s.sack blocks fack discard).2 s.asked
    have hgrow := hk.trans (sending_sackGrow ip _)
    unfold sackRebuildGrow
    dsimp only
    split
    · exact hk
    · split
      · exact hgrow.trans (ih _)
      · exact hgrow

theorem sending_sackUpdate (blocks : List SackBlock) (discard : Bool) :
    Sending ip SameFlight s (sackUpdate ip s blocks discard) := by
  unfold sackUpdate
  dsimp only
  split
  · exact sending_sackRebuildGrow ip s _ _ _ _
  · exact (sending_sackRebuildGrow ip s _ _ _ _).trans (sending_sack _ _ _)

theorem sending_sackInitialize {ip : Ip} : Sending ip SameFlight s (sackInitialize s) := by
  unfold sackInitialize
  split
  · exact .refl s
  · exact sending_sack s _ _

theorem sending_sackAdvance {ip : Ip} (ack : ULONG) : Sending ip SameFlight s (sackAdvance s ack).2 := by
  unfold sackAdvance
  exact .ite (sending_flight s _ ⟨rfl, rfl, rfl, rfl, rfl, rfl⟩) (sending_sack s _ _)

theorem sending_sackAllocate (blocks : List SackBlock) : Sending ip SameFlight s (sackAllocate ip s blocks) := by
  unfold sackAllocate Socket.packetAllocate
  split
  · dsimp only
    split
    · exact sending_sack s _ _
    · exact sending_sack s _ _
  · exact .refl s

theorem sending_sackRespond {ip : Ip} : Sending ip SameFlight s (sackRespond s) := by
  have hlost : Sending ip SameFlight s (if s.sackRecoveryActive ∧ s.sack.pages ≠ 0 then sackLostRetransmit s else s) := by
    unfold sackLostRetransmit
    split
    · split
      · exact .refl s
      · exact sending_sack s _ _
    · exact .refl s
  unfold sackRespond
  exact .ite (hlost.trans (sending_sack _ _ _)) hlost

theorem sending_sackRecoveryAck (ack : ULONG) : Sending ip SameFlight s (sackRecoveryAck ip s ack) := by
  have hstart : Sending ip SameFlight s _ := (sending_sackInitialize s).trans (sending_sackAdvance _ (sackAckData s ack))
  have hblocks := hstart.trans (sending_sackAllocate ip _ (sackBlocks (sackAdvance (sackInitialize s) (sackAckData s ack)).2))
  unfold sackRecoveryAck
  dsimp only
  split
  · exact ((hblocks.trans (sending_sackUpdate ip _ _ _)).trans (sending_sack _ _ _)).trans (sending_sackRespond _)
  · exact (hblocks.trans (sending_sack _ _ _)).trans (sending_sackRespond _)

theorem sending_sackRecoveryBegin : Sending ip SameFlight s (sackRecoveryBegin ip s) := by
  have hinit : Sending ip SameFlight s (if s.sack.flags.initialized then s
      else sackRecoveryAck ip s (sackDataEnd s - s.snd.txOutstandingBytes)) := by
    split
    · exact .refl s
    · exact sending_sackRecoveryAck ip s _
  unfold sackRecoveryBegin
  exact .ite hinit (.ite (hinit.trans (sending_flight _ _ ⟨rfl, rfl, rfl, rfl, rfl, rfl⟩))
    (hinit.trans (sending_flight _ _ ⟨rfl, rfl, rfl, rfl, rfl, rfl⟩)))

/-! ### Repairs -/

theorem sending_sackRecoverySent {ip : Ip} (sequence bytes : ULONG) (rescue : Bool) :
    Sending ip SameFlight s (sackRecoverySent s sequence bytes rescue) := by
  unfold sackRecoverySent
  dsimp only
  split
  · exact sending_sack s _ _
  · exact sending_sack s _ _

theorem sending_repairSend (r : Repair) (p : TxPacket) (sendBegin sendEnd : ULONG) :
    Sending ip SameFlight s (repairSend ip s r p sendBegin sendEnd).2 := by
  have hcopy := sending_dataSlice ip s p sendBegin (sendEnd - sendBegin)
  unfold repairSend
  split
  · dsimp only
    split
    · exact ((hcopy.trans (sending_sackRecoverySent _ _ _ _)).trans (sending_retransmitSegment ip _ _ _)).trans
        (sending_driverTakes ip _)
    · split
      · exact (hcopy.trans (sending_sackRecoverySent _ _ _ _)).trans (sending_retransmitPacket ip _ _)
      · exact hcopy
  · exact (sending_sackRecoverySent s _ _ _).trans (sending_retransmitPacket ip _ _)

theorem sending_sackRetransmit (rounds : Nat) : Sending ip SameFlight s (sackRetransmit ip rounds s) := by
  induction rounds generalizing s with
  | zero => exact .refl s
  | succ rounds ih =>
    have hask : Sending ip SameFlight s (s.txQueueStopped ip).2 := sending_sack s _ _
    have hcursor := fun c : Option Nat =>
      hask.trans (sending_sack _ { (s.txQueueStopped ip).2.sack with cursor := c } (s.txQueueStopped ip).2.asked)
    unfold sackRetransmit
    split
    · exact .refl s
    dsimp only
    split
    · exact hask
    rename_i r _
    split
    · exact hcursor none
    · exact hcursor _
    rename_i p _
    split
    · exact hcursor _
    · rename_i sendBegin sendEnd _
      have hsend := (hcursor (some p.addr)).trans (sending_repairSend ip _ r p sendBegin sendEnd)
      exact .ite (hsend.trans (ih _)) hsend

/-! ### The probe -/

theorem sending_probeSend : Sending ip SameFlight s (probeSend ip s) := by
  refine .trans ?_ (sending_packetSendProbe ip _ _ _)
  exact sending_flight s s.sack ⟨rfl, rfl, rfl, rfl, rfl, rfl⟩

theorem sending_windowProbe : Sending ip SameFlight s (windowProbe ip s) := by
  have hload : ∀ data, Sending ip SameFlight s (probeLoad s data) := fun data => sending_flight s s.sack ⟨rfl, rfl, rfl, rfl, rfl, rfl⟩
  unfold windowProbe
  split
  · split
    · split
      · exact (hload _).trans (sending_probeSend ip _)
      · exact .refl s
    · exact .ite (sending_probeSend ip s) (.refl s)
  · exact .ite (sending_probeSend ip s) (.refl s)

/-! ### The old flight -/

theorem sending_resendPacket (limit : ULONG) (p : TxPacket) (rounds : Nat) (cursor available : ULONG) :
    Sending ip SameFlight s (resendPacket ip limit p rounds cursor available s).socket := by
  induction rounds generalizing s cursor available with
  | zero => exact .refl s
  | succ rounds ih =>
    unfold resendPacket
    split
    · dsimp only
      generalize (if INT (cursor - p.sequence) > 0 then cursor else p.sequence) = sequence
      split
      · exact .refl s
      split
      · exact .refl s
      · exact ih _ _ _
      rename_i length _
      have hcopy : Sending ip SameFlight s (dataSlice ip s p sequence length).2 := sending_dataSlice ip s p _ _
      have hsend := fun octets : List UInt8 =>
        (hcopy.trans (sending_retransmitSegment ip _ sequence octets)).trans (sending_driverTakes ip _)
      split
      · split
        · split
          · split
            · exact (hsend _).trans (ih _ _ _)
            · exact hsend _
          · exact hsend _
        · split
          · exact hcopy.trans (sending_retransmitPacket ip _ _)
          · exact hcopy
      · exact sending_retransmitPacket ip s p
    · exact .refl s

theorem sending_resendRange (limit : ULONG) (q : List TxPacket) (cursor available : ULONG) :
    Sending ip SameFlight s (resendRange ip limit q cursor available s).2 := by
  induction q generalizing s cursor available with
  | nil => exact .refl s
  | cons p rest ih =>
    have hp := sending_resendPacket ip s limit p (p.octets.length + 1) cursor available
    unfold resendRange
    split
    · dsimp only
      split
      · exact hp.trans (ih _ _ _)
      · exact hp
    · exact .refl s

theorem sending_cursor {ip : Ip} (x : ULONG) : Sending ip SameFlight s { s with snd.txRtoNext := x } :=
  sending_flight s _ ⟨rfl, rfl, rfl, rfl, rfl, rfl⟩

theorem sending_retransmitAfterTimeout : Sending ip SameFlight s (retransmitAfterTimeout ip s) := by
  have hmove : Sending ip SameFlight s (if INT (dataUnacked s - s.snd.txRtoNext) > 0 then { s with snd.txRtoNext := dataUnacked s }
      else s) := by
    split
    · exact sending_cursor s _
    · exact .refl s
  unfold retransmitAfterTimeout
  exact .ite (.refl s) (.ite (sending_cursor s _) (.ite hmove (.ite (hmove.trans (sending_cursor _ _))
    (.ite hmove ((hmove.trans (sending_resendRange ip _ _ _ _ _)).trans (sending_cursor _ _))))))

theorem sending_retransmitLostCopy : Sending ip SameFlight s (retransmitLostCopy ip s).2 := by
  unfold retransmitLostCopy
  dsimp only
  split
  · split
    · exact .refl s
    · exact sending_resendRange ip s _ _ _ _
  · exact .refl s

/-! ### A fast retransmit or a timeout -/

theorem sending_rtoWalk {ip : Ip} (needFast : Bool) : Sending ip SameFlight s (rtoWalk s needFast) := by
  unfold rtoWalk
  split
  · split
    · exact sending_flight s _ ⟨rfl, rfl, rfl, rfl, rfl, rfl⟩
    · exact .refl s
  · exact .refl s

theorem sending_forgetBlocks {ip : Ip} (needFast : Bool) : Sending ip SameFlight s (forgetBlocks s needFast) := by
  unfold forgetBlocks
  split
  · exact sending_sack s _ _
  · exact .refl s

theorem sending_enterLoss {ip : Ip} (needFast : Bool) : Sending ip SameFlight s (enterLoss s needFast) := by
  unfold enterLoss
  split
  · dsimp only
    split
    · exact sending_flight s _ ⟨rfl, rfl, rfl, rfl, rfl, rfl⟩
    · exact sending_flight s _ ⟨rfl, rfl, rfl, rfl, rfl, rfl⟩
  · exact .refl s

theorem sending_retransmitWalk (needFast : Bool) (blocks : List SackBlock) (sackHigh : ULONG) (q : List TxPacket)
    (available : ULONG) : Sending ip SameFlight s (retransmitWalk ip needFast blocks sackHigh q available s) := by
  induction q generalizing s available with
  | nil => exact .refl s
  | cons p rest ih =>
    unfold retransmitWalk
    refine .ite (.refl s) (.ite (ih _ _) (.ite (.refl s) (.ite (ih _ _) (.ite ?_ (.ite (.refl s) ?_)))))
    · -- a part of the packet goes out as a copy
      generalize (if INT (p.sequence - dataUnacked s) > 0 then p.sequence else dataUnacked s) = first
      generalize (if s.snd.fastRecovery = false ∧ INT (s.snd.txRtoNext - first) > 0 then s.snd.txRtoNext
        else first) = sendBegin
      refine .ite (.refl s) ?_
      dsimp only
      generalize (if (if available < payloadMss ip s then available else payloadMss ip s) > p.endSequence - sendBegin
        then p.endSequence - sendBegin else if available < payloadMss ip s then available else payloadMss ip s) = bytes
      have hcopy : Sending ip SameFlight s (dataSlice ip s p sendBegin bytes).2 := sending_dataSlice ip s p _ _
      generalize dataSlice ip s p sendBegin bytes = res at hcopy
      obtain ⟨copy, s₁⟩ := res
      dsimp only at hcopy ⊢
      refine .ite hcopy ?_
      have hmark : Sending ip SameFlight s { s₁ with
          snd.txRtoNext := if s₁.snd.fastRecovery then s₁.snd.txRtoNext else sendBegin + bytes
          sack.txHighRxt := sendBegin + bytes } := by
        refine hcopy.trans ?_
        exact sending_flight s₁ _ ⟨rfl, rfl, rfl, rfl, rfl, rfl⟩
      cases copy with
      | none =>
        have hsend := hmark.trans (sending_retransmitPacket ip _ p)
        exact .ite hsend (hsend.trans (ih _ _))
      | some octets =>
        have hsend := (hmark.trans (sending_retransmitSegment ip _ sendBegin octets)).trans (sending_driverTakes ip _)
        exact .ite hsend (hsend.trans (ih _ _))
    · -- the packet goes out as it is
      have hmark : Sending ip SameFlight s (if s.snd.fastRecovery = false ∧ INT (s.snd.txRtoEnd - s.snd.txRtoNext) > 0 then
          { s with snd.txRtoNext := p.endSequence } else s) := .ite (sending_cursor s _) (.refl s)
      have hsend := hmark.trans (sending_retransmitPacket ip _ p)
      have hhigh : ∀ t : Socket, Sending ip SameFlight t (if INT (p.endSequence - t.sack.txHighRxt) > 0 then
          { t with sack.txHighRxt := p.endSequence } else t) := fun t => .ite (sending_sack t _ _) (.refl t)
      exact .ite (hsend.trans (hhigh _)) ((hsend.trans (hhigh _)).trans (ih _ _))

theorem sending_retransmitQueue (needFast : Bool) : Sending ip SameFlight s (retransmitQueue ip s needFast) := by
  have hloss : Sending ip SameFlight s _ := (sending_forgetBlocks s needFast).trans (sending_enterLoss _ needFast)
  exact .ite hloss (hloss.trans (sending_retransmitWalk ip _ _ _ _ _ _))

theorem sending_retransmitSack (needFast : Bool) : Sending ip SameFlight s (retransmitSack ip s needFast) := by
  have hbegin : Sending ip SameFlight s (if needFast = true ∧ s.sackRecoveryActive = false then
      { sackRecoveryBegin ip s with snd.timeout := (sackRecoveryBegin ip s).snd.timeoutRate } else s) := by
    refine .ite ((sending_sackRecoveryBegin ip s).trans ?_) (.refl s)
    exact sending_flight _ _ ⟨rfl, rfl, rfl, rfl, rfl, rfl⟩
  exact .ite (hbegin.trans (sending_sackRetransmit ip _ _)) hbegin

/-- `_nx_tcp_socket_retransmit` sends nothing new. --/
theorem sending_socketRetransmit (needFast : Bool) : Sending ip SameFlight s (socketRetransmit ip s needFast) := by
  have hwalk : Sending ip SameFlight s _ := sending_rtoWalk s needFast
  have hprobe : Sending ip SameFlight s { rtoWalk s needFast with snd.zeroWindowProbeHasData := false } := by
    refine hwalk.trans ?_
    exact sending_flight _ _ ⟨rfl, rfl, rfl, rfl, rfl, rfl⟩
  exact .ite (hwalk.trans (sending_windowProbe ip _))
    (.ite (hprobe.trans (sending_retransmitSack ip _ _)) (hprobe.trans (sending_retransmitQueue ip _ _)))

/-! ### The duplicates -/

theorem sending_thirdDuplicate (ack : ULONG) : Sending ip SameFlight s (thirdDuplicate ip s ack) := by
  have hcopy := sending_retransmitLostCopy ip s
  exact .ite (sending_socketRetransmit ip s true) (.ite (hcopy.trans (sending_socketRetransmit ip _ true)) hcopy)

theorem sending_duplicateAck (ack : ULONG) : Sending ip SameFlight s (duplicateAck ip s ack) := by
  have hcount : Sending ip SameFlight s { s with snd.duplicatedAckReceived := s.snd.duplicatedAckReceived + 1 } :=
    sending_flight s _ ⟨rfl, rfl, rfl, rfl, rfl, rfl⟩
  have hinflate : ∀ s : Socket, Sending ip SameFlight s (if s.sackPermitted then s
      else { s with snd.txWindowCongestion := s.snd.txWindowCongestion + s.connectMss }) := fun s =>
    .ite (.refl s) (sending_flight s _ ⟨rfl, rfl, rfl, rfl, rfl, rfl⟩)
  have hmore := hcount.trans (hinflate _)
  exact .ite (hcount.trans (sending_thirdDuplicate ip _ ack))
    (.ite (.ite (hmore.trans (sending_socketRetransmit ip _ false)) hmore) hcount)

theorem sending_checkDuplicate (start ack : ULONG) : Sending ip SameFlight s (checkDuplicate ip s start ack) := by
  unfold checkDuplicate
  split
  · exact .ite (sending_duplicateAck ip s ack) (.refl s)
  · exact .refl s

theorem sending_sackTakeAck (ack : ULONG) : Sending ip SameFlight s (sackTakeAck ip s ack) :=
  .ite (sending_sackRecoveryAck ip s ack) (.refl s)

theorem sending_resumeSending (ack : ULONG) : Sending ip SameFlight s (resumeSending ip s ack) := by
  have hreset : Sending ip SameFlight s (if s.snd.transmitSent = [] then { s with sack := s.sack.reset } else s) :=
    .ite (sending_sack s _ _) (.refl s)
  have hdrop : ∀ s : Socket, Sending ip SameFlight s (dropReachedBlocks s ack) := fun s => .ite (sending_sack s _ _) (.refl s)
  exact .ite (hreset.trans (sending_socketRetransmit ip _ false))
    (hreset.trans ((hdrop _).trans (sending_retransmitAfterTimeout ip _)))

/-! ### The acknowledgment -/

theorem sending_releasePackets {ip : Ip} (count : Nat) : Sending ip FreeFlight s (releasePackets s count) := by
  unfold releasePackets
  exact .ite (sending_snd s _ _) (.ite (sending_snd s _ _) (.ite (sending_snd s _ _) (sending_snd s _ _)))

theorem sending_growWindow (acked : ULONG) : Sending ip FreeFlight s (growWindow ip s acked) := by
  unfold growWindow
  exact .ite (.ite (.refl s) (sending_snd s _ _)) (.ite (.ite (sending_snd s _ _) (sending_snd s _ _)) (sending_snd s _ _))

theorem sending_creditAcked (start ack acked : ULONG) :
    Sending ip FreeFlight s (creditAcked ip s start ack acked) := by
  have hleave : Sending ip FreeFlight s (leaveRecovery s ack) := .ite (sending_snd s _ _) (.refl s)
  exact .ite (((hleave.trans (sending_snd _ _ _)).trans (sending_growWindow ip _ acked)).trans (sending_snd _ _ _)) (.refl s)

theorem sending_updateWindow {ip : Ip} (h : TcpHeader) (start ending endingRx : ULONG) :
    Sending ip FreeFlight s (updateWindow s h start ending endingRx) :=
  .ite (sending_snd s _ _) (.refl s)

theorem sending_probeAnswered {ip : Ip} (ack : ULONG) :
    Sending ip FreeFlight s (probeAnswered s ack) := .ite (sending_snd s _ _) (.refl s)

theorem sending_ackCovers (start ending ack : ULONG) :
    Sending ip FreeFlight s (ackCovers ip s start ending ack).2 := by
  unfold ackCovers
  split
  · exact .ite (sending_snd s _ _) (.refl s)
  · exact (sending_checkDuplicate ip s start ack).free

theorem sending_answerProbe (h : TcpHeader) (ending : ULONG) (count : Nat) :
    Sending ip FreeFlight s (answerProbe ip s h ending count) :=
  .ite (sending_packetSendAck ip s (fun _ => trivial) ending) (.refl s)

theorem sending_releaseAcked (ack acked : ULONG) (count : Nat) :
    Sending ip FreeFlight s (releaseAcked ip s ack acked count) := by
  have hrelease : Sending ip FreeFlight s (if count ≠ 0 then releasePackets s count else s) :=
    .ite (sending_releasePackets s count) (.refl s)
  exact .ite (.refl s) (hrelease.trans (sending_resumeSending ip _ ack).free)

/-- An acknowledgment is taken in beside the receive half. --/
theorem sending_socketStateAckCheck (h : TcpHeader) : Sending ip FreeFlight s (socketStateAckCheck ip s h).2 := by
  unfold socketStateAckCheck
  split
  · dsimp only
    have hcovers := (sending_sackTakeAck ip s h.acknowledgmentNumber).free.trans
      (sending_ackCovers ip _ (dataUnacked s) (endingTxSequence s) h.acknowledgmentNumber)
    split
    · exact hcovers.trans (sending_packetSendAck ip _ (fun _ => trivial) _)
    · exact ((((hcovers.trans (sending_answerProbe ip _ h _ _)).trans (sending_creditAcked ip _ _ _ _)).trans
        (sending_updateWindow _ h _ _ _)).trans (sending_probeAnswered _ _)).trans (sending_releaseAcked ip _ _ _ _)
  · exact .refl s

theorem sending_sackOptionGet {ip : Ip} (options : List UInt8) :
    Sending ip FreeFlight s (sackOptionGet s options) := by
  unfold sackOptionGet
  split
  · split
    · exact sending_snd s s.snd _
    · exact .refl s
  · exact .refl s

end

end Netxduo
