import Netxduo.Library.Runs
import Netxduo.Tcp.Hearing
import Netxduo.Tcp.System

/-! Every step of the system on the receive half: a segment is heard, a read hands out a packet, and nothing
    else touches the queue. -/

namespace Netxduo
open Serial Spans Runs

section
variable {ip : Ip} {s t : Socket}

/-! ### Sending -/

theorem sending_zeroWindowProbeArm {ip : Ip} (s : Socket) (octets : List UInt8) :
    Sending ip FreeFlight s (zeroWindowProbeArm s octets) := by
  have harm : Sending ip FreeFlight s (if s.snd.zeroWindowProbeHasData then s
      else
        { s with snd := { s.snd with
          zeroWindowProbeHasData := true
          zeroWindowProbeData := octets.headD 0
          zeroWindowProbeSequence := s.snd.txSequence
          zeroWindowProbeFailure := 0 } }) := .ite (.refl s) (sending_snd s _ _)
  exact .ite (.refl s) (.ite (harm.trans (sending_snd _ _ _)) harm)

theorem sending_sendBlocked {ip : Ip} (s : Socket) (octets : List UInt8) (wait : Option Nat) :
    Sending ip FreeFlight s (sendBlocked s octets wait).2 := by
  have harm : Sending ip FreeFlight s _ := sending_zeroWindowProbeArm s octets
  unfold sendBlocked
  cases wait with
  | some thread => exact harm.trans (sending_snd _ _ _)
  | none =>
    dsimp only
    split
    · exact harm
    · exact harm

theorem sending_newSegment (ip : Ip) (s : Socket) (octets : List UInt8) : Sending ip FreeFlight s (newSegment ip s octets) :=
  (sending_retransmitSegment ip s _ _).trans (sending_delayedAck _ _)

theorem sending_enqueueSent (ip : Ip) (s : Socket) (addr : Nat) (octets : List UInt8) (done : Bool) :
    Sending ip FreeFlight s (enqueueSent ip s addr octets done) :=
  .ite (sending_snd s _ _) (sending_snd s _ _)

theorem sending_sendPart (ip : Ip) (s : Socket) (part : List UInt8) (addr : Nat) :
    Sending ip FreeFlight s (sendPart ip s part addr).2 :=
  ((sending_newSegment ip s part).trans (sending_driverTakes ip _).free).trans (sending_enqueueSent ip _ _ _ _)

theorem sending_socketSend (ip : Ip) (s : Socket) (octets : List UInt8) (addr : Nat) (copies : Bool)
    (wait : Option Nat) : Sending ip FreeFlight s (socketSend ip s octets addr copies wait).2 := by
  have hstop : Sending ip FreeFlight s (s.txQueueStopped ip).2 := (sending_sack s _ _).free
  have hask : Sending ip FreeFlight s ((s.txQueueStopped ip).2.packetAllocate ip).2 := hstop.trans (sending_sack _ _ _).free
  unfold socketSend
  split
  · exact .refl s
  split
  · exact .refl s
  dsimp only
  split
  · split
    · split
      · exact hask.trans (sending_sendPart ip _ _ _)
      · exact hask
    · exact hstop.trans (sending_sendPart ip _ _ _)
  · exact hstop.trans (sending_sendBlocked _ _ _)

theorem sending_socketStateTransmitCheck (ip : Ip) (s : Socket) (waiting : ULONG) :
    Sending ip FreeFlight s (socketStateTransmitCheck ip s waiting) := by
  have hstop : Sending ip FreeFlight s (s.txQueueStopped ip).2 := (sending_sack s _ _).free
  unfold socketStateTransmitCheck
  split
  · exact .refl s
  · exact .ite (hstop.trans (sending_snd _ _ _)) hstop

/-! ### Closing -/

theorem undisturbed_disconnectFinish (s : Socket) : Undisturbed ip s (disconnectFinish s) := by
  have hflush : Undisturbed ip s (if s.snd.transmitSent ≠ [] then socketTransmitQueueFlush s else s) :=
    .ite (undisturbed_state s _ _ _ s.rcv.receiveSuspensionList) (.refl s)
  exact hflush.trans (undisturbed_state _ _ _ _ [])

theorem state_disconnectFinish (s : Socket) : (disconnectFinish s).state = s.state := by
  unfold disconnectFinish
  dsimp only
  split <;> rfl

theorem ackOnly_packetSendFin (ip : Ip) (s : Socket) (txSequence : ULONG) : AckOnly s (packetSendFin ip s txSequence) :=
  ackOnly_packetSendControl ip s _ _ _ _

theorem undisturbed_disconnectFin (ip : Ip) (s : Socket) : Undisturbed ip s (disconnectFin ip s) :=
  (undisturbed_state s _ _ _ s.rcv.receiveSuspensionList).trans (ackOnly_packetSendFin ip _ _).undisturbed

theorem sameSide_disconnectFin (ip : Ip) (s : Socket) (h : s.state = .established ∨ s.state = .closeWait) :
    SameSide s (disconnectFin ip s) := by
  intro _
  rw [disconnectFin, (ackOnly_packetSendFin ip _ _).state, disconnectEnter]
  rcases h with h | h
  · rw [h]
    exact ⟨by decide, rfl⟩
  · rw [h]
    exact ⟨by decide, rfl⟩

theorem undisturbed_waits (s : Socket) (waits : Bool) : Undisturbed ip s { s with disconnectSuspended := waits } :=
  ⟨id, rfl, rfl, rfl, rfl, [], by simp⟩

theorem socketDisconnect_spec (ip : Ip) (s : Socket) (wait ipThread : Bool) :
    Undisturbed ip s (socketDisconnect ip s wait ipThread) ∧ SameSide s (socketDisconnect ip s wait ipThread) := by
  have hfin := undisturbed_disconnectFin ip s
  unfold socketDisconnect
  split
  · exact ⟨.refl s, .of_state rfl⟩
  rename_i hstate
  have hopen : s.state = .established ∨ s.state = .closeWait := by
    by_contra h
    rw [not_or] at h
    exact hstate h
  have hside := sameSide_disconnectFin ip s hopen
  split
  · have hrst := undisturbed_packetSendRst ip s (h := ⟨s.rcv.rxSequence, s.snd.txSequence, tcpAckBit, 0⟩)
      (show (tcpAckBit &&& tcpAckBit != 0) = true by decide)
    refine ⟨(hrst.trans (undisturbed_socketBlockCleanup _)).trans (undisturbed_disconnectFinish _), .of_not ?_⟩
    rw [state_disconnectFinish]
    exact not_connected_cleanup _
  dsimp only
  split
  · exact ⟨hfin.trans (undisturbed_waits _ true), hside⟩
  · refine ⟨hfin.trans (undisturbed_disconnectFinish _), ?_⟩
    rw [SameSide, state_disconnectFinish]
    exact hside

theorem disconnectResume_spec (ip : Ip) (s : Socket) :
    Undisturbed ip s (disconnectResume s) ∧ SameSide s (disconnectResume s) := by
  unfold disconnectResume
  split
  · dsimp only
    rw [SameSide, state_disconnectFinish]
    have hclear : Undisturbed ip s { s with disconnectSuspended := false } := undisturbed_waits s false
    split
    · exact ⟨hclear.trans (undisturbed_disconnectFinish _), fun hc => ⟨hc, rfl⟩⟩
    · exact ⟨(hclear.trans (undisturbed_socketBlockCleanup _)).trans (undisturbed_disconnectFinish _),
        fun hc => absurd hc (not_connected_cleanup _)⟩
  · exact ⟨.refl s, .of_state rfl⟩

/-! ### The timer -/

theorem ackOnly_delayedAck_timer (ip : Ip) (s : Socket) : AckOnly s (delayedAck ip s) := by
  have hcounter : ∀ n : ULONG, AckOnly s { s with rcv.ackNPacketCounter := n } := fun n =>
    ⟨rfl, rfl, rfl, rfl, ⟨rfl, rfl, rfl, rfl, rfl, rfl, rfl, rfl, rfl, rfl, rfl⟩, rfl, rfl, rfl, [], by simp⟩
  unfold delayedAck
  exact .ite (.ite ((AckOnly.ite (hcounter _) (.refl s)).trans (ackOnly_packetSendAck ip _ _))
    (ackOnly_delayedAck s _)) (.refl s)

theorem retransmitTimeout_spec (ip : Ip) (s : Socket) :
    Undisturbed ip s (retransmitTimeout ip s) ∧ SameSide s (retransmitTimeout ip s) := by
  unfold retransmitTimeout
  split
  · have hsend := ((sending_snd s _ s.sack).trans (sending_socketRetransmit ip { s with snd := { s.snd with
      txSequenceRecover := s.snd.txSequence - 1
      fastRecovery := false } } false).free).aside
    exact ⟨hsend.undisturbed, .of_state hsend.state⟩
  split
  · have hfin : Aside s (packetSendFin ip { s with snd := { s.snd with
        timeoutRetries := s.snd.timeoutRetries + 1
        timeout := s.snd.timeoutRate <<< ((s.snd.timeoutRetries + 1) * s.snd.timeoutShift).toNat } }
        (s.snd.txSequence - 1)) := (aside_snd s _ s.sack).trans (ackOnly_packetSendFin ip _ _).aside
    exact ⟨hfin.undisturbed, .of_state hfin.state⟩
  split
  · exact ⟨undisturbed_socketBlockCleanup s, .of_not (not_connected_cleanup s)⟩
  · exact ⟨.refl s, .of_state rfl⟩

theorem fastPeriodicProcessing_spec (ip : Ip) (s : Socket) :
    Undisturbed ip s (fastPeriodicProcessing ip s) ∧ SameSide s (fastPeriodicProcessing ip s) := by
  have hack := ackOnly_delayedAck_timer ip s
  unfold fastPeriodicProcessing retransmitTimer
  generalize delayedAck ip s = s₁ at hack ⊢
  have htick : Aside s₁ { s₁ with snd.stallTicks := s₁.snd.stallTicks + ip.tcpFastTimerRate } := (aside_snd s₁ _ s₁.sack)
  have hund : Undisturbed ip s _ := hack.undisturbed.trans htick.undisturbed
  split
  · dsimp only
    split
    · exact ⟨hund.trans (undisturbed_socketConnectionReset _), .of_not (not_connected_reset _)⟩
    split
    · exact ⟨hund.trans (aside_snd _ _ _).undisturbed, .of_state hack.state⟩
    split
    · exact ⟨hund.trans (undisturbed_socketConnectionReset _), .of_not (not_connected_reset _)⟩
    · obtain ⟨h₁, h₂⟩ := retransmitTimeout_spec ip
        { s₁ with snd.stallTicks := s₁.snd.stallTicks + ip.tcpFastTimerRate }
      exact ⟨hund.trans h₁, (SameSide.of_state hack.state).trans h₂⟩
  · exact ⟨hack.undisturbed.trans (aside_snd _ _ _).undisturbed, .of_state hack.state⟩

/-! ### A step -/

/-- The segment of an arrival. --/
def Action.arrived : Action → List Packet
  | .segment p _ => [p]
  | _ => []

/-- The segment of an arrival is cut at the right edge of the window. --/
def Action.cut (ip : Ip) (s : Socket) (a : Action) : Bool := a.arrived.any (straddles (reopenWindow ip s))

/-- A segment comes with a length that fits it, in a packet that is not queued. --/
def Action.Fresh (s : Socket) (a : Action) : Prop :=
  ∀ p ∈ a.arrived, p.WellFormed ∧ p.addr ∉ s.rcv.receiveQueue.map (·.addr)

theorem Progress.hears {ready pending ready' : List Packet} (h : Progress [] [] s ready pending t ready' pending)
    (cut : Bool) (arrived : List Packet) : ∃ out, Hears cut arrived s ready pending t ready' pending out [] false := by
  obtain ⟨out, hh, hr, hx, ht, hl, hc, sent, hw, hack⟩ := h.moved
  refine ⟨out, hh, hr, hx, ht, hl, ?_, ⟨sent, hw, fun g hg _ => hack g hg⟩, .inl ⟨h.finReceived, h.finSequence⟩, nofun,
    fun hc => ?_, by simp⟩
  · intro q hq
    obtain ⟨o, ho, hqo⟩ := hc q hq
    exact ⟨o, List.mem_append_right _ ho, hqo.slice (.refl _ o)⟩
  · rw [Bool.or_false]
    exact SameSide.of_state h.state hc

/-- Every step of the system, seen from the receive half. --/
theorem step_hears {d : ULONG} {ready pending : List Packet} (a : Action)
    (h : Receiving ip d s.rcv ready pending)
    (hd : s.state.connected → s.state.finTaken = false → d = s.rcv.rxSequence) (ha : a.Fresh s) :
    ∃ ready' pending' out front fin,
      Hears (a.cut ip s) a.arrived s ready pending (step ip s a) ready' pending' out front fin ∧
      Receiving ip (d + BitVec.ofNat 32 (octetsOf front).length) (step ip s a).rcv ready' pending' := by
  have hquiet : ∀ {t : Socket}, Undisturbed ip s t → SameSide s t →
      ∃ ready' pending' out front fin, Hears (a.cut ip s) a.arrived s ready pending t ready' pending' out front fin ∧
        Receiving ip (d + BitVec.ofNat 32 (octetsOf front).length) t.rcv ready' pending' := by
    intro t ht hstate
    exact ⟨ready, pending, [], [], false, ht.hears hstate _ _, by simpa using ht.receiving h⟩
  have haside : ∀ {t : Socket}, Aside s t →
      ∃ ready' pending' out front fin, Hears (a.cut ip s) a.arrived s ready pending t ready' pending' out front fin ∧
        Receiving ip (d + BitVec.ofNat 32 (octetsOf front).length) t.rcv ready' pending' :=
    fun ht => hquiet ht.undisturbed (.of_state ht.state)
  cases a with
  | segment p reads =>
    obtain ⟨hp, hfresh⟩ := ha p (List.mem_singleton_self p)
    simp only [step]
    split
    · have hcut : Action.cut ip s (.segment p reads) = straddles (reopenWindow ip s) p := by
        simp [Action.cut, Action.arrived]
      rw [hcut]
      exact socketPacketProcess_hears reads h hd hp hfresh
    · exact haside (.refl s)
  | receive wait =>
    obtain ⟨ready', hp, hr, -⟩ := socketReceive_delivers h wait
    obtain ⟨out, hh⟩ := hp.hears (Action.cut ip s (.receive wait)) (Action.arrived (.receive wait))
    refine ⟨ready', pending, out, [], false, hh, ?_⟩
    rw [octetsOf_nil, List.length_nil, BitVec.add_zero]
    exact hr
  | send octets addr copies wait => exact haside (sending_socketSend ip s octets addr copies wait).aside
  | transmitCheck waiting => exact haside (sending_socketStateTransmitCheck ip s waiting).aside
  | disconnect wait ipThread =>
    obtain ⟨h₁, h₂⟩ := socketDisconnect_spec ip s wait ipThread
    exact hquiet h₁ h₂
  | disconnectResume =>
    obtain ⟨h₁, h₂⟩ := disconnectResume_spec ip s
    exact hquiet h₁ h₂
  | timer =>
    obtain ⟨h₁, h₂⟩ := fastPeriodicProcessing_spec ip s
    exact hquiet h₁ h₂
  | transmitted addr => exact haside (aside_snd s _ s.sack)

end

end Netxduo
