import Netxduo.Tcp.Opened
import Netxduo.Tcp.Steady

/-! What somebody outside the connection can reach with a guess: a RST that misses the next number, a SYN, and an
    acknowledgment above what has been sent change nothing and are answered with one acknowledgment at most. The
    challenges of an instance share a budget that `_nx_tcp_periodic_processing` fills up again. -/

namespace Netxduo
open Runs

/-! ### Segments that miss -/

/-- The acknowledgment lies above the last number sent. --/
def AcksUnsent (s : Socket) (ack : ULONG) : Prop := INT (ack - endingTxSequence s) > 0 ∧ ack ≠ dataUnacked s

/-- A RST that does not hit the next number, a SYN, or an acknowledgment of what has not been sent. --/
def Blind (s : Socket) (p : Packet) : Prop :=
  if p.header.has tcpRstBit then p.header.sequenceNumber ≠ s.rcv.rxSequence
  else p.header.has tcpSynBit = true ∨ p.header.has tcpAckBit = true ∧ AcksUnsent s p.header.acknowledgmentNumber

/-- Nothing happens to the connection but that it may acknowledge once more what it has received. --/
structure Unmoved (s t : Socket) : Prop where
  state : t.state = s.state
  snd : t.snd = s.snd
  rxSequence : t.rcv.rxSequence = s.rcv.rxSequence
  finReceived : t.rcv.finReceived = s.rcv.finReceived
  finSequence : t.rcv.finSequence = s.rcv.finSequence
  queue : t.rcv.receiveQueue = s.rcv.receiveQueue
  head : t.rcv.receiveQueueHead = s.rcv.receiveQueueHead
  tail : t.rcv.receiveQueueTail = s.rcv.receiveQueueTail
  count : t.rcv.receiveQueueCount = s.rcv.receiveQueueCount
  suspended : t.rcv.receiveSuspensionList = s.rcv.receiveSuspensionList
  handed : t.handed = s.handed
  wire : ∃ sent, t.wire = s.wire ++ sent ∧ sent.length ≤ 1 ∧
    ∀ g ∈ sent, g.control = tcpAckBit ∧ g.acknowledgmentNumber = s.rcv.rxSequence ∧ g.octets = []

section
variable {ip : Ip} {s t u : Socket}

theorem Unmoved.refl (s : Socket) : Unmoved s s :=
  ⟨rfl, rfl, rfl, rfl, rfl, rfl, rfl, rfl, rfl, rfl, rfl, [], by simp⟩

theorem Unmoved.ite {c : Prop} [Decidable c] (h : Unmoved s t) (h' : Unmoved s u) : Unmoved s (if c then t else u) := by
  split
  · exact h
  · exact h'

/-- What happens first may be anything that says nothing. --/
theorem Unmoved.after (h : Unmoved t u) (ht : Unmoved s t) (hw : t.wire = s.wire) : Unmoved s u := by
  obtain ⟨sent, hsent, hlength, hpure⟩ := h.wire
  refine ⟨h.state.trans ht.state, h.snd.trans ht.snd, h.rxSequence.trans ht.rxSequence,
    h.finReceived.trans ht.finReceived, h.finSequence.trans ht.finSequence, h.queue.trans ht.queue,
    h.head.trans ht.head, h.tail.trans ht.tail, h.count.trans ht.count, h.suspended.trans ht.suspended,
    h.handed.trans ht.handed, sent, by rw [hsent, hw], hlength, fun g hg => ?_⟩
  rw [← ht.rxSequence]
  exact hpure g hg

end

section
variable (ip : Ip) (s : Socket)

theorem unmoved_packetSendAck (txSequence : ULONG) : Unmoved s (packetSendAck ip s txSequence) := by
  obtain ⟨hstate, -, -, -, hq, hsnd, -, hhanded, -⟩ := ackOnly_packetSendAck ip s txSequence
  have hbuild := ackOnly_sackOptionBuild ip s
  have hwire : (sackOptionBuild ip s).2.wire = s.wire := by
    unfold sackOptionBuild
    split
    · dsimp only
      split
      · rfl
      · rfl
    · rfl
  refine ⟨hstate, hsnd, hq.rxSequence, hq.finReceived, hq.finSequence, hq.queue, hq.head, hq.tail, hq.count,
    hq.suspended, hhanded, ?_⟩
  unfold packetSendAck packetSendControl Socket.packetAllocate
  dsimp only
  split
  · refine ⟨_, by rw [hwire], by simp, fun g hg => ?_⟩
    rw [List.mem_singleton] at hg
    subst hg
    exact ⟨rfl, hbuild.rcv.rxSequence, rfl⟩
  · exact ⟨[], by simp [hwire]⟩

/-! ### The exits of packet processing -/

theorem unmoved_challengeAck : Unmoved s (challengeAck ip s) := by
  have hspend : Unmoved s { s with challengeAckBudget := s.challengeAckBudget - 1 } :=
    ⟨rfl, rfl, rfl, rfl, rfl, rfl, rfl, rfl, rfl, rfl, rfl, [], by simp⟩
  exact .ite (.refl s) ((unmoved_packetSendAck ip _ _).after hspend rfl)

theorem unmoved_reopenWindow : Unmoved s (reopenWindow ip s) ∧ (reopenWindow ip s).wire = s.wire := by
  unfold reopenWindow Socket.belowLowWatermark
  split
  · dsimp only
    split
    · exact ⟨⟨rfl, rfl, rfl, rfl, rfl, rfl, rfl, rfl, rfl, rfl, rfl, [], by simp⟩, rfl⟩
    · exact ⟨⟨rfl, rfl, rfl, rfl, rfl, rfl, rfl, rfl, rfl, rfl, rfl, [], by simp⟩, rfl⟩
  · exact ⟨.refl s, rfl⟩

theorem unmoved_dsackRecord (left right : ULONG) :
    Unmoved s (dsackRecord s left right) ∧ (dsackRecord s left right).wire = s.wire := by
  unfold dsackRecord
  split
  · exact ⟨⟨rfl, rfl, rfl, rfl, rfl, rfl, rfl, rfl, rfl, rfl, rfl, [], by simp⟩, rfl⟩
  · exact ⟨.refl s, rfl⟩

theorem unmoved_answerOutside (p : Packet) : Unmoved s (answerOutside ip s p) := by
  obtain ⟨hrecord, hwire⟩ : Unmoved s _ ∧ _ = s.wire := unmoved_dsackRecord s p.header.sequenceNumber
    (p.header.sequenceNumber + p.dataLength)
  unfold answerOutside
  dsimp only
  split
  · exact .ite ((unmoved_packetSendAck ip _ _).after hrecord hwire) hrecord
  · exact .ite (unmoved_packetSendAck ip s _) (.refl s)

theorem unmoved_recordTimestamp (p : Packet) (value : Option ULONG) :
    Unmoved s (recordTimestamp s p value) ∧ (recordTimestamp s p value).wire = s.wire := by
  unfold recordTimestamp
  split
  · split
    · exact ⟨⟨rfl, rfl, rfl, rfl, rfl, rfl, rfl, rfl, rfl, rfl, rfl, [], by simp⟩, rfl⟩
    · exact ⟨.refl s, rfl⟩
  · exact ⟨.refl s, rfl⟩

theorem unmoved_sackOptionGet (options : List UInt8) :
    Unmoved s (sackOptionGet s options) ∧ (sackOptionGet s options).wire = s.wire := by
  unfold sackOptionGet
  split
  · split
    · exact ⟨⟨rfl, rfl, rfl, rfl, rfl, rfl, rfl, rfl, rfl, rfl, rfl, [], by simp⟩, rfl⟩
    · exact ⟨.refl s, rfl⟩
  · exact ⟨.refl s, rfl⟩

end

/-! ### An acknowledgment of what has not been sent -/

theorem int_sub_neg {a b : ULONG} (h : INT (a - b) > 0) : INT (b - a) < 0 := by
  rw [INT] at h ⊢
  have hneg : b - a = -(a - b) := by
    rw [BitVec.neg_sub, BitVec.add_comm, ← BitVec.sub_eq_add_neg]
  rw [hneg, BitVec.toInt_neg, Int.bmod_def]
  have := (a - b).toInt_lt
  omega

theorem endingTxSequence_congr {s t : Socket} (h : t.snd = s.snd) : endingTxSequence t = endingTxSequence s := by
  rw [endingTxSequence, endingTxSequence, h]

theorem dataUnacked_congr {s t : Socket} (h : t.snd = s.snd) (hs : t.state = s.state) : dataUnacked t = dataUnacked s := by
  unfold dataUnacked finPending
  rw [h, hs]

theorem AcksUnsent.congr {s t : Socket} {ack : ULONG} (h : AcksUnsent s ack) (ht : Unmoved s t) : AcksUnsent t ack := by
  obtain ⟨habove, hne⟩ := h
  refine ⟨?_, ?_⟩
  · rw [endingTxSequence_congr ht.snd]
    exact habove
  · rw [dataUnacked_congr ht.snd ht.state]
    exact hne

theorem releaseCount_above {start ending ack : ULONG} (h : INT (ending - ack) < 0) (queue : List TxPacket) :
    releaseCount start ending ack queue = 0 := by
  cases queue with
  | nil => rfl
  | cons p rest =>
    rw [releaseCount, if_pos (.inr (.inl h))]

/-- It is answered before anything else is looked at. --/
theorem ackCheck_unsent (ip : Ip) (s : Socket) {h : TcpHeader} (hack : h.has tcpAckBit = true)
    (hunsent : AcksUnsent s h.acknowledgmentNumber) :
    socketStateAckCheck ip s h = (false, packetSendAck ip s (endingTxSequence s)) := by
  obtain ⟨habove, hne⟩ := hunsent
  have hbelow : INT (endingTxSequence s - h.acknowledgmentNumber) < 0 := int_sub_neg habove
  have hending : h.acknowledgmentNumber ≠ endingTxSequence s := by
    intro heq
    rw [heq, BitVec.sub_self] at habove
    exact absurd habove (by decide)
  have htake : sackTakeAck ip s h.acknowledgmentNumber = s := by
    rw [sackTakeAck, if_neg]
    rintro ⟨-, -, hle, -⟩
    omega
  have hdup : checkDuplicate ip s (dataUnacked s) h.acknowledgmentNumber = s := by
    unfold checkDuplicate
    split
    · rw [if_neg fun hc => hne hc.2]
    · rfl
  have hcovers : ackCovers ip s (dataUnacked s) (endingTxSequence s) h.acknowledgmentNumber = (0, s) := by
    rw [ackCovers, if_neg hending]
    dsimp only
    rw [hdup, releaseCount_above hbelow]
  unfold socketStateAckCheck
  rw [if_pos hack]
  dsimp only
  rw [htake, hcovers]
  dsimp only
  rw [if_pos ⟨rfl, hending, habove⟩]

/-- What reading the SACK options of a segment leaves as it was. --/
theorem sackOptions_read (ip : Ip) (s : Socket) (p : Packet) :
    ∃ t, (if p.header.has tcpAckBit ∧ p.header.headerLength > 20 then sackOptionGet s p.options else s) = t ∧
      Unmoved s t ∧ Aside s t ∧ t.wire = s.wire := by
  have haside : Aside s (sackOptionGet s p.options) := (@sending_sackOptionGet s ip p.options).aside
  obtain ⟨hget, hwire⟩ := unmoved_sackOptionGet s p.options
  split
  · exact ⟨_, rfl, hget, haside, hwire⟩
  · exact ⟨_, rfl, .refl s, .refl s, rfl⟩

theorem unmoved_processAccepted (ip : Ip) (reads : Nat) {s : Socket} {p : Packet} (hack : p.header.has tcpAckBit = true)
    (hunsent : AcksUnsent s p.header.acknowledgmentNumber) : Unmoved s (processAccepted ip reads s p) := by
  obtain ⟨t, ht, hmoved, -, hwire⟩ := sackOptions_read ip s p
  unfold processAccepted
  dsimp only
  rw [ht, ackCheck_unsent ip t hack (hunsent.congr hmoved)]
  dsimp only
  rw [if_pos rfl]
  exact (unmoved_packetSendAck ip t _).after hmoved hwire

/-! ### A segment -/

theorem unmoved_processWindow (ip : Ip) (reads : Nat) {s : Socket} {p : Packet} (value : Option ULONG)
    (h : Blind s p) : Unmoved s (processWindow ip reads s p value) := by
  obtain ⟨hopen, hopenw⟩ := unmoved_reopenWindow ip s
  obtain ⟨hrec, hrecw⟩ := unmoved_recordTimestamp (reopenWindow ip s) p value
  have hmoved : Unmoved s (recordTimestamp (reopenWindow ip s) p value) := hrec.after hopen hopenw
  have hwire := hrecw.trans hopenw
  have hchallenge := (unmoved_challengeAck ip (recordTimestamp (reopenWindow ip s) p value)).after hmoved hwire
  unfold processWindow
  dsimp only
  split
  · exact (unmoved_answerOutside ip _ p).after hopen hopenw
  split
  · rename_i hrst
    rw [Blind, if_pos hrst] at h
    split
    · exact hmoved
    split
    · exact hchallenge
    · rename_i heq
      rw [not_not, hmoved.rxSequence] at heq
      exact absurd heq h
  · rename_i hrst
    rw [Blind, if_neg hrst] at h
    split
    · exact hchallenge
    · rename_i hsyn
      obtain ⟨hack, hunsent⟩ := h.resolve_left hsyn
      exact (unmoved_processAccepted ip reads hack (hunsent.congr hmoved)).after hmoved hwire

theorem unmoved_socketPacketProcess (ip : Ip) (reads : Nat) {s : Socket} {p : Packet} (h : Blind s p) :
    Unmoved s (socketPacketProcess ip reads s p) := by
  unfold socketPacketProcess
  split
  · split
    · exact unmoved_packetSendAck ip s _
    · exact unmoved_processWindow ip reads _ h
  · exact unmoved_processWindow ip reads _ h

/-! ### The budget -/

/-- The segment comes to the point where a challenge is sent. --/
def earnsChallenge (ip : Ip) (s : Socket) (p : Packet) : Bool :=
  let stale :=
    match packetTimestamp ip s p with
    | some value => !p.header.has tcpRstBit && decide (INT (value - s.rcv.tsRecent) < 0)
    | none => false
  !stale && !outsideOfWindow (reopenWindow ip s) p &&
    if p.header.has tcpRstBit then s.state != .timedWait && p.header.sequenceNumber != s.rcv.rxSequence
    else p.header.has tcpSynBit

/-- The step sends a challenge. --/
def Action.challenges (ip : Ip) (s : Socket) (a : Action) : Bool :=
  decide (State.established.code ≤ s.state.code) && s.challengeAckBudget != 0 && a.arrived.any (earnsChallenge ip s)

/-- From `s` to `t` so much of the budget is spent. --/
structure Spends (spent : Nat) (s t : Socket) : Prop where
  connectMss : t.connectMss = s.connectMss
  challengeAckBudget : t.challengeAckBudget + spent = s.challengeAckBudget

section
variable (ip : Ip) (s : Socket)

theorem Steady.spends {s t : Socket} (h : Steady s t) : Spends 0 s t := ⟨h.connectMss, h.challengeAckBudget⟩

theorem spends_challengeAck : Spends (if s.challengeAckBudget ≠ 0 then 1 else 0) s (challengeAck ip s) := by
  unfold challengeAck
  by_cases h : s.challengeAckBudget = 0
  · rw [if_pos h, if_neg (not_not.mpr h)]
    exact (Steady.refl s).spends
  · rw [if_neg h, if_pos h]
    obtain ⟨hm, hb⟩ := steady_packetSendAck ip { s with challengeAckBudget := s.challengeAckBudget - 1 } s.snd.txSequence
    refine ⟨hm, ?_⟩
    rw [hb]
    exact Nat.sub_add_cancel (Nat.pos_of_ne_zero h)

/-- A segment that passed the timestamp test spends one where it misses. --/
theorem spends_processWindow (reads : Nat) (p : Packet) (value : Option ULONG) :
    Spends (if s.challengeAckBudget ≠ 0 ∧ outsideOfWindow (reopenWindow ip s) p = false ∧
        (if p.header.has tcpRstBit then s.state ≠ .timedWait ∧ p.header.sequenceNumber ≠ s.rcv.rxSequence
        else p.header.has tcpSynBit = true) then 1 else 0) s (processWindow ip reads s p value) := by
  have hmoved := (unmoved_recordTimestamp (reopenWindow ip s) p value).1.after (unmoved_reopenWindow ip s).1
    (unmoved_reopenWindow ip s).2
  have hstate := hmoved.state
  have hrx := hmoved.rxSequence
  have hopen := steady_reopenWindow ip s
  have hrec := hopen.trans (steady_recordTimestamp _ p value)
  have hkeep : ∀ {t : Socket}, Steady (recordTimestamp (reopenWindow ip s) p value) t → Spends 0 s t :=
    fun h => (hrec.trans h).spends
  have hspend : Spends (if s.challengeAckBudget ≠ 0 then 1 else 0) s
      (challengeAck ip (recordTimestamp (reopenWindow ip s) p value)) := by
    obtain ⟨hm, hb⟩ := spends_challengeAck ip (recordTimestamp (reopenWindow ip s) p value)
    rw [hrec.challengeAckBudget] at hb
    exact ⟨hm.trans hrec.connectMss, hb⟩
  unfold processWindow
  dsimp only
  by_cases hout : outsideOfWindow (reopenWindow ip s) p = true
  · rw [if_pos hout, if_neg fun h => Bool.false_ne_true (h.2.1.symm.trans hout)]
    exact (hopen.trans (steady_answerOutside ip _ p)).spends
  have hin : outsideOfWindow (reopenWindow ip s) p = false := by simpa using hout
  rw [if_neg hout]
  by_cases hrst : p.header.has tcpRstBit = true
  · simp only [if_pos hrst]
    by_cases htimed : s.state = .timedWait
    · rw [if_pos (hstate.trans htimed), if_neg fun h => h.2.2.1 htimed]
      exact hkeep (.refl _)
    · rw [if_neg fun h => htimed (hstate.symm.trans h), hrx]
      by_cases hseq : p.header.sequenceNumber = s.rcv.rxSequence
      · rw [if_neg (not_not.mpr hseq), if_neg fun h => h.2.2.2 hseq]
        exact hkeep (steady_socketConnectionReset _)
      · rw [if_pos hseq]
        simpa [hin, htimed, hseq] using hspend
  · simp only [if_neg hrst]
    by_cases hsyn : p.header.has tcpSynBit = true
    · rw [if_pos hsyn]
      simpa [hin, hsyn] using hspend
    · rw [if_neg hsyn, if_neg fun h => hsyn h.2.2]
      exact hkeep (steady_processAccepted ip _ reads p)

theorem spends_socketPacketProcess (reads : Nat) (p : Packet) :
    Spends (if s.challengeAckBudget ≠ 0 ∧ earnsChallenge ip s p = true then 1 else 0) s
      (socketPacketProcess ip reads s p) := by
  unfold socketPacketProcess earnsChallenge
  cases packetTimestamp ip s p with
  | none =>
    have h := spends_processWindow ip s reads p none
    dsimp only
    convert h using 3
    simp
  | some value =>
    dsimp only
    by_cases hstale : p.header.has tcpRstBit = false ∧ INT (value - s.rcv.tsRecent) < 0
    · rw [if_pos hstale, if_neg (by simp [hstale.1, hstale.2])]
      exact (steady_packetSendAck ip s _).spends
    · rw [if_neg hstale]
      have h := spends_processWindow ip s reads p (some value)
      convert h using 3
      rw [not_and_or] at hstale
      rcases hstale with hstale | hstale
      · simp [Bool.not_eq_false _ ▸ hstale]
      · simp [hstale]

/-- A step spends one of the budget where it sends a challenge, and nothing else. --/
theorem step_spends (a : Action) : Spends (if a.challenges ip s then 1 else 0) s (step ip s a) := by
  cases a with
  | segment p reads =>
    simp only [step, Action.challenges, Action.arrived, List.any_cons, List.any_nil, Bool.or_false]
    by_cases hc : State.established.code ≤ s.state.code
    · rw [if_pos hc]
      simpa [hc] using spends_socketPacketProcess ip s reads p
    · rw [if_neg hc]
      simpa [hc] using (Steady.refl s).spends
  | receive wait =>
    simpa [Action.challenges, Action.arrived, step] using (steady_socketReceive ip s wait).spends
  | send octets addr copies wait =>
    simpa [Action.challenges, Action.arrived, step] using (sending_socketSend ip s octets addr copies wait).steady.spends
  | transmitCheck waiting =>
    simpa [Action.challenges, Action.arrived, step] using (sending_socketStateTransmitCheck ip s waiting).steady.spends
  | disconnect wait ipThread =>
    simpa [Action.challenges, Action.arrived, step] using (steady_socketDisconnect ip s wait ipThread).spends
  | disconnectResume => simpa [Action.challenges, Action.arrived, step] using (steady_disconnectResume s).spends
  | timer => simpa [Action.challenges, Action.arrived, step] using (steady_fastPeriodicProcessing ip s).spends
  | transmitted addr => exact ⟨rfl, by simp [Action.challenges, Action.arrived, step, packetTransmitRelease]⟩

end

/-! ### The instance -/

/-- The sockets of an instance and the budget they share. --/
structure Instance where
  sockets : Nat → Socket
  /-- `nx_ip_tcp_challenge_ack_budget` --/
  challengeAckBudget : Nat
  /-- The challenges sent since the budget was filled up. --/
  challengeAcks : Nat

inductive Instance.Action where
  /-- One of the sockets makes a step. --/
  | socket (i : Nat) (a : Netxduo.Action)
  /-- `_nx_tcp_periodic_processing`, once a second. --/
  | periodic

/-- The socket, with the budget of its instance. --/
def Instance.socket (n : Instance) (i : Nat) : Socket := { n.sockets i with challengeAckBudget := n.challengeAckBudget }

/-- One step of an instance whose budget is filled up to `limit`, `NX_TCP_CHALLENGE_ACK_LIMIT`. --/
def Instance.step (ip : Nat → Ip) (limit : Nat) (n : Instance) : Instance.Action → Instance
  | .socket i a =>
    let t := Netxduo.step (ip i) (n.socket i) a
    { sockets := Function.update n.sockets i t
      challengeAckBudget := t.challengeAckBudget
      challengeAcks := n.challengeAcks + if a.challenges (ip i) (n.socket i) then 1 else 0 }
  | .periodic => { n with challengeAckBudget := limit, challengeAcks := 0 }

/-- The instance `_nx_tcp_enable` leaves. --/
structure Instance.Enabled (limit : Nat) (n : Instance) : Prop where
  budget : n.challengeAckBudget = limit
  sent : n.challengeAcks = 0

/-- What has been sent and what is left make up the budget. --/
theorem challengeAcks_add_budget {ip : Nat → Ip} {limit : Nat} {n₀ n : Instance} {actions : List Instance.Action}
    (h₀ : n₀.Enabled limit) (h : Run (Instance.step ip limit) (fun _ _ => True) n₀ actions n) :
    n.challengeAcks + n.challengeAckBudget = limit := by
  refine h.invariant (P := fun _ n => n.challengeAcks + n.challengeAckBudget = limit) ?_ ?_
  · rw [h₀.sent, h₀.budget, Nat.zero_add]
  · intro _ n a ih _
    cases a with
    | periodic => exact Nat.zero_add limit
    | socket i a =>
      have hspend : _ = n.challengeAckBudget := (step_spends (ip i) (n.socket i) a).challengeAckBudget
      show n.challengeAcks + (if a.challenges (ip i) (n.socket i) then 1 else 0) +
        (Netxduo.step (ip i) (n.socket i) a).challengeAckBudget = limit
      omega

end Netxduo
