import Mathlib.Data.List.Perm.Subperm
import Netxduo.Mqtt.Client

/-! The identifiers of the packets that the client waits to see acknowledged: they are distinct as long as no identifier
    is taken that such a packet has. The counter starts anew with every CONNACK and wraps, and is not held against the
    transmit queue. -/

namespace Netxduo.Mqtt
open Runs

theorem forall_octet {P : UInt8 → Prop} (h : ∀ n : Fin 256, P (UInt8.ofNat n.val)) (c : UInt8) : P c := by
  have hc := h ⟨c.toNat, c.toNat_lt⟩
  rwa [UInt8.ofNat_toNat] at hc

/-- A packet whose identifier the client chose. --/
def TransmitPacket.own (p : TransmitPacket) : Bool :=
  p.fixedHeader >>> 4 == controlPublish || p.isSubscribe || p.isUnsubscribe

/-! ### Fixed headers -/

theorem publish_header (h : UInt8) : (h &&& (0xF6 : UInt8)) = (controlPublish <<< 4 ||| publishQosLevel1) →
    h >>> 4 = controlPublish ∧ h &&& (0xF0 : UInt8) ≠ controlSubscribe <<< 4 ∧ h &&& (0xF0 : UInt8) ≠ controlUnsubscribe <<< 4 := by
  revert h
  apply forall_octet
  decide +kernel

section headers
variable {p : TransmitPacket}

theorem control_of_isPublish (h : p.isPublish = true) : p.fixedHeader >>> 4 = controlPublish :=
  (publish_header _ (beq_iff_eq.mp h)).1

theorem own_of_isPublish (h : p.isPublish = true) : p.own = true := by
  simp [TransmitPacket.own, control_of_isPublish h]

theorem own_of_isSubscribe (h : p.isSubscribe = true) : p.own = true := by
  simp [TransmitPacket.own, h]

theorem own_of_isUnsubscribe (h : p.isUnsubscribe = true) : p.own = true := by
  simp [TransmitPacket.own, h]

theorem not_request_of_isPublish (h : p.isPublish = true) : p.isSubscribe = false ∧ p.isUnsubscribe = false := by
  unfold TransmitPacket.isSubscribe TransmitPacket.isUnsubscribe
  rw [control_of_isPublish h]
  decide

theorem own_request {packetId : BitVec 16} {op : UInt8} {body : List UInt8} (h : op = subscribeHeader ∨ op = unsubscribeHeader) :
    (TransmitPacket.mk packetId op body).own = true := by
  rcases h with rfl | rfl <;> simp only [TransmitPacket.own, TransmitPacket.isSubscribe, TransmitPacket.isUnsubscribe] <;>
    decide

theorem own_pubrec {packetId : BitVec 16} {body : List UInt8} :
    (TransmitPacket.mk packetId (controlPubrec <<< 4) body).own = false := by
  simp only [TransmitPacket.own, TransmitPacket.isSubscribe, TransmitPacket.isUnsubscribe]
  decide

end headers

namespace Client

/-- The identifiers of the client's own packets on the transmit queue. --/
def ownIds (c : Client) : List (BitVec 16) := (c.transmitQueue.filter TransmitPacket.own).map TransmitPacket.packetId

/-- And those of the packets that publish calls have in hand. --/
def takenIds (c : Client) : List (BitVec 16) := c.ownIds ++ c.publishing.map TransmitPacket.packetId

/-- The step takes an identifier. --/
def Takes (c : Client) : Action → Prop
  | .subscribe _ memory => c.state = .connected ∧ memory = true
  | .unsubscribe _ memory => c.state = .connected ∧ memory = true
  | .publishTake i => i < c.admitted.length
  | _ => False

/-- No identifier is taken that an unacknowledged packet has. --/
def TakesFresh (c : Client) (a : Action) : Prop := c.Takes a → c.packetIdentifier ∉ c.takenIds

/-- The action is a PUBACK, a SUBACK or an UNSUBACK of the packet. --/
def Action.acknowledges (p : TransmitPacket) : Action → Bool
  | .publishResponse r _ _ =>
    r.remainingLength == 2 && r.header >>> 4 == controlPuback && (p.packetId == r.packetId && p.isPublish)
  | .subUnsubAck header remainingLength packetId =>
    header >>> 4 == controlSuback && remainingLength == 3 && (p.packetId == packetId && p.isSubscribe) ||
      header >>> 4 == controlUnsuback && remainingLength == 2 && (p.packetId == packetId && p.isUnsubscribe)
  | _ => false

/-- The action is an acknowledgement, well formed or not. --/
def Action.IsAck : Action → Prop
  | .publishResponse r _ _ => r.header >>> 4 = controlPuback
  | .subUnsubAck _ _ _ => True
  | _ => False

/-! ### The invariant -/

structure Inv (c : Client) : Prop where
  distinct : c.takenIds.Nodup
  nonzero : ∀ packetId ∈ c.takenIds, packetId ≠ 0
  counter : c.packetIdentifier = 0 → c.state ≠ .connected ∧ c.admitted = []

section steps
variable {c d : Client} {a : Action}

theorem nextIdentifier_ne_zero (packetId : BitVec 16) : nextIdentifier packetId ≠ 0 := by
  unfold nextIdentifier
  split
  · decide
  · assumption

/-- Where no identifier is added, nothing can go wrong. --/
theorem Inv.fewer (h : c.Inv) (hids : d.takenIds.Subperm c.takenIds)
    (hcounter : d.packetIdentifier = 0 → d.state ≠ .connected ∧ d.admitted = []) : d.Inv where
  distinct := by
    obtain ⟨ids, hperm, hsub⟩ := hids
    exact hperm.nodup_iff.mp (h.distinct.sublist hsub)
  nonzero packetId hmem := h.nonzero packetId (hids.subset hmem)
  counter := hcounter

/-- One that is added is the counter's. --/
theorem Inv.more (h : c.Inv) (hids : d.takenIds.Perm (c.packetIdentifier :: c.takenIds))
    (hfresh : c.packetIdentifier ∉ c.takenIds) (hzero : c.packetIdentifier ≠ 0)
    (hcounter : d.packetIdentifier ≠ 0) : d.Inv where
  distinct := hids.nodup_iff.mpr (List.nodup_cons.mpr ⟨hfresh, h.distinct⟩)
  nonzero packetId hmem := by
    rcases List.mem_cons.mp (hids.mem_iff.mp hmem) with rfl | hold
    · exact hzero
    · exact h.nonzero packetId hold
  counter hd := absurd hd hcounter

theorem ownIds_enqueue {p : TransmitPacket} :
    (c.enqueue p).ownIds = c.ownIds ++ if p.own then [p.packetId] else [] := by
  unfold ownIds enqueue
  rw [List.filter_append, List.map_append]
  cases h : p.own <;> simp [h]

/-- A queue that has lost packets has no new identifiers. --/
theorem takenIds_sublist (hqueue : d.transmitQueue.Sublist c.transmitQueue) (hpublishing : d.publishing = c.publishing) :
    d.takenIds.Subperm c.takenIds := by
  unfold takenIds
  rw [hpublishing]
  exact (((hqueue.filter _).map _).append_right _).subperm

theorem release_spec (kind : TransmitPacket → Bool) : (c.release kind).transmitQueue.Sublist c.transmitQueue :=
  List.eraseP_sublist

theorem Inv.release (h : c.Inv) (kind : TransmitPacket → Bool) : (c.release kind).Inv :=
  h.fewer (takenIds_sublist (release_spec kind) rfl) h.counter

theorem Inv.subUnsub (h : c.Inv) {op : UInt8} {body : List UInt8} {memory : Bool}
    (hown : (TransmitPacket.mk c.packetIdentifier op body).own = true)
    (hfresh : c.state = .connected ∧ memory = true → c.packetIdentifier ∉ c.takenIds) : (c.subUnsub op body memory).Inv := by
  unfold Client.subUnsub
  split
  · exact h
  · rename_i hgo
    have hstate : c.state = .connected ∧ memory = true := by
      simpa using hgo
    refine h.more ?_ (hfresh hstate) (fun hzero => (h.counter hzero).1 hstate.1) (nextIdentifier_ne_zero _)
    show ((c.enqueue _).ownIds ++ c.publishing.map _).Perm _
    rw [ownIds_enqueue, if_pos hown, List.append_assoc]
    exact List.perm_middle

theorem Inv.publishTake (h : c.Inv) {i : Nat} (hfresh : i < c.admitted.length → c.packetIdentifier ∉ c.takenIds) :
    (c.publishTake i).Inv := by
  unfold Client.publishTake
  split
  · exact h
  · rename_i call hcall
    obtain ⟨hi, _⟩ := List.getElem?_eq_some_iff.mp hcall
    have hzero : c.packetIdentifier ≠ 0 := by
      intro hzero
      rw [(h.counter hzero).2] at hi
      exact absurd hi (Nat.not_lt_zero _)
    refine h.more ?_ (hfresh hi) hzero (nextIdentifier_ne_zero _)
    show (c.ownIds ++ (c.publishing ++ _).map _).Perm _
    rw [List.map_append, ← List.append_assoc]
    exact List.perm_append_singleton _ _

theorem Inv.publishStore (h : c.Inv) {i : Nat} {memory : Bool} : (c.publishStore i memory).Inv := by
  unfold Client.publishStore
  split
  · exact h
  · rename_i p hp
    obtain ⟨hi, hget⟩ := List.getElem?_eq_some_iff.mp hp
    have hperm : (p.packetId :: (c.publishing.eraseIdx i).map TransmitPacket.packetId).Perm
        (c.publishing.map TransmitPacket.packetId) := by
      rw [← List.map_cons, ← hget]
      exact (List.getElem_cons_eraseIdx_perm hi).map _
    have hdropped : (c.ownIds ++ (c.publishing.eraseIdx i).map TransmitPacket.packetId).Subperm c.takenIds :=
      (List.subperm_append_left _).mpr ((List.sublist_cons_self _ _).subperm.trans hperm.subperm)
    split
    · exact h.fewer hdropped h.counter
    · refine h.fewer ?_ h.counter
      show ((Client.enqueue _ p).ownIds ++ _).Subperm _
      rw [ownIds_enqueue]
      split
      · rw [List.append_assoc]
        exact (List.subperm_append_left _).mpr hperm.subperm
      · rw [List.append_nil]
        exact hdropped

theorem Inv.processPublish (h : c.Inv) {qos : Nat} {packetId : BitVec 16} {message : List UInt8} {memory : PublishMemory} :
    (c.processPublish qos packetId message memory).1.Inv := by
  have hreceived : ∀ messages, Inv { c with receiveQueue := messages } := fun _ =>
    h.fewer (takenIds_sublist (List.Sublist.refl _) rfl) h.counter
  have hkept : ∀ {d : Client}, d.Inv → ∀ answer : List UInt8, (d.enqueue ⟨packetId, controlPubrec <<< 4, answer⟩).Inv := by
    intro d hd answer
    refine hd.fewer ?_ hd.counter
    show ((d.enqueue _).ownIds ++ _).Subperm _
    rw [ownIds_enqueue, own_pubrec, if_neg Bool.false_ne_true, List.append_nil]
    exact List.Subperm.refl _
  unfold Client.processPublish
  dsimp only
  split
  · exact h
  · split
    · split
      · exact h
      · exact hreceived _
    · split
      · rename_i hqos
        subst hqos
        split
        · split
          · exact h
          · exact hreceived _
        · split
          · exact hkept h _
          · exact hkept (hreceived _) _
      · split
        · exact h
        · exact hreceived _

/-- Every step keeps the identifiers distinct, if it takes none that is in use. --/
theorem Inv.step (h : c.Inv) (hfresh : c.TakesFresh a) : (c.step a).Inv := by
  cases a with
  | subscribe body memory => exact h.subUnsub (own_request (.inl rfl)) hfresh
  | unsubscribe body memory => exact h.subUnsub (own_request (.inr rfl)) hfresh
  | publishCheck call =>
    show (c.publishCheck call).Inv
    unfold Client.publishCheck
    split
    · exact h
    · rename_i hstate
      refine h.fewer (List.Subperm.refl _) fun hzero => absurd (h.counter hzero).1 ?_
      exact fun hne => hstate hne
  | publishTake i => exact h.publishTake hfresh
  | publishStore i memory => exact h.publishStore
  | connect cleanSession =>
    show (c.connect cleanSession).Inv
    unfold Client.connect
    split
    · exact h
    · refine h.fewer (List.Subperm.refl _) fun hzero => ⟨?_, (h.counter hzero).2⟩
      rintro ⟨⟩
  | connectPacketSend =>
    show c.connectPacketSend.Inv
    unfold Client.connectPacketSend
    split
    · exact h.fewer (takenIds_sublist (List.nil_sublist _) rfl) h.counter
    · exact h
  | connectionEnd =>
    refine h.fewer (List.Subperm.refl _) fun hzero => ⟨?_, (h.counter hzero).2⟩
    rintro ⟨⟩
  | connack accepted =>
    show (c.processConnack accepted).Inv
    unfold Client.processConnack
    split
    · refine h.fewer (List.Subperm.refl _) fun hzero => absurd hzero ?_
      show ¬(if initialPacketId = 0 then 1 else initialPacketId) = 0
      decide
    · refine h.fewer (List.Subperm.refl _) fun hzero => ⟨?_, (h.counter hzero).2⟩
      rintro ⟨⟩
  | disconnect =>
    show c.processDisconnect.Inv
    unfold Client.processDisconnect
    split
    · exact h
    · refine h.fewer (takenIds_sublist List.filter_sublist rfl) fun hzero => ⟨?_, (h.counter hzero).2⟩
      rintro ⟨⟩
  | subUnsubAck header remainingLength packetId =>
    show (c.processSubUnsubAck header remainingLength packetId).Inv
    unfold Client.processSubUnsubAck
    split
    · split
      · exact h
      · exact h.release _
    · split
      · split
        · exact h
        · exact h.release _
      · exact h
  | publishResponse response memory stale =>
    show (c.processPublishResponse response memory stale).1.Inv
    unfold Client.processPublishResponse
    split
    · exact h
    · split
      · exact h.release _
      · split
        · dsimp only
          split
          · exact h
          · exact h.release _
        · exact h
  | publish qos packetId message memory => exact h.processPublish
  | receive => exact h.fewer (List.Subperm.refl _) h.counter

/-! ### Acknowledgements -/

/-- An acknowledgement releases the first packet that it is about. --/
theorem step_ack (hack : Action.IsAck a) :
    (c.step a).transmitQueue = c.transmitQueue.eraseP fun p => Action.acknowledges p a := by
  have hnone : ∀ {kind : TransmitPacket → Bool}, (∀ p, kind p = false) → c.transmitQueue = c.transmitQueue.eraseP kind :=
    fun h => (List.eraseP_of_forall_not fun p _ => by rw [h p]; exact Bool.false_ne_true).symm
  cases a with
  | publishResponse r memory stale =>
    have hheader : r.header >>> 4 = controlPuback := hack
    show (c.processPublishResponse r memory stale).1.transmitQueue = _
    unfold processPublishResponse Action.acknowledges
    by_cases hlength : r.remainingLength = 2
    · rw [if_neg (not_not.mpr hlength), if_pos hheader]
      simp [Client.release, hlength, hheader]
    · rw [if_pos hlength]
      exact hnone fun p => by simp [hlength]
  | subUnsubAck header remainingLength packetId =>
    show (c.processSubUnsubAck header remainingLength packetId).transmitQueue = _
    unfold processSubUnsubAck Action.acknowledges
    by_cases hsub : header >>> 4 = controlSuback
    · have hother : header >>> 4 ≠ controlUnsuback := by
        rw [hsub]
        decide
      rw [if_pos hsub]
      by_cases hlength : remainingLength = 3
      · rw [if_neg (not_not.mpr hlength)]
        simp [Client.release, hsub, hlength]
      · rw [if_pos hlength]
        exact hnone fun p => by simp [hlength, hother]
    · rw [if_neg hsub]
      by_cases hunsub : header >>> 4 = controlUnsuback
      · rw [if_pos hunsub]
        by_cases hlength : remainingLength = 2
        · rw [if_neg (not_not.mpr hlength)]
          simp [Client.release, hunsub, hlength]
        · rw [if_pos hlength]
          exact hnone fun p => by simp [hlength, hsub]
      · rw [if_neg hunsub]
        exact hnone fun p => by simp [hsub, hunsub]
  | _ => cases hack

/-- What is acknowledged is the client's own. --/
theorem own_of_acknowledges {p : TransmitPacket} (h : Action.acknowledges p a = true) :
    p.own = true ∧ ∀ q, Action.acknowledges q a = true → q.packetId = p.packetId := by
  cases a with
  | publishResponse r memory stale =>
    simp only [Action.acknowledges, Bool.and_eq_true, beq_iff_eq] at h
    refine ⟨own_of_isPublish h.2.2, ?_⟩
    intro q hq
    simp only [Action.acknowledges, Bool.and_eq_true, beq_iff_eq] at hq
    exact hq.2.1.trans h.2.1.symm
  | subUnsubAck header remainingLength packetId =>
    have hid : ∀ q, Action.acknowledges q (.subUnsubAck header remainingLength packetId) = true → q.packetId = packetId := by
      intro q hq
      simp only [Action.acknowledges, Bool.or_eq_true, Bool.and_eq_true, beq_iff_eq] at hq
      rcases hq with hq | hq <;> exact hq.2.1
    refine ⟨?_, fun q hq => (hid q hq).trans (hid p h).symm⟩
    simp only [Action.acknowledges, Bool.or_eq_true, Bool.and_eq_true, beq_iff_eq] at h
    rcases h with h | h
    · exact own_of_isSubscribe h.2.2
    · exact own_of_isUnsubscribe h.2.2
  | _ => cases h

/-- Where the identifiers are distinct, an acknowledgement releases its packet and no other. --/
theorem released_of_ack (hdistinct : c.ownIds.Nodup) (hack : Action.IsAck a) {p : TransmitPacket} (hp : p ∈ c.transmitQueue)
    (h : Action.acknowledges p a = true) :
    ∃ front back, c.transmitQueue = front ++ p :: back ∧ (c.step a).transmitQueue = front ++ back := by
  rw [step_ack hack]
  obtain ⟨q, front, back, hfront, hq, hqueue, herase⟩ := List.exists_of_eraseP (p := fun p => Action.acknowledges p a) hp h
  obtain ⟨hown, hsame⟩ := own_of_acknowledges h
  have hpq : p = q := by
    rw [hqueue] at hp
    rcases List.mem_append.mp hp with hmem | hmem
    · exact absurd h (hfront p hmem)
    · rcases List.mem_cons.mp hmem with rfl | hmem
      · rfl
      · exfalso
        unfold ownIds at hdistinct
        rw [hqueue, List.filter_append, List.filter_cons_of_pos (own_of_acknowledges hq).1, List.map_append,
          List.map_cons] at hdistinct
        refine (List.nodup_cons.mp (List.nodup_append.mp hdistinct).2.1).1 ?_
        rw [hsame q hq]
        exact List.mem_map_of_mem (List.mem_filter.mpr ⟨hmem, hown⟩)
  rw [hpq]
  exact ⟨front, back, hqueue, herase⟩

/-! ### Messages stay -/

theorem mem_release {kind : TransmitPacket → Bool} {p : TransmitPacket} (hp : p ∈ c.transmitQueue) (h : kind p = false) :
    p ∈ (c.release kind).transmitQueue :=
  (List.mem_eraseP_of_neg (by rw [h]; exact Bool.false_ne_true)).mpr hp

/-- A message is on the queue until it is acknowledged, or a clean session begins. --/
theorem message_stays {p : TransmitPacket} (hp : p ∈ c.transmitQueue) (hpublish : p.isPublish = true) :
    p ∈ (c.step a).transmitQueue ∨ Action.acknowledges p a = true ∨ (a = .connectPacketSend ∧ c.cleanSession = true) := by
  have hmore : ∀ {queue : List TransmitPacket}, p ∈ c.transmitQueue ++ queue := List.mem_append_left _ hp
  obtain ⟨hsubscribe, hunsubscribe⟩ := not_request_of_isPublish hpublish
  obtain ⟨_, hnosub, hnounsub⟩ := publish_header _ (beq_iff_eq.mp hpublish)
  cases a with
  | subscribe body memory =>
    refine .inl ?_
    show p ∈ (c.subUnsub _ body memory).transmitQueue
    unfold subUnsub
    split
    · exact hp
    · exact hmore
  | unsubscribe body memory =>
    refine .inl ?_
    show p ∈ (c.subUnsub _ body memory).transmitQueue
    unfold subUnsub
    split
    · exact hp
    · exact hmore
  | publishCheck call =>
    refine .inl ?_
    show p ∈ (c.publishCheck call).transmitQueue
    unfold publishCheck
    split <;> exact hp
  | publishTake i =>
    refine .inl ?_
    show p ∈ (c.publishTake i).transmitQueue
    unfold publishTake
    split <;> exact hp
  | publishStore i memory =>
    refine .inl ?_
    show p ∈ (c.publishStore i memory).transmitQueue
    unfold publishStore
    split
    · exact hp
    · split
      · exact hp
      · exact hmore
  | connect cleanSession =>
    refine .inl ?_
    show p ∈ (c.connect cleanSession).transmitQueue
    unfold connect
    split <;> exact hp
  | connectPacketSend =>
    by_cases hclean : c.cleanSession = true
    · exact .inr (.inr ⟨rfl, hclean⟩)
    · refine .inl ?_
      show p ∈ c.connectPacketSend.transmitQueue
      unfold connectPacketSend
      rw [if_neg hclean]
      exact hp
  | connectionEnd => exact .inl hp
  | connack accepted =>
    refine .inl ?_
    show p ∈ (c.processConnack accepted).transmitQueue
    unfold processConnack
    split <;> exact hp
  | disconnect =>
    refine .inl ?_
    show p ∈ c.processDisconnect.transmitQueue
    unfold processDisconnect
    split
    · exact hp
    · refine List.mem_filter.mpr ⟨hp, ?_⟩
      simp [TransmitPacket.control, hnosub, hnounsub]
  | subUnsubAck header remainingLength packetId =>
    refine .inl ?_
    rw [step_ack (a := .subUnsubAck header remainingLength packetId) trivial]
    refine (List.mem_eraseP_of_neg ?_).mpr hp
    simp [Action.acknowledges, hsubscribe, hunsubscribe]
  | publishResponse r memory stale =>
    by_cases hheader : r.header >>> 4 = controlPuback
    · by_cases hack : Action.acknowledges p (.publishResponse r memory stale) = true
      · exact .inr (.inl hack)
      · refine .inl ?_
        rw [step_ack (a := .publishResponse r memory stale) hheader]
        exact (List.mem_eraseP_of_neg (p := fun q => Action.acknowledges q (.publishResponse r memory stale)) hack).mpr hp
    · refine .inl ?_
      show p ∈ (c.processPublishResponse r memory stale).1.transmitQueue
      unfold processPublishResponse
      split
      · exact hp
      · split
        · dsimp only
          split
          · exact hp
          · refine mem_release hp ?_
            rw [beq_iff_eq.mp hpublish]
            simp [show ¬(controlPublish <<< 4 ||| publishQosLevel1) = controlPubrec <<< 4 by decide]
        · exact hp
  | publish qos packetId message memory =>
    refine .inl ?_
    show p ∈ (c.processPublish qos packetId message memory).1.transmitQueue
    unfold processPublish
    dsimp only
    split
    · exact hp
    · split
      · split <;> exact hp
      · split
        · split
          · split <;> exact hp
          · split <;> exact hmore
        · split <;> exact hp
  | receive => exact .inl hp

end steps

/-! ### Runs -/

theorem run_inv {c : Client} {actions : List Action} (hrun : Run step TakesFresh clientCreate actions c) : c.Inv := by
  refine hrun.invariant (P := fun _ c => c.Inv) ?_ fun _ _ _ h hfresh => h.step hfresh
  exact ⟨List.nodup_nil, fun _ h => absurd h List.not_mem_nil, fun _ => ⟨by decide, rfl⟩⟩

/-- A publish call of the application, from the look at the state to the stored packet. --/
def publishCall (octet : UInt8) : List Action := [.publishCheck ⟨false, [octet]⟩, .publishTake 0, .publishStore 0 true]

/-- A session that is resumed, or begins without being a clean one. --/
def connecting : List Action := [.connect false, .connectPacketSend, .connack true]

end Client

end Netxduo.Mqtt
