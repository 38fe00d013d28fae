import Netxduo.Mqtt.Exchange

/-! What the client does to a message at QoS 2: it goes to the application once, and its identifier is free again when the
    PUBCOMP is sent. For every identifier, what the broker waits for, what the client keeps and what is on its way tell one
    story. -/

namespace Netxduo.Mqtt
open Runs

namespace Exchange

/-! ### What the client keeps -/

/-- The client resumes its sessions, and the only copies that look like a PUBREC are those of a PUBREC. --/
structure Quiet (c : Client) : Prop where
  resumed : c.cleanSession = false
  plain : ∀ p ∈ c.transmitQueue, p.isPubrec = true → p.fixedHeader = controlPubrec <<< 4
  outgoing : ∀ p ∈ c.publishing, p.isPubrec = false

section client
variable {c : Client} {a : Action} {packetId other : BitVec 16}

theorem pubrec_header (h : UInt8) : (h &&& (0xF6 : UInt8)) = controlPubrec <<< 4 → h &&& (0xF0 : UInt8) = controlPubrec <<< 4 := by
  revert h
  apply forall_octet
  decide +kernel

theorem request_header (h : UInt8) : h >>> 4 = controlSubscribe ∨ h >>> 4 = controlUnsubscribe ∨
    (h &&& (0xF6 : UInt8)) = (controlPublish <<< 4 ||| publishQosLevel1) → h &&& (0xF0 : UInt8) ≠ controlPubrec <<< 4 := by
  revert h
  apply forall_octet
  decide +kernel

theorem kept_enqueue {p : TransmitPacket} (h : p.isPubrec = false) : kept (c.enqueue p) packetId = kept c packetId := by
  unfold kept Client.enqueue
  rw [List.countP_append]
  simp [h]

/-- What is no PUBREC may be released. --/
theorem kept_release {kind : TransmitPacket → Bool} (h : ∀ p, kind p = true → p.isPubrec = false) :
    kept (c.release kind) packetId = kept c packetId := by
  unfold kept Client.release
  rcases List.exists_or_eq_self_of_eraseP kind c.transmitQueue with hsame | ⟨p, front, back, _, hp, hqueue, herase⟩
  · rw [hsame]
  · dsimp only
    rw [herase, hqueue, List.countP_append, List.countP_append, List.countP_cons]
    simp [h p hp]

theorem Quiet.release (h : Quiet c) (kind : TransmitPacket → Bool) : Quiet (c.release kind) where
  resumed := h.resumed
  plain p hp := h.plain p (List.mem_of_mem_eraseP hp)
  outgoing := h.outgoing

theorem Quiet.enqueue (h : Quiet c) {p : TransmitPacket} (hp : p.isPubrec = true → p.fixedHeader = controlPubrec <<< 4) :
    Quiet (c.enqueue p) where
  resumed := h.resumed
  plain q hq := by
    rcases List.mem_append.mp hq with hold | hnew
    · exact h.plain q hold
    · cases List.mem_singleton.mp hnew
      exact hp
  outgoing := h.outgoing

theorem not_pubrec_of_request {op : UInt8} {body : List UInt8} (h : op = subscribeHeader ∨ op = unsubscribeHeader) :
    (TransmitPacket.mk packetId op body).isPubrec = false := by
  rcases h with rfl | rfl <;> simp only [TransmitPacket.isPubrec, TransmitPacket.control] <;> decide

theorem subUnsub_keeps (h : Quiet c) {op : UInt8} {body : List UInt8} {memory : Bool}
    (hop : op = subscribeHeader ∨ op = unsubscribeHeader) :
    Quiet (c.subUnsub op body memory) ∧ ∀ packetId, kept (c.subUnsub op body memory) packetId = kept c packetId := by
  have hnot := @not_pubrec_of_request c.packetIdentifier op body hop
  unfold Client.subUnsub
  split
  · exact ⟨h, fun _ => rfl⟩
  · have hquiet := h.enqueue (p := ⟨c.packetIdentifier, op, body⟩) fun hp => by rw [hnot] at hp; cases hp
    exact ⟨⟨hquiet.resumed, hquiet.plain, hquiet.outgoing⟩, fun _ => kept_enqueue hnot⟩

theorem publishTake_keeps (h : Quiet c) {i : Nat} :
    Quiet (c.publishTake i) ∧ ∀ packetId, kept (c.publishTake i) packetId = kept c packetId := by
  unfold Client.publishTake
  split
  · exact ⟨h, fun _ => rfl⟩
  · refine ⟨⟨h.resumed, h.plain, ?_⟩, fun _ => rfl⟩
    intro p hp
    rcases List.mem_append.mp hp with hold | hnew
    · exact h.outgoing p hold
    · cases List.mem_singleton.mp hnew
      simp only [TransmitPacket.isPubrec, TransmitPacket.control]
      split <;> decide

theorem publishStore_keeps (h : Quiet c) {i : Nat} {memory : Bool} :
    Quiet (c.publishStore i memory) ∧ ∀ packetId, kept (c.publishStore i memory) packetId = kept c packetId := by
  unfold Client.publishStore
  split
  · exact ⟨h, fun _ => rfl⟩
  · rename_i p hp
    have hnot := h.outgoing p (List.mem_of_getElem? hp)
    have hquiet : Quiet { c with publishing := c.publishing.eraseIdx i } :=
      ⟨h.resumed, h.plain, fun q hq => h.outgoing q (List.mem_of_mem_eraseIdx hq)⟩
    split
    · exact ⟨hquiet, fun _ => rfl⟩
    · exact ⟨hquiet.enqueue (fun hp => by rw [hnot] at hp; cases hp), fun _ => kept_enqueue hnot⟩

theorem subUnsubAck_keeps (h : Quiet c) {header : UInt8} {remainingLength : Nat} :
    Quiet (c.processSubUnsubAck header remainingLength packetId) ∧
      ∀ other, kept (c.processSubUnsubAck header remainingLength packetId) other = kept c other := by
  unfold Client.processSubUnsubAck
  split
  · split
    · exact ⟨h, fun _ => rfl⟩
    · refine ⟨h.release _, fun _ => kept_release ?_⟩
      intro p hp
      rw [Bool.and_eq_true] at hp
      simpa [TransmitPacket.isPubrec, TransmitPacket.control] using request_header _ (.inl (beq_iff_eq.mp hp.2))
  · split
    · split
      · exact ⟨h, fun _ => rfl⟩
      · refine ⟨h.release _, fun _ => kept_release ?_⟩
        intro p hp
        rw [Bool.and_eq_true] at hp
        simpa [TransmitPacket.isPubrec, TransmitPacket.control] using request_header _ (.inr (.inl (beq_iff_eq.mp hp.2)))
    · exact ⟨h, fun _ => rfl⟩

theorem puback_keeps (h : Quiet c) {r : PublishResponse} {memory : Bool} {stale : UInt8}
    (hr : r.header >>> 4 = controlPuback) :
    Quiet (c.processPublishResponse r memory stale).1 ∧
      ∀ packetId, kept (c.processPublishResponse r memory stale).1 packetId = kept c packetId := by
  unfold Client.processPublishResponse
  split
  · exact ⟨h, fun _ => rfl⟩
  · refine ⟨h.release _, fun _ => kept_release ?_⟩
    intro p hp
    rw [Bool.and_eq_true] at hp
    simpa [TransmitPacket.isPubrec, TransmitPacket.control] using request_header _ (.inr (.inr (beq_iff_eq.mp hp.2)))

/-- A message at QoS 0 or 1 leaves nothing on the transmit queue. --/
theorem publish_keeps (h : Quiet c) {qos : Nat} {octets : List UInt8} {memory : Client.PublishMemory} (hqos : qos ≤ 1) :
    Quiet (c.processPublish qos packetId octets memory).1 ∧
      ∀ other, kept (c.processPublish qos packetId octets memory).1 other = kept c other := by
  have hreceived : ∀ messages, Quiet { c with receiveQueue := messages } := fun _ => ⟨h.resumed, h.plain, h.outgoing⟩
  unfold Client.processPublish
  dsimp only
  split
  · exact ⟨h, fun _ => rfl⟩
  · split
    · split
      · exact ⟨h, fun _ => rfl⟩
      · exact ⟨hreceived _, fun _ => rfl⟩
    · rw [if_neg (by omega)]
      split
      · exact ⟨h, fun _ => rfl⟩
      · exact ⟨hreceived _, fun _ => rfl⟩

/-- Other traffic neither adds nor takes a PUBREC. --/
theorem other_keeps (h : Quiet c) (ha : Allowed (.other a)) :
    Quiet (c.step a) ∧ ∀ packetId, kept (c.step a) packetId = kept c packetId := by
  cases a with
  | subscribe body memory => exact subUnsub_keeps h (.inl rfl)
  | unsubscribe body memory => exact subUnsub_keeps h (.inr rfl)
  | publishCheck call =>
    show Quiet (c.publishCheck call) ∧ ∀ packetId, kept (c.publishCheck call) packetId = _
    unfold Client.publishCheck
    split
    · exact ⟨h, fun _ => rfl⟩
    · exact ⟨⟨h.resumed, h.plain, h.outgoing⟩, fun _ => rfl⟩
  | publishTake i => exact publishTake_keeps h
  | publishStore i memory => exact publishStore_keeps h
  | connect cleanSession =>
    show Quiet (c.connect cleanSession) ∧ ∀ packetId, kept (c.connect cleanSession) packetId = _
    unfold Client.connect
    split
    · exact ⟨h, fun _ => rfl⟩
    · exact ⟨⟨ha, h.plain, h.outgoing⟩, fun _ => rfl⟩
  | connectPacketSend =>
    show Quiet c.connectPacketSend ∧ ∀ packetId, kept c.connectPacketSend packetId = _
    unfold Client.connectPacketSend
    rw [if_neg (by rw [h.resumed]; exact Bool.false_ne_true)]
    exact ⟨h, fun _ => rfl⟩
  | connack accepted =>
    cases ha
    exact ⟨⟨h.resumed, h.plain, h.outgoing⟩, fun _ => rfl⟩
  | subUnsubAck header remainingLength packetId => exact subUnsubAck_keeps h
  | publishResponse r memory stale => exact puback_keeps h ha
  | publish qos packetId octets memory => exact publish_keeps h ha
  | receive => exact ⟨⟨h.resumed, h.plain, h.outgoing⟩, fun _ => rfl⟩
  | connectionEnd => cases ha
  | disconnect => cases ha

/-- A connection that ends takes no PUBREC with it. --/
theorem lose_keeps (h : Quiet c) (ha : Allowed (.lose a)) :
    Quiet (c.step a) ∧ ∀ packetId, kept (c.step a) packetId = kept c packetId := by
  rcases ha with rfl | rfl | rfl
  · show Quiet c.processDisconnect ∧ ∀ packetId, kept c.processDisconnect packetId = _
    unfold Client.processDisconnect
    split
    · exact ⟨h, fun _ => rfl⟩
    · refine ⟨⟨h.resumed, fun p hp => h.plain p (List.mem_filter.mp hp).1, h.outgoing⟩, fun packetId => ?_⟩
      unfold kept
      rw [List.countP_filter]
      apply List.countP_congr
      intro p _
      simp only [TransmitPacket.isPubrec, Bool.and_eq_true, Bool.not_eq_true', Bool.or_eq_false_iff, beq_iff_eq]
      refine ⟨fun hp => hp.1, fun hp => ⟨hp, ?_⟩⟩
      rw [hp.2]
      decide
  · exact ⟨⟨h.resumed, h.plain, h.outgoing⟩, fun _ => rfl⟩
  · exact ⟨⟨h.resumed, h.plain, h.outgoing⟩, fun _ => rfl⟩

/-! ### Messages at QoS 2 -/

theorem known_iff : c.transmitQueue.any (fun p => p.packetId == packetId && p.isPubrec) = true ↔ kept c packetId ≠ 0 := by
  rw [List.any_eq_true, ← Nat.pos_iff_ne_zero]
  exact List.countP_pos_iff.symm

theorem kept_pubrec {body : List UInt8} :
    kept (c.enqueue ⟨packetId, controlPubrec <<< 4, body⟩) other = kept c other + if packetId = other then 1 else 0 := by
  have hpubrec : (TransmitPacket.mk packetId (controlPubrec <<< 4) body).isPubrec = true := by
    simp only [TransmitPacket.isPubrec, TransmitPacket.control]
    decide
  unfold kept Client.enqueue
  rw [List.countP_append, List.countP_singleton]
  simp [hpubrec]

theorem Quiet.pubrec (h : Quiet c) {body : List UInt8} : Quiet (c.enqueue ⟨packetId, controlPubrec <<< 4, body⟩) :=
  h.enqueue fun _ => rfl

/-- A message whose PUBREC is known is not taken again; it may be answered, with one copy more. --/
theorem publish_known (h : Quiet c) (hknown : kept c packetId ≠ 0) (octets : List UInt8) (memory : Client.PublishMemory) :
    let r := c.processPublish 2 packetId octets memory
    Quiet r.1 ∧ r.1.receiveQueue = c.receiveQueue ∧ kept r.1 packetId ≠ 0 ∧
      (∀ other, packetId ≠ other → kept r.1 other = kept c other) ∧ (r.2 = none ∨ r.2 = some (pubrecOf packetId)) := by
  have hany := known_iff.mpr hknown
  unfold Client.processPublish
  dsimp only
  rw [if_neg (by simp [hany]), if_pos (show (2 : Nat) ≠ 0 ∧ _ from ⟨by decide, hany⟩)]
  by_cases hanswer : memory.answer = false
  · rw [if_pos (.inr hanswer)]
    exact ⟨h, rfl, hknown, fun _ _ => rfl, .inl rfl⟩
  · rw [if_neg (by simp [hanswer]), if_pos rfl]
    split
    · exact ⟨h, rfl, hknown, fun _ _ => rfl, .inl rfl⟩
    · refine ⟨h.pubrec, rfl, ?_, fun other hother => ?_, .inr rfl⟩
      · rw [if_neg (by decide), kept_pubrec]
        omega
      · rw [if_neg (by decide), kept_pubrec, if_neg hother]
        rfl

/-- A message that is not known, and finds memory, is taken and answered. --/
theorem publish_new (h : Quiet c) (hnew : kept c packetId = 0) (octets : List UInt8) {memory : Client.PublishMemory}
    (hcopy : memory.copy = true) (hanswer : memory.answer = true) (hkeep : memory.keep = true) :
    let r := c.processPublish 2 packetId octets memory
    Quiet r.1 ∧ r.1.receiveQueue = c.receiveQueue ++ [octets] ∧ kept r.1 packetId ≠ 0 ∧
      (∀ other, packetId ≠ other → kept r.1 other = kept c other) ∧ r.2 = some (pubrecOf packetId) := by
  have hany : ¬c.transmitQueue.any (fun p => p.packetId == packetId && p.isPubrec) = true := fun hany => known_iff.mp hany hnew
  have hreceived : Quiet { c with receiveQueue := c.receiveQueue ++ [octets] } := ⟨h.resumed, h.plain, h.outgoing⟩
  unfold Client.processPublish
  dsimp only
  rw [if_neg (by simp [hcopy]), if_neg (by simp [hanswer]), if_pos rfl, if_neg (by simp [hkeep]), if_neg (by simp [hany])]
  refine ⟨hreceived.pubrec, rfl, ?_, fun other hother => ?_, rfl⟩
  · rw [if_neg (by decide), kept_pubrec, if_pos rfl]
    omega
  · rw [if_neg (by decide), kept_pubrec, if_neg hother]
    rfl

/-- One that finds no memory for a copy of the packet is left for another time. --/
theorem publish_dropped (hnew : kept c packetId = 0) (octets : List UInt8) {memory : Client.PublishMemory}
    (hcopy : memory.copy = false) : c.processPublish 2 packetId octets memory = (c, none) := by
  have hany : ¬c.transmitQueue.any (fun p => p.packetId == packetId && p.isPubrec) = true := fun hany => known_iff.mp hany hnew
  unfold Client.processPublish
  dsimp only
  rw [if_pos ⟨fun h => hany h.2, hcopy⟩]

/-- A PUBREL that finds one copy of its PUBREC is answered, and leaves none. --/
theorem pubrel_known (h : Quiet c) (hone : kept c packetId = 1) :
    let r := c.processPublishResponse (pubrelOf packetId) true (msbOf packetId)
    Quiet r.1 ∧ r.1.receiveQueue = c.receiveQueue ∧ kept r.1 packetId = 0 ∧
      (∀ other, packetId ≠ other → kept r.1 other = kept c other) ∧ r.2 = some (pubcompOf packetId) := by
  let kind := fun p : TransmitPacket =>
    p.packetId == (pubrelOf packetId).packetId && (p.fixedHeader &&& (0xF6 : UInt8)) == controlPubrec <<< 4
  have hkind : ∀ p ∈ c.transmitQueue, p.packetId = packetId → p.isPubrec = true → kind p = true := by
    intro p hp hid hpubrec
    show (_ && _) = true
    rw [hid, packetId_pubrelOf, h.plain p hp hpubrec, beq_self_eq_true]
    decide
  obtain ⟨p, hp, hpred⟩ := List.countP_pos_iff.mp (Nat.lt_of_lt_of_eq Nat.zero_lt_one hone.symm)
  rw [Bool.and_eq_true, beq_iff_eq] at hpred
  unfold Client.processPublishResponse
  rw [if_neg (by show ¬(2 : UInt8) ≠ 2; decide), if_neg (by show ¬(controlPubrel <<< 4 ||| 2) >>> 4 = controlPuback; decide),
    if_pos (by show (controlPubrel <<< 4 ||| 2) >>> 4 = controlPubrel; decide)]
  dsimp only
  rw [if_neg (by
    rw [not_or, Bool.not_eq_false, List.any_eq_true]
    exact ⟨⟨p, hp, hkind p hp hpred.1 hpred.2⟩, by decide⟩)]
  obtain ⟨q, front, back, _, hq, hqueue, herase⟩ := List.exists_of_eraseP (p := kind) hp (hkind p hp hpred.1 hpred.2)
  have hq : q.packetId = packetId ∧ (q.fixedHeader &&& (0xF6 : UInt8)) = controlPubrec <<< 4 := by
    simpa [kind] using hq
  have hrec : q.isPubrec = true := beq_iff_eq.mpr (pubrec_header _ hq.2)
  have hcount : ∀ other, kept c other = front.countP (fun p => p.packetId == other && p.isPubrec) +
      back.countP (fun p => p.packetId == other && p.isPubrec) + if packetId = other then 1 else 0 := by
    intro other
    unfold kept
    rw [hqueue, List.countP_append, List.countP_cons, hq.1, hrec]
    simp only [Bool.and_true, beq_iff_eq]
    omega
  have hleft : ∀ other, kept (c.release kind) other = front.countP (fun p => p.packetId == other && p.isPubrec) +
      back.countP (fun p => p.packetId == other && p.isPubrec) := by
    intro other
    unfold kept Client.release
    dsimp only
    rw [herase, List.countP_append]
  refine ⟨h.release _, rfl, ?_, fun other hother => ?_, rfl⟩
  · have := hcount packetId
    rw [if_pos rfl, hone] at this
    rw [hleft]
    omega
  · rw [hleft, hcount, if_neg hother]
    rfl

end client

/-! ### Stories -/

/-- What is on its way to the client about an identifier. --/
def inbound (w : Exchange) (packetId : BitVec 16) : List ToClient := w.toClient.filter (·.packetId == packetId)

/-- And what is on its way back. --/
def outbound (w : Exchange) (packetId : BitVec 16) : List PublishResponse := w.toBroker.filter (·.packetId == packetId)

/-- Where the two stand with an identifier: nobody uses it; its message was not taken yet; it was taken, and the broker
    does not know; the broker knows; or the client has let go of it, and the broker does not know. --/
inductive Story (w : Exchange) (packetId : BitVec 16) : Prop
  | idle (phase : w.phase packetId = .idle) (free : kept w.client packetId = 0)
      (late : ∀ x ∈ inbound w packetId, x = .pubrel packetId) (quiet : outbound w packetId = [])
  | fresh {message : Nat} {octets : List UInt8} {front back : List ToClient}
      (phase : w.phase packetId = .publishing message octets) (free : kept w.client packetId = 0)
      (untaken : message ∉ w.enqueued) (inside : inbound w packetId = front ++ back)
      (late : ∀ x ∈ front, x = .pubrel packetId) (here : ∀ x ∈ back, x = .publish packetId message octets)
      (quiet : outbound w packetId = [])
  | taken {message : Nat} {octets : List UInt8}
      (phase : w.phase packetId = .publishing message octets) (known : kept w.client packetId ≠ 0)
      (done : message ∈ w.enqueued) (here : ∀ x ∈ inbound w packetId, x = .publish packetId message octets)
      (answered : ∀ r ∈ outbound w packetId, r = pubrecOf packetId)
  | releasing {message : Nat} {octets : List UInt8} {front back : List ToClient}
      (phase : w.phase packetId = .releasing) (known : kept w.client packetId ≠ 0)
      (done : message ∈ w.enqueued) (inside : inbound w packetId = front ++ back)
      (here : ∀ x ∈ front, x = .publish packetId message octets) (next : ∀ x ∈ back, x = .pubrel packetId)
      (answered : ∀ r ∈ outbound w packetId, r = pubrecOf packetId)
  | released {front back : List PublishResponse}
      (phase : w.phase packetId = .releasing) (free : kept w.client packetId = 0)
      (next : ∀ x ∈ inbound w packetId, x = .pubrel packetId) (outside : outbound w packetId = front ++ back)
      (answered : ∀ r ∈ front, r = pubrecOf packetId) (last : back = [] ∨ back = [pubcompOf packetId])

section stories
variable {w t : Exchange} {packetId other : BitVec 16}

/-- A step that is about another identifier changes nothing in the story. --/
theorem Story.frame (h : Story w packetId) (hphase : t.phase packetId = w.phase packetId)
    (hkept : kept t.client packetId = kept w.client packetId) (hin : inbound t packetId = inbound w packetId)
    (hout : outbound t packetId = outbound w packetId) (hmore : ∀ message ∈ w.enqueued, message ∈ t.enqueued)
    (hfresh : ∀ message octets, w.phase packetId = .publishing message octets → message ∉ w.enqueued →
      message ∉ t.enqueued) : Story t packetId := by
  cases h with
  | idle phase free late quiet =>
    exact .idle (hphase.trans phase) (hkept.trans free) (by rwa [hin]) (hout.trans quiet)
  | fresh phase free untaken inside late here quiet =>
    exact .fresh (hphase.trans phase) (hkept.trans free) (hfresh _ _ phase untaken) (hin.trans inside) late here
      (hout.trans quiet)
  | taken phase known done here answered =>
    exact .taken (hphase.trans phase) (by rwa [hkept]) (hmore _ done) (by rwa [hin]) (by rwa [hout])
  | releasing phase known done inside here next answered =>
    exact .releasing (hphase.trans phase) (by rwa [hkept]) (hmore _ done) (hin.trans inside) here next (by rwa [hout])
  | released phase free next outside answered last =>
    exact .released (hphase.trans phase) (hkept.trans free) (by rwa [hin]) (hout.trans outside) answered last

/-- When the connection ends, what was on its way is gone, and the story goes on. --/
theorem Story.lost (h : Story w packetId) (hphase : t.phase packetId = w.phase packetId)
    (hkept : kept t.client packetId = kept w.client packetId) (hin : t.toClient = []) (hout : t.toBroker = [])
    (hsame : t.enqueued = w.enqueued) : Story t packetId := by
  have hin' : inbound t packetId = [] := by
    unfold inbound
    rw [hin]
    rfl
  have hout' : outbound t packetId = [] := by
    unfold outbound
    rw [hout]
    rfl
  cases h with
  | idle phase free late quiet =>
    refine .idle (hphase.trans phase) (hkept.trans free) ?_ hout'
    simp [hin']
  | fresh phase free untaken inside late here quiet =>
    refine @Story.fresh _ _ _ _ [] [] (hphase.trans phase) (hkept.trans free) (by rwa [hsame]) hin' ?_ ?_ hout'
    · simp
    · simp
  | taken phase known done here answered =>
    refine .taken (hphase.trans phase) (by rwa [hkept]) (by rwa [hsame]) ?_ ?_
    · simp [hin']
    · simp [hout']
  | @releasing message octets _ _ phase known done inside here next answered =>
    refine @Story.releasing _ _ message octets [] [] (hphase.trans phase) (by rwa [hkept]) (by rwa [hsame]) hin' ?_ ?_ ?_
    · simp
    · simp
    · simp [hout']
  | released phase free next outside answered last =>
    refine @Story.released _ _ [] [] (hphase.trans phase) (hkept.trans free) ?_ hout' ?_ (.inl rfl)
    · simp [hin']
    · simp

/-! ### The invariant -/

structure Sound (w : Exchange) : Prop where
  quiet : Quiet w.client
  story : ∀ packetId, Story w packetId
  once : w.enqueued.Nodup
  given : ∀ message ∈ w.enqueued, message < w.sent
  numbered : ∀ packetId message octets, w.phase packetId = .publishing message octets → message < w.sent
  apart : ∀ packetId other message octets octets', w.phase packetId = .publishing message octets →
    w.phase other = .publishing message octets' → packetId = other

theorem sound_start : Sound exchangeStart where
  quiet := ⟨rfl, fun _ h => absurd h List.not_mem_nil, fun _ h => absurd h List.not_mem_nil⟩
  story _ := .idle rfl rfl (fun _ h => absurd h List.not_mem_nil) rfl
  once := List.nodup_nil
  given _ h := absurd h List.not_mem_nil
  numbered _ _ _ h := by cases h
  apart _ _ _ _ _ h := by cases h

/-- Traffic that leaves the exchange alone. --/
theorem Sound.traffic (h : Sound w) {a : Action} (ha : Allowed (.other a)) : Sound (w.step (.other a)) := by
  obtain ⟨hquiet, hkept⟩ := other_keeps h.quiet ha
  exact ⟨hquiet, fun packetId => (h.story packetId).frame rfl (hkept packetId) rfl rfl (fun _ hm => hm)
    fun _ _ _ hm => hm, h.once, h.given, h.numbered, h.apart⟩

theorem Sound.lose (h : Sound w) {a : Action} (ha : Allowed (.lose a)) : Sound (w.step (.lose a)) := by
  obtain ⟨hquiet, hkept⟩ := lose_keeps h.quiet ha
  exact ⟨hquiet, fun packetId => (h.story packetId).lost rfl (hkept packetId) rfl rfl rfl, h.once, h.given, h.numbered,
    h.apart⟩

theorem inbound_put {p : ToClient} (h : p.packetId = packetId) (hin : t.toClient = w.toClient ++ [p]) :
    inbound t packetId = inbound w packetId ++ [p] := by
  unfold inbound
  rw [hin, List.filter_append]
  simp [h]

/-- A packet more for the client keeps every story but that of its identifier. --/
theorem Story.put (h : Story w other) {p : ToClient} (hother : p.packetId ≠ other) (hphase : t.phase other = w.phase other)
    (hkept : t.client = w.client) (hin : t.toClient = w.toClient ++ [p]) (hout : t.toBroker = w.toBroker)
    (hsame : t.enqueued = w.enqueued) : Story t other := by
  refine h.frame hphase (by rw [hkept]) ?_ ?_ (by rw [hsame]; exact fun _ hm => hm) (by rw [hsame]; exact fun _ _ _ hm => hm)
  · unfold inbound
    rw [hin, List.filter_append]
    simp [hother]
  · unfold outbound
    rw [hout]

theorem Sound.send (h : Sound w) {octets : List UInt8} : Sound (w.step (.send packetId octets)) := by
  unfold step
  dsimp only
  split
  · rename_i hidle
    refine ⟨h.quiet, fun other => ?_, h.once, fun m hm => Nat.lt_succ_of_lt (h.given m hm), ?_, ?_⟩
    · by_cases hother : packetId = other
      · subst hother
        cases h.story packetId with
        | idle _ free late quiet =>
          refine @Story.fresh _ _ _ _ (inbound w packetId) [.publish packetId w.sent octets] (if_pos rfl) free
            (fun hm => Nat.lt_irrefl _ (h.given _ hm)) ?_ late (fun x hx => List.mem_singleton.mp hx) quiet
          exact inbound_put rfl rfl
        | fresh phase => rw [hidle] at phase; cases phase
        | taken phase => rw [hidle] at phase; cases phase
        | releasing phase => rw [hidle] at phase; cases phase
        | released phase => rw [hidle] at phase; cases phase
      · exact (h.story other).put (p := .publish packetId w.sent octets) hother (if_neg (Ne.symm hother)) rfl rfl rfl rfl
    · intro other message octets' hphase
      by_cases hother : other = packetId
      · have hsame : (.publishing w.sent octets : Phase) = .publishing message octets' := (if_pos hother).symm.trans hphase
        cases hsame
        exact Nat.lt_succ_self _
      · exact Nat.lt_succ_of_lt (h.numbered _ _ _ ((if_neg hother).symm.trans hphase))
    · intro one other message octets' octets'' hone hother
      have hnew : ∀ {x o}, x ≠ packetId → (if x = packetId then Phase.publishing w.sent octets else w.phase x) = .publishing message o →
          message ≠ w.sent ∧ w.phase x = .publishing message o := by
        intro x o hx hp
        rw [if_neg hx] at hp
        exact ⟨Nat.ne_of_lt (h.numbered _ _ _ hp), hp⟩
      by_cases h1 : one = packetId <;> by_cases h2 : other = packetId
      · exact h1.trans h2.symm
      · have hsame : (.publishing w.sent octets : Phase) = .publishing message octets' := (if_pos h1).symm.trans hone
        cases hsame
        exact absurd rfl (hnew h2 hother).1
      · have hsame : (.publishing w.sent octets : Phase) = .publishing message octets'' := (if_pos h2).symm.trans hother
        cases hsame
        exact absurd rfl (hnew h1 hone).1
      · exact h.apart _ _ _ _ _ (hnew h1 hone).2 (hnew h2 hother).2
  · exact h

theorem Sound.resend (h : Sound w) : Sound (w.step (.resend packetId)) := by
  have hput : ∀ p : ToClient, p.packetId = packetId → Story (w.toClientPut p) packetId → Sound (w.toClientPut p) := by
    intro p hp hstory
    refine ⟨h.quiet, fun other => ?_, h.once, h.given, h.numbered, h.apart⟩
    by_cases hother : packetId = other
    · exact hother ▸ hstory
    · exact (h.story other).put (p := p) (by rwa [hp]) rfl rfl rfl rfl rfl
  unfold step
  dsimp only
  split
  · exact h
  · rename_i message octets hphase
    refine hput _ rfl ?_
    have hin : inbound (w.toClientPut (.publish packetId message octets)) packetId =
        inbound w packetId ++ [.publish packetId message octets] := inbound_put rfl rfl
    cases h.story packetId with
    | idle phase => rw [hphase] at phase; cases phase
    | fresh phase free untaken inside late here quiet =>
      rw [hphase] at phase
      cases phase
      refine .fresh hphase free untaken (hin.trans (by rw [inside, List.append_assoc])) late ?_ quiet
      intro x hx
      rcases List.mem_append.mp hx with hx | hx
      · exact here x hx
      · exact List.mem_singleton.mp hx
    | taken phase known done here answered =>
      rw [hphase] at phase
      cases phase
      refine .taken hphase known done ?_ answered
      intro x hx
      rw [hin] at hx
      rcases List.mem_append.mp hx with hx | hx
      · exact here x hx
      · exact List.mem_singleton.mp hx
    | releasing phase => rw [hphase] at phase; cases phase
    | released phase => rw [hphase] at phase; cases phase
  · rename_i hphase
    refine hput _ rfl ?_
    have hin : inbound (w.toClientPut (.pubrel packetId)) packetId = inbound w packetId ++ [.pubrel packetId] :=
      inbound_put rfl rfl
    have hnext : ∀ {back : List ToClient}, (∀ x ∈ back, x = .pubrel packetId) →
        ∀ x ∈ back ++ [.pubrel packetId], x = .pubrel packetId := by
      intro back hback x hx
      rcases List.mem_append.mp hx with hx | hx
      · exact hback x hx
      · exact List.mem_singleton.mp hx
    cases h.story packetId with
    | idle phase => rw [hphase] at phase; cases phase
    | fresh phase => rw [hphase] at phase; cases phase
    | taken phase => rw [hphase] at phase; cases phase
    | releasing _ known done inside here next answered =>
      exact .releasing hphase known done (hin.trans (by rw [inside, List.append_assoc])) here (hnext next) answered
    | released _ free next outside answered last =>
      exact .released hphase free (by rw [hin]; exact hnext next) outside answered last

/-! ### Deliveries -/

theorem outbound_answer {answer : Option PublishResponse} (h : answer = none ∨ answer = some (pubrecOf packetId))
    (hout : t.toBroker = w.toBroker ++ answer.toList) :
    (∀ r ∈ outbound t packetId, r ∈ outbound w packetId ∨ r = pubrecOf packetId) ∧
      ∀ other, packetId ≠ other → outbound t other = outbound w other := by
  unfold outbound
  rw [hout]
  rcases h with rfl | rfl
  · rw [Option.toList_none, List.append_nil]
    exact ⟨fun _ hr => .inl hr, fun _ _ => rfl⟩
  · simp only [Option.toList_some, List.filter_append]
    refine ⟨fun r hr => ?_, fun other hother => by simp [hother]⟩
    rcases List.mem_append.mp hr with hr | hr
    · exact .inl hr
    · exact .inr (List.mem_singleton.mp (List.mem_filter.mp hr).1)

/-- The message at the head of what is on its way is the one its identifier stands for: it is taken, or it waits. --/
theorem Story.publish_head (h : Story w packetId) {message : Nat} {octets : List UInt8} {rest : List ToClient}
    (hin : inbound w packetId = .publish packetId message octets :: rest) :
    (kept w.client packetId ≠ 0 ∧ message ∈ w.enqueued ∧ ∀ t : Exchange, t.phase packetId = w.phase packetId →
      kept t.client packetId ≠ 0 → inbound t packetId = rest → t.enqueued = w.enqueued →
      (∀ r ∈ outbound t packetId, r ∈ outbound w packetId ∨ r = pubrecOf packetId) → Story t packetId) ∨
    (kept w.client packetId = 0 ∧ message ∉ w.enqueued ∧ w.phase packetId = .publishing message octets ∧
      outbound w packetId = [] ∧ ∀ x ∈ rest, x = .publish packetId message octets) := by
  cases h with
  | idle phase free late quiet =>
    have hhead := late _ (by rw [hin]; exact List.mem_cons_self)
    cases hhead
  | @fresh m o front back phase free untaken inside late here quiet =>
    rw [hin] at inside
    cases front with
    | cons x front =>
      have hx := late x List.mem_cons_self
      rw [hx] at inside
      cases inside
    | nil =>
      have hhead := here (.publish packetId message octets) (by rw [← List.nil_append back, ← inside]; exact List.mem_cons_self)
      cases hhead
      exact .inr ⟨free, untaken, phase, quiet, fun x hx => here x
        (by rw [← List.nil_append back, ← inside]; exact List.mem_cons_of_mem _ hx)⟩
  | taken phase known done here answered =>
    have hhead := here _ (by rw [hin]; exact List.mem_cons_self)
    cases hhead
    refine .inl ⟨known, done, fun t hphase hkept hinbound hsame hanswered => ?_⟩
    refine .taken (hphase.trans phase) hkept (by rwa [hsame]) (fun x hx => here x ?_) fun r hr => ?_
    · rw [hinbound] at hx
      rw [hin]
      exact List.mem_cons_of_mem _ hx
    · rcases hanswered r hr with hr | hr
      · exact answered r hr
      · exact hr
  | @releasing m o front back phase known done inside here next answered =>
    rw [hin] at inside
    cases front with
    | nil =>
      have hhead := next (.publish packetId message octets) (by rw [← List.nil_append back, ← inside]; exact List.mem_cons_self)
      cases hhead
    | cons x front =>
      obtain ⟨rfl, hrest⟩ := List.cons.inj inside
      have hhead := here _ List.mem_cons_self
      cases hhead
      refine .inl ⟨known, done, fun t hphase hkept hinbound hsame hanswered => ?_⟩
      refine .releasing (hphase.trans phase) hkept (by rwa [hsame]) (hinbound.trans hrest)
        (fun x hx => here x (List.mem_cons_of_mem _ hx)) next fun r hr => ?_
      rcases hanswered r hr with hr | hr
      · exact answered r hr
      · exact hr
  | released phase free next outside answered last =>
    have hhead := next _ (by rw [hin]; exact List.mem_cons_self)
    cases hhead

section deliver
variable {message : Nat} {octets : List UInt8} {toClient : List ToClient} {memory : Client.PublishMemory} {stale : UInt8}

theorem inbound_head {p : ToClient} (htoClient : w.toClient = p :: toClient) :
    inbound w p.packetId = p :: inbound { w with toClient := toClient } p.packetId ∧
      ∀ other, p.packetId ≠ other → inbound { w with toClient := toClient } other = inbound w other := by
  unfold inbound
  rw [htoClient]
  refine ⟨List.filter_cons_of_pos (beq_self_eq_true _), fun other hother => ?_⟩
  exact (List.filter_cons_of_neg (by simp [hother])).symm

/-- A PUBLISH is delivered: where it goes to the application, it was not there. --/
theorem Sound.publish (h : Sound w) (htoClient : w.toClient = .publish packetId message octets :: toClient)
    (hok : Condition w (.deliver memory stale)) :
    Sound (clientProcess { w with toClient := toClient } (.publish packetId message octets) memory stale) ∧
      ((w.client.processPublish 2 packetId octets memory).2 ≠ none →
        message ∈ (clientProcess { w with toClient := toClient } (.publish packetId message octets) memory stale).enqueued) := by
  obtain ⟨hhead, hothers⟩ := inbound_head htoClient
  have hok : kept w.client packetId = 0 → memory.copy = true → memory.answer = true ∧ memory.keep = true := by
    unfold Condition at hok
    rwa [htoClient] at hok
  rcases (h.story packetId).publish_head hhead with ⟨hknown, hdone, hgo⟩ | ⟨hfree, huntaken, hphase, hnone, hrest⟩
  · obtain ⟨hquiet, hqueue, hkept, hkeptOthers, hanswer⟩ := publish_known h.quiet hknown octets memory
    have hsame : (clientProcess { w with toClient := toClient } (.publish packetId message octets) memory stale).enqueued =
        w.enqueued := if_pos hqueue
    obtain ⟨hown, hother⟩ := @outbound_answer w
      (clientProcess { w with toClient := toClient } (.publish packetId message octets) memory stale) packetId _ hanswer rfl
    refine ⟨⟨hquiet, fun other => ?_, by rw [hsame]; exact h.once, by rw [hsame]; exact h.given, h.numbered, h.apart⟩,
      fun _ => by rw [hsame]; exact hdone⟩
    by_cases hid : packetId = other
    · subst hid
      exact hgo _ rfl hkept rfl hsame hown
    · exact (h.story other).frame rfl (hkeptOthers other hid) (hothers other hid) (hother other hid)
        (by rw [hsame]; exact fun _ hm => hm) (by rw [hsame]; exact fun _ _ _ hm => hm)
  · by_cases hcopy : memory.copy = false
    · have hdropped := publish_dropped hfree octets hcopy
      have hsame : clientProcess { w with toClient := toClient } (.publish packetId message octets) memory stale =
          { w with toClient := toClient } := by
        unfold clientProcess
        dsimp only
        rw [hdropped]
        simp
      rw [hsame]
      refine ⟨⟨h.quiet, fun other => ?_, h.once, h.given, h.numbered, h.apart⟩, fun hanswer => ?_⟩
      · by_cases hid : packetId = other
        · subst hid
          exact @Story.fresh _ _ _ _ [] _ hphase hfree huntaken rfl (fun x hx => absurd hx List.not_mem_nil) hrest hnone
        · exact (h.story other).frame rfl rfl (hothers other hid) rfl (fun _ hm => hm) fun _ _ _ hm => hm
      · rw [hdropped] at hanswer
        exact absurd rfl hanswer
    · have hcopy : memory.copy = true := Bool.of_not_eq_false hcopy
      obtain ⟨hquiet, hqueue, hkept, hkeptOthers, hanswer⟩ :=
        publish_new h.quiet hfree octets hcopy (hok hfree hcopy).1 (hok hfree hcopy).2
      have hmore : (clientProcess { w with toClient := toClient } (.publish packetId message octets) memory stale).enqueued =
          w.enqueued ++ [message] := by
        refine if_neg ?_
        show ¬(w.client.processPublish 2 packetId octets memory).1.receiveQueue = w.client.receiveQueue
        rw [hqueue]
        exact fun heq => List.cons_ne_nil _ _ (List.append_right_eq_self.mp heq)
      obtain ⟨hown, hother⟩ := @outbound_answer w
        (clientProcess { w with toClient := toClient } (.publish packetId message octets) memory stale) packetId _ (.inr hanswer) rfl
      refine ⟨⟨hquiet, fun other => ?_, ?_, ?_, h.numbered, h.apart⟩, fun _ => by rw [hmore]; simp⟩
      · by_cases hid : packetId = other
        · subst hid
          refine .taken hphase hkept (by rw [hmore]; simp) hrest fun r hr => ?_
          rcases hown r hr with hr | hr
          · rw [hnone] at hr
            cases hr
          · exact hr
        · refine (h.story other).frame rfl (hkeptOthers other hid) (hothers other hid) (hother other hid) ?_ ?_
          · rw [hmore]
            exact fun _ hm => List.mem_append_left _ hm
          · intro m o hm hnot
            rw [hmore]
            intro hin
            rcases List.mem_append.mp hin with hin | hin
            · exact hnot hin
            · cases List.mem_singleton.mp hin
              exact hid (h.apart _ _ _ _ _ hphase hm)
      · rw [hmore]
        exact List.nodup_append.mpr ⟨h.once, List.nodup_cons.mpr ⟨List.not_mem_nil, List.nodup_nil⟩, fun a ha b hb => by
          cases List.mem_singleton.mp hb
          exact fun heq => huntaken (heq ▸ ha)⟩
      · rw [hmore]
        intro m hm
        rcases List.mem_append.mp hm with hm | hm
        · exact h.given m hm
        · cases List.mem_singleton.mp hm
          exact h.numbered _ _ _ hphase

/-- A PUBREL is delivered, answered, and nothing of its message stays. --/
theorem Sound.pubrel (h : Sound w) (htoClient : w.toClient = .pubrel packetId :: toClient)
    (hok : Condition w (.deliver memory stale)) :
    Sound (clientProcess { w with toClient := toClient } (.pubrel packetId) memory stale) ∧
      (clientProcess { w with toClient := toClient } (.pubrel packetId) memory stale).toBroker =
        w.toBroker ++ [pubcompOf packetId] ∧
      kept (clientProcess { w with toClient := toClient } (.pubrel packetId) memory stale).client packetId = 0 := by
  obtain ⟨hhead, hothers⟩ := inbound_head htoClient
  have hhead : inbound w packetId = .pubrel packetId :: inbound { w with toClient := toClient } packetId := hhead
  obtain ⟨hone, hmemory, rfl⟩ : kept w.client packetId = 1 ∧ memory.answer = true ∧ stale = msbOf packetId := by
    unfold Condition at hok
    rwa [htoClient] at hok
  obtain ⟨hquiet, hqueue, hkept, hkeptOthers, hanswer⟩ := pubrel_known h.quiet hone
  rw [← hmemory] at hquiet hqueue hkept hkeptOthers hanswer
  have htoBroker : (clientProcess { w with toClient := toClient } (.pubrel packetId) memory (msbOf packetId)).toBroker =
      w.toBroker ++ [pubcompOf packetId] := by
    show w.toBroker ++ (w.client.processPublishResponse (pubrelOf packetId) memory.answer (msbOf packetId)).2.toList = _
    rw [hanswer]
    rfl
  have hout : outbound (clientProcess { w with toClient := toClient } (.pubrel packetId) memory (msbOf packetId)) packetId =
      outbound w packetId ++ [pubcompOf packetId] := by
    unfold outbound
    rw [htoBroker, List.filter_append]
    simp
  refine ⟨⟨hquiet, fun other => ?_, h.once, h.given, h.numbered, h.apart⟩, htoBroker, hkept⟩
  by_cases hid : packetId = other
  · subst hid
    have hknown : kept w.client packetId ≠ 0 := by
      rw [hone]
      exact Nat.one_ne_zero
    cases h.story packetId with
    | idle _ free => exact absurd free hknown
    | fresh _ free => exact absurd free hknown
    | taken _ _ _ here =>
      have hbad := here _ (by rw [hhead]; exact List.mem_cons_self)
      cases hbad
    | @releasing m o front back phase known done inside here next answered =>
      rw [hhead] at inside
      cases front with
      | cons x front =>
        have hx := here x List.mem_cons_self
        rw [hx] at inside
        cases inside
      | nil =>
        refine .released phase hkept (fun x hx => next x ?_) hout answered (.inr rfl)
        rw [← List.nil_append back, ← inside]
        exact List.mem_cons_of_mem _ hx
    | released _ free => exact absurd free hknown
  · refine (h.story other).frame rfl (hkeptOthers other hid) (hothers other hid) ?_ (fun _ hm => hm) fun _ _ _ hm => hm
    unfold outbound
    rw [htoBroker, List.filter_append]
    simp [hid]

end deliver

/-! ### The broker's answers -/

theorem brokerProcess_taken {message : Nat} {octets : List UInt8} (h : w.phase packetId = .publishing message octets) :
    w.brokerProcess (pubrecOf packetId) = (w.setPhase packetId .releasing).toClientPut (.pubrel packetId) := by
  unfold brokerProcess
  rw [packetId_pubrecOf, h]
  exact if_pos (show (controlPubrec <<< 4) >>> 4 = controlPubrec by decide)

theorem brokerProcess_again (h : w.phase packetId = .releasing) :
    w.brokerProcess (pubrecOf packetId) = w.toClientPut (.pubrel packetId) := by
  unfold brokerProcess
  rw [packetId_pubrecOf, h]
  exact if_pos (show (controlPubrec <<< 4) >>> 4 = controlPubrec by decide)

theorem brokerProcess_done (h : w.phase packetId = .releasing) :
    w.brokerProcess (pubcompOf packetId) = w.setPhase packetId .idle := by
  unfold brokerProcess
  rw [packetId_pubcompOf, h]
  have hnot : ¬(pubcompOf packetId).header >>> 4 = controlPubrec := show ¬(controlPubcomp <<< 4) >>> 4 = controlPubrec by decide
  have hdone : (pubcompOf packetId).header >>> 4 = controlPubcomp := show (controlPubcomp <<< 4) >>> 4 = controlPubcomp by decide
  exact (if_neg hnot).trans (if_pos hdone)

theorem outbound_head {r : PublishResponse} {toBroker : List PublishResponse} (htoBroker : w.toBroker = r :: toBroker) :
    outbound w r.packetId = r :: outbound { w with toBroker := toBroker } r.packetId ∧
      ∀ other, r.packetId ≠ other → outbound { w with toBroker := toBroker } other = outbound w other := by
  unfold outbound
  rw [htoBroker]
  refine ⟨List.filter_cons_of_pos (beq_self_eq_true _), fun other hother => ?_⟩
  exact (List.filter_cons_of_neg (by simp [hother])).symm

/-- The broker moves on with one identifier, and publishes nothing new. --/
theorem Sound.moved (h : Sound w) (packetId : BitVec 16) {toBroker : List PublishResponse} (hclient : t.client = w.client)
    (henqueued : t.enqueued = w.enqueued) (hsent : t.sent = w.sent) (htoBroker : t.toBroker = toBroker)
    (hphase : ∀ other, packetId ≠ other → t.phase other = w.phase other)
    (hnothing : ∀ message octets, t.phase packetId ≠ .publishing message octets)
    (hin : ∀ other, packetId ≠ other → inbound t other = inbound w other)
    (hout : ∀ other, packetId ≠ other → outbound { w with toBroker := toBroker } other = outbound w other)
    (hstory : Story t packetId) : Sound t := by
  have hback : ∀ {other message octets}, t.phase other = .publishing message octets →
      w.phase other = .publishing message octets := by
    intro other message octets hp
    by_cases hid : packetId = other
    · exact absurd (hid ▸ hp) (hnothing _ _)
    · rwa [hphase other hid] at hp
  refine ⟨by rw [hclient]; exact h.quiet, fun other => ?_, by rw [henqueued]; exact h.once, ?_, ?_, ?_⟩
  · by_cases hid : packetId = other
    · exact hid ▸ hstory
    · refine (h.story other).frame (hphase other hid) (by rw [hclient]) (hin other hid) ?_ (by rw [henqueued]; exact fun _ hm => hm)
        (by rw [henqueued]; exact fun _ _ _ hm => hm)
      rw [← hout other hid]
      unfold outbound
      rw [htoBroker]
  · rw [henqueued, hsent]
    exact h.given
  · intro other message octets hp
    rw [hsent]
    exact h.numbered _ _ _ (hback hp)
  · intro one other message octets octets' hone hother
    exact h.apart _ _ _ _ _ (hback hone) (hback hother)

/-- The broker gets an answer: it is the one it waits for, or one that it has seen. --/
theorem Sound.receive (h : Sound w) : Sound (w.step .receive) := by
  unfold step
  dsimp only
  split
  · exact h
  · rename_i r toBroker htoBroker
    obtain ⟨hhead, hothers⟩ := outbound_head htoBroker
    have hput : ∀ {v : Exchange} (other : BitVec 16), v.toClient = w.toClient → r.packetId ≠ other →
        inbound (v.toClientPut (.pubrel r.packetId)) other = inbound w other := by
      intro v other hv hid
      unfold inbound toClientPut
      dsimp only
      rw [hv, List.filter_append]
      simp [ToClient.packetId, hid]
    cases h.story r.packetId with
    | idle _ _ _ quiet =>
      rw [hhead] at quiet
      cases quiet
    | fresh _ _ _ _ _ _ quiet =>
      rw [hhead] at quiet
      cases quiet
    | @taken message octets phase known done here answered =>
      have hr : r = pubrecOf r.packetId := answered r (by rw [hhead]; exact List.mem_cons_self)
      have hstep := @brokerProcess_taken { w with toBroker := toBroker } r.packetId message octets phase
      rw [← hr] at hstep
      rw [hstep]
      refine h.moved r.packetId rfl rfl rfl rfl (fun other hid => if_neg (Ne.symm hid)) ?_
        (fun other hid => hput other rfl hid) hothers ?_
      · intro message octets hp
        cases (if_pos rfl).symm.trans hp
      · refine @Story.releasing _ _ _ _ (inbound w r.packetId) [.pubrel r.packetId] (if_pos rfl) known done
          (inbound_put rfl rfl) here (fun x hx => List.mem_singleton.mp hx) fun x hx => answered x ?_
        rw [hhead]
        exact List.mem_cons_of_mem _ hx
    | @releasing message octets front back phase known done inside here next answered =>
      have hr : r = pubrecOf r.packetId := answered r (by rw [hhead]; exact List.mem_cons_self)
      have hstep := @brokerProcess_again { w with toBroker := toBroker } r.packetId phase
      rw [← hr] at hstep
      rw [hstep]
      refine h.moved r.packetId rfl rfl rfl rfl (fun _ _ => rfl) ?_
        (fun other hid => hput other rfl hid) hothers ?_
      · intro message octets hp
        cases phase.symm.trans hp
      · refine @Story.releasing _ _ _ _ front (back ++ [.pubrel r.packetId]) phase known done ?_ here ?_
          fun x hx => answered x ?_
        · rw [← List.append_assoc, ← inside]
          exact inbound_put rfl rfl
        · intro x hx
          rcases List.mem_append.mp hx with hx | hx
          · exact next x hx
          · exact List.mem_singleton.mp hx
        · rw [hhead]
          exact List.mem_cons_of_mem _ hx
    | @released front back phase free next outside answered last =>
      rw [hhead] at outside
      cases front with
      | cons x front =>
        obtain ⟨rfl, hrest⟩ := List.cons.inj outside
        have hr : r = pubrecOf r.packetId := answered r List.mem_cons_self
        have hstep := @brokerProcess_again { w with toBroker := toBroker } r.packetId phase
        rw [← hr] at hstep
        rw [hstep]
        refine h.moved r.packetId rfl rfl rfl rfl (fun _ _ => rfl) ?_
          (fun other hid => hput other rfl hid) hothers ?_
        · intro message octets hp
          cases phase.symm.trans hp
        · refine .released phase free ?_ hrest (fun x hx => answered x (List.mem_cons_of_mem _ hx)) last
          intro x hx
          have hin := @inbound_put w ({ w with toBroker := toBroker }.toClientPut (.pubrel r.packetId)) r.packetId
            (.pubrel r.packetId) rfl rfl
          rw [hin] at hx
          rcases List.mem_append.mp hx with hx | hx
          · exact next x hx
          · exact List.mem_singleton.mp hx
      | nil =>
        rcases last with rfl | rfl
        · cases outside
        · obtain ⟨hr, hrest⟩ := List.cons.inj outside
          have hstep := @brokerProcess_done { w with toBroker := toBroker } r.packetId phase
          rw [← hr] at hstep
          rw [hstep]
          refine h.moved r.packetId rfl rfl rfl rfl (fun other hid => if_neg (Ne.symm hid)) ?_
            (fun _ _ => rfl) hothers (.idle (if_pos rfl) free next hrest)
          intro message octets hp
          cases (if_pos rfl).symm.trans hp

/-- Every step keeps the invariant. --/
theorem Sound.step (h : Sound w) {a : ExchangeAction} (hallowed : Allowed a) (hok : Condition w a) : Sound (w.step a) := by
  cases a with
  | other a => exact h.traffic hallowed
  | lose a => exact h.lose hallowed
  | send packetId octets => exact h.send
  | resend packetId => exact h.resend
  | deliver memory stale =>
    cases htoClient : w.toClient with
    | nil =>
      have hsame : w.step (.deliver memory stale) = w := by
        unfold Exchange.step
        rw [htoClient]
      rwa [hsame]
    | cons p toClient =>
      have hstep : w.step (.deliver memory stale) = clientProcess { w with toClient := toClient } p memory stale := by
        unfold Exchange.step
        rw [htoClient]
      rw [hstep]
      cases p with
      | publish packetId message octets => exact (h.publish htoClient hok).1
      | pubrel packetId => exact (h.pubrel htoClient hok).1
  | receive => exact h.receive

end stories

/-! ### Runs -/

/-- Exactly once: no message is twice on the receive queue; a PUBLISH that is answered has its message there; a PUBREL is
    answered with the PUBCOMP of its identifier, and then nothing of the identifier is kept. --/
structure ExactlyOnce (ok : Exchange → ExchangeAction → Prop) (w : Exchange) : Prop where
  once : w.enqueued.Nodup
  taken : ∀ packetId message octets toClient memory stale, w.toClient = .publish packetId message octets :: toClient →
    ok w (.deliver memory stale) → (w.client.processPublish 2 packetId octets memory).2 ≠ none →
    message ∈ (w.step (.deliver memory stale)).enqueued
  released : ∀ packetId toClient memory stale, w.toClient = .pubrel packetId :: toClient → ok w (.deliver memory stale) →
    (w.step (.deliver memory stale)).toBroker = w.toBroker ++ [pubcompOf packetId] ∧
      kept (w.step (.deliver memory stale)).client packetId = 0

theorem sound_of_run {actions : List ExchangeAction} {w : Exchange}
    (h : Run step (fun w a => Allowed a ∧ Condition w a) exchangeStart actions w) : Sound w :=
  h.invariant (P := fun _ w => Sound w) sound_start fun _ _ _ hsound hok => hsound.step hok.1 hok.2

/-- Where every message that is taken finds memory, and every PUBREL finds one copy of its PUBREC and the upper octet of
    its identifier in the new packet, each message is delivered exactly once. --/
theorem delivered_exactly_once (actions : List ExchangeAction) (w : Exchange)
    (h : Run step (fun w a => Allowed a ∧ Condition w a) exchangeStart actions w) :
    ExactlyOnce (fun w a => Allowed a ∧ Condition w a) w := by
  have hsound := sound_of_run h
  refine ⟨hsound.once, ?_, ?_⟩
  · intro packetId message octets toClient memory stale htoClient hok hanswer
    have hstep : w.step (.deliver memory stale) =
        clientProcess { w with toClient := toClient } (.publish packetId message octets) memory stale := by
      unfold step
      rw [htoClient]
    rw [hstep]
    exact (hsound.publish htoClient hok.2).2 hanswer
  · intro packetId toClient memory stale htoClient hok
    have hstep : w.step (.deliver memory stale) =
        clientProcess { w with toClient := toClient } (.pubrel packetId) memory stale := by
      unfold step
      rw [htoClient]
    rw [hstep]
    exact (hsound.pubrel htoClient hok.2).2

/-- A client that connects, takes a message and lets go of it. --/
def deliveredOnce : List ExchangeAction :=
  [.other (.connect false), .other .connectPacketSend, .other (.connack true), .send 1 [104, 105],
    .deliver ⟨true, true, true⟩ 0, .receive, .deliver ⟨true, true, true⟩ 0]

theorem delivered_exactly_once_hello :
    ExactlyOnce (fun w a => Allowed a ∧ Condition w a) (deliveredOnce.foldl step exchangeStart) := by
  refine delivered_exactly_once deliveredOnce _ ?_
  have hnext : ∀ {actions : List ExchangeAction} {s : Exchange} (a : ExchangeAction),
      Run step (fun w a => Allowed a ∧ Condition w a) exchangeStart actions s → Allowed a → Condition s a →
      Run step (fun w a => Allowed a ∧ Condition w a) exchangeStart (actions ++ [a]) (s.step a) :=
    fun _ h hallowed hok => h.next ⟨hallowed, hok⟩
  have h1 := hnext (.other (.connect false)) .start rfl trivial
  have h2 := hnext (.other .connectPacketSend) h1 trivial trivial
  have h3 := hnext (.other (.connack true)) h2 rfl trivial
  have h4 := hnext (.send 1 [104, 105]) h3 trivial trivial
  have h5 := hnext (.deliver ⟨true, true, true⟩ 0) h4 trivial fun _ _ => ⟨rfl, rfl⟩
  have h6 := hnext .receive h5 trivial trivial
  exact hnext (.deliver ⟨true, true, true⟩ 0) h6 trivial ⟨by decide +kernel, rfl, by decide +kernel⟩

theorem run_of_allowed (s : Exchange) (actions : List ExchangeAction) (h : ∀ a ∈ actions, Allowed a) :
    Run step (fun _ a => Allowed a) s actions (actions.foldl step s) := by
  induction actions using List.reverseRecOn with
  | nil => exact .start
  | append_singleton actions a ih =>
    rw [List.foldl_append]
    exact (ih fun b hb => h b (List.mem_append_left _ hb)).next (h a (by simp))

/-- The PUBREC is lost with its connection, and the broker publishes again: now there are two copies of the PUBREC, of
    which the PUBREL takes one, and the next message with the identifier is answered without being taken. --/
def lostPubrec : List ExchangeAction :=
  [.other (.connect false), .other .connectPacketSend, .other (.connack true), .send 1 [104, 105],
    .deliver ⟨true, true, true⟩ 0, .lose .disconnect, .other (.connect false), .other .connectPacketSend,
    .other (.connack true), .resend 1, .deliver ⟨true, true, true⟩ 0, .receive, .deliver ⟨true, true, true⟩ 0, .receive,
    .send 1 [111, 107]]

theorem delivered_never : ¬∀ actions w, Run step (fun _ a => Allowed a) exchangeStart actions w →
    ExactlyOnce (fun _ a => Allowed a) w := by
  intro hclaim
  have honce := hclaim lostPubrec _ (run_of_allowed exchangeStart lostPubrec (by simp [lostPubrec, Allowed]))
  have hin := honce.taken 1 1 [111, 107] [] ⟨true, true, true⟩ 0 (by decide +kernel) trivial (by decide +kernel)
  revert hin
  decide +kernel

end Exchange

end Netxduo.Mqtt
