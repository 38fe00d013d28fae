import Mathlib.Tactic.SplitIfs
import Netxduo.Mqtt.Receive

/-! What the client does with a stream of control packets does not depend on how the stream was cut. -/

namespace Netxduo.Mqtt

open Runs Packets

section chains

variable {p q : Packets.Packet} {s m rest : List UInt8}

/-! ### The remaining length -/

/-- The octets of a length decide it. --/
theorem lengthLoop_front {bytes : List UInt8} {byteCount value multiplier value' byteCount' : Nat}
    (h : lengthLoop bytes byteCount value multiplier = .ok (value', byteCount')) :
    ∃ used rest, bytes = used ++ rest ∧ byteCount + used.length = byteCount' ∧ used ≠ [] ∧
      ∀ more, lengthLoop (used ++ more) byteCount value multiplier = .ok (value', byteCount') := by
  induction bytes generalizing byteCount value multiplier with
  | nil => cases h
  | cons b bytes ih =>
    unfold lengthLoop at h
    dsimp only at h
    split at h
    · rename_i hmore
      obtain ⟨used, rest, rfl, hcount, -, hused⟩ := ih h
      refine ⟨b :: used, rest, rfl, by rw [List.length_cons]; omega, List.cons_ne_nil _ _, fun more => ?_⟩
      rw [List.cons_append, lengthLoop]
      exact (if_pos hmore).trans (hused more)
    · rename_i hlast
      cases h
      refine ⟨[b], bytes, rfl, rfl, List.cons_ne_nil _ _, fun more => ?_⟩
      rw [List.singleton_append, lengthLoop]
      exact if_neg hlast

theorem readRemainingLength_octets (h : p.Filled) :
    readRemainingLength p = readRemainingLength (Packets.Packet.ofOctets p.octets) := by
  unfold readRemainingLength
  rw [h.extractOffset_eq, h.length]
  rfl

/-- A control packet is found in front of whatever follows it. --/
theorem readRemainingLength_frame {remainingLength offset : Nat}
    (h : readRemainingLength (Packets.Packet.ofOctets s) = .ok (remainingLength, offset)) :
    ∃ m rest, s = m ++ rest ∧ m.length = offset + remainingLength ∧ 2 ≤ offset ∧
      ∀ more, readRemainingLength (Packets.Packet.ofOctets (m ++ more)) = .ok (remainingLength, offset) := by
  have hlength : (Packets.Packet.ofOctets s).length = s.length := rfl
  unfold readRemainingLength at h
  cases hextract : (Packets.Packet.ofOctets s).extractOffset 1 4 with
  | none =>
    rw [hextract] at h
    cases h
  | some bytes =>
    rw [hextract] at h
    dsimp only at h
    have hbytes : 1 < s.length ∧ bytes = (s.drop 1).take 4 := by
      unfold Packets.Packet.extractOffset at hextract
      rw [ofOctets_octets, hlength] at hextract
      split at hextract
      · simp at hextract
      · exact ⟨by omega, (Option.some.inj hextract).symm⟩
    obtain ⟨hlt, rfl⟩ := hbytes
    cases hloop : lengthLoop ((s.drop 1).take 4) 0 0 1 with
    | error e =>
      rw [hloop] at h
      cases h
    | ok r =>
      obtain ⟨value, byteCount⟩ := r
      rw [hloop, hlength] at h
      dsimp only at h
      split at h
      · cases h
      · rename_i hfits
        cases h
        obtain ⟨used, behind, hused, hcount, hne, hmore⟩ := lengthLoop_front hloop
        have hpos := List.length_pos_iff.mpr hne
        have hle : used.length ≤ 4 := by
          have hall := congrArg List.length hused
          rw [List.length_take, List.length_append] at hall
          omega
        have hdrop : s.drop 1 = used ++ (behind ++ (s.drop 1).drop 4) := by
          rw [← List.append_assoc, ← hused, List.take_append_drop]
        have hsize : (s.take (1 + byteCount + remainingLength)).length = 1 + byteCount + remainingLength := by
          rw [List.length_take]
          omega
        refine ⟨s.take (1 + byteCount + remainingLength), s.drop (1 + byteCount + remainingLength),
          (List.take_append_drop _ _).symm, hsize, by omega, fun more => ?_⟩
        have hfirst : (s.take (1 + byteCount + remainingLength)).drop 1 =
            used ++ (behind ++ (s.drop 1).drop 4).take remainingLength := by
          have hbehind : 1 + byteCount + remainingLength - 1 = used.length + remainingLength := by omega
          rw [List.drop_take, hdrop, hbehind, List.take_append, List.take_of_length_le (by omega), Nat.add_sub_cancel_left,
            ← hdrop]
        have hfront : ∃ z, ((s.take (1 + byteCount + remainingLength) ++ more).drop 1).take 4 = used ++ z := by
          rw [List.drop_append_of_le_length (by omega), hfirst, List.append_assoc]
          exact ⟨_, by rw [List.take_append, List.take_of_length_le hle]⟩
        obtain ⟨z, hz⟩ := hfront
        have hlength' : (Packets.Packet.ofOctets (s.take (1 + byteCount + remainingLength) ++ more)).length =
            1 + byteCount + remainingLength + more.length := by
          show (s.take (1 + byteCount + remainingLength) ++ more).length = _
          rw [List.length_append, hsize]
        have hextract' : (Packets.Packet.ofOctets (s.take (1 + byteCount + remainingLength) ++ more)).extractOffset 1 4 =
            some (used ++ z) := by
          unfold Packets.Packet.extractOffset
          rw [ofOctets_octets, hlength', if_neg (by omega), if_neg (by rw [List.length_append]; omega), hz]
        unfold readRemainingLength
        rw [hextract', hlength']
        dsimp only
        rw [hmore z]
        exact if_neg (by omega)

end chains

/-! ### What the application sees -/

/-- The message in a packet of the receive queue. --/
def messageOf (octets : List UInt8) : Option Message := processPublishPacket (.ofOctets octets)

/-- A client, with its messages in the place of the packets they came in. --/
def Client.seen (c : Client) : Client × List (Option Message) :=
  ({ c with receiveQueue := [] }, c.receiveQueue.map messageOf)

section seen

variable {c c' : Client} {queue : List (List UInt8)}

theorem seen_eq (h : c.seen = c'.seen) :
    ∃ queue, c' = { c with receiveQueue := queue } ∧ c.receiveQueue.map messageOf = queue.map messageOf := by
  obtain ⟨hclient, hqueue⟩ := Prod.mk.inj h
  refine ⟨c'.receiveQueue, ?_, hqueue⟩
  cases c
  cases c'
  simp only [Client.mk.injEq] at hclient ⊢
  simp [hclient]

theorem processConnack_seen (h : c.seen = c'.seen) (accepted : Bool) :
    (c.processConnack accepted).seen = (c'.processConnack accepted).seen := by
  obtain ⟨queue, rfl, hqueue⟩ := seen_eq h
  cases accepted <;> simp [Client.processConnack, Client.connectionEnd, Client.seen, hqueue]

theorem processDisconnect_seen (h : c.seen = c'.seen) : c.processDisconnect.seen = c'.processDisconnect.seen := by
  obtain ⟨queue, rfl, hqueue⟩ := seen_eq h
  by_cases hidle : c.state = .idle
  · simp [Client.processDisconnect, Client.seen, hidle, hqueue]
  · simp [Client.processDisconnect, Client.connectionEnd, Client.seen, hidle]

theorem processSubUnsubAck_seen (h : c.seen = c'.seen) (header : UInt8) (remainingLength : Nat) (packetId : BitVec 16) :
    (c.processSubUnsubAck header remainingLength packetId).seen =
      (c'.processSubUnsubAck header remainingLength packetId).seen := by
  obtain ⟨queue, rfl, hqueue⟩ := seen_eq h
  unfold Client.processSubUnsubAck
  split_ifs <;> simp [Client.release, Client.seen, hqueue]

theorem processPublishResponse_seen (h : c.seen = c'.seen) (r : PublishResponse) (memory : Bool) (stale : UInt8) :
    (c.processPublishResponse r memory stale).2 = (c'.processPublishResponse r memory stale).2 ∧
      (c.processPublishResponse r memory stale).1.seen = (c'.processPublishResponse r memory stale).1.seen := by
  obtain ⟨queue, rfl, hqueue⟩ := seen_eq h
  unfold Client.processPublishResponse
  dsimp only
  split_ifs <;> simp [Client.release, Client.seen, hqueue]

theorem processPublish_seen (h : c.seen = c'.seen) (qos : Nat) (packetId : BitVec 16) {octets octets' : List UInt8}
    (hmessage : messageOf octets = messageOf octets') (answer keep : Bool) :
    (c.processPublish qos packetId octets ⟨true, answer, keep⟩).2 =
        (c'.processPublish qos packetId octets' ⟨true, answer, keep⟩).2 ∧
      (c.processPublish qos packetId octets ⟨true, answer, keep⟩).1.seen =
        (c'.processPublish qos packetId octets' ⟨true, answer, keep⟩).1.seen := by
  obtain ⟨queue, rfl, hqueue⟩ := seen_eq h
  unfold Client.processPublish
  dsimp only
  split_ifs <;> simp_all [Client.enqueue, Client.seen]

end seen

/-! ### A control packet in front of others -/

/-- A PUBLISH has room for its topic and for its identifier. --/
def publishFits (p : Packets.Packet) : Bool :=
  match readRemainingLength p with
  | .error _ => false
  | .ok (remainingLength, offset) =>
    match p.extractOffset offset 2 with
    | some [msb, lsb] =>
      let identifier := if qosOf (p.head.octets.headD 0) = 0 then 0 else 2
      decide (2 + (msb.toNat * 256 + lsb.toNat) + identifier ≤ remainingLength)
    | _ => false

/-- The control packet in front can be taken from where it lies. What is read at the data pointer is in the first buffer; a
    CONNACK is the end of what arrived; a PUBLISH that is not the end has room for what it says, and there is memory for
    its copy. --/
structure Taken (memory : Memory) (p : Packets.Packet) (size : Nat) : Prop where
  connack : typeOf p = controlConnack → (size = 4 → p.length = 4) ∧ (p.length = 4 → 4 ≤ p.head.octets.length)
  publish : typeOf p = controlPublish → size < p.length → publishFits p = true ∧ memory.publish.copy = true
  response : typeOf p = controlPuback ∨ typeOf p = controlPubrel →
    2 ≤ p.head.octets.length ∧ (p.headOctet memory.beyond 1 = 2 → 4 ≤ p.head.octets.length)

section control

variable {memory : Memory} {c c' : Client} {p : Packets.Packet} {m rest : List UInt8} {remainingLength offset size i : Nat}

theorem slice_front (hle : offset + size ≤ m.length) (rest : List UInt8) :
    ((m ++ rest).drop offset).take size = (m.drop offset).take size := by
  rw [List.drop_append_of_le_length (by omega), List.take_append_of_le_length (by rw [List.length_drop]; omega)]

/-- A control packet and what lies behind it in a chain. --/
structure InFront (p : Packets.Packet) (m rest : List UInt8) (remainingLength offset : Nat) : Prop where
  filled : p.Filled
  octets : p.octets = m ++ rest
  size : m.length = offset + remainingLength
  fixed : 2 ≤ offset
  read : ∀ more, readRemainingLength (Packets.Packet.ofOctets (m ++ more)) = .ok (remainingLength, offset)

theorem InFront.read_self (h : InFront p m rest remainingLength offset) :
    readRemainingLength p = .ok (remainingLength, offset) := by
  rw [readRemainingLength_octets h.filled, h.octets]
  exact h.read rest

/-- Alone in its packet, it is the same control packet. --/
theorem InFront.alone (h : InFront p m rest remainingLength offset) :
    InFront (Packets.Packet.ofOctets m) m [] remainingLength offset := by
  have hne : m ≠ [] := by
    rintro rfl
    have hsize := h.size
    have hfixed := h.fixed
    rw [List.length_nil] at hsize
    omega
  exact ⟨ofOctets_filled hne, by rw [ofOctets_octets, List.append_nil], h.size, h.fixed, h.read⟩

theorem InFront.extract (h : InFront p m rest remainingLength offset) (start size : Nat) (hle : start + size ≤ m.length)
    (hsize : 0 < size) : p.extractOffset start size = some ((m.drop start).take size) := by
  rw [h.filled.extractOffset_eq, h.octets]
  exact extractOffset_front hle hsize rest

theorem InFront.typeOf_eq (h : InFront p m rest remainingLength offset) : typeOf p = typeOf (Packets.Packet.ofOctets m) := by
  have hle : 0 + 1 ≤ m.length := by
    rw [h.size]
    have := h.fixed
    omega
  unfold typeOf
  rw [h.extract _ _ hle Nat.one_pos, h.alone.extract _ _ hle Nat.one_pos]

theorem InFront.getElem?_eq (h : InFront p m rest remainingLength offset) (hhead : i < p.head.octets.length)
    (hi : i < m.length) : p.head.octets[i]? = m[i]? := by
  have hwhole : (p.head.octets ++ p.tail.flatMap Packets.Buffer.octets)[i]? = (m ++ rest)[i]? := congrArg (·[i]?) h.octets
  rwa [List.getElem?_append_left hhead, List.getElem?_append_left hi] at hwhole

theorem InFront.headOctet_eq (h : InFront p m rest remainingLength offset) (hhead : i < p.head.octets.length)
    (hi : i < m.length) (beyond : Nat → UInt8) : p.headOctet beyond i = (Packets.Packet.ofOctets m).headOctet beyond i := by
  unfold Packets.Packet.headOctet
  rw [h.getElem?_eq hhead hi]
  rfl

theorem InFront.head_pos (h : InFront p m rest remainingLength offset) : 0 < p.head.octets.length :=
  List.length_pos_iff.mpr h.filled.head

/-- Its second octet says whether two octets remain. --/
theorem InFront.second (h : InFront p m rest remainingLength offset) (beyond : Nat → UInt8) :
    (Packets.Packet.ofOctets m).headOctet beyond 1 = 2 → m.length = 4 := by
  intro htwo
  have hread := h.read []
  have hsize := h.size
  have hfixed := h.fixed
  rw [List.append_nil] at hread
  rcases m with _ | ⟨a, _ | ⟨b, m⟩⟩
  · rw [List.length_nil] at hsize
    omega
  · rw [List.length_singleton] at hsize
    omega
  · have hb : b = 2 := htwo
    subst hb
    have hextract : (Packets.Packet.ofOctets (a :: 2 :: m)).extractOffset 1 4 = some (2 :: m.take 3) := by
      have hlong : ¬m.length + 1 + 1 ≤ 1 := by omega
      unfold Packets.Packet.extractOffset
      rw [ofOctets_octets]
      exact (if_neg hlong).trans (if_neg hlong)
    have hloop : lengthLoop (2 :: m.take 3) 0 0 1 = .ok (2, 1) := by
      rw [lengthLoop]
      exact if_neg (by decide)
    unfold readRemainingLength at hread
    rw [hextract] at hread
    dsimp only at hread
    rw [hloop] at hread
    dsimp only at hread
    split at hread
    · cases hread
    · cases hread
      exact hsize

/-! ### The handlers -/

theorem InFront.headD_eq (h : InFront p m rest remainingLength offset) : p.head.octets.headD 0 = m.headD 0 := by
  have hsize := h.size
  have hfixed := h.fixed
  rw [List.headD_eq_head?_getD, List.headD_eq_head?_getD, List.head?_eq_getElem?, List.head?_eq_getElem?,
    h.getElem?_eq h.head_pos (by omega)]

theorem InFront.headOctet_zero (h : InFront p m rest remainingLength offset) (beyond : Nat → UInt8) :
    p.headOctet beyond 0 = m.headD 0 := by
  have hpos := h.head_pos
  rw [← h.headD_eq, List.headD_eq_head?_getD, List.head?_eq_getElem?]
  unfold Packets.Packet.headOctet
  rw [List.getElem?_eq_getElem hpos]
  rfl

/-- The octets of a chain in one buffer. --/
theorem InFront.whole (h : InFront p m rest remainingLength offset) :
    InFront (Packets.Packet.ofOctets p.octets) m rest remainingLength offset := by
  have hne : p.octets ≠ [] := fun hnil => h.filled.head (List.append_eq_nil_iff.mp hnil).1
  exact ⟨ofOctets_filled hne, by rw [ofOctets_octets, h.octets], h.size, h.fixed, h.read⟩

/-- What a PUBLISH has room for. --/
theorem InFront.fits_spec (h : InFront p m rest remainingLength offset) (hfits : publishFits p = true) :
    ∃ msb lsb, (m.drop offset).take 2 = [msb, lsb] ∧
      2 + (msb.toNat * 256 + lsb.toNat) + (if qosOf (m.headD 0) = 0 then 0 else 2) ≤ remainingLength := by
  have hsize := h.size
  unfold publishFits at hfits
  rw [h.read_self] at hfits
  dsimp only at hfits
  split at hfits
  · rename_i msb lsb hextract
    rw [h.headD_eq] at hfits
    have hroom := of_decide_eq_true hfits
    rw [h.extract _ _ (by omega) (by decide)] at hextract
    exact ⟨msb, lsb, Option.some.inj hextract, hroom⟩
  · cases hfits

/-- Where a PUBLISH has room for what it says, what follows it does not matter. --/
theorem InFront.identifier_eq (h : InFront p m rest remainingLength offset) (hfits : publishFits p = true) :
    publishIdentifier memory p remainingLength offset =
      publishIdentifier memory (Packets.Packet.ofOctets m) remainingLength offset ∧
    publishIdentifier memory p remainingLength offset ≠ none := by
  have hsize := h.size
  obtain ⟨msb, lsb, htopic, hroom⟩ := h.fits_spec hfits
  have hown := h.extract offset 2 (by omega) (by decide)
  have hother := h.alone.extract offset 2 (by omega) (by decide)
  rw [htopic] at hown hother
  unfold publishIdentifier
  dsimp only
  have hlong : ¬remainingLength < 2 := by omega
  have hfit : ¬remainingLength - 2 < msb.toNat * 256 + lsb.toNat := by omega
  rw [h.headOctet_zero, h.alone.headOctet_zero, hown, hother, if_neg hlong, if_neg hlong]
  dsimp only
  rw [if_neg hfit, if_neg hfit]
  by_cases hqos : qosOf (m.headD 0) = 0
  · rw [if_pos hqos, if_pos hqos]
    exact ⟨rfl, Option.some_ne_none _⟩
  · rw [if_neg hqos] at hroom
    rw [if_neg hqos, if_neg hqos, h.extract _ _ (by omega) (by decide), h.alone.extract _ _ (by omega) (by decide)]
    exact ⟨rfl, Option.some_ne_none _⟩

theorem InFront.message_eq (h : InFront p m rest remainingLength offset) (hfits : publishFits p = true) :
    messageOf p.octets = messageOf m := by
  have hsize := h.size
  obtain ⟨msb, lsb, htopic, hroom⟩ := h.fits_spec hfits
  have hown := h.whole.extract offset 2 (by omega) (by decide)
  have hother := h.alone.extract offset 2 (by omega) (by decide)
  rw [htopic] at hown hother
  unfold messageOf processPublishPacket
  rw [h.whole.headD_eq, h.alone.headD_eq, h.whole.read_self, h.alone.read_self]
  dsimp only
  rw [hown, hother]
  dsimp only
  rw [ofOctets_octets, ofOctets_octets, h.octets]
  have htopicSlice := @slice_front m (offset + 2) (msb.toNat * 256 + lsb.toNat) (by omega) rest
  by_cases hqos : qosOf (m.headD 0) = 1 ∨ qosOf (m.headD 0) = 2
  · have hidentifier : ¬qosOf (m.headD 0) = 0 := by omega
    rw [if_neg hidentifier] at hroom
    rw [if_pos hqos, if_pos hqos, htopicSlice, slice_front (by omega)]
  · rw [if_neg hqos, if_neg hqos, htopicSlice, slice_front (by omega)]

/-- At the end of what arrived, a control packet is what it is alone. --/
theorem InFront.publish_last (h : InFront p m [] remainingLength offset) :
    publishIdentifier memory p remainingLength offset = publishIdentifier memory (Packets.Packet.ofOctets m) remainingLength offset := by
  have hsize := h.size
  have hoctets : p.octets = m := h.octets.trans (List.append_nil m)
  have hzero : p.headOctet memory.beyond 0 = (Packets.Packet.ofOctets m).headOctet memory.beyond 0 :=
    h.headOctet_eq h.head_pos (by have := h.fixed; omega) memory.beyond
  unfold publishIdentifier
  simp only [hzero, h.filled.extractOffset_eq, hoctets]

theorem InFront.publish_same (h : InFront p m rest remainingLength offset)
    (htaken : offset + remainingLength < p.length → publishFits p = true ∧ memory.publish.copy = true)
    (hseen : c.seen = c'.seen) :
    (processPublish memory c p).2.2 = (processPublish memory c' (Packets.Packet.ofOctets m)).2.2 ∧
      (processPublish memory c p).2.1.seen = (processPublish memory c' (Packets.Packet.ofOctets m)).2.1.seen ∧
      (offset + remainingLength < p.length → (processPublish memory c p).1 = .released) := by
  have hsize := h.size
  have hlength : p.length = m.length + rest.length := by rw [h.filled.length, h.octets, List.length_append]
  have halone : (Packets.Packet.ofOctets m).length = m.length := rfl
  have hqueue : c.transmitQueue = c'.transmitQueue := by
    obtain ⟨queue, rfl, -⟩ := seen_eq hseen
    rfl
  have hidentifier : publishIdentifier memory p remainingLength offset =
      publishIdentifier memory (Packets.Packet.ofOctets m) remainingLength offset ∧ messageOf p.octets = messageOf m ∧
      (offset + remainingLength < p.length → publishIdentifier memory p remainingLength offset ≠ none) := by
    by_cases hmore : offset + remainingLength < p.length
    · obtain ⟨hsame, hsome⟩ := h.identifier_eq (htaken hmore).1
      exact ⟨hsame, h.message_eq (htaken hmore).1, fun _ => hsome⟩
    · have hrest : rest = [] := List.length_eq_zero_iff.mp (by omega)
      subst hrest
      exact ⟨h.publish_last, by rw [h.octets, List.append_nil], fun h => absurd h hmore⟩
  obtain ⟨hidentifier, hmessage, hsome⟩ := hidentifier
  unfold processPublish
  rw [h.read_self, h.alone.read_self]
  dsimp only
  rw [hidentifier] at hsome ⊢
  cases hread : publishIdentifier memory (Packets.Packet.ofOctets m) remainingLength offset with
  | none => exact ⟨rfl, hseen, fun hmore => absurd hread (hsome hmore)⟩
  | some r =>
    obtain ⟨qos, packetId⟩ := r
    dsimp only
    have hown : (!decide (offset + remainingLength < p.length) || memory.publish.copy) = true := by
      by_cases hmore : offset + remainingLength < p.length
      · rw [(htaken hmore).2, Bool.or_true]
      · simp [hmore]
    have hother : (!decide (offset + remainingLength < (Packets.Packet.ofOctets m).length) || memory.publish.copy) = true := by
      rw [halone, hsize]
      simp
    rw [hown, hother, ofOctets_octets]
    obtain ⟨hsent, hclient⟩ :=
      processPublish_seen hseen qos packetId hmessage memory.publish.answer memory.publish.keep
    refine ⟨hsent, hclient, fun hmore => ?_⟩
    simp [hmore]

theorem InFront.connack_same (h : InFront p m rest remainingLength offset)
    (htaken : (offset + remainingLength = 4 → p.length = 4) ∧ (p.length = 4 → 4 ≤ p.head.octets.length))
    (hclean : c.cleanSession = c'.cleanSession) :
    connackAccepted memory c p = connackAccepted memory c' (Packets.Packet.ofOctets m) := by
  have hsize := h.size
  have hlength : p.length = m.length + rest.length := by rw [h.filled.length, h.octets, List.length_append]
  have halone : (Packets.Packet.ofOctets m).length = m.length := rfl
  by_cases hfour : m.length = 4
  · have hhead := htaken.2 (htaken.1 (by omega))
    unfold connackAccepted
    rw [h.headOctet_eq (i := 0) (by omega) (by omega), h.headOctet_eq (i := 1) (by omega) (by omega),
      h.headOctet_eq (i := 2) (by omega) (by omega), h.headOctet_eq (i := 3) (by omega) (by omega), hclean,
      htaken.1 (by omega), halone, hfour]
  · have hother : connackAccepted memory c' (Packets.Packet.ofOctets m) = false := by
      unfold connackAccepted
      rw [halone]
      simp [hfour]
    rw [hother]
    by_cases hall : p.length = 4
    · have hhead := htaken.2 hall
      have hone := h.headOctet_eq (i := 1) (by omega) (by have := h.fixed; omega) memory.beyond
      have hnot : ¬p.headOctet memory.beyond 1 = 2 := fun htwo => hfour (h.second memory.beyond (hone ▸ htwo))
      unfold connackAccepted
      simp [hnot]
    · unfold connackAccepted
      simp [hall]

theorem InFront.response_same (h : InFront p m rest remainingLength offset)
    (htaken : 2 ≤ p.head.octets.length ∧ (p.headOctet memory.beyond 1 = 2 → 4 ≤ p.head.octets.length))
    (hseen : c.seen = c'.seen) :
    (c.processPublishResponse (responseOf memory p) memory.response memory.stale).2 =
        (c'.processPublishResponse (responseOf memory (Packets.Packet.ofOctets m)) memory.response memory.stale).2 ∧
      (c.processPublishResponse (responseOf memory p) memory.response memory.stale).1.seen =
        (c'.processPublishResponse (responseOf memory (Packets.Packet.ofOctets m)) memory.response memory.stale).1.seen := by
  have hsize := h.size
  have hone := h.headOctet_eq (i := 1) (by omega) (by have := h.fixed; omega) memory.beyond
  by_cases htwo : p.headOctet memory.beyond 1 = 2
  · have hfour := h.second memory.beyond (hone ▸ htwo)
    have hhead := htaken.2 htwo
    have hsame : responseOf memory p = responseOf memory (Packets.Packet.ofOctets m) := by
      unfold responseOf
      rw [h.headOctet_eq (i := 0) (by omega) (by omega), hone, h.headOctet_eq (i := 2) (by omega) (by omega),
        h.headOctet_eq (i := 3) (by omega) (by omega)]
    rw [hsame]
    exact processPublishResponse_seen hseen _ _ _
  · have hown : (responseOf memory p).remainingLength ≠ 2 := htwo
    rw [hone] at htwo
    have hother : (responseOf memory (Packets.Packet.ofOctets m)).remainingLength ≠ 2 := htwo
    unfold Client.processPublishResponse
    rw [if_pos hown, if_pos hother]
    exact ⟨rfl, hseen⟩

theorem InFront.subUnsubAck_same (h : InFront p m rest remainingLength offset) (hseen : c.seen = c'.seen) :
    (processSubUnsubAck memory c p).seen = (processSubUnsubAck memory c' (Packets.Packet.ofOctets m)).seen := by
  have hsize := h.size
  by_cases hshort : remainingLength < 2
  · have hnothing : ∀ (c : Client) header packetId, c.processSubUnsubAck header remainingLength packetId = c := by
      intro c header packetId
      unfold Client.processSubUnsubAck
      rw [if_pos (show remainingLength ≠ 3 by omega), if_pos (show remainingLength ≠ 2 by omega)]
      split_ifs <;> rfl
    have hstays : ∀ (c : Client) {q : Packets.Packet}, readRemainingLength q = .ok (remainingLength, offset) →
        processSubUnsubAck memory c q = c := by
      intro c q hread
      unfold processSubUnsubAck
      rw [hread]
      dsimp only
      split
      · exact hnothing _ _ _
      · rfl
    rw [hstays c h.read_self, hstays c' h.alone.read_self]
    exact hseen
  · unfold processSubUnsubAck
    rw [h.read_self, h.alone.read_self]
    dsimp only
    rw [h.extract _ _ (by omega) (by decide), h.alone.extract _ _ (by omega) (by decide), h.headOctet_zero, h.alone.headOctet_zero]
    split
    · exact processSubUnsubAck_seen hseen _ _ _
    · exact hseen

/-- A control packet in front of others, and the same one alone. --/
theorem InFront.control_same (h : InFront p m rest remainingLength offset) (htaken : Taken memory p (offset + remainingLength))
    (hseen : c.seen = c'.seen) :
    (processControl memory c p).2.2 = (processControl memory c' (Packets.Packet.ofOctets m)).2.2 ∧
      (processControl memory c p).2.1.seen = (processControl memory c' (Packets.Packet.ofOctets m)).2.1.seen ∧
      (offset + remainingLength < p.length → (processControl memory c p).1 = .released) := by
  have hclean : c.cleanSession = c'.cleanSession := by
    obtain ⟨queue, rfl, -⟩ := seen_eq hseen
    rfl
  obtain ⟨hconnack, hpublish, hresponse⟩ := htaken
  unfold processControl
  dsimp only
  rw [← h.typeOf_eq]
  by_cases h2 : typeOf p = controlConnack
  · rw [if_pos h2, if_pos h2]
    rw [h.connack_same (hconnack h2) hclean]
    exact ⟨rfl, processConnack_seen hseen _, fun _ => rfl⟩
  rw [if_neg h2, if_neg h2]
  by_cases h3 : typeOf p = controlPublish
  · rw [if_pos h3, if_pos h3]
    exact h.publish_same (hpublish h3) hseen
  rw [if_neg h3, if_neg h3]
  by_cases h4 : typeOf p = controlPuback ∨ typeOf p = controlPubrel
  · rw [if_pos h4, if_pos h4]
    obtain ⟨hsent, hclient⟩ := h.response_same (hresponse h4) hseen
    exact ⟨hsent, hclient, fun _ => rfl⟩
  rw [if_neg h4, if_neg h4]
  by_cases h9 : typeOf p = controlSuback ∨ typeOf p = controlUnsuback
  · rw [if_pos h9, if_pos h9]
    exact ⟨rfl, h.subUnsubAck_same hseen, fun _ => rfl⟩
  rw [if_neg h9, if_neg h9]
  by_cases h14 : typeOf p = controlDisconnect
  · rw [if_pos h14, if_pos h14]
    exact ⟨rfl, processDisconnect_seen hseen, fun _ => rfl⟩
  · rw [if_neg h14, if_neg h14]
    exact ⟨rfl, hseen, fun _ => rfl⟩

end control

/-! ### The stream -/

/-- The control packets that a stream begins with, and what is left of it. --/
def controlPackets : Nat → List UInt8 → List (List UInt8) × List UInt8
  | 0, s => ([], s)
  | fuel + 1, s =>
    match readRemainingLength (.ofOctets s) with
    | .error _ => ([], s)
    | .ok (remainingLength, offset) =>
      let r := controlPackets fuel (s.drop (offset + remainingLength))
      (s.take (offset + remainingLength) :: r.1, r.2)

/-- The octets that arrived. --/
def stream (packets : List Packets.Packet) : List UInt8 := packets.flatMap Packets.Packet.octets

/-- Every control packet of a stream arrives alone. --/
def receivedAlone (memory : Nat → Memory) (r : Receiver) (s : List UInt8) : Receiver :=
  (controlPackets s.length s).1.foldl (fun r m => packetReceiveProcess memory r (.ofOctets m)) r

/-- The octets that wait for more. --/
def Receiver.waiting (r : Receiver) : List UInt8 := r.processing.elim [] Packets.Packet.octets

def Performed.seen (d : Performed) : UInt8 × Option PublishResponse × Client × List (Option Message) :=
  (d.type, d.sent, d.client.seen)

/-- Two receivers did the same, one control packet after the other. --/
structure Same (r r' : Receiver) : Prop where
  client : r.client.seen = r'.client.seen
  performed : r.performed.map Performed.seen = r'.performed.map Performed.seen

/-- Every control packet of a packet can be taken from where it lies, up to one that is not complete. --/
def Readable (memory : Nat → Memory) : Nat → Nat → Packets.Packet → Prop
  | 0, _, _ => True
  | fuel + 1, i, p =>
    readRemainingLength p ≠ .error .internalError ∧
      ∀ remainingLength offset, readRemainingLength p = .ok (remainingLength, offset) →
        Taken (memory i) p (offset + remainingLength) ∧
          ∀ q, p.trim (offset + remainingLength) = some q → Readable memory fuel (i + 1) q

/-- A packet of TCP arrives, the packet that waits ends where it should, and what lies in them together can be read. --/
structure Arrives (memory : Nat → Memory) (r : Receiver) (p : Packets.Packet) : Prop where
  filled : p.Filled
  ends : ∀ q, r.processing = some q → q.Ends
  readable : Readable memory (r.joined p).length r.performed.length (r.joined p)

section stream

variable {memory : Nat → Memory} {p : Packets.Packet} {m rest s t : List UInt8} {remainingLength offset : Nat} {r r' : Receiver}

theorem controlPackets_fuel {n k : Nat} (hn : s.length ≤ n) (hk : s.length ≤ k) :
    controlPackets n s = controlPackets k s := by
  induction n generalizing s k with
  | zero =>
    cases List.length_eq_zero_iff.mp (Nat.le_zero.mp hn)
    cases k with
    | zero => rfl
    | succ k => rfl
  | succ n ih =>
    cases k with
    | zero =>
      cases List.length_eq_zero_iff.mp (Nat.le_zero.mp hk)
      rfl
    | succ k =>
      unfold controlPackets
      cases hread : readRemainingLength (Packets.Packet.ofOctets s) with
      | error e => rfl
      | ok found =>
        obtain ⟨remainingLength, offset⟩ := found
        obtain ⟨m, rest, rfl, hsize, hfixed, -⟩ := readRemainingLength_frame hread
        rw [List.length_append] at hn hk
        dsimp only
        rw [ih (by rw [List.length_drop, List.length_append]; omega)
          (show ((m ++ rest).drop (offset + remainingLength)).length ≤ k by rw [List.length_drop, List.length_append]; omega)]

/-- A stream goes on where it stopped. --/
theorem controlPackets_append {n : Nat} (hn : s.length ≤ n) (t : List UInt8) :
    controlPackets (s ++ t).length (s ++ t) =
      ((controlPackets n s).1 ++
          (controlPackets ((controlPackets n s).2 ++ t).length ((controlPackets n s).2 ++ t)).1,
        (controlPackets ((controlPackets n s).2 ++ t).length ((controlPackets n s).2 ++ t)).2) := by
  induction n generalizing s with
  | zero => rfl
  | succ n ih =>
    cases hread : readRemainingLength (Packets.Packet.ofOctets s) with
    | error e =>
      have hnone : controlPackets (n + 1) s = ([], s) := by
        unfold controlPackets
        rw [hread]
      rw [hnone]
      rfl
    | ok found =>
      obtain ⟨remainingLength, offset⟩ := found
      obtain ⟨m, rest, rfl, hsize, hfixed, hmore⟩ := readRemainingLength_frame hread
      have hone : ∀ k more, controlPackets (k + 1) (m ++ more) =
          (m :: (controlPackets k more).1, (controlPackets k more).2) := by
        intro k more
        rw [controlPackets, hmore more]
        dsimp only
        rw [← hsize, List.drop_left, List.take_left]
      rw [List.length_append] at hn
      have hlength : (m ++ (rest ++ t)).length = (m.length - 1 + (rest ++ t).length) + 1 := by
        rw [List.length_append]
        omega
      rw [hone, List.append_assoc, hlength, hone, controlPackets_fuel (k := (rest ++ t).length) (by omega) (Nat.le_refl _),
        ih (s := rest) (by omega)]
      rfl

/-- A control packet that arrives alone is processed, and nothing waits. --/
theorem InFront.receive_alone (h : InFront p m rest remainingLength offset) (hnone : r.processing = none) :
    packetReceiveProcess memory r (.ofOctets m) =
      ⟨(processControl (memory r.performed.length) r.client (.ofOctets m)).2.1, none,
        r.performed ++ [⟨typeOf (.ofOctets m),
          (processControl (memory r.performed.length) r.client (.ofOctets m)).2.2,
          (processControl (memory r.performed.length) r.client (.ofOctets m)).2.1⟩]⟩ := by
  obtain ⟨client, processing, performed⟩ := r
  cases hnone
  have hsize := h.size
  have hfixed := h.fixed
  have hlength : (Packets.Packet.ofOctets m).length = m.length := rfl
  have hfuel : m.length = m.length - 1 + 1 := by omega
  unfold packetReceiveProcess Receiver.joined
  dsimp only
  rw [hlength, hfuel, controlLoop, h.alone.read_self]
  dsimp only
  split
  · rfl
  · rw [hlength, if_neg (by omega)]

/-- The loop over a packet does what is done for its control packets alone. --/
theorem controlLoop_same {fuel : Nat} (hp : p.Filled) (hfuel : p.length ≤ fuel)
    (hreadable : Readable memory fuel r.performed.length p) (hsame : Same r r') (hnone : r.processing = none)
    (hnone' : r'.processing = none) :
    let done := (controlPackets fuel p.octets).1.foldl (fun r m => packetReceiveProcess memory r (.ofOctets m)) r'
    Same (controlLoop memory fuel p r) done ∧ done.processing = none ∧
      (controlLoop memory fuel p r).waiting = (controlPackets fuel p.octets).2 ∧
      ∀ q, (controlLoop memory fuel p r).processing = some q → q.Filled := by
  induction fuel generalizing p r r' with
  | zero =>
    have hpos := List.length_pos_iff.mpr hp.head
    have hlength := hp.length
    rw [Packets.Packet.octets, List.length_append] at hlength
    omega
  | succ fuel ih =>
    obtain ⟨hvalid, htaken⟩ := hreadable
    unfold controlLoop controlPackets
    rw [← readRemainingLength_octets hp]
    cases hread : readRemainingLength p with
    | error e =>
      cases e with
      | internalError => exact absurd hread hvalid
      | partialPacket => exact ⟨⟨hsame.client, hsame.performed⟩, hnone', rfl, fun q hq => Option.some.inj hq ▸ hp⟩
    | ok found =>
      obtain ⟨remainingLength, offset⟩ := found
      obtain ⟨htaken, hnext⟩ := htaken _ _ hread
      have hread' := hread
      rw [readRemainingLength_octets hp] at hread'
      obtain ⟨m, rest, hoctets, hsize, hfixed, hmore⟩ := readRemainingLength_frame hread'
      have h : InFront p m rest remainingLength offset := ⟨hp, hoctets, hsize, hfixed, hmore⟩
      have hcount : r.performed.length = r'.performed.length := by
        have := congrArg List.length hsame.performed
        rwa [List.length_map, List.length_map] at this
      obtain ⟨hsent, hclient, hreleased⟩ := h.control_same htaken hsame.client
      have hfront : p.octets.take (offset + remainingLength) = m := by rw [hoctets, ← hsize, List.take_left]
      have hbehind : p.octets.drop (offset + remainingLength) = rest := by rw [hoctets, ← hsize, List.drop_left]
      dsimp only
      rw [hfront, hbehind, List.foldl_cons, h.receive_alone hnone', ← hcount]
      have hsame' : Same
          ⟨(processControl (memory r.performed.length) r.client p).2.1, r.processing, r.performed ++
            [⟨typeOf p, (processControl (memory r.performed.length) r.client p).2.2,
              (processControl (memory r.performed.length) r.client p).2.1⟩]⟩
          ⟨(processControl (memory r.performed.length) r'.client (.ofOctets m)).2.1, none, r'.performed ++
            [⟨typeOf (.ofOctets m), (processControl (memory r.performed.length) r'.client (.ofOctets m)).2.2,
              (processControl (memory r.performed.length) r'.client (.ofOctets m)).2.1⟩]⟩ := by
        refine ⟨hclient, ?_⟩
        simp [hsame.performed, Performed.seen, h.typeOf_eq, hsent, hclient]
      by_cases hmore : offset + remainingLength < p.length
      · obtain ⟨q, htrim, hq, hfilled⟩ := hp.trim hmore
        have hlength : q.length ≤ fuel := by
          rw [hfilled.length, hq, List.length_drop, ← hp.length]
          omega
        have hcounted : Readable memory fuel (r.performed ++
            [(⟨typeOf p, (processControl (memory r.performed.length) r.client p).2.2,
              (processControl (memory r.performed.length) r.client p).2.1⟩ : Performed)]).length q := by
          rw [List.length_append]
          exact hnext q htrim
        have hgo := ih hfilled hlength hcounted hsame' hnone rfl
        rw [hq, hbehind] at hgo
        rw [hreleased hmore, if_neg (fun h => h rfl), if_pos hmore, htrim]
        exact hgo
      · have hrest : rest = [] := by
          have hall := hp.length
          rw [hoctets, List.length_append] at hall
          exact List.length_eq_zero_iff.mp (by omega)
        have hend : controlPackets fuel rest = ([], []) := by
          subst hrest
          cases fuel with
          | zero => rfl
          | succ fuel => rfl
        rw [hend, if_neg hmore, ite_self]
        refine ⟨hsame', rfl, ?_, fun q hq => ?_⟩
        · unfold Receiver.waiting
          dsimp only
          rw [hnone]
          rfl
        · dsimp only at hq
          rw [hnone] at hq
          cases hq

/-- What holds between a receiver and the one that each control packet reached alone. --/
structure InStep (memory : Nat → Memory) (start : Receiver) (s : List UInt8) (r : Receiver) : Prop where
  same : Same r (receivedAlone memory start s)
  alone : (receivedAlone memory start s).processing = none
  waiting : r.waiting = (controlPackets s.length s).2
  filled : ∀ q, r.processing = some q → q.Filled

/-- One more packet of TCP. --/
theorem InStep.receive {start : Receiver} (h : InStep memory start s r) (harrives : Arrives memory r p) :
    InStep memory start (s ++ p.octets) (packetReceiveProcess memory r p) := by
  have hjoined : (r.joined p).octets = r.waiting ++ p.octets ∧ (r.joined p).Filled := by
    unfold Receiver.joined Receiver.waiting
    cases hprocessing : r.processing with
    | none => exact ⟨rfl, harrives.filled⟩
    | some q =>
      have hends := harrives.ends q hprocessing
      exact ⟨hends.link_octets p, hends.link_filled (h.filled q hprocessing) harrives.filled⟩
  obtain ⟨hoctets, hfilled⟩ := hjoined
  rw [h.waiting] at hoctets
  obtain ⟨hsame, halone, hwaiting, hkept⟩ := @controlLoop_same memory (r.joined p) { r with processing := none }
    (receivedAlone memory start s) (r.joined p).length hfilled (Nat.le_refl _) harrives.readable
    ⟨h.same.client, h.same.performed⟩ rfl h.alone
  rw [hfilled.length, hoctets] at hsame halone hwaiting hkept
  have happend := controlPackets_append (Nat.le_refl s.length) p.octets
  have hreceived : receivedAlone memory start (s ++ p.octets) =
      (controlPackets ((controlPackets s.length s).2 ++ p.octets).length ((controlPackets s.length s).2 ++ p.octets)).1.foldl
        (fun r m => packetReceiveProcess memory r (.ofOctets m)) (receivedAlone memory start s) := by
    unfold receivedAlone
    rw [happend, List.foldl_append]
  unfold packetReceiveProcess
  rw [hfilled.length, hoctets]
  exact ⟨hreceived ▸ hsame, hreceived ▸ halone, by rw [hwaiting, happend], hkept⟩

end stream

section runs

variable {memory : Nat → Memory} {c : Client} {packets : List Packets.Packet} {r : Receiver}

/-- However a stream is cut, what is done is what is done for its control packets alone, one after the other, and what is not
    complete waits. --/
theorem segmentation_independent
    (hrun : Run (packetReceiveProcess memory) (Arrives memory) ⟨c, none, []⟩ packets r) :
    Same r (receivedAlone memory ⟨c, none, []⟩ (stream packets)) ∧
      r.waiting = (controlPackets (stream packets).length (stream packets)).2 := by
  have hstep : InStep memory ⟨c, none, []⟩ (stream packets) r := by
    refine hrun.invariant (P := fun packets r => InStep memory ⟨c, none, []⟩ (stream packets) r) ?_ ?_
    · exact ⟨⟨rfl, rfl⟩, rfl, rfl, fun q hq => by cases hq⟩
    · intro packets r p h harrives
      have hstream : stream (packets ++ [p]) = stream packets ++ p.octets := by
        unfold stream
        rw [List.flatMap_append, List.flatMap_singleton]
      rw [hstream]
      exact h.receive harrives
  exact ⟨hstep.same, hstep.waiting⟩

end runs

/-- A client that is connected. --/
def established : Client := { clientCreate with state := .connected }

/-- There is memory for everything. --/
def enough : Nat → Memory := fun _ => ⟨⟨true, true, true⟩, true, 0, fun _ => 0⟩

/-- A PUBLISH, and the beginning of another one. --/
def firstPart : Packets.Packet := .ofOctets [0x30, 3, 0, 1, 0x61, 0x32, 5]

def secondPart : Packets.Packet := .ofOctets [0, 1, 0x61, 0, 7]

theorem segmentation_independent_two :
    let r := packetReceiveProcess enough (packetReceiveProcess enough ⟨established, none, []⟩ firstPart) secondPart
    Same r (receivedAlone enough ⟨established, none, []⟩ (stream [firstPart, secondPart])) ∧
      r.waiting = (controlPackets 12 (stream [firstPart, secondPart])).2 := by
  have htrim : firstPart.trim 5 = some ⟨⟨[0x32, 5], none⟩, [], 2⟩ := rfl
  have hpart : readRemainingLength ⟨⟨[0x32, 5], none⟩, [], 2⟩ = .error .partialPacket := rfl
  have hfirst : Arrives enough ⟨established, none, []⟩ firstPart := by
    refine ⟨ofOctets_filled (by decide), ?_, ?_, fun _ _ hread => ?_⟩
    · rintro q ⟨⟩
    · rintro ⟨⟩
    · cases hread
      refine ⟨⟨by decide, by decide, by decide⟩, fun q hq => ?_⟩
      cases htrim.symm.trans hq
      exact ⟨fun hread => (by cases hpart.symm.trans hread), fun _ _ hread => (by cases hpart.symm.trans hread)⟩
  have hsecond : Arrives enough (packetReceiveProcess enough ⟨established, none, []⟩ firstPart) secondPart := by
    refine ⟨ofOctets_filled (by decide), ?_, ?_, fun _ _ hread => ?_⟩
    · rintro q ⟨⟩
      rfl
    · rintro ⟨⟩
    · cases hread
      refine ⟨⟨by decide, by decide, by decide⟩, ?_⟩
      rintro q ⟨⟩
  exact segmentation_independent (.next (.next .start hfirst) hsecond)

/-- A PUBLISH without room for a topic is not what it is alone: the PUBLISH behind it in the packet is dropped. --/
theorem malformed_drops :
    ¬Same (packetReceiveProcess enough ⟨established, none, []⟩ (.ofOctets [0x30, 0, 0x30, 3, 0, 1, 0x61]))
      (receivedAlone enough ⟨established, none, []⟩ [0x30, 0, 0x30, 3, 0, 1, 0x61]) := by
  intro h
  have hlength := congrArg List.length h.performed
  revert hlength
  decide +kernel

end Netxduo.Mqtt
