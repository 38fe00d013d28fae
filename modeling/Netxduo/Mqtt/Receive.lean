import Netxduo.Mqtt.Client
import Netxduo.Packets.Chain

/-! The receiving side of the MQTT client: the chains of buffers that TCP hands over, the control packets that are cut out
    of them, and what is done for each of them. -/

namespace Netxduo.Mqtt

def controlConnack : UInt8 := 2
def controlDisconnect : UInt8 := 14

def publishQosLevelField : UInt8 := (3 : UInt8) <<< 1
def connackConnectFlagsSp : UInt8 := 1

/-! ### The remaining length -/

inductive LengthError
  | partialPacket
  | internalError
deriving DecidableEq, Repr

/-- The loop of `_nxd_mqtt_read_remaining_length` over the octets that were copied. --/
def lengthLoop : List UInt8 → (byteCount value multiplier : Nat) → Except LengthError (Nat × Nat)
  | [], byteCount, _, _ => .error (if byteCount = 4 then .internalError else .partialPacket)
  | b :: rest, byteCount, value, multiplier =>
    let value := value + (b &&& (0x7F : UInt8)).toNat * multiplier
    if b &&& (0x80 : UInt8) ≠ 0 then lengthLoop rest (byteCount + 1) value (multiplier * 128)
    else .ok (value, byteCount + 1)

/-- `_nxd_mqtt_read_remaining_length`, with the offset of what remains. --/
def readRemainingLength (p : Packets.Packet) : Except LengthError (Nat × Nat) :=
  match p.extractOffset 1 4 with
  | none => .error .partialPacket
  | some bytes =>
    match lengthLoop bytes 0 0 1 with
    | .error e => .error e
    | .ok (value, byteCount) =>
      if p.length < 1 + byteCount + value then .error .partialPacket else .ok (value, 1 + byteCount)

/-! ### Control packets -/

/-- What the memory holds where a control packet is processed. --/
structure Memory where
  publish : Client.PublishMemory
  response : Bool
  stale : UInt8
  beyond : Nat → UInt8

/-- `NX_FALSE`, `NX_TRUE` and `NXD_MQTT_INVALID_PACKET`. --/
inductive PublishStatus
  | released
  | consumed
  | invalid
deriving DecidableEq, Repr

def qosOf (header : UInt8) : Nat := ((header &&& publishQosLevelField) >>> 1).toNat

/-- The identifier and the quality of service of a PUBLISH, if it is one to `_nxd_mqtt_process_publish`. The octets that
    are missing of an identifier are those of the length of the topic, which was read to the same place. --/
def publishIdentifier (memory : Memory) (p : Packets.Packet) (remainingLength offset : Nat) : Option (Nat × BitVec 16) :=
  let qos := qosOf (p.headOctet memory.beyond 0)
  if remainingLength < 2 then none
  else
    match p.extractOffset offset 2 with
    | some [msb, lsb] =>
      let topicLength := msb.toNat * 256 + lsb.toNat
      if remainingLength - 2 < topicLength then none
      else if qos = 0 then some (qos, 0)
      else
        match p.extractOffset (offset + 2 + topicLength) 2 with
        | none => none
        | some bytes => some (qos, packetIdOf ((bytes[0]?).getD msb) ((bytes[1]?).getD lsb))
    | _ => none

/-- `_nxd_mqtt_process_publish` --/
def processPublish (memory : Memory) (c : Client) (p : Packets.Packet) : PublishStatus × Client × Option PublishResponse :=
  match readRemainingLength p with
  | .error _ => (.released, c, none)
  | .ok (remainingLength, offset) =>
    match publishIdentifier memory p remainingLength offset with
    | none => (.invalid, c, none)
    | some (qos, packetId) =>
      let more := decide (offset + remainingLength < p.length)
      let known := decide (qos ≠ 0) && c.transmitQueue.any (fun t => t.packetId == packetId && t.isPubrec)
      let copy := !more || memory.publish.copy
      (if known || more then .released else .consumed,
        c.processPublish qos packetId p.octets ⟨copy, memory.publish.answer, memory.publish.keep⟩)

/-- `_nxd_mqtt_process_connack`, up to whether the broker accepts. --/
def connackAccepted (memory : Memory) (c : Client) (p : Packets.Packet) : Bool :=
  p.length == 4 && p.headOctet memory.beyond 0 >>> 4 == controlConnack && p.headOctet memory.beyond 1 == 2 &&
    !(c.cleanSession && p.headOctet memory.beyond 2 &&& connackConnectFlagsSp != 0) && p.headOctet memory.beyond 3 == 0

/-- The packet that `_nxd_mqtt_process_publish_response` reads at the data pointer. --/
def responseOf (memory : Memory) (p : Packets.Packet) : PublishResponse :=
  ⟨p.headOctet memory.beyond 0, p.headOctet memory.beyond 1, p.headOctet memory.beyond 2, p.headOctet memory.beyond 3⟩

/-- `_nxd_mqtt_process_sub_unsub_ack` --/
def processSubUnsubAck (memory : Memory) (c : Client) (p : Packets.Packet) : Client :=
  match readRemainingLength p with
  | .error _ => c
  | .ok (remainingLength, offset) =>
    match p.extractOffset offset 2 with
    | some [msb, lsb] => c.processSubUnsubAck (p.headOctet memory.beyond 0) remainingLength (packetIdOf msb lsb)
    | _ => c

/-- The first octet, as `nx_packet_data_extract_offset` finds it. --/
def typeOf (p : Packets.Packet) : UInt8 := (((p.extractOffset 0 1).getD []).headD 0) >>> 4

/-- What is done for the control packet in front. --/
def processControl (memory : Memory) (c : Client) (p : Packets.Packet) : PublishStatus × Client × Option PublishResponse :=
  let type := typeOf p
  if type = controlConnack then (.released, c.processConnack (connackAccepted memory c p), none)
  else if type = controlPublish then processPublish memory c p
  else if type = controlPuback ∨ type = controlPubrel then
    (.released, c.processPublishResponse (responseOf memory p) memory.response memory.stale)
  else if type = controlSuback ∨ type = controlUnsuback then (.released, processSubUnsubAck memory c p, none)
  else if type = controlDisconnect then (.released, c.processDisconnect, none)
  else (.released, c, none)

/-! ### The loop -/

/-- A control packet that was processed: its type, what was sent back for it, and the client as it is then. --/
structure Performed where
  type : UInt8
  sent : Option PublishResponse
  client : Client
deriving DecidableEq, Repr

/-- The client, the packet that waits for its rest, and what was done. --/
structure Receiver where
  client : Client
  processing : Option Packets.Packet
  performed : List Performed
deriving DecidableEq, Repr

/-- The loop over the control packets of a packet. --/
def controlLoop (memory : Nat → Memory) : Nat → Packets.Packet → Receiver → Receiver
  | 0, _, r => r
  | fuel + 1, p, r =>
    match readRemainingLength p with
    | .error .partialPacket => { r with processing := some p }
    | .error .internalError => r
    | .ok (remainingLength, offset) =>
      let done := processControl (memory r.performed.length) r.client p
      let r := { r with client := done.2.1, performed := r.performed ++ [⟨typeOf p, done.2.2, done.2.1⟩] }
      if done.1 ≠ .released then r
      else if offset + remainingLength < p.length then
        match p.trim (offset + remainingLength) with
        | none => r
        | some p => controlLoop memory fuel p r
      else r

/-- The packet that is to be processed when one arrives. --/
def Receiver.joined (r : Receiver) (p : Packets.Packet) : Packets.Packet :=
  match r.processing with
  | none => p
  | some q => q.link p

/-- `_nxd_mqtt_packet_receive_process` of one packet. --/
def packetReceiveProcess (memory : Nat → Memory) (r : Receiver) (p : Packets.Packet) : Receiver :=
  controlLoop memory (r.joined p).length (r.joined p) { r with processing := none }

/-! ### Messages -/

/-- What the application gets of a message. --/
structure Message where
  qos : Nat
  topic : List UInt8
  payload : List UInt8
deriving DecidableEq, Repr

/-- `_nxd_mqtt_process_publish_packet`, with the octets at the offsets it returns. --/
def processPublishPacket (p : Packets.Packet) : Option Message :=
  let qos := qosOf (p.head.octets.headD 0)
  match readRemainingLength p with
  | .error _ => none
  | .ok (remainingLength, offset) =>
    if remainingLength < 2 then none
    else
      match p.extractOffset offset 2 with
      | some [msb, lsb] =>
        let topicLength := msb.toNat * 256 + lsb.toNat
        if remainingLength - 2 < topicLength then none
        else
          let topic := (p.octets.drop (offset + 2)).take topicLength
          let remainingLength := remainingLength - topicLength - 2
          if qos = 1 ∨ qos = 2 then
            if remainingLength < 2 then none
            else some ⟨qos, topic, (p.octets.drop (offset + 2 + 2 + topicLength)).take (remainingLength - 2)⟩
          else some ⟨qos, topic, (p.octets.drop (offset + 2 + topicLength)).take remainingLength⟩
      | _ => none

end Netxduo.Mqtt
