import Mathlib.Data.List.Induction
import Netxduo.Library.Runs

/-! The MQTT client: the packets it waits to see acknowledged, the messages it took from the broker, and what each call
    and each packet of the broker does to them. -/

namespace Netxduo.Mqtt

def controlPublish : UInt8 := 3
def controlPuback : UInt8 := 4
def controlPubrec : UInt8 := 5
def controlPubrel : UInt8 := 6
def controlPubcomp : UInt8 := 7
def controlSubscribe : UInt8 := 8
def controlSuback : UInt8 := 9
def controlUnsubscribe : UInt8 := 10
def controlUnsuback : UInt8 := 11

def publishRetain : UInt8 := 1
def publishQosLevel1 : UInt8 := 2
def publishDupFlag : UInt8 := 8

/-- The fixed headers of the requests of `_nxd_mqtt_client_sub_unsub`. --/
def subscribeHeader : UInt8 := controlSubscribe <<< 4 ||| 2
def unsubscribeHeader : UInt8 := controlUnsubscribe <<< 4 ||| 2

/-- `NXD_MQTT_INITIAL_PACKET_ID_VALUE`. --/
def initialPacketId : BitVec 16 := 1

/-- A packet on the transmit queue: its identifier, kept in front of it, its first octet and the rest of it. --/
structure TransmitPacket where
  packetId : BitVec 16
  fixedHeader : UInt8
  body : List UInt8
deriving DecidableEq, Repr

inductive ClientState
  | idle
  | connecting
  | connected
deriving DecidableEq, Repr

/-- A call of `_nxd_mqtt_client_publish` at QoS 1 that found the client connected. --/
structure PublishCall where
  retain : Bool
  body : List UInt8
deriving DecidableEq, Repr

/-- `NXD_MQTT_CLIENT`, with the publish calls on their way: those that found the client connected, and those that took
    their identifier and did not store their packet yet. The client's mutex is free between these steps. --/
structure Client where
  state : ClientState
  cleanSession : Bool
  packetIdentifier : BitVec 16
  transmitQueue : List TransmitPacket
  receiveQueue : List (List UInt8)
  admitted : List PublishCall
  publishing : List TransmitPacket
deriving DecidableEq, Repr

/-- `_nxd_mqtt_client_create` clears its control block. --/
def clientCreate : Client := ⟨.idle, false, 0, [], [], [], []⟩

/-- `MQTT_PACKET_PUBLISH_RESPONSE`. --/
structure PublishResponse where
  header : UInt8
  remainingLength : UInt8
  packetIdentifierMsb : UInt8
  packetIdentifierLsb : UInt8
deriving DecidableEq, Repr

def packetIdOf (msb lsb : UInt8) : BitVec 16 := msb.toBitVec ++ lsb.toBitVec

def PublishResponse.packetId (r : PublishResponse) : BitVec 16 := packetIdOf r.packetIdentifierMsb r.packetIdentifierLsb

def msbOf (packetId : BitVec 16) : UInt8 := ⟨packetId.extractLsb' 8 8⟩

def lsbOf (packetId : BitVec 16) : UInt8 := ⟨packetId.extractLsb' 0 8⟩

def TransmitPacket.control (p : TransmitPacket) : UInt8 := p.fixedHeader &&& 0xF0

/-- The packet is a PUBLISH at QoS 1, sent again or not, retained or not. --/
def TransmitPacket.isPublish (p : TransmitPacket) : Bool :=
  (p.fixedHeader &&& (0xF6 : UInt8)) == (controlPublish <<< 4 ||| publishQosLevel1)

def TransmitPacket.isPubrec (p : TransmitPacket) : Bool := p.control == controlPubrec <<< 4

def TransmitPacket.isSubscribe (p : TransmitPacket) : Bool := p.fixedHeader >>> 4 == controlSubscribe

def TransmitPacket.isUnsubscribe (p : TransmitPacket) : Bool := p.fixedHeader >>> 4 == controlUnsubscribe

namespace Client

/-- The identifier after this one; zero is none. --/
def nextIdentifier (packetId : BitVec 16) : BitVec 16 := if packetId + 1 = 0 then 1 else packetId + 1

/-- A packet at the end of the transmit queue. --/
def enqueue (c : Client) (p : TransmitPacket) : Client := { c with transmitQueue := c.transmitQueue ++ [p] }

/-! ### Calls of the application -/

/-- `_nxd_mqtt_client_sub_unsub`, where the packet may find no memory. --/
def subUnsub (c : Client) (op : UInt8) (body : List UInt8) (memory : Bool) : Client :=
  if c.state ≠ .connected ∨ memory = false then c
  else
    { c.enqueue ⟨c.packetIdentifier, op, body⟩ with packetIdentifier := nextIdentifier c.packetIdentifier }

/-- `_nxd_mqtt_client_publish` at QoS 1 looks at the state without the mutex. --/
def publishCheck (c : Client) (call : PublishCall) : Client :=
  if c.state ≠ .connected then c else { c with admitted := c.admitted ++ [call] }

/-- Then it takes its identifier. The duplicate flag is set in the copy that is stored. --/
def publishTake (c : Client) (i : Nat) : Client :=
  match c.admitted[i]? with
  | none => c
  | some call =>
    let flags := controlPublish <<< 4 ||| publishQosLevel1
    let flags := if call.retain then flags ||| publishRetain else flags
    { c with
      packetIdentifier := nextIdentifier c.packetIdentifier
      admitted := c.admitted.eraseIdx i
      publishing := c.publishing ++ [⟨c.packetIdentifier, flags ||| publishDupFlag, call.body⟩] }

/-- And at last `_nxd_mqtt_client_publish_packet_send` stores the packet, if there is memory for it. --/
def publishStore (c : Client) (i : Nat) (memory : Bool) : Client :=
  match c.publishing[i]? with
  | none => c
  | some p =>
    let c := { c with publishing := c.publishing.eraseIdx i }
    if memory = false then c else c.enqueue p

/-- `_nxd_mqtt_client_connect` --/
def connect (c : Client) (cleanSession : Bool) : Client :=
  if c.state ≠ .idle then c else { c with state := .connecting, cleanSession := cleanSession }

/-- `_nxd_mqtt_client_connect_packet_send`: a clean session forgets what was not acknowledged. --/
def connectPacketSend (c : Client) : Client :=
  if c.cleanSession = true then { c with transmitQueue := [] } else c

/-- The end of a connection that was never made. --/
def connectionEnd (c : Client) : Client := { c with state := .idle }

/-! ### Packets of the broker -/

/-- `_nxd_mqtt_process_connack`: a broker that accepts starts the identifiers anew; what is on the transmit queue is sent
    again. --/
def processConnack (c : Client) (accepted : Bool) : Client :=
  if accepted = true then
    let packetIdentifier := if initialPacketId = 0 then 1 else initialPacketId
    { c with state := .connected, packetIdentifier := packetIdentifier }
  else c.connectionEnd

/-- `_nxd_mqtt_process_disconnect` --/
def processDisconnect (c : Client) : Client :=
  if c.state = .idle then c
  else
    { c.connectionEnd with
      transmitQueue := c.transmitQueue.filter fun p =>
        !(p.control == controlSubscribe <<< 4 || p.control == controlUnsubscribe <<< 4)
      receiveQueue := [] }

/-- The first packet of the queue that is of the kind is released. --/
def release (c : Client) (kind : TransmitPacket → Bool) : Client := { c with transmitQueue := c.transmitQueue.eraseP kind }

/-- `_nxd_mqtt_process_sub_unsub_ack` of a packet with its first octet, its remaining length and its identifier. --/
def processSubUnsubAck (c : Client) (header : UInt8) (remainingLength : Nat) (packetId : BitVec 16) : Client :=
  if header >>> 4 = controlSuback then
    if remainingLength ≠ 3 then c else c.release fun p => p.packetId == packetId && p.isSubscribe
  else if header >>> 4 = controlUnsuback then
    if remainingLength ≠ 2 then c else c.release fun p => p.packetId == packetId && p.isUnsubscribe
  else c

/-- `_nxd_mqtt_process_publish_response`, with the packet that is sent back. A PUBREL is answered where its PUBREC is
    known and there is memory: the identifier is copied one octet too far, so that its upper octet is what the new
    packet's memory held. --/
def processPublishResponse (c : Client) (r : PublishResponse) (memory : Bool) (stale : UInt8) :
    Client × Option PublishResponse :=
  if r.remainingLength ≠ 2 then (c, none)
  else if r.header >>> 4 = controlPuback then (c.release fun p => p.packetId == r.packetId && p.isPublish, none)
  else if r.header >>> 4 = controlPubrel then
    let kind := fun p : TransmitPacket => p.packetId == r.packetId && (p.fixedHeader &&& (0xF6 : UInt8)) == controlPubrec <<< 4
    if c.transmitQueue.any kind = false ∨ memory = false then (c, none)
    else (c.release kind, some ⟨controlPubcomp <<< 4, 2, stale, r.packetIdentifierLsb⟩)
  else (c, none)

/-- The memory that `_nxd_mqtt_process_publish` finds: for a copy of a packet that holds more messages, for the answer,
    and for the copy of the answer that it keeps. --/
structure PublishMemory where
  copy : Bool
  answer : Bool
  keep : Bool
deriving DecidableEq, Repr

/-- `_nxd_mqtt_process_publish` of a packet that is well formed, with its answer. --/
def processPublish (c : Client) (qos : Nat) (packetId : BitVec 16) (message : List UInt8) (memory : PublishMemory) :
    Client × Option PublishResponse :=
  let known := qos ≠ 0 ∧ c.transmitQueue.any (fun p => p.packetId == packetId && p.isPubrec) = true
  if ¬known ∧ memory.copy = false then (c, none)
  else
    let c := if known then c else { c with receiveQueue := c.receiveQueue ++ [message] }
    if qos = 0 ∨ memory.answer = false then (c, none)
    else
      let header := if qos = 1 then controlPuback <<< 4 else controlPubrec <<< 4
      let answer := ⟨header, 2, msbOf packetId, lsbOf packetId⟩
      if qos = 2 then
        if memory.keep = false then (c, none)
        else (c.enqueue ⟨packetId, header, [2, msbOf packetId, lsbOf packetId]⟩, some answer)
      else (c, some answer)

end Client

/-- What happens to a client. --/
inductive Action
  | subscribe (body : List UInt8) (memory : Bool)
  | unsubscribe (body : List UInt8) (memory : Bool)
  | publishCheck (call : PublishCall)
  | publishTake (i : Nat)
  | publishStore (i : Nat) (memory : Bool)
  | connect (cleanSession : Bool)
  | connectPacketSend
  | connectionEnd
  | connack (accepted : Bool)
  | disconnect
  | subUnsubAck (header : UInt8) (remainingLength : Nat) (packetId : BitVec 16)
  | publishResponse (response : PublishResponse) (memory : Bool) (stale : UInt8)
  | publish (qos : Nat) (packetId : BitVec 16) (message : List UInt8) (memory : Client.PublishMemory)
  | receive
deriving DecidableEq, Repr

namespace Client

def step (c : Client) : Action → Client
  | .subscribe body memory => c.subUnsub subscribeHeader body memory
  | .unsubscribe body memory => c.subUnsub unsubscribeHeader body memory
  | .publishCheck call => c.publishCheck call
  | .publishTake i => c.publishTake i
  | .publishStore i memory => c.publishStore i memory
  | .connect cleanSession => c.connect cleanSession
  | .connectPacketSend => c.connectPacketSend
  | .connectionEnd => c.connectionEnd
  | .connack accepted => c.processConnack accepted
  | .disconnect => c.processDisconnect
  | .subUnsubAck header remainingLength packetId => c.processSubUnsubAck header remainingLength packetId
  | .publishResponse response memory stale => (c.processPublishResponse response memory stale).1
  | .publish qos packetId message memory => (c.processPublish qos packetId message memory).1
  | .receive => { c with receiveQueue := c.receiveQueue.tail }

/-- Where every step is allowed, the actions are a run. --/
theorem run_of_actions (c : Client) (actions : List Action) :
    Runs.Run step (fun _ _ => True) c actions (actions.foldl step c) := by
  induction actions using List.reverseRecOn with
  | nil => exact .start
  | append_singleton actions a ih =>
    rw [List.foldl_append]
    exact ih.next trivial

end Client

end Netxduo.Mqtt
