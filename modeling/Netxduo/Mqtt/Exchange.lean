import Netxduo.Mqtt.Identifiers

/-! A client and a broker that exchange messages at QoS 2. The broker follows the protocol: it sends a PUBLISH until it
    sees the PUBREC, then a PUBREL until it sees the PUBCOMP, and only then uses the identifier again. What is on its way
    arrives in order, and is lost when the connection ends. -/

namespace Netxduo.Mqtt
open Runs

/-- Where the broker stands with an identifier. Messages are numbered. --/
inductive Phase
  | idle
  | publishing (message : Nat) (octets : List UInt8)
  | releasing
deriving DecidableEq, Repr

inductive ToClient
  | publish (packetId : BitVec 16) (message : Nat) (octets : List UInt8)
  | pubrel (packetId : BitVec 16)
deriving DecidableEq, Repr

def ToClient.packetId : ToClient → BitVec 16
  | .publish packetId _ _ => packetId
  | .pubrel packetId => packetId

/-- The client, the broker, and what is on its way between them; how many messages the broker was given, and which of
    them the client has put on its receive queue. --/
structure Exchange where
  client : Client
  phase : BitVec 16 → Phase
  toClient : List ToClient
  toBroker : List PublishResponse
  sent : Nat
  enqueued : List Nat

def exchangeStart : Exchange := ⟨clientCreate, fun _ => .idle, [], [], 0, []⟩

inductive ExchangeAction
  | other (a : Action)
  | lose (a : Action)
  | send (packetId : BitVec 16) (octets : List UInt8)
  | resend (packetId : BitVec 16)
  | deliver (memory : Client.PublishMemory) (stale : UInt8)
  | receive
deriving DecidableEq, Repr

/-- The PUBREL of an identifier. --/
def pubrelOf (packetId : BitVec 16) : PublishResponse := ⟨controlPubrel <<< 4 ||| 2, 2, msbOf packetId, lsbOf packetId⟩

/-- The PUBREC of an identifier. --/
def pubrecOf (packetId : BitVec 16) : PublishResponse := ⟨controlPubrec <<< 4, 2, msbOf packetId, lsbOf packetId⟩

/-- The PUBCOMP of an identifier. --/
def pubcompOf (packetId : BitVec 16) : PublishResponse := ⟨controlPubcomp <<< 4, 2, msbOf packetId, lsbOf packetId⟩

/-- The octets of an identifier are read as they are written. --/
theorem packetIdOf_octets (packetId : BitVec 16) : packetIdOf (msbOf packetId) (lsbOf packetId) = packetId := by
  unfold packetIdOf msbOf lsbOf
  apply BitVec.eq_of_toNat_eq
  have := packetId.isLt
  rw [BitVec.toNat_append, BitVec.extractLsb'_toNat, BitVec.extractLsb'_toNat, Nat.shiftRight_eq_div_pow,
    Nat.shiftRight_eq_div_pow, ← Nat.shiftLeft_add_eq_or_of_lt, Nat.shiftLeft_eq]
  · omega
  · omega

@[simp] theorem packetId_pubrelOf (packetId : BitVec 16) : (pubrelOf packetId).packetId = packetId := packetIdOf_octets _

@[simp] theorem packetId_pubrecOf (packetId : BitVec 16) : (pubrecOf packetId).packetId = packetId := packetIdOf_octets _

@[simp] theorem packetId_pubcompOf (packetId : BitVec 16) : (pubcompOf packetId).packetId = packetId := packetIdOf_octets _

namespace Exchange

def setPhase (w : Exchange) (packetId : BitVec 16) (phase : Phase) : Exchange :=
  { w with phase := fun other => if other = packetId then phase else w.phase other }

def toClientPut (w : Exchange) (p : ToClient) : Exchange := { w with toClient := w.toClient ++ [p] }

/-- The broker gets a packet: a PUBREC is answered with a PUBREL, and a PUBCOMP sets the identifier free. --/
def brokerProcess (w : Exchange) (r : PublishResponse) : Exchange :=
  match w.phase r.packetId with
  | .idle => w
  | .publishing _ _ =>
    if r.header >>> 4 = controlPubrec then (w.setPhase r.packetId .releasing).toClientPut (.pubrel r.packetId) else w
  | .releasing =>
    if r.header >>> 4 = controlPubrec then w.toClientPut (.pubrel r.packetId)
    else if r.header >>> 4 = controlPubcomp then w.setPhase r.packetId .idle
    else w

/-- The client gets a packet. --/
def clientProcess (w : Exchange) (p : ToClient) (memory : Client.PublishMemory) (stale : UInt8) : Exchange :=
  match p with
  | .publish packetId message octets =>
    let (client, answer) := w.client.processPublish 2 packetId octets memory
    { w with
      client := client
      toBroker := w.toBroker ++ answer.toList
      enqueued := if client.receiveQueue = w.client.receiveQueue then w.enqueued else w.enqueued ++ [message] }
  | .pubrel packetId =>
    let (client, answer) := w.client.processPublishResponse (pubrelOf packetId) memory.answer stale
    { w with client := client, toBroker := w.toBroker ++ answer.toList }

def step (w : Exchange) : ExchangeAction → Exchange
  | .other a => { w with client := w.client.step a }
  | .lose a => { w with client := w.client.step a, toClient := [], toBroker := [] }
  | .send packetId octets =>
    if w.phase packetId = .idle then
      { (w.setPhase packetId (.publishing w.sent octets)).toClientPut (.publish packetId w.sent octets) with
        sent := w.sent + 1 }
    else w
  | .resend packetId =>
    match w.phase packetId with
    | .idle => w
    | .publishing message octets => w.toClientPut (.publish packetId message octets)
    | .releasing => w.toClientPut (.pubrel packetId)
  | .deliver memory stale =>
    match w.toClient with
    | [] => w
    | p :: toClient => { w with toClient := toClient }.clientProcess p memory stale
  | .receive =>
    match w.toBroker with
    | [] => w
    | r :: toBroker => { w with toBroker := toBroker }.brokerProcess r

/-- The PUBRECs of an identifier that the client keeps. --/
def kept (c : Client) (packetId : BitVec 16) : Nat := c.transmitQueue.countP fun p => p.packetId == packetId && p.isPubrec

/-- What else may happen: other traffic, and no clean session. The connection ends as the client's code ends it. --/
def Allowed : ExchangeAction → Prop
  | .other (.publish qos _ _ _) => qos ≤ 1
  | .other (.publishResponse r _ _) => r.header >>> 4 = controlPuback
  | .other (.connect cleanSession) => cleanSession = false
  | .other .disconnect => False
  | .other .connectionEnd => False
  | .other (.connack accepted) => accepted = true
  | .lose a => a = .disconnect ∨ a = .connectionEnd ∨ a = .connack false
  | _ => True

/-- A message that goes to the application finds memory for its PUBREC and for the copy of it; and a PUBREL finds exactly
    one copy, memory for its answer, and in that memory the upper octet of its identifier. --/
def Condition (w : Exchange) : ExchangeAction → Prop
  | .deliver memory stale =>
    match w.toClient with
    | [] => True
    | .publish packetId _ _ :: _ => kept w.client packetId = 0 → memory.copy = true → memory.answer = true ∧ memory.keep = true
    | .pubrel packetId :: _ => kept w.client packetId = 1 ∧ memory.answer = true ∧ stale = msbOf packetId
  | _ => True

end Exchange

end Netxduo.Mqtt
