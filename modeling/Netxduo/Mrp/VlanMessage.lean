import Mathlib.Data.List.Sort
import Netxduo.Library.Runs

/-! The MVRP messages: how the attributes of a participant are packed, and how the packet is read at its peer. -/

namespace Netxduo.Mrp

/-! ### The source -/

def protocolVersion : UInt8 := 0
def attributeTypeVlanId : UInt8 := 1
def attributeLengthVlanId : UInt8 := 2
def endMarkSize : Nat := 2
def attributeArrayMaxSize : Nat := 10

/-- The applicant's actions that a message may carry. --/
inductive Action
  | null
  | sn
  | sj
  | sjOpt
  | sl
  | s
  | sOpt
deriving DecidableEq, Repr

inductive RegistrarState
  | in_
  | lv
  | mt
deriving DecidableEq, Repr

def eventNew : UInt8 := 0
def eventJoinin : UInt8 := 1
def eventIn : UInt8 := 2
def eventJoinmt : UInt8 := 3
def eventMt : UInt8 := 4
def eventLv : UInt8 := 5
def eventRla : UInt8 := 6

/-- `NX_MVRP_ATTRIBUTE`, with the state that a message depends on. --/
structure Attribute where
  vlanId : UInt16
  action : Action
  registrar : RegistrarState
deriving DecidableEq, Repr

/-- `nx_mrp_attribute_event_get`: what an attribute without an action leaves as it was. --/
def attributeEventGet (a : Attribute) (event : UInt8) : UInt8 :=
  match a.action with
  | .sn => eventNew
  | .sj => if a.registrar = .in_ then eventJoinin else eventJoinmt
  | .sl => eventLv
  | .s => if a.registrar = .in_ then eventIn else eventMt
  | _ => event

/-- `nx_mvrp_attribute_insert` --/
def attributeInsert (a : Attribute) : List Attribute → List Attribute
  | [] => [a]
  | b :: rest => if b.vlanId > a.vlanId then a :: b :: rest else b :: attributeInsert a rest

/-- `nx_mvrp_attribute_find` --/
def attributeFind (vlanId : UInt16) : List Attribute → Bool
  | [] => false
  | b :: rest => if b.vlanId = vlanId then true else if b.vlanId > vlanId then false else attributeFind vlanId rest

/-- `nx_mvrp_attribute_get`: an attribute that is not found takes a slot of the array, where one is free. --/
def attributeGet (attributes : List Attribute) (vlanId : UInt16) : Option (List Attribute) :=
  if attributeFind vlanId attributes = true then some attributes
  else if attributes.length = attributeArrayMaxSize then none
  else some (attributeInsert ⟨vlanId, .null, .mt⟩ attributes)

/-! ### Packing -/

/-- The local variables of `nx_mvrp_mrpdu_pack` that hold what they held before until they are written. --/
structure Locals where
  leaveAllEvent : UInt16
  firstEvent : UInt8
  secondEvent : UInt8
  thirdEvent : UInt8
deriving DecidableEq, Repr

/-- The number of values of a vector. The attribute that is looked at for an action is the first one. --/
def vectorValues (first : Attribute) : UInt16 → UInt16 → List Attribute → UInt16
  | _, number, [] => number
  | vlanId, number, b :: rest =>
    if b.vlanId = vlanId then
      if first.action = .null then number else vectorValues first (vlanId + 1) (number + 1) rest
    else number

def eventCycles (number : UInt16) : Nat := (if number % 3 = 0 then 0 else 1) + (number / 3).toNat

/-- `ThreePackedEvents` --/
def threePacked (l : Locals) : UInt8 := (l.firstEvent * 6 + l.secondEvent) * 6 + l.thirdEvent

/-- The event of the attribute that is pointed to, and none where the pointer is null. --/
def eventNext (attributes : List Attribute) (event : UInt8) : Option (UInt8 × List Attribute) :=
  match attributes with
  | [] => none
  | a :: rest => some (attributeEventGet a event, rest)

/-- The three events of an octet. --/
def packThree (number : UInt16) (attributes : List Attribute) (l : Locals) : Option (UInt16 × List Attribute × Locals) := do
  let (first, attributes) ← eventNext attributes l.firstEvent
  let number := number - 1
  if number = 0 then return (number, attributes, { l with firstEvent := first, secondEvent := 0, thirdEvent := 0 })
  let (second, attributes) ← eventNext attributes l.secondEvent
  let number := number - 1
  if number = 0 then return (number, attributes, { l with firstEvent := first, secondEvent := second, thirdEvent := 0 })
  let (third, attributes) ← eventNext attributes l.thirdEvent
  return (number - 1, attributes, { l with firstEvent := first, secondEvent := second, thirdEvent := third })

/-- The loop over the octets of a vector. --/
def packEvents : Nat → UInt16 → List Attribute → Locals → List UInt8 → Option (List Attribute × Locals × List UInt8)
  | 0, _, attributes, l, written => some (attributes, l, written)
  | cycles + 1, number, attributes, l, written => do
    let (number, attributes, l) ← packThree number attributes l
    packEvents cycles number attributes l (written ++ [threePacked l])

/-- An unsigned short, the upper octet first. --/
def octetsOf (value : UInt16) : List UInt8 := [(value >>> 8).toUInt8, (value &&& 0xFF).toUInt8]

/-- The loop over the attributes: whether one is found, and what is written; nothing where the fuel does not last or a
    pointer is null. --/
def packLoop (leaveAll : Bool) : Nat → List Attribute → Locals → Bool → List UInt8 → Option (Bool × List UInt8)
  | _, [], _, find, written => some (find, written)
  | 0, _ :: _, _, _, _ => none
  | fuel + 1, a :: rest, l, find, written =>
    if a.action = .null then packLoop leaveAll fuel rest l find written
    else do
      let l := if leaveAll = true then { l with leaveAllEvent := 1 } else l
      let number := vectorValues a (a.vlanId + 1) 1 rest
      let vectorHeader := l.leaveAllEvent <<< 13 ||| number
      let (attributes, l, written) ←
        packEvents (eventCycles number) number (a :: rest) l (written ++ octetsOf vectorHeader ++ octetsOf a.vlanId)
      packLoop leaveAll fuel attributes l true written

/-- `nx_mvrp_mrpdu_pack`: the packet, and none where no attribute has an action. --/
def pack (leaveAll : Bool) (l : Locals) (attributes : List Attribute) : Option (List UInt8) := do
  let start := [protocolVersion, attributeTypeVlanId, attributeLengthVlanId]
  let (find, written) ← packLoop leaveAll attributes.length attributes l false start
  if find = false then none else some (written ++ [0, 0, 0, 0])

/-! ### Unpacking -/

inductive Status
  | success
  | notSuccessful
  | invalidParameters
  | invalidPacket
  | packetOffsetError
deriving DecidableEq, Repr

/-- The peer: its attributes, and what has been given to its state machines. --/
structure Peer where
  attributes : List Attribute
  delivered : List (UInt16 × UInt8)
deriving DecidableEq, Repr

/-- How a part of the reader ends: it goes on, it returns, it reads an octet outside the packet, or it does not end. --/
inductive Outcome
  | next (left : Nat) (rest : List UInt8) (peer : Peer)
  | returned (status : Status) (peer : Peer)
  | outside
  | running
deriving DecidableEq, Repr

/-- What stands at the data pointer in the packet's buffer, and the length of the packet, which counts the octets of a
    chain. --/
structure Packet where
  octets : List UInt8
  length : Nat
  fits : octets.length ≤ length

/-- What the event loop keeps. --/
structure Values where
  peer : Peer
  number : UInt16
  vlanId : UInt16
deriving DecidableEq, Repr

def wordOf (upper lower : UInt8) : UInt16 := upper.toUInt16 <<< 8 ||| lower.toUInt16

section reader
variable (eventProcess : List Attribute → UInt16 → UInt8 → List Attribute)

/-- A value of a vector is given to the state machines of its attribute. --/
def valueProcess (leaveAll : UInt16) (event : UInt8) (v : Values) : Except Values Values :=
  match attributeGet v.peer.attributes v.vlanId with
  | none => .error v
  | some attributes =>
    let event := if leaveAll ≠ 0 then eventRla else event
    .ok ⟨⟨eventProcess attributes v.vlanId event, v.peer.delivered ++ [(v.vlanId, event)]⟩, v.number - 1, v.vlanId + 1⟩

def laterProcess (leaveAll : UInt16) (event : UInt8) (v : Values) : Except Values Values :=
  if v.number > 0 then valueProcess eventProcess leaveAll event v else .ok v

/-- The loop over the octets of a vector. --/
def eventLoop (leaveAll : UInt16) : Nat → Nat → List UInt8 → Values → Outcome
  | 0, left, rest, v => .next left rest v.peer
  | _ + 1, _, [], _ => .outside
  | cycles + 1, left, three :: rest, v =>
    let third := three % 6
    let second := (three - third) / 6 % 6
    let first := ((three - third) / 6 - second) / 6
    if v.number > 0 then
      match do
        let v ← valueProcess eventProcess leaveAll first v
        let v ← laterProcess eventProcess leaveAll second v
        laterProcess eventProcess leaveAll third v with
      | .error v => .returned .notSuccessful v.peer
      | .ok v => eventLoop leaveAll cycles (left - 1) rest v
    else .returned .invalidPacket v.peer

/-- The loop over the vectors. --/
def vectorLoop : Nat → Nat → List UInt8 → Peer → Outcome
  | 0, left, rest, peer => if 2 * endMarkSize < left then .running else .next left rest peer
  | fuel + 1, left, rest, peer =>
    if 2 * endMarkSize < left then
      match rest with
      | upper :: lower :: rest =>
        let vectorHeader := wordOf upper lower
        if vectorHeader = 0 then .returned .success peer
        else
          match rest with
          | upper :: lower :: rest =>
            let number := vectorHeader &&& 0x1FFF
            if left - 4 ≤ eventCycles number + 2 * endMarkSize then .returned .packetOffsetError peer
            else
              match eventLoop eventProcess (vectorHeader >>> 13) (eventCycles number) (left - 4) rest
                  ⟨peer, number, wordOf upper lower⟩ with
              | .next left rest peer => vectorLoop fuel left rest peer
              | outcome => outcome
          | _ => .outside
      | _ => .outside
    else .next left rest peer

/-- The loop over the messages. --/
def messageLoop : Nat → Nat → List UInt8 → Peer → Outcome
  | 0, left, _, peer => if endMarkSize < left then .running else .returned .success peer
  | fuel + 1, left, rest, peer =>
    if endMarkSize < left then
      match rest with
      | [] => .outside
      | attributeType :: rest =>
        if attributeType ≠ attributeTypeVlanId then .returned .invalidPacket peer
        else
          match rest with
          | [] => .outside
          | attributeLength :: rest =>
            if attributeLength ≠ attributeLengthVlanId then .returned .invalidPacket peer
            else
              match vectorLoop eventProcess left (left - 2) rest peer with
              | .next left rest peer => messageLoop fuel (left - endMarkSize) (rest.drop endMarkSize) peer
              | outcome => outcome
    else .returned .success peer

/-- `nx_mvrp_mrpdu_unpack` --/
def unpack (p : Packet) (peer : Peer) : Outcome :=
  match p.octets with
  | [] => .outside
  | version :: rest =>
    if version ≠ protocolVersion then .returned .invalidParameters peer
    else messageLoop eventProcess p.length (p.length - 1) rest peer

end reader

end Netxduo.Mrp
