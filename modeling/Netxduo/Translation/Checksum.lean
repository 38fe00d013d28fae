import Netxduo.Library.OnesComplement
import Netxduo.Translation.Restored

/-! The packets of the NAT service as they are on the wire, in words of 16 bits: what is written in them, and what becomes
    of their checksums. -/

namespace Netxduo.Translation
open OnesComplement Runs

/-! ### The source -/

/-- A word of the old data leaves the sum. --/
def subtractOld (x : Int) (old : UInt16) : Int :=
  let x := x - old.toNat
  if x ≤ 0 then (x - 1) % 65536 else x

/-- A word of the new data joins it. --/
def addNew (x : Int) (new : UInt16) : Int :=
  let x := x + new.toNat
  if x / 65536 % 2 = 1 then (x + 1) % 65536 else x

/-- `_nx_nat_checksum_adjust` --/
def checksumAdjust (checksum : UInt16) (old new : List UInt16) : UInt16 :=
  let x : Int := 65535 - checksum.toNat
  let x := old.foldl subtractOld x
  let x := new.foldl addNew x
  UInt16.ofNat (65535 - x).toNat

/-- An `ULONG` in memory, the lower half first. --/
def halves (value : UInt32) : List UInt16 := [value.toUInt16, (value >>> 16).toUInt16]

def dontFragment : UInt16 := 0x4000

/-- `NX_IPV4_HEADER`, in front of a protocol. --/
structure Header where
  versionLengthTos : UInt16
  totalLength : UInt16
  identification : UInt16
  fragment : UInt16
  timeToLive : UInt8
  checksum : UInt16
  sourceIp : UInt32
  destinationIp : UInt32
deriving DecidableEq, Repr

/-- What follows the header: the words that the service reads or writes, and the rest. --/
inductive Transport
  | tcp (sourcePort destinationPort checksum : UInt16) (rest : List UInt16)
  | udp (sourcePort destinationPort length checksum : UInt16) (rest : List UInt16)
  | icmp (type code : UInt8) (checksum identifier : UInt16) (rest : List UInt16)
deriving DecidableEq, Repr

structure Datagram where
  header : Header
  transport : Transport
deriving DecidableEq, Repr

/-- The part of a packet that the search for its entry reads. --/
def Datagram.view (d : Datagram) : Packet where
  sourceIp := d.header.sourceIp.toNat
  destinationIp := d.header.destinationIp.toNat
  transport :=
    match d.transport with
    | .tcp source destination _ _ => .tcp source.toNat destination.toNat
    | .udp source destination _ _ _ => .udp source.toNat destination.toNat
    | .icmp type _ _ identifier _ => .icmp type.toNat identifier.toNat

/-- `_nx_nat_ip_packet_send`: the fragment field is cleared, where the packet may be fragmented. --/
def ipPacketSend (h : Header) (direction : Direction) (interface localIp : UInt32) : Header :=
  let (old, new) :=
    match direction with
    | .outboundPacket => (localIp, interface)
    | .inboundPacket => (interface, localIp)
  let fragment := if h.fragment &&& dontFragment ≠ dontFragment ∧ h.fragment ≠ 0 then 0 else h.fragment
  let checksum := checksumAdjust h.checksum (halves old) (halves new)
  let checksum :=
    if h.fragment ≠ fragment then checksumAdjust checksum (halves h.fragment.toUInt32) (halves fragment.toUInt32)
    else checksum
  { h with
    sourceIp := if direction = .outboundPacket then interface else h.sourceIp
    destinationIp := if direction = .inboundPacket then localIp else h.destinationIp
    fragment := fragment
    checksum := checksum }

/-- The checksum of a transport header over its addresses, and over its port where the record has another one. --/
def transportAdjust (record : Entry) (checksum oldPort newPort : UInt16) (old new : UInt32) : UInt16 :=
  let checksum :=
    if record.externalPort ≠ record.localPort then checksumAdjust checksum [oldPort] [newPort] else checksum
  checksumAdjust checksum (halves old) (halves new)

/-- `_nx_nat_process_outbound_TCP_packet`, its UDP and its ICMP sibling, after their search. The checksum of a UDP header
    is zero before it is looked at, and a checksum of zero is left alone. --/
def outboundTransport (record : Entry) (interface : UInt32) : Transport → Transport
  | .tcp source destination checksum rest =>
    .tcp (UInt16.ofNat (outboundPort record source.toNat)) destination
      (transportAdjust record checksum (UInt16.ofNat record.localPort) (UInt16.ofNat record.externalPort)
        (UInt32.ofNat record.localIpAddress) interface) rest
  | .udp source destination length _ rest =>
    .udp (UInt16.ofNat (outboundPort record source.toNat)) destination length 0 rest
  | .icmp type code checksum identifier rest =>
    if type.toNat ≠ icmpEchoReplyType ∧ record.externalPort ≠ record.localPort then
      .icmp type code (checksumAdjust checksum [UInt16.ofNat record.localPort] [UInt16.ofNat record.externalPort])
        (UInt16.ofNat record.externalPort) rest
    else .icmp type code checksum identifier rest

/-- `_nx_nat_process_inbound_TCP_packet`, its UDP and its ICMP sibling, after their search. What is no echo packet is
    dropped. --/
def inboundTransport (record : Entry) (interface : UInt32) : Transport → Option Transport
  | .tcp source destination checksum rest =>
    some (.tcp source (UInt16.ofNat (inboundPort record destination.toNat))
      (transportAdjust record checksum (UInt16.ofNat record.externalPort) (UInt16.ofNat record.localPort) interface
        (UInt32.ofNat record.localIpAddress)) rest)
  | .udp source destination length checksum rest =>
    some (.udp source (UInt16.ofNat (inboundPort record destination.toNat)) length
      (if checksum = 0 then checksum
        else
          transportAdjust record checksum (UInt16.ofNat record.externalPort) (UInt16.ofNat record.localPort) interface
            (UInt32.ofNat record.localIpAddress)) rest)
  | .icmp type code checksum identifier rest =>
    if type.toNat ≠ icmpEchoReplyType ∧ type.toNat ≠ icmpEchoRequestType then none
    else if type.toNat = icmpEchoReplyType ∧ record.externalPort ≠ record.localPort then
      some (.icmp type code (checksumAdjust checksum [identifier] [UInt16.ofNat record.localPort])
        (UInt16.ofNat record.localPort) rest)
    else some (.icmp type code checksum identifier rest)

/-- `_nx_nat_process_outbound_packet`: the packet that is sent. --/
def sendOutbound (nat : NatDevice) (d : Datagram) : Option Datagram :=
  if packetIsIcmpErrorMessage d.view then none
  else
    match (outboundEntryFind nat (outboundEntry d.view)).1 with
    | .error _ => none
    | .ok record =>
      let interface := UInt32.ofNat nat.ip.interfaceIpAddress
      some ⟨ipPacketSend d.header .outboundPacket interface (UInt32.ofNat record.localIpAddress),
        outboundTransport record interface d.transport⟩

/-- `_nx_nat_process_inbound_packet`: the packet that is sent. --/
def sendInbound (nat : NatDevice) (d : Datagram) : Option Datagram :=
  match (inboundEntryFind nat (inboundEntry d.view)).1 with
  | .error _ => none
  | .ok record =>
    let interface := UInt32.ofNat nat.ip.interfaceIpAddress
    (inboundTransport record interface d.transport).map fun transport =>
      ⟨ipPacketSend d.header .inboundPacket interface (UInt32.ofNat record.localIpAddress), transport⟩

/-! ### The words of a packet -/

def Transport.protocol : Transport → Nat
  | .tcp _ _ _ _ => protocolTcp
  | .udp _ _ _ _ _ => protocolUdp
  | .icmp _ _ _ _ _ => protocolIcmp

/-- The words that the checksum of the header is over, with it. --/
def Datagram.headerWords (d : Datagram) : List UInt16 :=
  [d.header.versionLengthTos, d.header.totalLength, d.header.identification, d.header.fragment,
    UInt16.ofNat (d.header.timeToLive.toNat * 256 + d.transport.protocol), d.header.checksum] ++
    halves d.header.sourceIp ++ halves d.header.destinationIp

/-- The pseudo header of TCP and UDP. --/
def Datagram.pseudoWords (d : Datagram) : List UInt16 :=
  halves d.header.sourceIp ++ halves d.header.destinationIp ++
    [UInt16.ofNat d.transport.protocol, d.header.totalLength - 20]

/-- The words that the checksum of the transport header is over, with it. --/
def Datagram.transportWords (d : Datagram) : List UInt16 :=
  match d.transport with
  | .tcp source destination checksum rest => d.pseudoWords ++ [source, destination, checksum] ++ rest
  | .udp source destination length checksum rest => d.pseudoWords ++ [source, destination, length, checksum] ++ rest
  | .icmp type code checksum identifier rest =>
    [UInt16.ofNat (type.toNat * 256 + code.toNat), checksum, identifier] ++ rest

/-! ### The adjustment -/

section adjust
variable {x : Int} {word checksum : UInt16} {old new rest : List UInt16}

theorem subtractOld_spec (word : UInt16) (hlow : 0 ≤ x) (hhigh : x ≤ 65535) :
    0 ≤ subtractOld x word ∧ subtractOld x word ≤ 65535 ∧
      (subtractOld x word + word.toNat) % 65535 = x % 65535 ∧ (1 ≤ x ∨ word.toNat < 65535 → 1 ≤ subtractOld x word) := by
  have hlt := word.toNat_lt
  unfold subtractOld
  dsimp only
  split
  · omega
  · omega

theorem addNew_spec (word : UInt16) (hlow : 0 ≤ x) (hhigh : x ≤ 65535) :
    0 ≤ addNew x word ∧ addNew x word ≤ 65535 ∧ addNew x word % 65535 = (x + word.toNat) % 65535 ∧
      (1 ≤ x → 1 ≤ addNew x word) := by
  have hlt := word.toNat_lt
  unfold addNew
  dsimp only
  split
  · omega
  · omega

theorem subtractOld_words (words : List UInt16) (hlow : 0 ≤ x) (hhigh : x ≤ 65535) :
    0 ≤ words.foldl subtractOld x ∧ words.foldl subtractOld x ≤ 65535 ∧
      (words.foldl subtractOld x + total words) % 65535 = x % 65535 ∧ (1 ≤ x → 1 ≤ words.foldl subtractOld x) := by
  induction words generalizing x with
  | nil => exact ⟨hlow, hhigh, by simp, id⟩
  | cons word words ih =>
    obtain ⟨hlow', hhigh', hmod, hpos⟩ := subtractOld_spec word hlow hhigh
    obtain ⟨hl, hh, hm, hp⟩ := ih hlow' hhigh'
    rw [List.foldl_cons, total_cons]
    exact ⟨hl, hh, by omega, fun h => hp (hpos (.inl h))⟩

theorem addNew_words (words : List UInt16) (hlow : 0 ≤ x) (hhigh : x ≤ 65535) :
    0 ≤ words.foldl addNew x ∧ words.foldl addNew x ≤ 65535 ∧
      words.foldl addNew x % 65535 = (x + total words) % 65535 ∧ (1 ≤ x → 1 ≤ words.foldl addNew x) := by
  induction words generalizing x with
  | nil => exact ⟨hlow, hhigh, by simp, id⟩
  | cons word words ih =>
    obtain ⟨hlow', hhigh', hmod, hpos⟩ := addNew_spec word hlow hhigh
    obtain ⟨hl, hh, hm, hp⟩ := ih hlow' hhigh'
    rw [List.foldl_cons, total_cons]
    exact ⟨hl, hh, by omega, fun h => hp (hpos h)⟩

theorem toNat_complement (hlow : 0 ≤ x) : (UInt16.ofNat (65535 - x).toNat).toNat = (65535 - x).toNat := by
  rw [UInt16.toNat_ofNat']
  exact Nat.mod_eq_of_lt (by omega)

/-- With its checksum adjusted, a packet has the sum it had. --/
theorem checksumAdjust_mod (checksum : UInt16) (old new : List UInt16) :
    ((checksumAdjust checksum old new).toNat + total new) % 65535 = (checksum.toNat + total old) % 65535 := by
  have hlt := checksum.toNat_lt
  obtain ⟨hl, hh, hm, -⟩ := subtractOld_words (x := 65535 - checksum.toNat) old (by omega) (by omega)
  obtain ⟨hl', hh', hm', -⟩ := addNew_words new hl hh
  unfold checksumAdjust
  dsimp only
  rw [toNat_complement hl']
  omega

/-- It is the checksum of the packet as it is now, unless that is zero throughout. --/
theorem checksumAdjust_checksum (hold : old ≠ []) (hnew : total (new ++ rest) ≠ 0) :
    checksumAdjust (OnesComplement.checksum (old ++ rest)) old new = OnesComplement.checksum (new ++ rest) := by
  obtain ⟨hle, hmod, hzero⟩ := sum_spec (old ++ rest)
  obtain ⟨hle', hmod', hzero'⟩ := sum_spec (new ++ rest)
  rw [total_append] at hmod hmod' hzero hzero' hnew
  have hmodAdjust := checksumAdjust_mod (OnesComplement.checksum (old ++ rest)) old new
  have hlast : 1 ≤ old.foldl subtractOld (65535 - (65535 - sum (old ++ rest) : Nat) : Int) := by
    cases old with
    | nil => exact absurd rfl hold
    | cons word words =>
      rw [List.foldl_cons]
      obtain ⟨hl, hh, -, hp⟩ := subtractOld_spec word
        (x := (65535 - (65535 - sum (word :: words ++ rest) : Nat) : Int)) (by omega) (by omega)
      refine (subtractOld_words words hl hh).2.2.2 (hp ?_)
      rw [total_cons] at hzero
      omega
  obtain ⟨hl, hh, -, -⟩ := subtractOld_words (x := (65535 - (65535 - sum (old ++ rest) : Nat) : Int)) old (by omega) (by omega)
  have hpos := (addNew_words new hl hh).2.2.2 hlast
  have hhigh := (addNew_words new hl hh).2.1
  apply UInt16.toNat_inj.mp
  have hadjusted : (checksumAdjust (OnesComplement.checksum (old ++ rest)) old new).toNat ≤ 65534 := by
    unfold checksumAdjust
    dsimp only
    rw [toNat_checksum, toNat_complement (addNew_words new hl hh).1]
    omega
  rw [toNat_checksum] at hmodAdjust ⊢
  omega

end adjust

end Netxduo.Translation
