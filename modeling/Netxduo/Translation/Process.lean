import Netxduo.Translation.Table

/-! What the NAT service does with a packet, and the steps of a device that runs it. -/

namespace Netxduo.Translation

def icmpEchoReplyType : Nat := 0
def icmpEchoRequestType : Nat := 8
def icmpTimestampReqType : Nat := 13

/-- The fields of the transport header that the service reads or writes; a checksum follows them. --/
inductive TransportHeader
  | tcp (sourcePort destinationPort : Nat)
  | udp (sourcePort destinationPort : Nat)
  | icmp (type identifier : Nat)
deriving DecidableEq, Repr

/-- A packet that holds its headers, less the payload. --/
structure Packet where
  sourceIp : Nat
  destinationIp : Nat
  transport : TransportHeader
deriving DecidableEq, Repr

inductive Verdict
  | sent (p : Packet)
  | dropped
  | toHost
deriving DecidableEq, Repr

/-! ### Ports -/

def Packet.protocol (p : Packet) : Nat :=
  match p.transport with
  | .tcp _ _ => protocolTcp
  | .udp _ _ => protocolUdp
  | .icmp _ _ => protocolIcmp

/-- The test of `_nx_nat_packet_is_icmp_error_message` on the type. --/
def icmpErrorType (type : Nat) : Bool :=
  type != icmpEchoReplyType && type != icmpEchoRequestType && decide (type < icmpTimestampReqType)

/-- `_nx_nat_packet_is_icmp_error_message` --/
def packetIsIcmpErrorMessage (p : Packet) : Bool :=
  match p.transport with
  | .icmp type _ => icmpErrorType type
  | _ => false

/-- `_nx_nat_utility_get_source_port` --/
def getSourcePort (p : Packet) : Nat :=
  match p.transport with
  | .tcp sourcePort _ => sourcePort
  | .udp sourcePort _ => sourcePort
  | .icmp type identifier => if icmpErrorType type then 0 else identifier

/-- `_nx_nat_utility_get_destination_port` --/
def getDestinationPort (p : Packet) : Nat :=
  match p.transport with
  | .tcp _ destinationPort => destinationPort
  | .udp _ destinationPort => destinationPort
  | .icmp type identifier => if icmpErrorType type then 0 else identifier

/-- The port of the peer, which an ICMP packet has none of. --/
def inboundPeerPort (p : Packet) : Nat :=
  match p.transport with
  | .icmp _ _ => 0
  | _ => getSourcePort p

def outboundPeerPort (p : Packet) : Nat :=
  match p.transport with
  | .icmp _ _ => 0
  | _ => getDestinationPort p

/-- `translation_entry` of `_nx_nat_process_inbound_packet`, with the ports `_nx_nat_inbound_entry_find` reads. --/
def inboundEntry (p : Packet) : Entry :=
  { address := 0, peerIpAddress := p.sourceIp, localIpAddress := 0, peerPort := inboundPeerPort p,
    externalPort := getDestinationPort p, localPort := 0, translationType := .dynamicEntry, protocol := p.protocol,
    responseTimeout := 0, responseTimestamp := 0 }

/-- `translation_entry` of `_nx_nat_process_outbound_packet`, with the ports `_nx_nat_outbound_entry_find` reads. --/
def outboundEntry (p : Packet) : Entry :=
  { address := 0, peerIpAddress := p.destinationIp, localIpAddress := p.sourceIp, peerPort := outboundPeerPort p,
    externalPort := 0, localPort := getSourcePort p, translationType := .dynamicEntry, protocol := p.protocol,
    responseTimeout := 0, responseTimestamp := 0 }

/-! ### Inbound packets -/

/-- The port of an inbound packet, where the record has another one. --/
def inboundPort (record : Entry) (port : Nat) : Nat :=
  if record.externalPort ≠ record.localPort then record.localPort else port

/-- The header that leaves `_nx_nat_process_inbound_TCP_packet`, its UDP or its ICMP sibling. An identifier is restored
    in an echo reply alone, and what is no echo packet is dropped. --/
def inboundHeader (record : Entry) : TransportHeader → Option TransportHeader
  | .tcp sourcePort destinationPort => some (.tcp sourcePort (inboundPort record destinationPort))
  | .udp sourcePort destinationPort => some (.udp sourcePort (inboundPort record destinationPort))
  | .icmp type identifier =>
    if type ≠ icmpEchoReplyType ∧ type ≠ icmpEchoRequestType then none
    else some (.icmp type (if type = icmpEchoReplyType then inboundPort record identifier else identifier))

/-- `_nx_nat_process_inbound_packet` --/
def processInboundPacket (nat : NatDevice) (p : Packet) : Verdict × NatDevice :=
  match inboundEntryFind nat (inboundEntry p) with
  | (.error status, nat) => (if status = .entryNotFound then .toHost else .dropped, nat)
  | (.ok record, nat) =>
    match inboundHeader record p.transport with
    | none => (.dropped, nat)
    | some header => (.sent { p with destinationIp := record.localIpAddress, transport := header }, nat)

/-! ### Outbound packets -/

/-- The port of an outbound packet, where the record has another one. --/
def outboundPort (record : Entry) (port : Nat) : Nat :=
  if record.externalPort ≠ record.localPort then record.externalPort else port

/-- The header that leaves `_nx_nat_process_outbound_TCP_packet`, its UDP or its ICMP sibling. An echo reply keeps its
    identifier. --/
def outboundHeader (record : Entry) : TransportHeader → TransportHeader
  | .tcp sourcePort destinationPort => .tcp (outboundPort record sourcePort) destinationPort
  | .udp sourcePort destinationPort => .udp (outboundPort record sourcePort) destinationPort
  | .icmp type identifier =>
    .icmp type (if type ≠ icmpEchoReplyType then outboundPort record identifier else identifier)

/-- `_nx_nat_process_outbound_packet`: an ICMP error message is dropped before any search. --/
def processOutboundPacket (nat : NatDevice) (p : Packet) : Verdict × NatDevice :=
  if packetIsIcmpErrorMessage p then (.dropped, nat)
  else
    match outboundEntryFind nat (outboundEntry p) with
    | (.error _, nat) => (.dropped, nat)
    | (.ok record, nat) =>
      (.sent { p with sourceIp := nat.ip.interfaceIpAddress, transport := outboundHeader record p.transport }, nat)

/-! ### Packets of either side -/

def ipLimitedBroadcast : Nat := 0xFFFFFFFF
def ipClassDMask : Nat := 0xF0000000
def ipClassDType : Nat := 0xE0000000
def ipLoopbackFirst : Nat := 0x7F000000
def ipLoopbackLast : Nat := 0x7FFFFFFF

/-- A packet of the private side that is for the global side. --/
def forwardable (ip : Ip) (destination : Nat) : Bool :=
  destination != 0 && destination != ipLimitedBroadcast && (destination &&& ipClassDMask) != ipClassDType &&
    !(decide (ipLoopbackFirst ≤ destination) && decide (destination ≤ ipLoopbackLast)) && ip.globalRoute destination

/-- `_nx_nat_process_packet`, of a packet that arrived on the global interface or on another. --/
def processPacket (nat : NatDevice) (fromGlobal : Bool) (p : Packet) : Verdict × NatDevice :=
  if fromGlobal then
    if p.destinationIp ≠ nat.ip.interfaceIpAddress then (.toHost, nat) else processInboundPacket nat p
  else if forwardable nat.ip p.destinationIp = false then (.toHost, nat)
  else processOutboundPacket nat p

/-! ### Steps -/

/-- What happens to the device: packets, the services of the application, the passing of ticks, and the sockets and
    routes of the host, which change as they please. --/
inductive Action
  | packet (fromGlobal : Bool) (p : Packet)
  | inboundEntryCreate (address localIpAddress externalPort localPort protocol : Nat)
  | inboundEntryDelete (address : Nat)
  | ticks (n : Nat)
  | host (socketPortVerify : Nat → Nat → Bool) (routeFind globalRoute : Nat → Bool)

/-- A service that fails leaves the device as it is. --/
def served (nat : NatDevice) : Except NatStatus NatDevice → NatDevice
  | .ok nat => nat
  | .error _ => nat

def step (nat : NatDevice) : Action → NatDevice
  | .packet fromGlobal p => (processPacket nat fromGlobal p).2
  | .inboundEntryCreate address localIpAddress externalPort localPort protocol =>
    served nat (inboundEntryCreate nat address localIpAddress externalPort localPort protocol)
  | .inboundEntryDelete address => served nat (inboundEntryDelete nat address)
  | .ticks n => { nat with timeGet := nat.timeGet + BitVec.ofNat 32 n }
  | .host socketPortVerify routeFind globalRoute =>
    { nat with ip := { nat.ip with
      socketPortVerify := socketPortVerify, routeFind := routeFind, globalRoute := globalRoute } }

/-- `_nx_nat_create`, with the memory of the dynamic cache. --/
def create (ip : Ip) (dynamicCacheMemory : List Nat) (timeGet : ULONG) : NatDevice :=
  { ip := ip, dynamicAvailable := dynamicCacheMemory, dynamicActive := [], timeGet := timeGet }

/-- The ticks that pass. --/
def Action.elapsed : Action → Nat
  | .ticks n => n
  | _ => 0

def elapsed (actions : List Action) : Nat := (actions.map Action.elapsed).sum

end Netxduo.Translation
