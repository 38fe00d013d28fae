import Netxduo.Library.MoveToFront
import Netxduo.Tcp.Types

/-! The translation table of the NAT service: how entries are found, created, dropped and given a port. -/

namespace Netxduo.Translation
open MoveToFront

def protocolIcmp : Nat := 1
def protocolTcp : Nat := 6
def protocolUdp : Nat := 17

/-- `NX_IP_PERIODIC_RATE`: ticks in a second. --/
def ticksPerSecond : ULONG := 100

def tcpSessionTimeout : ULONG := 86400 * ticksPerSecond
def nonTcpSessionTimeout : ULONG := 240 * ticksPerSecond

def startTcpPort : Nat := 20000
def endTcpPort : Nat := startTcpPort + 10000
def startUdpPort : Nat := 20000
def endUdpPort : Nat := startUdpPort + 10000
def startIcmpQueryId : Nat := 20000
def endIcmpQueryId : Nat := startIcmpQueryId + 10000

inductive TranslationType
  | staticEntry
  | dynamicEntry
deriving DecidableEq, Repr

/-- `NX_NAT_TRANSLATION_ENTRY`, with the address of its memory; zero in a field stands for "not specified". --/
structure Entry where
  address : Nat
  peerIpAddress : Nat
  localIpAddress : Nat
  peerPort : Nat
  externalPort : Nat
  localPort : Nat
  translationType : TranslationType
  protocol : Nat
  responseTimeout : ULONG
  responseTimestamp : ULONG
deriving DecidableEq, Repr

/-- What the service reads of its `NX_IP` instance: the address of the global interface, the ports its own sockets are
    bound to, the addresses it has a route for, and those of them that it reaches over the global interface and that
    are no broadcast there. --/
structure Ip where
  interfaceIpAddress : Nat
  socketPortVerify : Nat → Nat → Bool
  routeFind : Nat → Bool
  globalRoute : Nat → Bool

/-- `NX_NAT_DEVICE`, with the tick counter of the system. --/
structure NatDevice where
  ip : Ip
  dynamicAvailable : List Nat
  dynamicActive : List Entry
  timeGet : ULONG

inductive NatStatus
  | paramError
  | entryNotFound
  | routeFindError
  | invalidEntry
  | cacheFull
  | noFreePortAvailable
  | entryTypeError
  | portUnavailable
deriving DecidableEq, Repr

inductive Direction
  | inboundPacket
  | outboundPacket
deriving DecidableEq, Repr

/-! ### Finding an entry -/

/-- The tests of the search loop of `_nx_nat_entry_find`. --/
def entryMatches (entryToMatch : Entry) (direction : Direction) (skipStaticEntries : Bool) (e : Entry) : Bool :=
  !(e.translationType == .staticEntry && skipStaticEntries) &&
  e.protocol == entryToMatch.protocol &&
  (e.peerIpAddress == 0 || e.peerIpAddress == entryToMatch.peerIpAddress) &&
  (e.peerPort == 0 || e.peerPort == entryToMatch.peerPort) &&
  match direction with
  | .inboundPacket => e.externalPort == 0 || e.externalPort == entryToMatch.externalPort
  | .outboundPacket =>
    (e.localIpAddress == 0 || e.localIpAddress == entryToMatch.localIpAddress) &&
    (e.localPort == 0 || e.localPort == entryToMatch.localPort)

/-- A search for a packet without the addresses of its direction finds nothing. --/
def searchable (entryToMatch : Entry) : Direction → Bool
  | .inboundPacket => entryToMatch.peerIpAddress != 0
  | .outboundPacket => entryToMatch.localIpAddress != 0 && entryToMatch.peerIpAddress != 0

/-- `_nx_nat_entry_find`: the entry that is found is active now, and moves to the head of the list. --/
def entryFind (nat : NatDevice) (entryToMatch : Entry) (direction : Direction) (skipStaticEntries : Bool) :
    Option (Entry × NatDevice) :=
  if searchable entryToMatch direction = false then none
  else
    (toFront (entryMatches entryToMatch direction skipStaticEntries)
      (fun e => { e with responseTimestamp := nat.timeGet }) nat.dynamicActive).map fun found =>
      (found.1, { nat with dynamicActive := found.2 })

/-- `elapsed_time >= response_timeout`, of the dynamic entries. --/
def Entry.timedOut (e : Entry) (currentTime : ULONG) : Bool :=
  e.translationType == .dynamicEntry && decide (e.responseTimeout ≤ currentTime - e.responseTimestamp)

/-- `_nx_nat_entry_timeout_check`: the entries that timed out become available, the last of them first. --/
def entryTimeoutCheck (nat : NatDevice) : NatDevice :=
  { nat with
    dynamicActive := nat.dynamicActive.filter fun e => !e.timedOut nat.timeGet
    dynamicAvailable :=
      ((nat.dynamicActive.filter fun e => e.timedOut nat.timeGet).map Entry.address).reverse ++ nat.dynamicAvailable }

/-! ### Creating an entry -/

/-- `_nx_nat_entry_port_verify`: an entry of the protocol, static or dynamic, has the port. --/
def entryPortVerify (nat : NatDevice) (protocol port : Nat) : Bool :=
  nat.dynamicActive.any fun e => e.protocol == protocol && e.externalPort == port

/-- The table and, for TCP and UDP, the sockets of the host. --/
def portBound (nat : NatDevice) (protocol port : Nat) : Bool :=
  entryPortVerify nat protocol port ||
    ((protocol == protocolTcp || protocol == protocolUdp) && nat.ip.socketPortVerify protocol port)

def startPort (protocol : Nat) : Nat :=
  if protocol = protocolTcp then startTcpPort
  else if protocol = protocolUdp then startUdpPort
  else startIcmpQueryId

def endPort (protocol : Nat) : Nat :=
  if protocol = protocolTcp then endTcpPort
  else if protocol = protocolUdp then endUdpPort
  else endIcmpQueryId

/-- `_nx_nat_find_available_port`: the lowest port of the range that is not bound. --/
def findAvailablePort (nat : NatDevice) (protocol : Nat) : Except NatStatus Nat :=
  match (List.range' (startPort protocol) (endPort protocol - startPort protocol)).find?
    fun port => !portBound nat protocol port with
  | some port => .ok port
  | none => .error .noFreePortAvailable

/-- `_nx_nat_entry_create`, where a full cache replaces nothing (`NX_NAT_ENABLE_REPLACEMENT` is not defined): the
    template `e` gets the memory of an available entry, and the time. --/
def entryCreate (nat : NatDevice) (e : Entry) (responseTimeout : ULONG) : Except NatStatus (Entry × NatDevice) :=
  if e.peerIpAddress = 0 ∨ e.localIpAddress = 0 then .error .invalidEntry
  else
    match nat.dynamicAvailable with
    | [] => .error .cacheFull
    | address :: available =>
      let insert := { e with
        address := address
        responseTimeout := responseTimeout
        responseTimestamp := nat.timeGet
        translationType := .dynamicEntry }
      .ok (insert, { nat with dynamicAvailable := available, dynamicActive := insert :: nat.dynamicActive })

def sessionTimeout (protocol : Nat) : ULONG :=
  if protocol = protocolTcp then tcpSessionTimeout else nonTcpSessionTimeout

/-! ### The entries of a packet -/

/-- The part of `_nx_nat_inbound_entry_find` after no dynamic entry was found: a static entry lets the packet in, with
    an entry of its own. --/
def serverEntryCreate (nat : NatDevice) (entry : Entry) : Except NatStatus Entry × NatDevice :=
  match entryFind nat entry .inboundPacket false with
  | none => (.error .entryNotFound, nat)
  | some (server, nat) =>
    match entryCreate nat { entry with
        localIpAddress := server.localIpAddress
        localPort := if server.localPort = 0 then entry.externalPort else server.localPort }
        (sessionTimeout entry.protocol) with
    | .error status => (.error status, nat)
    | .ok (record, nat) => (.ok record, nat)

/-- The search of `_nx_nat_inbound_entry_find`. --/
def inboundRecord (nat : NatDevice) (entry : Entry) : Except NatStatus Entry × NatDevice :=
  match entryFind nat entry .inboundPacket true with
  | some (record, nat) => (.ok record, nat)
  | none => serverEntryCreate nat entry

/-- The part of `_nx_nat_outbound_entry_find` after no entry was found: the packet opens a session of its own. --/
def sessionEntryCreate (nat : NatDevice) (entry : Entry) : Except NatStatus Entry × NatDevice :=
  match findAvailablePort nat entry.protocol with
  | .error status => (.error status, nat)
  | .ok port =>
    match entryCreate nat { entry with externalPort := port } (sessionTimeout entry.protocol) with
    | .error status => (.error status, nat)
    | .ok (record, nat) => (.ok record, nat)

/-- The search of `_nx_nat_outbound_entry_find`. --/
def outboundRecord (nat : NatDevice) (entry : Entry) : Except NatStatus Entry × NatDevice :=
  match entryFind nat entry .outboundPacket true with
  | some (record, nat) => (.ok record, nat)
  | none => sessionEntryCreate nat entry

/-- The route that both searches end with, to `destination` of the record. --/
def withRoute (destination : Entry → Nat) : Except NatStatus Entry × NatDevice → Except NatStatus Entry × NatDevice
  | (.error status, nat) => (.error status, nat)
  | (.ok record, nat) => (if nat.ip.routeFind (destination record) then .ok record else .error .routeFindError, nat)

/-- `_nx_nat_inbound_entry_find`, of the template with the ports of the packet. --/
def inboundEntryFind (nat : NatDevice) (entry : Entry) : Except NatStatus Entry × NatDevice :=
  withRoute Entry.localIpAddress (inboundRecord (entryTimeoutCheck nat) entry)

/-- `_nx_nat_outbound_entry_find`, of the template with the ports of the packet. --/
def outboundEntryFind (nat : NatDevice) (entry : Entry) : Except NatStatus Entry × NatDevice :=
  withRoute Entry.peerIpAddress (outboundRecord (entryTimeoutCheck nat) entry)

/-! ### Static entries -/

/-- `nx_nat_inbound_entry_create`, with the checks of its front end. --/
def inboundEntryCreate (nat : NatDevice) (address localIpAddress externalPort localPort protocol : Nat) :
    Except NatStatus NatDevice :=
  if localIpAddress = 0 ∨ protocol = 0 then .error .paramError
  else if entryPortVerify nat protocol externalPort then .error .portUnavailable
  else if nat.ip.socketPortVerify protocol externalPort then .error .portUnavailable
  else .ok { nat with dynamicActive :=
    { address := address, peerIpAddress := 0, localIpAddress := localIpAddress, peerPort := 0,
      externalPort := externalPort, localPort := localPort, translationType := .staticEntry, protocol := protocol,
      responseTimeout := 0, responseTimestamp := 0 } :: nat.dynamicActive }

/-- `nx_nat_inbound_entry_delete`, with the check of its front end on the type of the entry. --/
def inboundEntryDelete (nat : NatDevice) (address : Nat) : Except NatStatus NatDevice :=
  match nat.dynamicActive.find? fun e => e.address == address with
  | none => .error .entryNotFound
  | some e =>
    if e.translationType ≠ .staticEntry then .error .entryTypeError
    else .ok { nat with dynamicActive := nat.dynamicActive.eraseP fun e => e.address == address }

end Netxduo.Translation
