import Netxduo.Tcp.Types
import Mathlib.Data.List.Count

/-! IP fragments: how the receive path queues them (`_nx_ipv4_packet_receive`, `_nx_ipv6_process_fragment_option`)
    and how `_nx_ip_fragment_assembly` and `_nx_ip_fragment_timeout_check` keep them. Other IP instances, NAT and the
    low watermark are not built in. -/

namespace Netxduo.Ip

def ipv4MaxReassemblyTime : Nat := 15
def ipv6MaxReassemblyTime : Nat := 60
def ipOffsetMask : ULONG := 0x00001FFF
def ipMoreFragment : ULONG := 0x00002000
def ipFragmentMask : ULONG := 0x00003FFF
def ipLengthMask : ULONG := 0x0F000000

/-- `sizeof(NX_IPV4_HEADER)` --/
def ipv4HeaderSize : ULONG := 20

/-- `sizeof(NX_IPV6_HEADER_FRAGMENT_OPTION)` --/
def fragmentOptionSize : ULONG := 8

/-! ### Queued fragments -/

/-- The header of a queued fragment, in host order: an IPv4 header behind which the data follows, or the IPv6
    addresses and the fragment option at the prepend pointer. --/
inductive FragmentHeader where
  | v4 (word0 word1 word2 source destination : ULONG)
  | v6 (source destination : BitVec 128) (nextHeader : UInt8) (offsetFlag : BitVec 16) (packetId : ULONG)
deriving DecidableEq, Repr

/-- What the search compares: the version, and the fields of its kind. --/
inductive FragmentKey where
  | v4 (id protocol source destination : ULONG)
  | v6 (id : ULONG) (source destination : BitVec 128)
deriving DecidableEq, Repr

/-- An `NX_PACKET` chain holding one fragment: `length` counts the header and the data behind it, `pools` names
    the pool of each buffer. --/
structure Fragment where
  addr : Nat
  header : FragmentHeader
  length : ULONG
  data : List UInt8
  pools : List Nat
  reassemblyTime : Nat
deriving DecidableEq, Repr

namespace Fragment

def key (f : Fragment) : FragmentKey :=
  match f.header with
  | .v4 _ word1 word2 source destination => .v4 (word1 >>> 16) (word2 &&& 0x00FF0000) source destination
  | .v6 source destination _ _ packetId => .v6 packetId source destination

/-- `current_offset`: in units of eight octets for IPv4, in octets for IPv6. --/
def offset (f : Fragment) : ULONG :=
  match f.header with
  | .v4 _ word1 _ _ _ => word1 &&& ipOffsetMask
  | .v6 _ _ _ offsetFlag _ => (offsetFlag &&& 0xFFF8).setWidth 32

/-- How far the fragment moves the expected offset. --/
def advance (f : Fragment) : ULONG :=
  match f.header with
  | .v4 word0 _ _ _ _ => ((word0 &&& lower16Mask) - ipv4HeaderSize) / 8
  | .v6 .. => f.length - fragmentOptionSize

/-- More fragments follow. --/
def more (f : Fragment) : Bool :=
  match f.header with
  | .v4 _ word1 _ _ _ => word1 &&& ipMoreFragment != 0
  | .v6 _ _ _ offsetFlag _ => offsetFlag &&& 1 != 0

/-- The reassembly time a fragment arrives with. --/
def maxReassemblyTime (f : Fragment) : Nat :=
  match f.header with
  | .v4 .. => ipv4MaxReassemblyTime
  | .v6 .. => ipv6MaxReassemblyTime

end Fragment

/-! ### Arrivals -/

/-- An IPv4 packet, the header in host order; `length` is `nx_packet_length`. --/
structure Ipv4Packet where
  addr : Nat
  word0 : ULONG
  word1 : ULONG
  word2 : ULONG
  source : ULONG
  destination : ULONG
  options : List ULONG
  length : ULONG
  data : List UInt8
  pools : List Nat
deriving DecidableEq, Repr

/-- An IPv6 packet at its fragment option: `word1` is the second word of the IPv6 header, `length` counts from the
    option on, `offsetFlag` is in host order. --/
structure Ipv6Packet where
  addr : Nat
  word1 : ULONG
  source : BitVec 128
  destination : BitVec 128
  nextHeader : UInt8
  offsetFlag : BitVec 16
  packetId : ULONG
  length : ULONG
  data : List UInt8
  pools : List Nat
deriving DecidableEq, Repr

/-- Where a received packet goes. --/
inductive Received where
  /-- To the queue of received fragments. --/
  | queued (f : Fragment)
  /-- Released. --/
  | dropped
  /-- On, as a whole datagram. --/
  | whole
deriving DecidableEq, Repr

/-- The length of the IPv4 header, in words. --/
def Ipv4Packet.headerLength (p : Ipv4Packet) : ULONG := (p.word0 &&& ipLengthMask) >>> 24

/-- `_nx_ipv4_packet_receive`, as far as it handles fragments: padding is cut off, the options are removed, and the
    packet is queued. `optionProcess` is `_nx_ipv4_option_process`. The length in the first header word stays as it
    arrived. --/
def ipv4PacketReceive (optionProcess : Ipv4Packet → Bool) (p : Ipv4Packet) : Received :=
  let pktLength := p.word0 &&& lower16Mask
  if p.length < pktLength then .dropped
  else
    let headerLength := p.headerLength
    if pktLength ≤ headerLength <<< 2 ∨ headerLength < 5 then .dropped
    else if headerLength > 5 ∧ optionProcess p = false then .dropped
    else
      let word0 := if headerLength > 5 then p.word0 &&& ~~~ipLengthMask ||| 0x45000000 else p.word0
      let length := if headerLength > 5 then pktLength - (headerLength - 5) * 4 else pktLength
      if p.word1 &&& ipFragmentMask = 0 then .whole
      else if p.word1 &&& ipMoreFragment ≠ 0 ∧ (pktLength - ipv4HeaderSize) &&& 7 ≠ 0 then .dropped
      else
        .queued
          { addr := p.addr
            header := .v4 word0 p.word1 p.word2 p.source p.destination
            length := length
            data := p.data.take (pktLength - headerLength <<< 2).toNat
            pools := p.pools
            reassemblyTime := 0 }

/-- `_nx_ipv6_process_fragment_option` --/
def ipv6ProcessFragmentOption (p : Ipv6Packet) : Received :=
  if p.length < fragmentOptionSize then .dropped
  else
    let offset : ULONG := (p.offsetFlag &&& 0xFFF8).setWidth 32
    if p.offsetFlag &&& 1 ≠ 0 ∧ p.word1 >>> 16 &&& 0xFFF8 ≠ p.word1 >>> 16 then .dropped
    else if p.offsetFlag &&& 1 = 0 ∧ offset = 0 then .whole
    else if offset + p.length - fragmentOptionSize > 65535 then .dropped
    else
      .queued
        { addr := p.addr
          header := .v6 p.source p.destination p.nextHeader p.offsetFlag p.packetId
          length := p.length
          data := p.data
          pools := p.pools
          reassemblyTime := 0 }

/-! ### The assembly list -/

/-- The fragments of one datagram, linked by `nx_packet_fragment_next`. --/
structure Chain where
  first : Fragment
  rest : List Fragment
deriving DecidableEq, Repr

namespace Chain

def toList (c : Chain) : List Fragment := c.first :: c.rest

end Chain

/-- A datagram handed to `_nx_ip_dispatch_process`: what it was assembled from, and what is dispatched. `taken`
    says that the dispatch process keeps the packet; otherwise it is released. --/
structure Datagram where
  fragments : List Fragment
  protocol : Nat
  length : ULONG
  octets : List UInt8
  taken : Bool
deriving DecidableEq, Repr

/-- The assembly list, its head and tail pointers (as addresses of the first fragments), and what has become of the
    fragments that left it. --/
structure Assembly where
  chains : List Chain
  head : Option Nat
  tail : Option Nat
  received : List Fragment
  released : List Fragment
  dispatched : List Datagram
deriving DecidableEq, Repr

/-- The packet pools, and the processing of whole datagrams. --/
structure Environment where
  /-- `nx_packet_pool_total` --/
  poolTotal : Nat → Nat
  /-- `_nx_ipv4_option_process` --/
  optionProcess : Ipv4Packet → Bool
  /-- `_nx_ip_dispatch_process` takes the packet. --/
  dispatchProcess : Fragment → Nat → Bool

namespace Assembly

def empty : Assembly := ⟨[], none, none, [], [], []⟩

/-- The fragments on the chains. --/
def held (a : Assembly) : List Fragment := a.chains.flatMap Chain.toList

end Assembly

/-- `NX_IP_FRAGMENT_POOL_RESERVE` --/
def poolReserve (env : Environment) (pool : Nat) : Nat := env.poolTotal pool / 2

/-- `_nx_ip_fragment_assembly_held` --/
def assemblyHeld (a : Assembly) (pool : Nat) : Nat := (a.held.map fun f => f.pools.count pool).sum

/-- `_nx_ip_fragment_assembly_fits`: every pool the fragment has a buffer of. --/
def assemblyFits (env : Environment) (a : Assembly) (f : Fragment) : Bool :=
  f.pools.all fun pool =>
    decide (assemblyHeld a pool + f.pools.count pool ≤ env.poolTotal pool - poolReserve env pool)

/-- The walk along the assembly list to the chain of the key: the chains before it, the chain, those behind it. --/
def assemblySearch (key : FragmentKey) : List Chain → List Chain × Option (Chain × List Chain)
  | [] => ([], none)
  | c :: rest =>
    if c.first.key = key then ([], some (c, rest))
    else
      let (before, found) := assemblySearch key rest
      (c :: before, found)

/-- The fragment put at its place among others; a copy of the same offset gives way. Returns the copy too. --/
def chainInsert (f : Fragment) : List Fragment → List Fragment × List Fragment
  | [] => ([f], [])
  | g :: rest =>
    if f.offset ≤ g.offset then if f.offset = g.offset then (f :: rest, [g]) else (f :: g :: rest, [])
    else
      let (inserted, old) := chainInsert f rest
      (g :: inserted, old)

/-- The chain with the fragment at its place. --/
def Chain.insert (f : Fragment) (c : Chain) : Chain × List Fragment :=
  if f.offset ≤ c.first.offset then
    if f.offset = c.first.offset then (⟨f, c.rest⟩, [c.first]) else (⟨f, c.first :: c.rest⟩, [])
  else
    let (rest, old) := chainInsert f c.rest
    (⟨c.first, rest⟩, old)

/-- The loop that looks for a gap. --/
def contiguous : ULONG → List Fragment → Bool
  | _, [] => true
  | expected, f :: rest => if expected ≠ f.offset then false else contiguous (expected + f.advance) rest

/-- All the fragments are there. --/
def Chain.complete (c : Chain) : Bool :=
  contiguous 0 c.toList && !(c.toList.getLast (List.cons_ne_nil _ _)).more

/-- The size of the header in front of the data. --/
def Fragment.headerSize (f : Fragment) : ULONG :=
  match f.header with
  | .v4 .. => ipv4HeaderSize
  | .v6 .. => fragmentOptionSize

/-- The fragments linked into one packet, less the header of the first; `current` is the fragment that has
    arrived last, from which IPv6 takes the protocol. --/
def assembleDatagram (env : Environment) (c : Chain) (current : Fragment) : Datagram :=
  let protocol :=
    match c.first.header, current.header with
    | .v4 _ _ word2 _ _, _ => (word2 >>> 16 &&& 0xFF).toNat
    | .v6 .., .v6 _ _ nextHeader _ _ => nextHeader.toNat
    | .v6 .., .v4 .. => 0
  { fragments := c.toList
    protocol := protocol
    length := c.rest.foldl (fun length f => length + f.length - f.headerSize) c.first.length - c.first.headerSize
    octets := c.toList.flatMap Fragment.data
    taken := env.dispatchProcess c.first protocol }

/-- A fragment of a datagram that has a chain. --/
def joinDatagram (env : Environment) (a : Assembly) (f : Fragment) (before : List Chain) (c : Chain)
    (after : List Chain) : Assembly :=
  let f := { f with reassemblyTime := c.first.reassemblyTime }
  let (c', old) := c.insert f
  let front := f.offset ≤ c.first.offset
  let head := if front ∧ before = [] then some f.addr else a.head
  let tail := if front ∧ a.tail = some c.first.addr then some f.addr else a.tail
  let released := a.released ++ old
  if c'.complete then
    { a with
      chains := before ++ after
      head := if before = [] then after.head?.map (·.first.addr) else head
      tail := if tail = some c'.first.addr then before.getLast?.map (·.first.addr) else tail
      released := released
      dispatched := a.dispatched ++ [assembleDatagram env c' f] }
  else { a with chains := before ++ c' :: after, head := head, tail := tail, released := released }

/-- One round of `_nx_ip_fragment_assembly`. --/
def fragmentArrive (env : Environment) (a : Assembly) (f : Fragment) : Assembly :=
  let f := { f with reassemblyTime := f.maxReassemblyTime }
  let a := { a with received := a.received ++ [f] }
  if assemblyFits env a f then
    match assemblySearch f.key a.chains with
    | (before, some (c, after)) => joinDatagram env a f before c after
    | (_, none) =>
      { a with
        chains := a.chains ++ [⟨f, []⟩]
        head := if a.head = none then some f.addr else a.head
        tail := some f.addr }
  else { a with released := a.released ++ [f] }

/-- `_nx_ip_fragment_assembly`, over the queue of received fragments. --/
def fragmentAssembly (env : Environment) (a : Assembly) (queue : List Fragment) : Assembly :=
  queue.foldl (fragmentArrive env) a

/-! ### Timeouts -/

/-- The loop of `_nx_ip_fragment_timeout_check` from a chain on, `previous` being the one before it. --/
def timeoutWalk (a : Assembly) (kept : List Chain) : List Chain → Assembly
  | [] => { a with chains := kept }
  | c :: rest =>
    let previous := kept.getLast?.map (·.first.addr)
    if c.first.reassemblyTime = 0 then
      timeoutWalk
        { a with
          head := if kept = [] then rest.head?.map (·.first.addr) else a.head
          released := a.released ++ c.toList
          tail := if a.tail = some c.first.addr then previous else a.tail }
        kept rest
    else timeoutWalk a (kept ++ [⟨{ c.first with reassemblyTime := c.first.reassemblyTime - 1 }, c.rest⟩]) rest

/-- `_nx_ip_fragment_timeout_check` --/
def fragmentTimeoutCheck (a : Assembly) : Assembly := timeoutWalk a [] a.chains

/-! ### Steps -/

/-- What happens to an IP instance: fragments that have been queued are assembled, or a second has passed. --/
inductive Action where
  | ipv4 (p : Ipv4Packet)
  | ipv6 (p : Ipv6Packet)
  | assemble (queue : List Fragment)
  | timeout
deriving DecidableEq, Repr

/-- The fragment an arriving packet is queued as. --/
def Action.queue (env : Environment) : Action → List Fragment
  | .ipv4 p =>
    match ipv4PacketReceive env.optionProcess p with
    | .queued f => [f]
    | _ => []
  | .ipv6 p =>
    match ipv6ProcessFragmentOption p with
    | .queued f => [f]
    | _ => []
  | .assemble queue => queue
  | .timeout => []

def step (env : Environment) (a : Assembly) (action : Action) : Assembly :=
  match action with
  | .timeout => fragmentTimeoutCheck a
  | action => fragmentAssembly env a (action.queue env)

/-! ### For runs on fixed packets -/

/-- A pool of a hundred packets, and upper layers that take everything. --/
def Environment.ideal : Environment where
  poolTotal := fun _ => 100
  optionProcess := fun _ => true
  dispatchProcess := fun _ _ => true

/-- A UDP fragment with lengths that fit, in one buffer. --/
def Ipv4Packet.plain (addr : Nat) (id offset : ULONG) (more : Bool) (options : List ULONG) (data : List UInt8) :
    Ipv4Packet where
  addr := addr
  word0 := 0x40000000 ||| BitVec.ofNat 32 (5 + options.length) <<< 24 |||
    BitVec.ofNat 32 (20 + 4 * options.length + data.length)
  word1 := id <<< 16 ||| (if more then ipMoreFragment else 0) ||| offset
  word2 := 0x40110000
  source := 0x0A000001
  destination := 0x0A000002
  options := options
  length := BitVec.ofNat 32 (20 + 4 * options.length + data.length)
  data := data
  pools := [0]

end Netxduo.Ip
