import Mathlib.Logic.Function.Basic
import Netxduo.Library.Runs
import Netxduo.Syncache.Options

/-! The SYN cache: the table of entries, its free list, age list, accept list and hash chains, and every operation of
    `nx_tcp_syncache.c` that edits them. A list is kept with its head first. -/

namespace Netxduo.Syncache

/-! ### Entries -/

/-- `NXD_ADDRESS` --/
inductive Address where
  | v4 (a : ULONG)
  | v6 (a b c d : ULONG)
deriving DecidableEq, Repr

def Address.words : Address → List ULONG
  | .v4 a => [a]
  | .v6 a b c d => [a, b, c, d]

/-- What `_nx_tcp_syncache_same_peer` compares. --/
structure Peer where
  address : Address
  port : ULONG
  localPort : ULONG
deriving DecidableEq, Repr

/-- `NX_TCP_SYNCACHE_FREE` and its successors. --/
inductive EntryState where
  | free | synReceived | established | deferred
deriving DecidableEq, Repr

/-- `NX_TCP_SYNCACHE_ENTRY`, less its links. --/
structure Entry where
  state : EntryState
  peer : Peer
  interface : Option Nat
  ipv6Addr : Option Nat
  terms : Terms
  time : ULONG
  retries : Nat
deriving DecidableEq, Repr

/-- `NX_TCP_SYNCACHE_SIZE` --/
def cacheSize : Nat := 512

/-- `NX_TCP_SYNCACHE_BUCKETS` --/
def buckets : ULONG := 128

/-- `NX_TCP_SYNCACHE_ACCEPT_MAX` --/
def acceptMax : ULONG := 32

/-- `NX_IP_PERIODIC_RATE` --/
def periodicRate : ULONG := 100

/-- `NX_TCP_SYNCACHE_TIMEOUT` --/
def cacheTimeout : ULONG := 20 * periodicRate

/-- `NX_TCP_SYNCACHE_ACCEPT_TIMEOUT` --/
def acceptTimeout : ULONG := 60 * periodicRate

/-- `_nx_tcp_syncache_retry_ladder` --/
def retryLadder : List ULONG := [1, 3, 7]

/-- `NX_TCP_SYNCACHE`: the entries by their index, and the lists through them. --/
structure Cache where
  initialized : Bool
  key : Key
  entry : Nat → Entry
  free : List Nat
  age : List Nat
  accept : List Nat
  chain : ULONG → List Nat
  count : ULONG
  acceptCount : ULONG

/-- An entry of the cleared table. --/
def Entry.cleared : Entry where
  state := .free
  peer := ⟨.v4 0, 0, 0⟩
  interface := none
  ipv6Addr := none
  terms := ⟨0, 0, 0, 0, 0, false, false, 0, 0, 0, 0, 0, 0⟩
  time := 0
  retries := 0

/-- `_nx_tcp_syncache_initialize` --/
def Cache.initialize (key : Key) : Cache where
  initialized := true
  key := key
  entry := fun _ => Entry.cleared
  free := (List.range cacheSize).reverse
  age := []
  accept := []
  chain := fun _ => []
  count := 0
  acceptCount := 0

/-! ### Around the cache -/

/-- The socket of a listen request: its state, and whether it is linked into the port table. --/
structure ListenSocket where
  state : State
  bound : Bool
deriving DecidableEq, Repr

/-- `NX_TCP_LISTEN` --/
structure Listener where
  port : ULONG
  queueMaximum : ULONG
  request : Listen
  socket : Option ListenSocket

/-- `_nx_tcp_syncache_socket_ready` --/
def socketReady : Option ListenSocket → Bool
  | none => false
  | some s => (s.state == .listen || s.state == .synReceived) && !s.bound

/-- What the operations read around the cache: the clock, the ways to the peers, and the listen requests. --/
structure Around where
  now : ULONG
  path : Entry → Path
  listeners : List Listener

/-- Where a segment comes from. `live` is what `_nx_tcp_syncache_arrival_live` finds, `welcome` what the callback of the
    application says to a SYN. --/
structure Arrival where
  source : Address
  port : ULONG
  destination : Address
  interface : Option Nat
  ipv6Addr : Option Nat
  live : Bool
  welcome : Bool
deriving DecidableEq, Repr

/-- A segment without SYN: its header, its payload length and its timestamp. --/
structure Segment where
  sequence : ULONG
  acknowledgment : ULONG
  window : ULONG
  length : ULONG
  fin : Bool
  timestamp : Option ULONG
deriving DecidableEq, Repr

/-- What an operation sends, or hands to a socket. --/
inductive Reply where
  | synAck (peer : Peer) (segment : SynAck)
  | rst (peer : Peer) (sequence : ULONG)
  | ack (peer : Peer) (sequence acknowledgment window : ULONG)
  | handOver (entry : Entry)
deriving DecidableEq, Repr

/-- The cache an operation leaves, what it replied, and whether it took the segment. --/
structure Result where
  cache : Cache
  replies : List Reply
  taken : Bool

def Cache.silent (c : Cache) : Result := ⟨c, [], true⟩

/-- Further replies went out before. --/
def Result.after (r : Result) (replies : List Reply) : Result := { r with replies := replies ++ r.replies }

/-! ### Finding an entry -/

/-- `_nx_tcp_syncache_bucket` --/
def bucket (p : Peer) : ULONG :=
  let mix : ULONG := p.localPort + p.port <<< 3
  let mix : ULONG := match p.address with
    | .v4 a => mix + (a + a >>> 13)
    | .v6 a b c d => mix + (a + b + c + d)
  let mix : ULONG := mix + mix >>> 7 + mix >>> 17
  mix &&& (buckets - 1)

/-- `_nx_tcp_syncache_tuple` --/
def tuple (p : Peer) (destination : Address) : List ULONG :=
  p.address.words ++ destination.words ++ [p.localPort <<< 16 ||| p.port]

/-- `_nx_tcp_syncache_counter` --/
def counter (now : ULONG) : ULONG := now >>> 11

namespace Cache

/-- `_nx_tcp_syncache_find` --/
def find (c : Cache) (p : Peer) : Option Nat := (c.chain (bucket p)).find? fun i => (c.entry i).peer = p

def isDeferred (c : Cache) (port : ULONG) (i : Nat) : Bool :=
  (c.entry i).state == .deferred && (c.entry i).peer.localPort == port

/-- `_nx_tcp_syncache_deferred_count` --/
def deferredCount (c : Cache) (port : ULONG) : ULONG := BitVec.ofNat 32 (c.age.countP (c.isDeferred port))

/-- `_nx_tcp_syncache_oldest_deferred` --/
def oldestDeferred (c : Cache) (port : ULONG) : Option Nat := c.age.find? (c.isDeferred port)

/-- `_nx_tcp_syncache_answered` --/
def answered (c : Cache) (port : ULONG) : Bool :=
  c.age.any fun i => (c.entry i).state == .synReceived && (c.entry i).peer.localPort == port

/-- `_nx_tcp_syncache_accept_queued` --/
def acceptQueued (c : Cache) (port : ULONG) : ULONG :=
  BitVec.ofNat 32 (c.accept.countP fun i => (c.entry i).peer.localPort == port)

/-! ### Editing the lists -/

/-- `_nx_tcp_syncache_release` --/
def release (c : Cache) (i : Nat) : Cache :=
  let e := c.entry i
  if e.state = .free then c
  else
    let b := bucket e.peer
    let c := { c with chain := Function.update c.chain b ((c.chain b).erase i) }
    let c :=
      if e.state = .established then
        if i ∈ c.accept then { c with accept := c.accept.erase i, acceptCount := c.acceptCount - 1 } else c
      else
        if i ∈ c.age then { c with age := c.age.erase i, count := c.count - 1 } else c
    { c with entry := Function.update c.entry i { e with state := .free }, free := i :: c.free }

/-- An entry is written in place. --/
def write (c : Cache) (i : Nat) (e : Entry) : Cache := { c with entry := Function.update c.entry i e }

/-- The head of the free list becomes a half-open entry. --/
def link (c : Cache) (i : Nat) (free : List Nat) (e : Entry) : Cache :=
  let b := bucket e.peer
  { c with
    free := free
    entry := Function.update c.entry i e
    chain := Function.update c.chain b (i :: c.chain b)
    age := c.age ++ [i]
    count := c.count + 1 }

/-- The head of the free list becomes a finished handshake. --/
def linkAccept (c : Cache) (i : Nat) (free : List Nat) (e : Entry) : Cache :=
  let b := bucket e.peer
  { c with
    free := free
    entry := Function.update c.entry i e
    chain := Function.update c.chain b (i :: c.chain b)
    accept := c.accept ++ [i]
    acceptCount := c.acceptCount + 1 }

/-- `_nx_tcp_syncache_send_synack`, which notes in the entry what it negotiated. --/
def sendSynack (a : Around) (c : Cache) (i : Nat) : Result :=
  let e := c.entry i
  let (segment, terms) := Syncache.sendSynack (a.path e) e.terms
  ⟨c.write i { e with terms := terms }, [.synAck e.peer segment], true⟩

/-- `_nx_tcp_syncache_answer` --/
def answer (a : Around) (l : Listener) (c : Cache) (i : Nat) : Result :=
  let e := c.entry i
  let terms := { e.terms with
    rxWindow := l.request.window
    rxWindowMaximum := l.request.windowMaximum
    mss := l.request.segmentSize }
  (c.write i { e with terms := terms, state := .synReceived, retries := 0, time := a.now }).sendSynack a i

/-- `_nx_tcp_syncache_answer_deferred` --/
def answerDeferred (a : Around) (l : Listener) (c : Cache) : Result :=
  if ¬c.initialized ∨ ¬socketReady l.socket ∨ c.acceptQueued l.port ≠ 0 ∨ c.answered l.port then c.silent
  else match c.oldestDeferred l.port with
    | none => c.silent
    | some i => c.answer a l i

/-! ### A SYN -/

section
variable (a : Around) (l : Listener) (from_ : Arrival) (syn : Syn)

/-- The entry `_nx_tcp_syncache_fill` makes of a SYN. --/
def filled (iss : ULONG) : Entry where
  state := .deferred
  peer := ⟨from_.source, from_.port, l.port⟩
  interface := from_.interface
  ipv6Addr := match from_.source with
    | .v4 _ => none
    | .v6 .. => from_.ipv6Addr
  terms := { fill l.request syn.irs syn.window (syn.mss.setWidth 32) syn.windowScale syn.sackPermitted
    syn.timestamp.isSome (syn.timestamp.getD 0) with iss := iss }
  time := a.now
  retries := 0

/-- The tail of `_nx_tcp_syncache_syn_received`: a free entry is taken, or a cookie sent. --/
def add (c : Cache) : Result :=
  let peer : Peer := ⟨from_.source, from_.port, l.port⟩
  let cookie := fun extra => cookieBuild syncacheHash c.key (tuple peer from_.destination) syn.irs (counter a.now)
    (optionsEncode (syn.mss.setWidth 32) syn.windowScale syn.sackPermitted syn.timestamp.isSome ||| extra)
  match c.free with
  | [] =>
    let e := filled a l from_ syn (cookie 0)
    ⟨c, [.synAck peer (stateless (a.path e) l.request syn (cookie 0))], true⟩
  | i :: free =>
    let c := c.link i free (filled a l from_ syn (cookie dataMax))
    if socketReady l.socket then c.answer a l i else c.silent

/-- The queue limit of `_nx_tcp_syncache_syn_received`: the oldest unanswered SYN makes room. --/
def record (c : Cache) : Result :=
  if ¬socketReady l.socket ∧ c.free ≠ [] ∧
      c.deferredCount l.port + c.acceptQueued l.port ≥ l.queueMaximum then
    match c.oldestDeferred l.port with
    | none => c.silent
    | some i => (c.release i).add a l from_ syn
  else c.add a l from_ syn

/-- `_nx_tcp_syncache_syn_received` --/
def synReceived (c : Cache) : Result :=
  if ¬c.initialized ∨ ¬from_.live ∨ ¬from_.welcome then c.silent
  else match c.find ⟨from_.source, from_.port, l.port⟩ with
    | none => c.record a l from_ syn
    | some i =>
      let e := c.entry i
      if e.state = .synReceived ∧ e.terms.irs = syn.irs then c.sendSynack a i
      else if e.state = .deferred ∧ e.terms.irs = syn.irs then
        if socketReady l.socket then c.answer a l i else (c.write i { e with time := a.now }).silent
      else if e.state = .established then c.silent
      else (c.release i).record a l from_ syn

end

/-! ### An ACK -/

section
variable (a : Around) (l : Listener) (from_ : Arrival) (g : Segment)

/-- `_nx_tcp_syncache_queued_segment`: a segment for a handshake nobody has accepted. --/
def queuedSegment (c : Cache) (i : Nat) : Result :=
  let e := c.entry i
  let offset := g.sequence - (e.terms.irs + 1)
  let limit := if e.terms.rxWindow ≠ 0 then e.terms.rxWindow else 1
  if g.acknowledgment ≠ e.terms.iss + 1 ∨ offset ≥ limit then c.silent
  else
    let c := c.write i { e with terms := { e.terms with peerWindow := g.window } }
    if g.length ≠ 0 ∨ g.fin then ⟨c, [.ack e.peer (e.terms.iss + 1) (e.terms.irs + 1) 0], true⟩ else c.silent

/-- `_nx_tcp_syncache_acceptable` --/
def acceptable (e : Entry) : Bool :=
  let length := g.length + if g.fin then 1 else 0
  let window := e.terms.rxWindow
  let start := g.sequence - (e.terms.irs + 1)
  if length = 0 then if window = 0 then start = 0 else start < window
  else if window = 0 then false
  else start < window ∨ start + length - 1 < window

/-- `_nx_tcp_syncache_unacceptable` --/
def unacceptable (e : Entry) : List Reply :=
  if ¬acceptable g e then [.ack e.peer (e.terms.iss + 1) (e.terms.irs + 1) e.terms.rxWindow]
  else if g.acknowledgment ≠ e.terms.iss + 1 then [.rst e.peer g.acknowledgment]
  else []

/-- What becomes of a finished handshake: a socket takes it, or it waits for one, or it is reset. --/
def finish (final : Entry) (c : Cache) : Result :=
  if socketReady l.socket then ⟨c, [.handOver final], true⟩
  else match c.free with
    | [] => ⟨c, [.rst final.peer (final.terms.iss + 1)], true⟩
    | i :: free =>
      if c.acceptCount ≥ acceptMax ∨ c.acceptQueued l.port ≥ l.queueMaximum then
        ⟨c, [.rst final.peer (final.terms.iss + 1)], true⟩
      else (c.linkAccept i free { final with state := .established, time := a.now }).silent

/-- The acknowledgment of a cookie: the entry that was never kept. --/
def fromCookie (data : ULONG) : Entry :=
  let e : Entry :=
    { state := .free
      peer := ⟨from_.source, from_.port, l.port⟩
      interface := from_.interface
      ipv6Addr := match from_.source with
        | .v4 _ => none
        | .v6 .. => from_.ipv6Addr
      terms := Entry.cleared.terms
      time := a.now
      retries := 0 }
  { e with terms :=
    rebuilt (a.path e) l.request data (g.sequence - 1) (g.acknowledgment - 1) g.window g.timestamp }

/-- `_nx_tcp_syncache_ack_received` --/
def ackReceived (c : Cache) : Result :=
  if ¬c.initialized then ⟨c, [], false⟩
  else if ¬from_.live then c.silent
  else
    let peer : Peer := ⟨from_.source, from_.port, l.port⟩
    match c.find peer with
    | some i =>
      let e := c.entry i
      if e.state = .established then c.queuedSegment g i
      else if e.state = .deferred then c.silent
      else if g.acknowledgment ≠ e.terms.iss + 1 ∨ g.sequence ≠ e.terms.irs + 1 then ⟨c, unacceptable g e, true⟩
      else
        let tsRecent := if e.terms.timestamp then g.timestamp.getD e.terms.tsRecent else e.terms.tsRecent
        let e := { e with terms := { e.terms with peerWindow := g.window, tsRecent := tsRecent } }
        ((c.write i e).release i).finish a l e
    | none =>
      match cookieCheck syncacheHash c.key (tuple peer from_.destination) (g.sequence - 1) (counter a.now)
          (g.acknowledgment - 1) with
      | none => ⟨c, [], false⟩
      | some data => c.finish a l (fromCookie a l from_ g data)

end

/-! ### The other operations -/

/-- A released entry had been answered: the next SYN of its port may be. --/
def answerNext (a : Around) (port : ULONG) (answered : Bool) (c : Cache) : Result :=
  if answered then
    match a.listeners.find? fun l => l.port == port with
    | none => c.silent
    | some l => c.answerDeferred a l
  else c.silent

/-- `_nx_tcp_syncache_reset_received` --/
def resetReceived (a : Around) (peer : Peer) (sequence : ULONG) (c : Cache) : Result :=
  if ¬c.initialized then c.silent
  else match c.find peer with
    | none => c.silent
    | some i =>
      if sequence ≠ (c.entry i).terms.irs + 1 then c.silent
      else (c.release i).answerNext a peer.localPort ((c.entry i).state == .synReceived)

/-- `_nx_tcp_syncache_deliver` --/
def deliver (l : Listener) (c : Cache) : Result :=
  if ¬c.initialized then ⟨c, [], false⟩
  else match c.accept.find? fun i => (c.entry i).peer.localPort == l.port with
    | none => ⟨c, [], false⟩
    | some i => ⟨c.release i, [.handOver (c.entry i)], true⟩

/-- One entry of a walk that releases what `hit` picks, with `rst` where the peer is told. The walk reads the next entry
    before this one leaves its list. --/
def flushEntry (hit : Entry → Bool) (rst : Bool) (r : Result) (i : Nat) : Result :=
  let e := r.cache.entry i
  if hit e then
    ⟨r.cache.release i, r.replies ++ if rst then [.rst e.peer (e.terms.iss + 1)] else [], true⟩
  else r

/-- `_nx_tcp_syncache_flush` --/
def flush (port : ULONG) (c : Cache) : Result :=
  if ¬c.initialized then c.silent
  else
    let r := c.accept.foldl (flushEntry (·.peer.localPort == port) true) c.silent
    r.cache.age.foldl (flushEntry (·.peer.localPort == port) false) r

/-- `_nx_tcp_syncache_interface_flush` --/
def interfaceFlush (interface ipv6Address : Option Nat) (c : Cache) : Result :=
  let hit := fun e : Entry => (interface.isSome && e.interface == interface) ||
    (ipv6Address.isSome && e.ipv6Addr == ipv6Address)
  if ¬c.initialized then c.silent
  else
    let r := c.age.foldl (flushEntry hit false) c.silent
    r.cache.accept.foldl (flushEntry hit false) r

/-- One entry of the first walk of `_nx_tcp_syncache_periodic`. --/
def ageEntry (a : Around) (r : Result) (i : Nat) : Result :=
  let e := r.cache.entry i
  let age := a.now - e.time
  if age ≥ cacheTimeout then
    let next := (r.cache.release i).answerNext a e.peer.localPort (e.state == .synReceived)
    next.after r.replies
  else if e.state = .synReceived ∧ e.retries < 3 ∧ age ≥ retryLadder.getD e.retries 0 * periodicRate then
    ((r.cache.write i { e with retries := e.retries + 1 }).sendSynack a i).after r.replies
  else r

/-- `_nx_tcp_syncache_periodic` --/
def periodic (a : Around) (c : Cache) : Result :=
  if ¬c.initialized then c.silent
  else
    let r := c.age.foldl (ageEntry a) c.silent
    r.cache.accept.foldl (flushEntry (fun e => a.now - e.time ≥ acceptTimeout) true) r

end Cache

/-! ### The cache as a system -/

inductive CacheAction where
  | syn (a : Around) (l : Listener) (from_ : Arrival) (syn : Syn)
  | ack (a : Around) (l : Listener) (from_ : Arrival) (g : Segment)
  | reset (a : Around) (peer : Peer) (sequence : ULONG)
  /-- A segment goes to a socket that has the connection: `_nx_tcp_syncache_hold`, which does not touch the cache. --/
  | held
  | periodic (a : Around)
  | deliver (l : Listener)
  | answerDeferred (a : Around) (l : Listener)
  | flush (port : ULONG)
  | interfaceFlush (interface ipv6Address : Option Nat)

def cacheStep (c : Cache) : CacheAction → Cache
  | .syn a l from_ syn => (c.synReceived a l from_ syn).cache
  | .ack a l from_ g => (c.ackReceived a l from_ g).cache
  | .reset a peer sequence => (c.resetReceived a peer sequence).cache
  | .held => c
  | .periodic a => (c.periodic a).cache
  | .deliver l => (c.deliver l).cache
  | .answerDeferred a l => (c.answerDeferred a l).cache
  | .flush port => (c.flush port).cache
  | .interfaceFlush interface ipv6Address => (c.interfaceFlush interface ipv6Address).cache

end Netxduo.Syncache
