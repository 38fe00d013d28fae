import Netxduo.Tcp.Opened
import Netxduo.Tcp.Steps

/-! The octets a socket has received, over whole runs: they are counted by `rxSequence`, and the receive queue
    stays in order behind them. -/

namespace Netxduo
open Serial Spans Runs

/-! ### The received stream -/

/-- The packets marked ready. --/
def Receive.readyPackets (r : Receive) : List Packet := r.receiveQueue.filter (·.ready)

def Receive.pendingPackets (r : Receive) : List Packet := r.receiveQueue.filter (!·.ready)

namespace Socket

/-- The octets handed to the application, and the ones queued without a gap behind them. --/
def received (s : Socket) : List UInt8 := octetsOf s.handed ++ octetsOf s.rcv.readyPackets

/-- The sequence number behind the received octets. --/
def receivedEnd (irs : ULONG) (s : Socket) : ULONG := irs + 1 + BitVec.ofNat 32 s.received.length

/-- A connection just established: nothing is received, sent or handed out yet. `irs` is the initial sequence
    number of the peer. --/
structure Established (irs : ULONG) (s : Socket) : Prop where
  state : s.state = .established
  rxSequence : s.rcv.rxSequence = irs + 1
  finReceived : s.rcv.finReceived = false
  queue : s.rcv.receiveQueue = []
  count : s.rcv.receiveQueueCount = 0
  head : s.rcv.receiveQueueHead = none
  tail : s.rcv.receiveQueueTail = none
  window : s.rcv.rxWindowCurrent.toNat ≤ s.rcv.rxWindowDefault.toNat
  bound : s.rcv.rxWindowDefault.toNat < 2 ^ 30
  handed : s.handed = []
  wire : s.wire = []

end Socket

section
variable {ip : Ip} {irs d : ULONG} {s t : Socket} {r : Receive} {cut fin fin' : Bool}
  {arrived ready pending ready' pending' out front : List Packet}

theorem Receiving.readyPackets (h : Receiving ip d r ready pending) : r.readyPackets = ready := by
  have h₁ : ready.filter (·.ready) = ready := List.filter_eq_self.mpr h.content.isReady
  have h₂ : pending.filter (·.ready) = [] := by
    rw [List.filter_eq_nil_iff]
    intro p hp
    rw [h.content.notReady p hp]
    decide
  rw [Receive.readyPackets, h.queue, List.filter_append, h₁, h₂, List.append_nil]

theorem Receiving.pendingPackets (h : Receiving ip d r ready pending) : r.pendingPackets = pending := by
  have h₁ : ready.filter (!·.ready) = [] := by
    rw [List.filter_eq_nil_iff]
    intro p hp
    rw [h.content.isReady p hp]
    decide
  have h₂ : pending.filter (!·.ready) = pending := by
    rw [List.filter_eq_self]
    intro p hp
    rw [h.content.notReady p hp]
    rfl
  rw [Receive.pendingPackets, h.queue, List.filter_append, h₁, h₂, List.nil_append]

/-! ### The invariant -/

/-- `rxSequence` counts the received octets, and the FIN of the peer where `fin` says that it is taken. --/
structure Receives (ip : Ip) (irs : ULONG) (s : Socket) (fin : Bool) : Prop where
  receiving : Receiving ip (s.receivedEnd irs) s.rcv s.rcv.readyPackets s.rcv.pendingPackets
  rxSequence : s.rcv.rxSequence = irs + 1 + BitVec.ofNat 32 (s.received.length + fin.toNat)
  state : s.state.connected → s.state.finTaken = fin

theorem opened_established (irs iss txWindow : ULONG) {rxWindow : ULONG} (h : rxWindow.toNat < 2 ^ 30) :
    (Socket.opened irs iss rxWindow txWindow).Established irs :=
  ⟨rfl, rfl, rfl, rfl, rfl, rfl, rfl, Nat.le_refl _, h, rfl, rfl⟩

theorem fresh_opened {irs iss rxWindow txWindow : ULONG} {p : Packet} (hp : p.WellFormed) (reads : Nat) :
    (Action.segment p reads).Fresh (.opened irs iss rxWindow txWindow) := by
  intro q hq
  cases List.mem_singleton.mp hq
  exact ⟨hp, nofun⟩

theorem Socket.Established.received (h : s.Established irs) : s.received = [] := by
  rw [Socket.received, Receive.readyPackets, h.handed, h.queue]
  rfl

theorem Socket.Established.receives (h : s.Established irs) : Receives ip irs s false := by
  have hready : s.rcv.readyPackets = [] := by rw [Receive.readyPackets, h.queue, List.filter_nil]
  have hpending : s.rcv.pendingPackets = [] := by rw [Receive.pendingPackets, h.queue, List.filter_nil]
  have hlinked : Linked s.rcv := by
    refine ⟨?_, ?_, ?_, ?_⟩
    · rw [h.count, h.queue]
      rfl
    · rw [h.head, h.queue]
      rfl
    · rw [h.tail, h.queue]
      rfl
    · rw [h.queue]
      exact List.nodup_nil
  refine ⟨⟨hlinked, ?_, ?_, ?_⟩, ?_, ?_⟩
  · rw [hready, hpending, h.queue]
    rfl
  · rw [hready, hpending]
    refine ⟨⟨nofun, nofun, nofun, rfl, ⟨nofun, Int.natCast_nonneg _⟩, ?_, h.bound⟩, nofun⟩
    simpa using h.window
  · intro _
    rw [h.queue]
    exact Nat.zero_le _
  · rw [h.received, h.rxSequence]
    simp
  · intro _
    rw [h.state]
    rfl

/-- While the FIN is not taken, the contiguous data ends at `rxSequence`. --/
theorem Receives.receivedEnd (h : Receives ip irs s fin) :
    s.rcv.rxSequence = s.receivedEnd irs + BitVec.ofNat 32 fin.toNat := by
  rw [h.rxSequence, Socket.receivedEnd, BitVec.ofNat_add, BitVec.add_assoc (irs + 1)]

theorem Receives.hears (h : Receives ip irs s fin)
    (hh : Hears cut arrived s s.rcv.readyPackets s.rcv.pendingPackets t ready' pending' out front fin')
    (hr : Receiving ip (s.receivedEnd irs + BitVec.ofNat 32 (octetsOf front).length) t.rcv ready' pending') :
    t.received = s.received ++ octetsOf front ∧ Receives ip irs t (fin || fin') := by
  have hready := hr.readyPackets
  have hpending := hr.pendingPackets
  subst hready hpending
  have hrec : t.received = s.received ++ octetsOf front := by
    have hoct := congrArg octetsOf hh.ready
    rw [octetsOf_append, octetsOf_append, octetsOf_markReady] at hoct
    rw [Socket.received, Socket.received, hh.handed, octetsOf_append, List.append_assoc, hoct, List.append_assoc]
  have hend : t.receivedEnd irs = s.receivedEnd irs + BitVec.ofNat 32 (octetsOf front).length := by
    rw [Socket.receivedEnd, hrec, List.length_append, BitVec.ofNat_add, ← BitVec.add_assoc]
    rfl
  -- the FIN is taken at most once, and no packet moves behind it
  have hstay : front ≠ [] ∨ fin' = true → fin = false := by
    intro hne
    obtain ⟨hc, hf⟩ := hh.receptive hne
    rw [← h.state hc, hf]
  refine ⟨hrec, ⟨hend ▸ hr, ?_, ?_⟩⟩
  · have hnat : s.received.length + fin.toNat + ((octetsOf front).length + fin'.toNat) =
        (s.received ++ octetsOf front).length + (fin || fin').toNat := by
      rw [List.length_append]
      cases fin with
      | false =>
        rw [Bool.false_or, Bool.toNat_false]
        omega
      | true =>
        have hno : ¬(front ≠ [] ∨ fin' = true) := fun hne => nomatch hstay hne
        rw [not_or, not_not] at hno
        obtain ⟨hnil, hfin⟩ := hno
        rw [Bool.not_eq_true] at hfin
        rw [hnil, hfin]
        rfl
    rw [hh.rxSequence, h.rxSequence, hrec, ← hnat, BitVec.add_assoc (irs + 1), ← BitVec.ofNat_add]
  · intro hc
    obtain ⟨hc', hf⟩ := hh.state hc
    rw [hf, h.state hc']

/-- A step hears its segment, and receives on. --/
theorem Receives.next (h : Receives ip irs s fin) (a : Action) (ha : a.Fresh s) :
    ∃ out front fin', Hears (a.cut ip s) a.arrived s s.rcv.readyPackets s.rcv.pendingPackets (step ip s a)
        (step ip s a).rcv.readyPackets (step ip s a).rcv.pendingPackets out front fin' ∧
      (step ip s a).received = s.received ++ octetsOf front ∧ Receives ip irs (step ip s a) (fin || fin') := by
  obtain ⟨ready', pending', out, front, fin', hh, hr⟩ := step_hears a h.receiving (by
    intro hc hf
    rw [h.state hc] at hf
    rw [h.receivedEnd, hf, Bool.toNat_false, BitVec.add_zero]) ha
  have hready := hr.readyPackets
  have hpending := hr.pendingPackets
  subst hready hpending
  exact ⟨out, front, fin', hh, h.hears hh hr⟩

/-- Over a run, the socket receives on. --/
theorem receives_of_run {s₀ : Socket} {actions : List Action} (hs₀ : s₀.Established irs)
    (h : Run (step ip) (fun s a => a.Fresh s) s₀ actions s) : ∃ fin, Receives ip irs s fin := by
  refine h.invariant (P := fun _ s => ∃ fin, Receives ip irs s fin) ⟨false, hs₀.receives⟩ ?_
  rintro actions s a ⟨fin, hr⟩ ha
  obtain ⟨out, front, fin', -, -, hr'⟩ := hr.next a ha
  exact ⟨_, hr'⟩

/-! ### The queue in order -/

/-- The receive queue as it should be, seen from the end `d` of the contiguous data: linked, ascending, free of
    overlap, between the first octet that is not handed out and the right edge of the window; the packets
    marked ready come first and end at `d`, and a gap stands in front of the others. --/
structure Receive.InOrder (r : Receive) (d : ULONG) : Prop where
  count : r.receiveQueueCount.toNat = r.receiveQueue.length
  head : r.receiveQueueHead = (r.receiveQueue.map (·.addr)).head?
  tail : r.receiveQueueTail = (r.receiveQueue.map (·.addr)).getLast?
  wf : ∀ p ∈ r.receiveQueue, p.WellFormed
  ordered : Ordered (-(octetsOf r.readyPackets).length) (spans d r.receiveQueue) r.rxWindowCurrent.toNat
  split : r.receiveQueue = r.readyPackets ++ r.pendingPackets
  tiles : Tiles (-(octetsOf r.readyPackets).length) (spans d r.readyPackets) 0
  gap : ∀ p ∈ r.pendingPackets, 0 < p.lo d

theorem Receiving.inOrder (h : Receiving ip d r ready pending) : r.InOrder d := by
  have hready := h.readyPackets
  have hpending := h.pendingPackets
  subst hready hpending
  refine ⟨h.count, h.head, h.tail, ?_, ?_, h.queue, h.content.tiles, h.content.gap⟩
  · intro p hp
    rw [h.queue] at hp
    rcases List.mem_append.mp hp with hp | hp
    · exact h.content.wf p hp
    · exact h.content.within.wf p hp
  · rw [h.queue, spans_append, ordered_append]
    exact ⟨0, h.content.tiles.ordered, h.content.within.ordered⟩

/-- After any segments and any reads the queue is in order. The packets marked ready end at `rxSequence`, less
    the FIN once the peer has closed. --/
theorem receiveQueue_inOrder {s₀ : Socket} {actions : List Action} (hs₀ : s₀.Established irs)
    (h : Run (step ip) (fun s a => a.Fresh s) s₀ actions s) :
    s.rcv.InOrder (s.receivedEnd irs) ∧
      (s.state.connected →
        s.rcv.rxSequence = s.receivedEnd irs + BitVec.ofNat 32 s.state.finTaken.toNat) := by
  obtain ⟨fin, hr⟩ := receives_of_run hs₀ h
  refine ⟨hr.receiving.inOrder, fun hc => ?_⟩
  rw [hr.receivedEnd, hr.state hc]

/-- A segment behind a gap waits; the initial sequence number wraps right behind it. --/
theorem receiveQueue_inOrder_gap :
    let p := Packet.plain 1 0 1 tcpAckBit [7, 8]
    let s := step .ideal (.opened (-3) 0 1000 1000) (.segment p 0)
    s.rcv.InOrder (s.receivedEnd (-3)) ∧ s.rcv.pendingPackets.map Packet.octets = [[7, 8]] := by
  have hs₀ : (Socket.opened (-3) 0 1000 1000).Established (-3) := opened_established _ _ _ (by decide)
  exact ⟨(receiveQueue_inOrder hs₀ (.single (fresh_opened ⟨by decide, by decide⟩ 0))).1, by decide⟩

end

end Netxduo
