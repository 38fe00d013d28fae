import Netxduo.Syncache.Hold
import Netxduo.Tcp.BlindSegments

/-! What the SYN cache keeps for a socket that waits for `accept`: few segments, in sequence, none of them lost or seen
    twice, and none of them acknowledged. -/

namespace Netxduo.Syncache
open Runs

/-! ### The order of what is kept -/

/-- The octets behind the headers. --/
def heldOctets (queue : List Packet) : Nat := (queue.map fun p => (payload p).toNat).sum

/-- Every segment continues the ones before it, from `next` on; a FIN ends them, and so does a RST, which carries
    `rx` and no octets. --/
def Ordered (rx : ULONG) : ULONG → List Packet → Prop
  | _, [] => True
  | next, p :: rest =>
    if p.header.has tcpRstBit then p.header.sequenceNumber = rx ∧ payload p = 0 ∧ rest = []
    else p.header.sequenceNumber = next ∧ (p.header.has tcpFinBit = true → rest = []) ∧
      Ordered rx (next + payload p) rest

theorem heldOctets_append (queue : List Packet) (p : Packet) :
    heldOctets (queue ++ [p]) = heldOctets queue + (payload p).toNat := by
  rw [heldOctets, heldOctets, List.map_append, List.sum_append]
  simp

theorem heldData_eq (queue : List Packet) : heldData queue = BitVec.ofNat 32 (heldOctets queue) := by
  induction queue with
  | nil => rfl
  | cons p rest ih =>
    have hcons : heldData (p :: rest) = payload p + heldData rest := List.sum_cons
    have hcons' : heldOctets (p :: rest) = (payload p).toNat + heldOctets rest := List.sum_cons
    rw [hcons, ih, hcons', BitVec.ofNat_add, BitVec.ofNat_toNat, BitVec.setWidth_eq]

/-- What continues the list may be put behind it, as long as the list has no end. --/
theorem Ordered.append {rx : ULONG} {p : Packet} {queue : List Packet} {next : ULONG} (h : Ordered rx next queue)
    (hopen : queue.any closes = false)
    (hp : if p.header.has tcpRstBit then p.header.sequenceNumber = rx ∧ payload p = 0
      else p.header.sequenceNumber = next + heldData queue) : Ordered rx next (queue ++ [p]) := by
  induction queue generalizing next with
  | nil =>
    have hzero : next + heldData [] = next := BitVec.add_zero next
    rw [hzero] at hp
    show Ordered rx next [p]
    unfold Ordered
    split
    · rename_i hrst
      rw [if_pos hrst] at hp
      exact ⟨hp.1, hp.2, rfl⟩
    · rename_i hrst
      rw [if_neg hrst] at hp
      exact ⟨hp, fun _ => rfl, trivial⟩
  | cons q rest ih =>
    rw [List.any_cons, Bool.or_eq_false_iff] at hopen
    obtain ⟨hq, hrest⟩ := hopen
    rw [closes, Bool.or_eq_false_iff] at hq
    obtain ⟨hfin, hrst⟩ := hq
    have hcons : heldData (q :: rest) = payload q + heldData rest := List.sum_cons
    rw [Ordered, if_neg (by simp [hrst])] at h
    obtain ⟨hseq, -, hrec⟩ := h
    show Ordered rx next (q :: (rest ++ [p]))
    rw [Ordered, if_neg (by simp [hrst])]
    refine ⟨hseq, fun hf => absurd (hfin.symm.trans hf) Bool.false_ne_true, ih hrec hrest ?_⟩
    rw [hcons, ← BitVec.add_assoc] at hp
    exact hp

/-- A RST is the last. --/
theorem Ordered.reset_last {rx : ULONG} {pre post : List Packet} {p : Packet} {next : ULONG}
    (h : Ordered rx next (pre ++ p :: post)) (hrst : p.header.has tcpRstBit = true) : post = [] := by
  induction pre generalizing next with
  | nil =>
    rw [List.nil_append, Ordered, if_pos hrst] at h
    exact h.2.2
  | cons q pre ih =>
    rw [List.cons_append, Ordered] at h
    split at h
    · exact absurd h.2.2 (by simp)
    · exact ih h.2.2

/-! ### The invariant -/

/-- What is kept for a connection nobody has accepted. --/
def Holding.kept (h : Holding) : List Packet := if h.accepted then [] else h.socket.rcv.receiveQueue

/-- The segments that arrived are kept, released or given to the socket, each of them once; what is kept is little, in
    sequence and inside the window of the SYN-ACK; and nothing of it has been acknowledged. --/
structure Conserved (ip : Ip) (start h : Holding) : Prop where
  few : h.kept.length ≤ holdSegments.toNat
  window : heldOctets h.kept ≤ h.offered.toNat
  once : ((h.kept ++ h.released ++ h.processed).map (·.addr)).Perm (h.arrived.map (·.addr))
  orderedKept : Ordered start.socket.rcv.rxSequence start.socket.rcv.rxSequence h.kept
  ordered : Ordered start.socket.rcv.rxSequence start.socket.rcv.rxSequence h.processed
  reset : ∀ pre p post, h.processed = pre ++ p :: post → p.header.has tcpRstBit = true → post = []
  silent : h.accepted = false → h.socket.wire = start.socket.wire
  opens : h.accepted = false → h.awaitingAccept = true → ∃ sent, (acceptOpen ip h).wire = start.socket.wire ++ sent ∧
    ∀ g ∈ sent, g.acknowledgmentNumber = start.socket.rcv.rxSequence

/-- A segment lies in the window of the SYN-ACK, unless it is a RST; and `accept` is not called for a connection that is
    gone while segments of it are kept. --/
def HoldAction.Fair (h : Holding) : HoldAction → Prop
  | .segment p => h.awaitingAccept = true → p.header.has tcpRstBit = false →
    (p.header.sequenceNumber - h.socket.rcv.rxSequence).toNat + (payload p).toNat ≤ h.offered.toNat
  | .accept _ _ => h.accepted = false → h.awaitingAccept = false → h.socket.rcv.receiveQueue = []
  | .unaccept | .detach => True

/-- The invariant of the wait. --/
structure Waits (start h : Holding) : Prop where
  offered : h.offered = start.offered
  rxSequence : h.accepted = false → h.awaitingAccept = true → h.socket.rcv.rxSequence = start.socket.rcv.rxSequence
  count : h.accepted = false → h.socket.rcv.receiveQueueCount.toNat = h.socket.rcv.receiveQueue.length
  few : h.kept.length ≤ holdSegments.toNat
  window : heldOctets h.kept ≤ h.offered.toNat
  once : ((h.kept ++ h.released ++ h.processed).map (·.addr)).Perm (h.arrived.map (·.addr))
  orderedKept : Ordered start.socket.rcv.rxSequence start.socket.rcv.rxSequence h.kept
  fresh : h.accepted = false → h.processed = []
  ordered : Ordered start.socket.rcv.rxSequence start.socket.rcv.rxSequence h.processed
  silent : h.accepted = false → h.socket.wire = start.socket.wire

section
variable {ip : Ip} {start h : Holding}

theorem kept_of_waiting (h : Holding) (hw : h.accepted = false) : h.kept = h.socket.rcv.receiveQueue := by
  rw [Holding.kept, hw]
  rfl

theorem waits_start (hstart : start.accepted = false) (hempty : start.socket.rcv.receiveQueue = [])
    (hcount : start.socket.rcv.receiveQueueCount = 0) (harrived : start.arrived = []) (hreleased : start.released = [])
    (hprocessed : start.processed = []) : Waits start start := by
  have hkept := (kept_of_waiting start hstart).trans hempty
  refine ⟨rfl, fun _ _ => rfl, fun _ => by rw [hcount, hempty]; rfl, by rw [hkept]; exact Nat.zero_le _,
    by rw [hkept]; exact Nat.zero_le _, by rw [hkept, harrived, hreleased, hprocessed]; exact .refl _,
    by rw [hkept]; trivial, fun _ => hprocessed, by rw [hprocessed]; trivial, fun _ => rfl⟩

theorem payload_holdTrim (p : Packet) :
    payload (holdTrim p) = if p.header.has tcpRstBit then 0 else payload p := by
  unfold holdTrim
  by_cases hrst : p.header.has tcpRstBit = true
  · rw [if_pos hrst]
    split
    · rw [payload, if_neg (BitVec.lt_irrefl _)]
    · rename_i h
      by_contra hne
      exact h ⟨hrst, hne⟩
  · rw [if_neg hrst, if_neg fun h => hrst h.1]

theorem header_holdTrim (p : Packet) : (holdTrim p).header = p.header ∧ (holdTrim p).addr = p.addr := by
  unfold holdTrim
  split
  · exact ⟨rfl, rfl⟩
  · exact ⟨rfl, rfl⟩

/-- A segment that is released leaves everything else. --/
theorem Waits.release (h₀ : Waits start h) (hw : h.accepted = false) (p : Packet) :
    Waits start { h with arrived := h.arrived ++ [p], released := h.released ++ [p] } := by
  have hkept : Holding.kept { h with arrived := h.arrived ++ [p], released := h.released ++ [p] } = h.kept := rfl
  refine ⟨h₀.offered, h₀.rxSequence, h₀.count, h₀.few, h₀.window, ?_, h₀.orderedKept, h₀.fresh, h₀.ordered, h₀.silent⟩
  have hnone : h.processed = [] := h₀.fresh hw
  have honce := h₀.once
  rw [hkept]
  simp only [hnone, List.append_nil, List.map_append] at honce ⊢
  rw [← List.append_assoc]
  exact honce.append_right _

/-- A segment that is kept goes behind what is there. --/
theorem Waits.keep (h₀ : Waits start h) (hw : h.accepted = false) (haccept : h.awaitingAccept = true) {p : Packet}
    (hfair : HoldAction.Fair h (.segment p)) (hvalid : holdValid h.socket p = true)
    (hroom : h.socket.rcv.receiveQueueCount < holdSegments) : Waits start (syncacheHold h p) := by
  obtain ⟨hheader, haddr⟩ := header_holdTrim p
  have hcount := h₀.count hw
  have hrx := h₀.rxSequence hw haccept
  have hqueue := kept_of_waiting h hw
  have hopen : h.socket.rcv.receiveQueue.any closes = false := by
    simp only [holdValid, Bool.and_eq_true, Bool.not_eq_true'] at hvalid
    exact hvalid.1
  have hnext : if p.header.has tcpRstBit then p.header.sequenceNumber = h.socket.rcv.rxSequence
      else p.header.sequenceNumber = h.socket.rcv.rxSequence + heldData h.socket.rcv.receiveQueue := by
    simp only [holdValid, Bool.and_eq_true] at hvalid
    obtain ⟨-, hvalid⟩ := hvalid
    split
    · rename_i hrst
      simpa [hrst] using hvalid
    · rename_i hrst
      rw [if_neg hrst] at hvalid
      simp only [Bool.and_eq_true, beq_iff_eq] at hvalid
      exact hvalid.1.1.2
  have hlength : h.socket.rcv.receiveQueue.length < holdSegments.toNat := by
    rw [← hcount]
    exact hroom
  have hhold : syncacheHold h p = { h with
      arrived := h.arrived ++ [p]
      socket := { h.socket with rcv := { h.socket.rcv with
        receiveQueue := h.socket.rcv.receiveQueue ++ [holdTrim p]
        receiveQueueHead := if h.socket.rcv.receiveQueueCount = 0 then some p.addr else h.socket.rcv.receiveQueueHead
        receiveQueueTail := some p.addr
        receiveQueueCount := h.socket.rcv.receiveQueueCount + 1 } } } := by
    unfold syncacheHold
    rw [if_neg]
    rintro (hno | hfull)
    · exact Bool.false_ne_true (hno.symm.trans hvalid)
    · exact BitVec.not_lt.mpr hfull hroom
  have hkept : (syncacheHold h p).kept = h.socket.rcv.receiveQueue ++ [holdTrim p] := by
    rw [hhold]
    exact kept_of_waiting _ hw
  have hwindow := h₀.window
  rw [hqueue] at hwindow
  have hbound : heldOctets h.socket.rcv.receiveQueue + (payload (holdTrim p)).toNat ≤ h.offered.toNat := by
    rw [payload_holdTrim]
    split
    · exact hwindow
    · rename_i hrst
      rw [if_neg hrst] at hnext
      have hle := hfair haccept (by simpa using hrst)
      have hoffset : (p.header.sequenceNumber - h.socket.rcv.rxSequence).toNat = heldOctets h.socket.rcv.receiveQueue := by
        have hlt := h.offered.isLt
        rw [hnext, BitVec.add_comm, BitVec.add_sub_cancel, heldData_eq, BitVec.toNat_ofNat, Nat.mod_eq_of_lt (by omega)]
      rw [hoffset] at hle
      exact hle
  refine ⟨?_, ?_, ?_, ?_, ?_, ?_, ?_, ?_, ?_, ?_⟩
  · rw [hhold]
    exact h₀.offered
  · intro _ _
    rw [hhold]
    exact hrx
  · intro _
    rw [hhold]
    have hten : holdSegments.toNat = 10 := rfl
    simp only [List.length_append, List.length_singleton, BitVec.toNat_add, hcount]
    rw [Nat.mod_eq_of_lt]
    · rfl
    · have : (1 : ULONG).toNat = 1 := rfl
      omega
  · rw [hkept, List.length_append]
    exact hlength
  · rw [hkept, heldOctets_append, hhold]
    exact hbound
  · have honce := h₀.once
    rw [hqueue, h₀.fresh hw] at honce
    rw [hkept, hhold]
    simp only [h₀.fresh hw, List.append_nil, List.map_append, List.map_cons, List.map_nil, haddr] at honce ⊢
    rw [List.append_assoc]
    refine (List.Perm.append_left _ List.perm_append_comm).trans ?_
    rw [← List.append_assoc]
    exact honce.append_right _
  · rw [hkept]
    have hordered := h₀.orderedKept
    rw [hqueue] at hordered
    refine hordered.append hopen ?_
    rw [hheader, payload_holdTrim, ← hrx]
    split
    · rename_i hrst
      rw [if_pos hrst] at hnext
      exact ⟨hnext, rfl⟩
    · rename_i hrst
      rw [if_neg hrst] at hnext
      exact hnext
  · intro _
    rw [hhold]
    exact h₀.fresh hw
  · rw [hhold]
    exact h₀.ordered
  · intro _
    rw [hhold]
    exact h₀.silent hw

theorem waits_hold (h₀ : Waits start h) (hw : h.accepted = false) (haccept : h.awaitingAccept = true) {p : Packet}
    (hfair : HoldAction.Fair h (.segment p)) : Waits start (syncacheHold h p) := by
  by_cases hno : holdValid h.socket p = false ∨ h.socket.rcv.receiveQueueCount ≥ holdSegments
  · have hhold : syncacheHold h p = { h with arrived := h.arrived ++ [p], released := h.released ++ [p] } := by
      unfold syncacheHold
      rw [if_pos hno]
    rw [hhold]
    exact h₀.release hw p
  · rw [not_or, Bool.not_eq_false] at hno
    obtain ⟨hvalid, hroom⟩ := hno
    exact h₀.keep hw haccept hfair hvalid (BitVec.not_le.mp hroom)

/-- `accept` gives the socket all that is kept. --/
theorem waits_accept (h₀ : Waits start h) (hw : h.accepted = false) (ip : Ip) (reads : Nat → Nat) :
    Waits start (syncacheAccept ip reads h) := by
  have hkept : (syncacheAccept ip reads h).kept = [] := rfl
  have hqueue := kept_of_waiting h hw
  have hfresh := h₀.fresh hw
  refine ⟨h₀.offered, nofun, nofun, ?_, ?_, ?_, ?_, nofun, ?_, nofun⟩
  · rw [hkept]
    exact Nat.zero_le _
  · rw [hkept]
    exact Nat.zero_le _
  · have honce := h₀.once
    rw [hqueue, hfresh] at honce
    rw [hkept]
    simp only [syncacheAccept, hfresh, List.nil_append, List.append_nil, List.map_append] at honce ⊢
    exact List.perm_append_comm.trans honce
  · rw [hkept]
    trivial
  · have hordered := h₀.orderedKept
    rw [hqueue] at hordered
    simpa only [syncacheAccept, hfresh, List.nil_append] using hordered

/-- Where nothing is kept any more, the rest may change. --/
theorem Waits.leave (h₀ : Waits start h) (hw : h.accepted = false) {t : Holding} (haccepted : t.accepted = false)
    (hoffered : t.offered = h.offered) (harrived : t.arrived = h.arrived) (hprocessed : t.processed = h.processed)
    (hreleased : t.released = h.released ++ h.socket.rcv.receiveQueue) (hempty : t.socket.rcv.receiveQueue = [])
    (hcount : t.socket.rcv.receiveQueueCount = 0) (haway : t.awaitingAccept = false)
    (hwire : t.socket.wire = h.socket.wire) : Waits start t := by
  have hkept : t.kept = [] := (kept_of_waiting t haccepted).trans hempty
  have hfresh := h₀.fresh hw
  refine ⟨hoffered.trans h₀.offered, fun _ ha => absurd (haway.symm.trans ha) Bool.false_ne_true, fun _ => ?_, ?_, ?_, ?_,
    ?_, fun _ => hprocessed.trans hfresh, ?_, fun _ => hwire.trans (h₀.silent hw)⟩
  · rw [hcount, hempty]
    rfl
  · rw [hkept]
    exact Nat.zero_le _
  · rw [hkept]
    exact Nat.zero_le _
  · have honce := h₀.once
    rw [kept_of_waiting h hw, hfresh, List.append_nil] at honce
    rw [hkept, hreleased, hprocessed, harrived, hfresh, List.nil_append, List.append_nil]
    exact (List.perm_append_comm.map _).trans honce
  · rw [hkept]
    trivial
  · rw [hprocessed]
    exact h₀.ordered

theorem waits_unaccept (h₀ : Waits start h) (hw : h.accepted = false) : Waits start (serverSocketUnaccept h) := by
  have hleave : ∀ u : Holding, u.socket.rcv = h.socket.rcv → u.socket.wire = h.socket.wire → u.accepted = h.accepted →
      u.offered = h.offered → u.arrived = h.arrived → u.processed = h.processed → u.released = h.released →
      Waits start { u with
        socket := { u.emptied with
          state := .closed
          clientType := true
          disconnectSuspended := false
          snd := { u.emptied.snd with timeout := 0 } }
        bound := false
        released := u.released ++ u.socket.rcv.receiveQueue } := by
    intro u hrcv hwire haccepted hoffered harrived hprocessed hreleased
    refine h₀.leave hw (haccepted.trans hw) hoffered harrived hprocessed ?_ rfl rfl rfl hwire
    rw [← hreleased, ← hrcv]
  have hback : Waits start { h with socket := { h.socket with state := .listen }, connectPort := false } :=
    ⟨h₀.offered, fun _ ha => by simp [Holding.awaitingAccept] at ha, h₀.count, h₀.few, h₀.window, h₀.once,
      h₀.orderedKept, h₀.fresh, h₀.ordered, h₀.silent⟩
  unfold serverSocketUnaccept
  dsimp only
  split
  · split
    · exact hback
    · exact hleave { h with socket := { h.socket with state := .listen }, connectPort := false } rfl rfl rfl rfl rfl rfl rfl
  · split
    · exact h₀
    · exact hleave h rfl rfl rfl rfl rfl rfl rfl

theorem waits_detach (h₀ : Waits start h) : Waits start (interfaceDetach h) := by
  have hrcv : ∃ waiting, (socketConnectionReset h.socket).rcv = { h.socket.rcv with receiveSuspensionList := waiting } := by
    unfold socketConnectionReset
    dsimp only
    split
    · exact ⟨[], rfl⟩
    · exact ⟨[], rfl⟩
  have hwire : (socketConnectionReset h.socket).wire = h.socket.wire := by
    unfold socketConnectionReset
    dsimp only
    split
    · rfl
    · rfl
  obtain ⟨waiting, hrcv⟩ := hrcv
  have hqueue : (socketConnectionReset h.socket).rcv.receiveQueue = h.socket.rcv.receiveQueue := by rw [hrcv]
  have hcount : (socketConnectionReset h.socket).rcv.receiveQueueCount = h.socket.rcv.receiveQueueCount := by rw [hrcv]
  have hkept : (interfaceDetach h).kept = h.kept := by
    show (if h.accepted then [] else (socketConnectionReset h.socket).rcv.receiveQueue) = h.kept
    rw [hqueue]
    rfl
  refine ⟨h₀.offered, fun _ ha => by simp [Holding.awaitingAccept, interfaceDetach] at ha, fun hw => ?_, ?_, ?_, ?_, ?_,
    h₀.fresh, h₀.ordered, fun hw => hwire.trans (h₀.silent hw)⟩
  · show (socketConnectionReset h.socket).rcv.receiveQueueCount.toNat = _
    rw [hcount]
    show _ = (socketConnectionReset h.socket).rcv.receiveQueue.length
    rw [hqueue]
    exact h₀.count hw
  · rw [hkept]
    exact h₀.few
  · rw [hkept]
    exact h₀.window
  · rw [hkept]
    exact h₀.once
  · rw [hkept]
    exact h₀.orderedKept

theorem waits_serverSocketAccept (h₀ : Waits start h) (hw : h.accepted = false) (ip : Ip) (reads : Nat → Nat)
    (iss : ULONG) (hfair : HoldAction.Fair h (.accept reads iss)) : Waits start (serverSocketAccept ip reads iss h) := by
  unfold serverSocketAccept
  split
  · exact h₀
  split
  · exact waits_accept h₀ hw ip reads
  rename_i hno
  rw [Bool.not_eq_true] at hno
  have hempty := hfair hw hno
  have hcount := h₀.count hw
  rw [hempty] at hcount
  have hzero : h.socket.rcv.receiveQueueCount = 0 := BitVec.eq_of_toNat_eq hcount
  have hrel : h.released = h.released ++ h.socket.rcv.receiveQueue := by rw [hempty, List.append_nil]
  split
  · exact h₀
  dsimp only
  split
  · exact h₀.leave hw hw rfl rfl rfl hrel rfl rfl rfl rfl
  · exact h₀.leave hw hw rfl rfl rfl hrel hempty hzero rfl rfl

theorem waits_step (h₀ : Waits start h) (ip : Ip) (a : HoldAction) (hfair : a.Fair h) : Waits start (holdStep ip h a) := by
  unfold holdStep
  split
  · exact h₀
  rename_i hw
  rw [Bool.not_eq_true] at hw
  cases a with
  | segment p =>
    dsimp only
    split
    · rename_i haccept
      exact waits_hold h₀ hw haccept hfair
    · exact h₀
  | accept reads iss => exact waits_serverSocketAccept h₀ hw ip reads iss hfair
  | unaccept => exact waits_unaccept h₀ hw
  | detach => exact waits_detach h₀

theorem Waits.conserved (h₀ : Waits start h) (ip : Ip) : Conserved ip start h := by
  refine ⟨h₀.few, h₀.window, h₀.once, h₀.orderedKept, h₀.ordered, fun pre p post hp hrst => ?_, h₀.silent,
    fun hw haccept => ?_⟩
  · have hordered := h₀.ordered
    rw [hp] at hordered
    exact hordered.reset_last hrst
  · obtain ⟨sent, hwire, -, hpure⟩ := (unmoved_packetSendAck ip
      (syncacheEstablish h.rxWindowMaximum h.interfaceInitialWindow h.emptied)
      (syncacheEstablish h.rxWindowMaximum h.interfaceInitialWindow h.emptied).snd.txSequence).wire
    refine ⟨sent, hwire.trans (congrArg (· ++ sent) (h₀.silent hw)), fun g hg => ?_⟩
    rw [← h₀.rxSequence hw haccept]
    exact (hpure g hg).2.1

end

/-! ### In every run -/

/-- A segment for a handshake without a socket is not kept, and answered without acknowledging anything of it. --/
theorem queuedSegment_keeps_nothing (c : Cache) (g : Segment) (i : Nat) :
    (c.queuedSegment g i).replies = [] ∨ (c.queuedSegment g i).replies =
      [.ack (c.entry i).peer ((c.entry i).terms.iss + 1) ((c.entry i).terms.irs + 1) 0] := by
  unfold Cache.queuedSegment
  dsimp only
  generalize (if (c.entry i).terms.rxWindow ≠ 0 then (c.entry i).terms.rxWindow else 1) = limit
  split
  · exact .inl rfl
  split
  · exact .inr rfl
  · exact .inl rfl

/-- A finished handshake of a peer without window scaling. --/
def Entry.sample : Entry where
  state := .established
  peer := ⟨.v4 1, 40000, 80⟩
  interface := some 0
  ipv6Addr := none
  terms := ⟨0, 0, 1000, 1460, 1460, true, false, 0, noWindowScale, 0, 8192, 8192, 1460⟩
  time := 0
  retries := 0

/-- It is handed to a socket with a buffer of 8192, behind an interface with a cap on its windows. --/
def Holding.sample (cap : ULONG) : Holding :=
  handOver { Ip.ideal with interfaceRxWindowCap := cap } ⟨1500, false, cap⟩ .sample (.opened 0 0 8192 1000) 8192 0

/-- A segment of the peer with `length` octets from its first on. --/
def firstSegment (length : Nat) : Packet where
  addr := 1
  header := ⟨1, 1, 0x50000000 ||| tcpAckBit ||| 1000, 0⟩
  options := []
  length := BitVec.ofNat 32 (20 + length)
  first := List.replicate length 7
  chain := []
  ready := false

end Netxduo.Syncache
