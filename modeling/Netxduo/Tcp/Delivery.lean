import Netxduo.Tcp.Queueing

/-! Handing out what is ready: `_nx_tcp_socket_receive`, the suspended threads that are resumed, and the
    acknowledgment that closes the data check. None of it moves the end of the contiguous data. -/

namespace Netxduo
open Serial Spans

/-! ### Contents without the packets handed out -/

theorem Packet.WellFormed.dataLength_eq {p : Packet} (h : p.WellFormed) :
    p.dataLength = BitVec.ofNat 32 p.octets.length := by
  have hlen := h.dataLength_toNat
  have hlt := p.dataLength.isLt
  apply BitVec.eq_of_toNat_eq
  rw [hlen, BitVec.toNat_ofNat]
  omega

section
variable {d : ULONG} {out ready pending : List Packet} {window default : Nat}

/-- What the packets handed out took of the window is given back. --/
theorem Content.handOut (h : Content d (out ++ ready) pending window default) :
    Content d ready pending (window + (octetsOf out).length) default := by
  have hcredit := h.credit
  have hlen : (octetsOf (out ++ ready)).length = (octetsOf out).length + (octetsOf ready).length := by simp
  have htiles := h.tiles
  rw [spans_append, tiles_append] at htiles
  obtain ⟨m, h₁, h₂⟩ := htiles
  have hm := length_octetsOf h₂
  refine ⟨⟨fun p hp => h.isReady p (List.mem_append_right _ hp), h.notReady,
    fun p hp => h.wf p (List.mem_append_right _ hp), ?_, ⟨h.within.wf, h.within.ordered.upper (by omega)⟩, by omega,
    h.bound⟩, h.gap⟩
  convert h₂ using 1
  omega

/-- Nothing queued, the whole window is open. --/
theorem Content.reopened (h : Content d out [] window default) : Content d [] [] default default :=
  ⟨⟨fun _ hp => (nomatch hp), fun _ hp => (nomatch hp), fun _ hp => (nomatch hp), rfl, .nil (Int.natCast_nonneg _),
    by simp, h.bound⟩, fun _ hp => (nomatch hp)⟩

/-- A ready packet at the front of the queue is the first ready packet. --/
theorem Content.ready_cons {p : Packet} {rest : List Packet} (h : Content d ready pending window default)
    (hq : ready ++ pending = p :: rest) (hp : p.ready = true) :
    ∃ ready', ready = p :: ready' ∧ rest = ready' ++ pending := by
  cases ready with
  | nil =>
    have hmem : p ∈ pending := by
      rw [List.nil_append] at hq
      simp [hq]
    rw [h.notReady p hmem] at hp
    cases hp
  | cons r ready' =>
    rw [List.cons_append, List.cons.injEq] at hq
    exact ⟨ready', by rw [hq.1], hq.2.symm⟩

end

/-! ### One packet too many behind a gap -/

section
variable {ip : Ip} {d : ULONG} {r : Receive} {ready pending : List Packet}

theorem Receiving.limitOutOfOrder (h : Receiving ip d r ready pending) {acked : ULONG}
    (hacked : acked = BitVec.ofNat 32 ready.length) : ∃ head tail queue count, ∃ pending',
      limitOutOfOrder ip r acked = { r with
        receiveQueue := queue
        receiveQueueHead := head
        receiveQueueTail := tail
        receiveQueueCount := count } ∧
      Receiving ip d (limitOutOfOrder ip r acked) ready pending' ∧ pending' <+: pending := by
  have hsame : Receiving ip d r ready pending ∧ pending <+: pending := ⟨h, List.prefix_refl _⟩
  unfold Netxduo.limitOutOfOrder
  cases ip.build.maxOutOfOrderPackets with
  | none => exact ⟨_, _, _, _, pending, rfl, hsame⟩
  | some limit =>
    dsimp only
    split
    · rename_i hgt
      have hlen := h.content.length_le
      have hbound := h.content.bound
      have hne : pending ≠ [] := by
        rintro rfl
        have hcount : r.receiveQueueCount = acked := by
          apply BitVec.eq_of_toNat_eq
          rw [List.append_nil] at hlen
          rw [h.count, hacked, h.queue, List.append_nil, BitVec.toNat_ofNat]
          omega
        rw [hcount, BitVec.sub_self, gt_iff_lt, BitVec.lt_def] at hgt
        simp at hgt
      obtain ⟨head, tail, queue, count, hkept⟩ := dropTail_kept r
      have hq : r.receiveQueue ≠ [] := by
        rw [h.queue]
        simp [hne]
      obtain ⟨hlinked, hqueue⟩ := h.toLinked.dropTail hq
      have hdl : r.receiveQueue.dropLast = ready ++ pending.dropLast := by
        rw [h.queue, List.dropLast_append_of_ne_nil hne]
      rw [hkept] at hlinked hqueue ⊢
      refine ⟨head, tail, queue, count, pending.dropLast, rfl, ⟨hlinked, hqueue.trans hdl, ?_, fun hlow => ?_⟩,
        List.dropLast_prefix _⟩
      · exact ⟨h.content.dropLast, fun p hp => h.content.gap p (List.dropLast_subset _ hp)⟩
      · have := h.room hlow
        show queue.length ≤ r.receiveQueueMaximum.toNat
        rw [show queue = r.receiveQueue.dropLast from hqueue, List.length_dropLast]
        omega
    · exact ⟨_, _, _, _, pending, rfl, hsame⟩

end

/-! ### Resuming suspended threads -/

/-- The socket with the first `k` packets handed out by the resuming loop. --/
def Socket.handOut (s : Socket) (k : Nat) (suspended : List Nat) : Socket :=
  { s with
    handed := s.handed ++ s.rcv.receiveQueue.take k
    rcv := { s.rcv with
      receiveQueue := s.rcv.receiveQueue.drop k
      receiveQueueHead := if k = 0 then s.rcv.receiveQueueHead else nextAddr (s.rcv.receiveQueue.drop k)
      receiveQueueCount := s.rcv.receiveQueueCount - BitVec.ofNat 32 k
      rxWindowCurrent := s.rcv.rxWindowCurrent + BitVec.ofNat 32 (octetsOf (s.rcv.receiveQueue.take k)).length
      receiveSuspensionList := suspended } }

theorem Socket.handOut_zero (s : Socket) : s.handOut 0 s.rcv.receiveSuspensionList = s := by simp [handOut]

theorem Socket.handOut_succ {s : Socket} {p : Packet} {rest : List Packet} (hq : s.rcv.receiveQueue = p :: rest)
    (hp : p.WellFormed) (threads suspended : List Nat) (k : Nat) :
    Socket.handOut { s with
      handed := s.handed ++ [p]
      rcv := { s.rcv with
        receiveQueue := rest
        receiveQueueHead := nextAddr rest
        receiveQueueCount := s.rcv.receiveQueueCount - 1
        rxWindowCurrent := s.rcv.rxWindowCurrent + p.dataLength
        receiveSuspensionList := threads } } k suspended = s.handOut (k + 1) suspended := by
  have hhead : (if k = 0 then nextAddr rest else nextAddr (rest.drop k)) = nextAddr (rest.drop k) := by
    split
    · rename_i hk
      rw [hk, List.drop_zero]
    · rfl
  have hcount : s.rcv.receiveQueueCount - 1 - BitVec.ofNat 32 k =
      s.rcv.receiveQueueCount - BitVec.ofNat 32 (k + 1) := by
    rw [BitVec.ofNat_add]
    grind
  have hwindow : s.rcv.rxWindowCurrent + p.dataLength + BitVec.ofNat 32 (octetsOf (rest.take k)).length =
      s.rcv.rxWindowCurrent + BitVec.ofNat 32 (octetsOf (p :: rest.take k)).length := by
    rw [hp.dataLength_eq, octetsOf_cons, List.length_append, BitVec.ofNat_add]
    grind
  simp only [handOut, hq, List.take_succ_cons, List.drop_succ_cons, List.append_assoc, List.singleton_append,
    hhead, hcount, hwindow, Nat.succ_ne_zero, if_false]

/-- As many head packets are handed out as threads wait, and no more than can be acknowledged. --/
theorem resumeReceivers_eq (acked : ULONG) (header : TcpHeader) (s : Socket) (threads : List Nat)
    (hthreads : s.rcv.receiveSuspensionList = threads)
    (hwf : ∀ p ∈ s.rcv.receiveQueue.take acked.toNat, p.WellFormed) :
    ∃ k ≤ acked.toNat, k ≤ s.rcv.receiveQueue.length ∧ ∃ header' suspended,
      resumeReceivers acked header s threads = (header', s.handOut k suspended) := by
  induction threads generalizing acked header s with
  | nil => exact ⟨0, Nat.zero_le _, Nat.zero_le _, header, _, by rw [s.handOut_zero]; rfl⟩
  | cons thread threads ih =>
    by_cases hz : acked = 0
    · exact ⟨0, Nat.zero_le _, Nat.zero_le _, header, _, by rw [s.handOut_zero, resumeReceivers, if_pos hz]⟩
    cases hq : s.rcv.receiveQueue with
    | nil => exact ⟨0, Nat.zero_le _, Nat.zero_le _, header, _, by rw [s.handOut_zero, resumeReceivers, if_neg hz, hq]⟩
    | cons p rest =>
      obtain ⟨n, hn⟩ : ∃ n, acked.toNat = n + 1 := by
        refine Nat.exists_eq_succ_of_ne_zero fun h0 => hz (BitVec.eq_of_toNat_eq h0)
      have hdec : (acked - 1).toNat = n := by
        rw [BitVec.toNat_sub_of_le (by rw [BitVec.le_def]; simp; omega), hn]
        rfl
      rw [hq, hn, List.take_succ_cons] at hwf
      obtain ⟨k, hk, hlen, header', suspended, heq⟩ := ih (acked - 1) p.header { s with
          handed := s.handed ++ [p]
          rcv := { s.rcv with
            receiveQueue := rest
            receiveQueueHead := nextAddr rest
            receiveQueueCount := s.rcv.receiveQueueCount - 1
            rxWindowCurrent := s.rcv.rxWindowCurrent + p.dataLength
            receiveSuspensionList := threads } } rfl (by
        rw [hdec]
        exact fun o ho => hwf o (List.mem_cons_of_mem _ ho))
      refine ⟨k + 1, by omega, Nat.succ_le_succ hlen, header', suspended, ?_⟩
      rw [resumeReceivers, if_neg hz, hq]
      dsimp only
      rw [heq, Socket.handOut_succ hq (hwf p List.mem_cons_self)]

/-! ### Deliveries -/

/-- From `s` to `t` ready packets are handed out, and nothing else happens to the queue. --/
def Delivers (ip : Ip) (d : ULONG) (pending : List Packet) (s : Socket) (ready : List Packet) (t : Socket) : Prop :=
  ∃ ready', Progress [] [] s ready pending t ready' pending ∧ Receiving ip d t.rcv ready' pending ∧
    t.rcv.rxSequence = s.rcv.rxSequence

section
variable {ip : Ip} {d : ULONG} {s t u : Socket} {ready pending : List Packet}

theorem AckOnly.delivers (h : Receiving ip d s.rcv ready pending) (ha : AckOnly s t) :
    Delivers ip d pending s ready t :=
  ⟨ready, ha.progress [], h.sameQueue ha.rcv, ha.rcv.rxSequence⟩

theorem Delivers.trans (h : Delivers ip d pending s ready t)
    (h' : ∀ ready', Receiving ip d t.rcv ready' pending → Delivers ip d pending t ready' u) :
    Delivers ip d pending s ready u := by
  obtain ⟨ready', hp, hr, hx⟩ := h
  obtain ⟨ready'', hp', hr', hx'⟩ := h' ready' hr
  exact ⟨ready'', hp.trans hp' (List.Subset.refl _), hr', hx'.trans hx⟩

/-- Packets handed out of the front of the ready ones. --/
theorem progress_handOut {out ready' : List Packet} (hq : ready = out ++ ready') (r : Receive)
    (hx : r.rxSequence = s.rcv.rxSequence) (hd : r.rxWindowDefault = s.rcv.rxWindowDefault)
    (hf : r.finSequence = s.rcv.finSequence) (hr : r.finReceived = s.rcv.finReceived)
    (hm : r.receiveQueueMaximum = s.rcv.receiveQueueMaximum) :
    Progress [] [] s ready pending { s with handed := s.handed ++ out, rcv := r } ready' pending :=
  ⟨⟨rfl, rfl, rfl, rfl, rfl, rfl, hd, hf, hr, hm⟩, out, rfl, by simp [hq], by simp [hx], rfl, by simp,
    fun q hq => ⟨q, by simpa using hq, .refl q⟩, [], by simp, by simp⟩

/-- The tail pointer may be stale when the last packet has been handed out. --/
theorem Linked.clear {r : Receive} (hcount : r.receiveQueueCount.toNat = r.receiveQueue.length)
    (hhead : r.receiveQueueHead = (r.receiveQueue.map (·.addr)).head?)
    (htail : r.receiveQueue ≠ [] → r.receiveQueueTail = (r.receiveQueue.map (·.addr)).getLast?)
    (hnd : (r.receiveQueue.map (·.addr)).Nodup) :
    ∃ head tail, clearEmptyQueue r = { r with receiveQueueHead := head, receiveQueueTail := tail } ∧
      Linked (clearEmptyQueue r) := by
  unfold clearEmptyQueue
  split
  · rename_i hz
    have hnil : r.receiveQueue = [] := by
      rw [hz] at hcount
      exact List.eq_nil_of_length_eq_zero hcount.symm
    exact ⟨none, none, rfl, hcount, by simp [hnil], by simp [hnil], hnd⟩
  · rename_i hz
    have hne : r.receiveQueue ≠ [] := by
      intro hnil
      rw [hnil] at hcount
      exact hz (BitVec.eq_of_toNat_eq hcount)
    exact ⟨_, _, rfl, hcount, hhead, htail hne, hnd⟩

theorem resumeReceivers_delivers (h : Receiving ip d s.rcv ready pending) (header : TcpHeader) :
    let t := (resumeReceivers (BitVec.ofNat 32 ready.length) header s s.rcv.receiveSuspensionList).2
    Delivers ip d pending s ready { t with rcv := clearEmptyQueue t.rcv } := by
  have hlen := h.content.length_le
  have hbound := h.content.bound
  rw [List.length_append] at hlen
  have hacked : (BitVec.ofNat 32 ready.length).toNat = ready.length := by
    rw [BitVec.toNat_ofNat]
    omega
  obtain ⟨k, hk, hkq, header', suspended, heq⟩ := resumeReceivers_eq (BitVec.ofNat 32 ready.length) header s _ rfl (by
    rw [hacked, h.queue, List.take_left]
    exact h.content.wf)
  rw [hacked] at hk
  rw [heq]
  dsimp only
  have htake : s.rcv.receiveQueue.take k = ready.take k := by
    rw [h.queue, List.take_append_of_le_length hk]
  have hdrop : s.rcv.receiveQueue.drop k = ready.drop k ++ pending := by
    rw [h.queue, List.drop_append_of_le_length hk]
  have hsplit : ready = ready.take k ++ ready.drop k := (List.take_append_drop k ready).symm
  have hcontent := h.content
  rw [hsplit] at hcontent
  have hcredit := hcontent.credit
  simp only [octetsOf_append, List.length_append] at hcredit
  have hwindow : (s.rcv.rxWindowCurrent + BitVec.ofNat 32 (octetsOf (ready.take k)).length).toNat =
      s.rcv.rxWindowCurrent.toNat + (octetsOf (ready.take k)).length := by
    rw [BitVec.toNat_add, BitVec.toNat_ofNat]
    omega
  obtain ⟨head, tail, hclear, hlinked⟩ := Linked.clear (r := (s.handOut k suspended).rcv)
    (by
      show (s.rcv.receiveQueueCount - BitVec.ofNat 32 k).toNat = (s.rcv.receiveQueue.drop k).length
      rw [toNat_sub_ofNat h.count hkq, List.length_drop])
    (by
      show (if k = 0 then _ else _) = _
      split
      · rename_i hz
        rw [h.head, hz]
        rfl
      · exact nextAddr_eq _)
    (by
      show s.rcv.receiveQueue.drop k ≠ [] → s.rcv.receiveQueueTail = ((s.rcv.receiveQueue.drop k).map (·.addr)).getLast?
      intro hne
      have hlt : k < s.rcv.receiveQueue.length := by
        rw [Ne, List.drop_eq_nil_iff] at hne
        omega
      rw [h.tail, List.map_drop, List.getLast?_drop, if_neg (by rw [List.length_map]; omega)])
    (by
      show ((s.rcv.receiveQueue.drop k).map (·.addr)).Nodup
      exact h.nodup.sublist ((List.drop_sublist k _).map _))
  rw [hclear] at hlinked ⊢
  refine ⟨ready.drop k, ?_, ⟨hlinked, hdrop, ?_, fun hlow => ?_⟩, rfl⟩
  · have := @progress_handOut s ready pending _ _ hsplit
      { (s.handOut k suspended).rcv with receiveQueueHead := head, receiveQueueTail := tail } rfl rfl rfl rfl rfl
    rw [← htake] at this
    exact this
  · show Content d _ _ (s.rcv.rxWindowCurrent + BitVec.ofNat 32 (octetsOf (s.rcv.receiveQueue.take k)).length).toNat _
    rw [htake, hwindow]
    exact hcontent.handOut
  · have := h.room hlow
    show (s.rcv.receiveQueue.drop k).length ≤ s.rcv.receiveQueueMaximum.toNat
    rw [List.length_drop]
    omega

/-! ### Reading -/

/-- The links once the head packet has been taken. --/
theorem Linked.takeHead {r : Receive} {p : Packet} {rest : List Packet} (h : Linked r)
    (hq : r.receiveQueue = p :: rest) : ∃ head tail window,
    r.takeHead p rest = { r with
      receiveQueue := rest
      receiveQueueHead := head
      receiveQueueTail := tail
      receiveQueueCount := r.receiveQueueCount - 1
      rxWindowCurrent := window } ∧
    Linked (r.takeHead p rest) ∧ (rest = [] ∧ window = r.rxWindowDefault ∨
      rest ≠ [] ∧ window = r.rxWindowCurrent + p.dataLength) := by
  have hcount : (r.receiveQueueCount - 1).toNat = rest.length := by
    have hc := h.count
    rw [hq, List.length_cons] at hc
    have := toNat_sub_ofNat (k := 1) hc (by omega)
    simpa using this
  have hnd := h.nodup
  rw [hq, List.map_cons, List.nodup_cons] at hnd
  have hhead : r.receiveQueueHead = some p.addr := by
    rw [h.head, hq]
    rfl
  cases rest with
  | nil =>
    have htail : r.receiveQueueTail = some p.addr := by
      rw [h.tail, hq]
      rfl
    have hz : r.receiveQueueCount - 1 = 0 := BitVec.eq_of_toNat_eq hcount
    refine ⟨none, none, r.rxWindowDefault, ?_, ?_, .inl ⟨rfl, rfl⟩⟩
    · simp only [Receive.takeHead, hhead, htail, if_true, hz]
    · simp only [Receive.takeHead, hhead, htail, if_true, hz]
      exact ⟨rfl, rfl, rfl, List.nodup_nil⟩
  | cons o rest =>
    have hne : r.receiveQueueHead ≠ r.receiveQueueTail := by
      rw [hhead, h.tail, hq]
      intro heq
      have hlast : ((o :: rest).map (·.addr)).getLast? = some p.addr := by
        rw [heq]
        simp [List.getLast?_cons]
      exact hnd.1 (List.mem_of_getLast? hlast)
    have hz : r.receiveQueueCount - 1 ≠ 0 := by
      intro hz
      rw [hz] at hcount
      cases hcount
    refine ⟨nextAddr (o :: rest), r.receiveQueueTail, r.rxWindowCurrent + p.dataLength, ?_, ?_,
      .inr ⟨List.cons_ne_nil _ _, rfl⟩⟩
    · simp only [Receive.takeHead, if_neg hne, if_neg hz]
    · simp only [Receive.takeHead, if_neg hne, if_neg hz]
      refine ⟨hcount, rfl, ?_, hnd.2⟩
      rw [h.tail, hq]
      simp [List.getLast?_cons]

theorem takeHead_delivers {p : Packet} {ready' : List Packet} (h : Receiving ip d s.rcv (p :: ready') pending) :
    Delivers ip d pending s (p :: ready')
      { s with rcv := s.rcv.takeHead p (ready' ++ pending), handed := s.handed ++ [p] } := by
  obtain ⟨head, tail, window, heq, hlinked, hwindow⟩ := h.toLinked.takeHead (h.queue.trans List.cons_append)
  have hp := h.content.wf p List.mem_cons_self
  rw [heq] at hlinked ⊢
  refine ⟨ready', @progress_handOut s _ pending [p] ready' rfl _ rfl rfl rfl rfl rfl, ⟨hlinked, rfl, ?_, fun hlow => ?_⟩, rfl⟩
  · show Content d ready' pending window.toNat s.rcv.rxWindowDefault.toNat
    rcases hwindow with ⟨hnil, rfl⟩ | ⟨-, rfl⟩
    · rw [List.append_eq_nil_iff] at hnil
      obtain ⟨rfl, rfl⟩ := hnil
      exact h.content.reopened
    · have hout := @Content.handOut d [p] ready' pending _ _ h.content
      have hcredit := h.content.credit
      have hbound := h.content.bound
      have hsum : (s.rcv.rxWindowCurrent + p.dataLength).toNat = s.rcv.rxWindowCurrent.toNat + p.octets.length := by
        simp only [octetsOf_cons, List.length_append] at hcredit
        rw [BitVec.toNat_add, hp.dataLength_toNat]
        omega
      rw [hsum]
      simpa using hout
  · have := h.room hlow
    rw [h.queue, List.cons_append, List.length_cons] at this
    show (ready' ++ pending).length ≤ s.rcv.receiveQueueMaximum.toNat
    omega

/-- `_nx_tcp_socket_receive` hands out the first ready packet, if there is one. --/
theorem socketReceive_delivers (h : Receiving ip d s.rcv ready pending) (wait : Option Nat) :
    Delivers ip d pending s ready (socketReceive ip s wait).2 := by
  have hsame : Delivers ip d pending s ready s := AckOnly.delivers h (.refl s)
  have hwait : ∀ thread, Delivers ip d pending s ready
      { s with rcv.receiveSuspensionList := s.rcv.receiveSuspensionList ++ [thread] } := by
    intro thread
    refine ⟨ready, progress_rcv [] _ rfl rfl rfl rfl rfl (fun q hq => ⟨q, by simpa using hq, .refl q⟩),
      ⟨h.toLinked.of_addrs rfl rfl rfl rfl, h.queue, h.content, h.room⟩, rfl⟩
  unfold socketReceive
  split
  · exact hsame
  cases hhead : s.rcv.receiveQueueHead with
  | none =>
    cases wait with
    | none => exact hsame
    | some thread => exact hwait thread
  | some addr =>
    cases hq : s.rcv.receiveQueue with
    | nil =>
      cases wait with
      | none => exact hsame
      | some thread => exact hwait thread
    | cons p rest =>
      dsimp only
      by_cases hp : p.ready = true
      · rw [if_pos hp]
        have hqueue := hq
        rw [h.queue] at hqueue
        obtain ⟨ready', rfl, hrest⟩ := h.content.ready_cons hqueue hp
        rw [hrest]
        have htaken := takeHead_delivers h
        split
        · exact htaken.trans fun ready'' h' => AckOnly.delivers h' (ackOnly_packetSendAck ip _ _)
        · exact htaken
      · rw [if_neg hp]
        cases wait with
        | none => exact hsame
        | some thread => exact hwait thread

theorem receiveCallback_delivers (reads : Nat) (h : Receiving ip d s.rcv ready pending) :
    Delivers ip d pending s ready (receiveCallback ip reads s) := by
  unfold receiveCallback
  induction reads generalizing s ready with
  | zero => exact AckOnly.delivers h (.refl s)
  | succ n ih =>
    rw [Function.iterate_succ_apply]
    exact (socketReceive_delivers h none).trans fun _ h' => ih h'

/-! ### The acknowledgment -/

theorem sameQueue_ackProgress (ip : Ip) (s : Socket) : SameQueue s.rcv (ackProgress ip s).2 := by
  unfold ackProgress
  split
  · split
    · exact ⟨rfl, rfl, rfl, rfl, rfl, rfl, rfl, rfl, rfl, rfl, rfl⟩
    · exact ⟨rfl, rfl, rfl, rfl, rfl, rfl, rfl, rfl, rfl, rfl, rfl⟩
  · unfold ackByThreshold
    dsimp only
    split
    · exact ⟨rfl, rfl, rfl, rfl, rfl, rfl, rfl, rfl, rfl, rfl, rfl⟩
    · exact ⟨rfl, rfl, rfl, rfl, rfl, rfl, rfl, rfl, rfl, rfl, rfl⟩

theorem acknowledgeData_delivers (reads : Nat) (h : Receiving ip d s.rcv ready pending) (original : ULONG)
    (header : TcpHeader) (outOfSequence : Bool) :
    Delivers ip d pending s ready (acknowledgeData ip reads s original header outOfSequence) := by
  have hsame : ∀ {t : Socket} {ready' : List Packet}, Receiving ip d t.rcv ready' pending →
      Delivers ip d pending t ready' t := fun h' => AckOnly.delivers h' (.refl _)
  have hack : ∀ (t : Socket) {ready' : List Packet}, Receiving ip d t.rcv ready' pending →
      Delivers ip d pending t ready' (packetSendAck ip t t.snd.txSequence) :=
    fun t _ h' => AckOnly.delivers h' (ackOnly_packetSendAck ip t t.snd.txSequence)
  -- the callback reads, then the threshold decides
  obtain ⟨due, t, heq, ht⟩ : ∃ due t,
      (if original ≠ s.rcv.rxSequence then
        let s := receiveCallback ip reads s
        if s.state = .established ∧ header.has tcpFinBit = false then
          ((ackProgress ip s).1, { s with rcv := (ackProgress ip s).2 })
        else (false, s)
      else (false, s)) = (due, t) ∧ Delivers ip d pending s ready t := by
    split
    · dsimp only
      split
      · refine ⟨_, _, rfl, (receiveCallback_delivers reads h).trans fun ready' h' => AckOnly.delivers h' ?_⟩
        exact ⟨rfl, rfl, rfl, rfl, sameQueue_ackProgress ip _, rfl, rfl, rfl, [], by simp⟩
      · exact ⟨_, _, rfl, receiveCallback_delivers reads h⟩
    · exact ⟨_, _, rfl, hsame h⟩
  unfold acknowledgeData
  dsimp only at heq ⊢
  rw [heq]
  dsimp only
  split
  · exact ht.trans fun _ h' => hack t h'
  · exact ht

end

end Netxduo
