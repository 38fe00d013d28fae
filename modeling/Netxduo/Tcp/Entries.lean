import Netxduo.Tcp.Ledger

/-! Every step of the system that drops nothing is a list of entries of the receive window's account. -/

namespace Netxduo
open Serial Spans Runs

section
variable {ip : Ip} {A : ULONG → Prop} {F : Transmit → Transmit → Prop} {s t u : Socket} {d : ULONG}
  {ready pending : List Packet}

/-! ### The transmit path -/

theorem Sending.ledger (h : Sending ip F s t) : Ledger ip A s t := by
  induction h with
  | refl s => exact .refl s
  | quiet s k n h => exact .single ⟨rfl, rfl, rfl, rfl⟩ (.kept (.inl rfl) rfl rfl rfl rfl)
  | noted s h =>
    refine .single ⟨rfl, h.rxWindowDefault, h.rxWindowCap, h.rcvWinScaleValue⟩ ?_
    exact .kept (.inl h.rxSequence) h.rxWindowCurrent h.rxWindowLastSent
      (by rw [Receive.readyPackets, h.queue]; rfl) rfl
  | sent s h last ack window n =>
    refine .single ⟨rfl, h.rxWindowDefault, h.rxWindowCap, h.rcvWinScaleValue⟩ ?_
    exact .sent h.rxSequence h.rxWindowCurrent last h.queue _ rfl window fun _ => ack
  | trans _ _ ih ih' => exact ih.trans ih'

theorem ledger_packetSendAck (ip : Ip) (s : Socket) (txSequence : ULONG) : Ledger ip A s (packetSendAck ip s txSequence) :=
  (sending_packetSendAck (F := FreeFlight) ip s (fun _ => trivial) txSequence).ledger

/-- The account, the queue and the segments sent are left alone. --/
theorem ledger_kept (ha : SameAccount s t) (hx : t.rcv.rxSequence = s.rcv.rxSequence)
    (hc : t.rcv.rxWindowCurrent = s.rcv.rxWindowCurrent) (hl : t.rcv.rxWindowLastSent = s.rcv.rxWindowLastSent)
    (hq : t.rcv.receiveQueue = s.rcv.receiveQueue) (hw : t.wire = s.wire) : Ledger ip A s t :=
  .single ha (.kept (.inl hx) hc hl (by rw [Receive.readyPackets, hq]; rfl) hw)

/-! ### Notes -/

theorem ledger_asked (s : Socket) (n : Nat) : Ledger ip A s { s with asked := n } :=
  ledger_kept ⟨rfl, rfl, rfl, rfl⟩ rfl rfl rfl rfl rfl

theorem ledger_dsackRecord (s : Socket) (left right : ULONG) : Ledger ip A s (dsackRecord s left right) :=
  .ite (ledger_kept ⟨rfl, rfl, rfl, rfl⟩ rfl rfl rfl rfl rfl) (.refl s)

theorem ledger_rememberRecent (s : Socket) (a : Arrival) : Ledger ip A s (rememberRecent s a) :=
  .ite (ledger_kept ⟨rfl, rfl, rfl, rfl⟩ rfl rfl rfl rfl rfl) (.refl s)

theorem ledger_recordFin (s : Socket) (a : Arrival) : Ledger ip A s (recordFin s a) :=
  .ite (ledger_kept ⟨rfl, rfl, rfl, rfl⟩ rfl rfl rfl rfl rfl) (.refl s)

theorem ledger_recordTimestamp (s : Socket) (p : Packet) (value : Option ULONG) :
    Ledger ip A s (recordTimestamp s p value) := by
  unfold recordTimestamp
  split
  · exact .ite (ledger_kept ⟨rfl, rfl, rfl, rfl⟩ rfl rfl rfl rfl rfl) (.refl s)
  · exact .refl s

theorem ledger_dropPacket (ip : Ip) (s : Socket) : Ledger ip A s (dropPacket ip s).2 := by
  unfold dropPacket Socket.belowLowWatermark
  split
  · exact ledger_asked s _
  · exact .refl s

theorem ledger_trimToWindow (s : Socket) (p : Packet) : Ledger ip A s (trimToWindow s p).1 := by
  unfold trimToWindow trimLeft
  dsimp only
  split
  · split
    · exact ledger_dsackRecord s _ _
    · exact .refl s
  · exact .refl s

theorem ledger_ackProgress (ip : Ip) (s : Socket) : Ledger ip A s { s with rcv := (ackProgress ip s).2 } := by
  unfold ackProgress ackByThreshold
  dsimp only
  split
  · split
    · exact ledger_kept ⟨rfl, rfl, rfl, rfl⟩ rfl rfl rfl rfl rfl
    · exact ledger_kept ⟨rfl, rfl, rfl, rfl⟩ rfl rfl rfl rfl rfl
  · split
    · exact ledger_kept ⟨rfl, rfl, rfl, rfl⟩ rfl rfl rfl rfl rfl
    · exact ledger_kept ⟨rfl, rfl, rfl, rfl⟩ rfl rfl rfl rfl rfl

/-! ### Octets handed out -/

/-- The packets `out` leave the front of the ready ones. --/
theorem ledger_gave {out ready' : List Packet} (h : Receiving ip d s.rcv ready pending)
    (h' : Receiving ip d t.rcv ready' pending) (ha : SameAccount s t) (hout : ready = out ++ ready')
    (hx : t.rcv.rxSequence = s.rcv.rxSequence) (hl : t.rcv.rxWindowLastSent = s.rcv.rxWindowLastSent)
    (hw : t.wire = s.wire) (hwindow : t.rcv.rxWindowCurrent.toNat =
        s.rcv.rxWindowCurrent.toNat + (octetsOf out).length ∨
      ready' = [] ∧ t.rcv.rxWindowCurrent = s.rcv.rxWindowDefault) : Ledger ip A s t := by
  have hcredit := h.content.credit
  have hcredit' := h'.content.credit
  have hd := ha.rxWindowDefault
  have hlen := congrArg (fun q => (octetsOf q).length) hout
  simp only [octetsOf_append, List.length_append] at hlen
  refine .single ha (.gave hx ?_ ?_ hl ?_ hw)
  · rcases hwindow with hsum | ⟨-, hopen⟩
    · omega
    · rw [hopen]
      omega
  · omega
  · intro hlevel
    rw [Socket.Level, h.readyPackets] at hlevel
    rw [Socket.Level, h'.readyPackets, hd]
    rcases hwindow with hsum | ⟨rfl, hopen⟩
    · omega
    · rw [hopen, octetsOf_nil]
      rfl

theorem resumeReceivers_ledger (h : Receiving ip d s.rcv ready pending) (header : TcpHeader) :
    let t := (resumeReceivers (BitVec.ofNat 32 ready.length) header s s.rcv.receiveSuspensionList).2
    Ledger ip A s { t with rcv := clearEmptyQueue t.rcv } := by
  obtain ⟨ready', -, hr', -⟩ := resumeReceivers_delivers h header
  have hlen := h.content.length_le
  have hbound := h.content.bound
  have hcredit := h.content.credit
  rw [List.length_append] at hlen
  have hacked : (BitVec.ofNat 32 ready.length).toNat = ready.length := by
    rw [BitVec.toNat_ofNat]
    omega
  obtain ⟨k, hk, -, header', suspended, heq⟩ := resumeReceivers_eq (BitVec.ofNat 32 ready.length) header s _ rfl (by
    rw [hacked, h.queue, List.take_left]
    exact h.content.wf)
  rw [hacked] at hk
  rw [heq] at hr' ⊢
  dsimp only at hr' ⊢
  have htake : s.rcv.receiveQueue.take k = ready.take k := by rw [h.queue, List.take_append_of_le_length hk]
  have hdrop : s.rcv.receiveQueue.drop k = ready.drop k ++ pending := by
    rw [h.queue, List.drop_append_of_le_length hk]
  obtain ⟨head, tail, hclear⟩ : ∃ head tail, clearEmptyQueue (s.handOut k suspended).rcv =
      { (s.handOut k suspended).rcv with receiveQueueHead := head, receiveQueueTail := tail } := by
    unfold clearEmptyQueue
    split
    · exact ⟨none, none, rfl⟩
    · exact ⟨_, _, rfl⟩
  rw [hclear] at hr' ⊢
  have hready' : ready' = ready.drop k := by
    have hqueue := hr'.queue
    change s.rcv.receiveQueue.drop k = ready' ++ pending at hqueue
    rw [hdrop] at hqueue
    exact (List.append_cancel_right hqueue).symm
  refine ledger_gave h hr' ⟨rfl, rfl, rfl, rfl⟩ (by rw [hready', List.take_append_drop]) rfl rfl rfl (.inl ?_)
  show (s.rcv.rxWindowCurrent + BitVec.ofNat 32 (octetsOf (s.rcv.receiveQueue.take k)).length).toNat = _
  have hsplit := congrArg (fun q => (octetsOf q).length) (List.take_append_drop k ready)
  simp only [octetsOf_append, List.length_append] at hsplit
  rw [htake, BitVec.toNat_add, BitVec.toNat_ofNat]
  omega

theorem takeHead_ledger {p : Packet} {ready' : List Packet} (h : Receiving ip d s.rcv (p :: ready') pending) :
    Ledger ip A s { s with rcv := s.rcv.takeHead p (ready' ++ pending), handed := s.handed ++ [p] } := by
  obtain ⟨ready'', -, hr', -⟩ := takeHead_delivers h
  obtain ⟨head, tail, window, heq, -, hwindow⟩ := h.toLinked.takeHead (h.queue.trans List.cons_append)
  have hp := h.content.wf p List.mem_cons_self
  have hcredit := h.content.credit
  have hbound := h.content.bound
  simp only [octetsOf_cons, List.length_append] at hcredit
  rw [heq] at hr' ⊢
  have hready' : ready'' = ready' := (List.append_cancel_right hr'.queue).symm
  subst hready'
  have hout : p :: ready'' = [p] ++ ready'' := rfl
  refine ledger_gave h hr' ⟨rfl, rfl, rfl, rfl⟩ hout rfl rfl rfl ?_
  rcases hwindow with ⟨hnil, rfl⟩ | ⟨-, rfl⟩
  · rw [List.append_eq_nil_iff] at hnil
    exact .inr ⟨hnil.1, rfl⟩
  · refine .inl ?_
    show (s.rcv.rxWindowCurrent + p.dataLength).toNat = _
    rw [BitVec.toNat_add, hp.dataLength_toNat, octetsOf_cons, octetsOf_nil, List.append_nil]
    omega

/-! ### Reading -/

theorem socketReceive_ledger (h : Receiving ip d s.rcv ready pending) (wait : Option Nat) :
    Ledger ip A s (socketReceive ip s wait).2 := by
  have hwait : ∀ thread, Ledger ip A s { s with rcv.receiveSuspensionList := s.rcv.receiveSuspensionList ++ [thread] } :=
    fun thread => ledger_kept ⟨rfl, rfl, rfl, rfl⟩ rfl rfl rfl rfl rfl
  unfold socketReceive
  split
  · exact .refl s
  cases hhead : s.rcv.receiveQueueHead with
  | none =>
    cases wait with
    | none => exact .refl s
    | some thread => exact hwait thread
  | some addr =>
    cases hq : s.rcv.receiveQueue with
    | nil =>
      cases wait with
      | none => exact .refl s
      | some thread => exact hwait thread
    | cons p rest =>
      dsimp only
      by_cases hp : p.ready = true
      · rw [if_pos hp]
        have hqueue := hq
        rw [h.queue] at hqueue
        obtain ⟨ready', rfl, hrest⟩ := h.content.ready_cons hqueue hp
        rw [hrest]
        have htaken : Ledger ip A s _ := takeHead_ledger h
        split
        · exact htaken.trans (ledger_packetSendAck ip _ _)
        · exact htaken
      · rw [if_neg hp]
        cases wait with
        | none => exact .refl s
        | some thread => exact hwait thread

theorem receiveCallback_ledger (reads : Nat) (h : Receiving ip d s.rcv ready pending) :
    Ledger ip A s (receiveCallback ip reads s) := by
  unfold receiveCallback
  induction reads generalizing s ready with
  | zero => exact .refl s
  | succ n ih =>
    rw [Function.iterate_succ_apply]
    obtain ⟨ready', -, hr, -⟩ := socketReceive_delivers h none
    exact (socketReceive_ledger h none).trans (ih hr)

theorem acknowledgeData_ledger (reads : Nat) (h : Receiving ip d s.rcv ready pending) (original : ULONG)
    (header : TcpHeader) (outOfSequence : Bool) :
    Ledger ip A s (acknowledgeData ip reads s original header outOfSequence) := by
  have hread : Ledger ip A s _ := receiveCallback_ledger reads h
  obtain ⟨due, t, heq, ht⟩ : ∃ due t,
      (if original ≠ s.rcv.rxSequence then
        let s := receiveCallback ip reads s
        if s.state = .established ∧ header.has tcpFinBit = false then
          ((ackProgress ip s).1, { s with rcv := (ackProgress ip s).2 })
        else (false, s)
      else (false, s)) = (due, t) ∧ Ledger ip A s t := by
    split
    · dsimp only
      split
      · exact ⟨_, _, rfl, hread.trans (ledger_ackProgress ip _)⟩
      · exact ⟨_, _, rfl, hread⟩
    · exact ⟨_, _, rfl, .refl s⟩
  unfold acknowledgeData
  dsimp only at heq ⊢
  rw [heq]
  exact .ite (ht.trans (ledger_packetSendAck ip t _)) ht

/-! ### Octets taken in -/

/-- Where the packet is queued, the window is left alone. --/
theorem queuePacket_kept (ip : Ip) (s : Socket) (a : Arrival) (htaken : (queuePacket ip s a false).taken = true) :
    SameAccount s (queuePacket ip s a false).socket ∧
      (queuePacket ip s a false).socket.rcv.rxWindowCurrent = s.rcv.rxWindowCurrent ∧
      (queuePacket ip s a false).socket.rcv.rxWindowLastSent = s.rcv.rxWindowLastSent ∧
      (queuePacket ip s a false).socket.wire = s.wire := by
  have hremember : ∀ a : Arrival, SameAccount s (rememberRecent s a) ∧
      (rememberRecent s a).rcv.rxWindowCurrent = s.rcv.rxWindowCurrent ∧
      (rememberRecent s a).rcv.rxWindowLastSent = s.rcv.rxWindowLastSent ∧ (rememberRecent s a).wire = s.wire := by
    intro a
    unfold rememberRecent
    split
    · exact ⟨⟨rfl, rfl, rfl, rfl⟩, rfl, rfl, rfl⟩
    · exact ⟨.refl s, rfl, rfl, rfl⟩
  unfold queuePacket at htaken ⊢
  dsimp only at htaken ⊢
  split
  · unfold queueInOrder
    rw [if_neg (by decide)]
    dsimp only
    split
    · exact ⟨⟨rfl, rfl, rfl, rfl⟩, rfl, rfl, rfl⟩
    · exact ⟨⟨rfl, rfl, rfl, rfl⟩, rfl, rfl, rfl⟩
  · rename_i hin
    rw [if_neg hin] at htaken
    split
    · unfold queueFirst
      rw [if_neg (by decide)]
      exact ⟨⟨rfl, rfl, rfl, rfl⟩, rfl, rfl, rfl⟩
    · rename_i hhead
      rw [if_neg hhead] at htaken
      unfold queueOutOfOrder at htaken ⊢
      dsimp only at htaken ⊢
      split
      · rename_i hdup
        rw [if_pos hdup] at htaken
        cases htaken
      · obtain ⟨⟨h₁, h₂, h₃, h₄⟩, h₅, h₆, h₇⟩ := hremember { a with packet := { a.packet with ready := false } }
        exact ⟨⟨h₁, h₂, h₃, h₄⟩, h₅, h₆, h₇⟩

/-- A duplicate is answered. --/
theorem queueOutOfOrder_left (ip : Ip) (s : Socket) (a : Arrival) (hleft : AckOnly s (queueOutOfOrder ip s a false).socket)
    (htaken : (queueOutOfOrder ip s a false).taken = false) : Ledger ip A s (queueOutOfOrder ip s a false).socket := by
  have ha : Ledger ip A s (rememberRecent s a) := ledger_rememberRecent s a
  have hqa := (ackOnly_rememberRecent s a).rcv.queue
  unfold queueOutOfOrder at htaken hleft ⊢
  dsimp only at htaken hleft ⊢
  generalize rememberRecent s a = s₁ at htaken hleft ha hqa ⊢
  generalize placePacket a.packet a.beginSequence a.endSequence true s₁.rcv.receiveQueue = placed at htaken hleft ⊢
  by_cases hdup : placed.duplicate = true
  · rw [if_pos hdup] at hleft ⊢
    have hanswer : ∀ t : Socket, AckOnly t (packetSendAck ip (dsackRecord t a.beginSequence a.endSequence)
        (dsackRecord t a.beginSequence a.endSequence).snd.txSequence) := fun t =>
      (ackOnly_dsackRecord t _ _).trans (ackOnly_packetSendAck ip _ _)
    have hq : placed.queue = s₁.rcv.receiveQueue := by
      rw [hqa, ← hleft.rcv.queue]
      exact (hanswer { s₁ with rcv := { s₁.rcv with
        receiveQueue := placed.queue
        receiveQueueCount := s₁.rcv.receiveQueueCount - BitVec.ofNat 32 placed.released } }).rcv.queue.symm
    refine ((ha.trans ?_).trans (ledger_dsackRecord _ _ _)).trans (ledger_packetSendAck ip _ _)
    exact ledger_kept ⟨rfl, rfl, rfl, rfl⟩ rfl rfl rfl hq rfl
  · rw [if_neg hdup] at htaken
    cases htaken

/-- A packet left with the caller is answered. --/
theorem queuePacket_left (ip : Ip) (s : Socket) (a : Arrival) (hleft : AckOnly s (queuePacket ip s a false).socket)
    (htaken : (queuePacket ip s a false).taken = false) : Ledger ip A s (queuePacket ip s a false).socket := by
  unfold queuePacket at htaken hleft ⊢
  dsimp only at htaken hleft ⊢
  split
  · rename_i hin
    rw [if_pos hin] at htaken
    unfold queueInOrder at htaken
    rw [if_neg (by decide)] at htaken
    cases htaken
  · rename_i hin
    rw [if_neg hin] at htaken hleft
    split
    · rename_i hhead
      rw [if_pos hhead] at htaken
      unfold queueFirst at htaken
      rw [if_neg (by decide)] at htaken
      cases htaken
    · rename_i hhead
      rw [if_neg hhead] at htaken hleft
      exact queueOutOfOrder_left ip s _ hleft htaken

/-- A packet taken is debited. --/
theorem queuePacket_took {a : Arrival} {p : Packet} (h : Receiving ip s.rcv.rxSequence s.rcv ready pending)
    (hs : (queuePacket ip s a false).Settles ip s ready pending p false)
    (htaken : (queuePacket ip s a false).taken = true)
    (hA : A ((queuePacket ip s a false).socket.rcv.rxSequence - s.rcv.rxSequence)) :
    Ledger ip A s ((queuePacket ip s a false).debited s.rcv.rxSequence false) := by
  obtain ⟨⟨hm, hd, hcap, hscale⟩, hc, hl, hw⟩ := queuePacket_kept ip s a htaken
  obtain ⟨front, rest, hp, hr, -⟩ := hs
  obtain ⟨out, hmoved⟩ := hp.moved
  generalize queuePacket ip s a false = q at hm hd hcap hscale hc hl hw hp hr hmoved hA ⊢
  generalize hn : q.socket.rcv.rxSequence - s.rcv.rxSequence = n at hA
  have hdebit : (debitWindow q.socket.rcv s.rcv.rxSequence false) = { q.socket.rcv with
      rxWindowCurrent := s.rcv.rxWindowCurrent - n
      rxWindowLastSent := if s.rcv.rxWindowLastSent > n then s.rcv.rxWindowLastSent - n else 0 } := by
    unfold debitWindow
    rw [hc, hl, hn]
    split
    · rfl
    · rename_i hsame
      have hx : s.rcv.rxSequence = q.socket.rcv.rxSequence := by
        by_contra hne
        exact hsame ⟨hne, rfl⟩
      have hz : n = 0 := by
        rw [← hn, ← hx]
        exact BitVec.sub_self _
      subst hz
      have hlast : (if s.rcv.rxWindowLastSent > 0 then s.rcv.rxWindowLastSent - 0 else 0) = q.socket.rcv.rxWindowLastSent := by
        rw [hl]
        split
        · exact BitVec.sub_zero _
        · rename_i hle
          rw [gt_iff_lt, BitVec.lt_def] at hle
          apply BitVec.eq_of_toNat_eq
          simp at hle ⊢
          omega
      have hcurrent : s.rcv.rxWindowCurrent - 0 = q.socket.rcv.rxWindowCurrent := (BitVec.sub_zero _).trans hc.symm
      rw [hlast, hcurrent]
  have hx : n = BitVec.ofNat 32 (octetsOf front).length := by
    have hrx := hmoved.rxSequence
    rw [Queued.debited, hdebit] at hrx
    rw [← hn, hrx]
    grind
  have hnat : n.toNat = (octetsOf front).length := by
    have := hmoved.bounded
    rw [hx, BitVec.toNat_ofNat]
    omega
  have hcredit := hr.content.credit
  have hbound := hr.content.bound
  simp only [octetsOf_append, octetsOf_markReady, List.length_append] at hcredit
  unfold Queued.debited at hr hcredit hbound ⊢
  rw [hdebit] at hr hcredit hbound ⊢
  have hroom : n.toNat ≤ s.rcv.rxWindowCurrent.toNat := by
    by_contra hgt
    have hn₂ := n.isLt
    have hsub := BitVec.toNat_sub s.rcv.rxWindowCurrent n
    dsimp only at hcredit hbound
    omega
  refine .single ⟨hm, hd, hcap, hscale⟩ (.took n hA hroom ?_ rfl rfl ?_ hw)
  · show q.socket.rcv.rxSequence = _
    rw [← hn]
    grind
  · rw [hr.readyPackets, h.readyPackets, hnat]
    simp only [octetsOf_append, octetsOf_markReady, List.length_append]

theorem limitOutOfOrder_ledger {acked : ULONG} (h : Receiving ip s.rcv.rxSequence s.rcv ready pending)
    (hacked : acked = BitVec.ofNat 32 ready.length) : ∃ pending',
      Receiving ip s.rcv.rxSequence (limitOutOfOrder ip s.rcv acked) ready pending' ∧
      Ledger ip A s { s with rcv := limitOutOfOrder ip s.rcv acked } := by
  obtain ⟨head, tail, queue, count, pending', heq, hr, -⟩ := h.limitOutOfOrder hacked
  refine ⟨pending', hr, ?_⟩
  have hready := hr.readyPackets
  rw [heq] at hready ⊢
  exact .single ⟨rfl, rfl, rfl, rfl⟩ (.kept (.inl rfl) rfl rfl (by rw [hready, h.readyPackets]) rfl)

/-- Up to the acknowledgment. --/
theorem settled_ledger {q : Queued} {p : Packet} (hs : q.Settles ip s ready pending p false)
    (hl : Ledger ip A s (q.debited s.rcv.rxSequence false)) (header : TcpHeader) :
    ∃ d ready' pending', Receiving ip d (settled ip q s.rcv.rxSequence header).2.rcv ready' pending' ∧
      Ledger ip A s (settled ip q s.rcv.rxSequence header).2 := by
  obtain ⟨front, rest, -, hr, hacked⟩ := hs
  have hacked' : q.acked = BitVec.ofNat 32 (ready ++ front.map Packet.markReady).length := by simp [hacked]
  obtain ⟨pending', hr₁, hl₁⟩ := limitOutOfOrder_ledger (A := A) hr hacked'
  have hr₂ := resumeReceivers_delivers (s := { q.debited s.rcv.rxSequence false with
    rcv := limitOutOfOrder ip (q.debited s.rcv.rxSequence false).rcv q.acked }) hr₁ header
  have hl₂ : Ledger ip A _ _ := resumeReceivers_ledger (s := { q.debited s.rcv.rxSequence false with
    rcv := limitOutOfOrder ip (q.debited s.rcv.rxSequence false).rcv q.acked }) hr₁ header
  rw [← hacked'] at hr₂ hl₂
  obtain ⟨ready', -, hr', -⟩ := hr₂
  exact ⟨_, ready', pending', hr', (hl.trans hl₁).trans hl₂⟩

/-! ### The data check -/

theorem ledger_answerEmpty (ip : Ip) (s : Socket) (a : Arrival) (original : ULONG) :
    Ledger ip A s (answerEmpty ip s a original) :=
  .ite (ledger_packetSendAck ip s _) (.ite (ledger_packetSendAck ip s _) (.refl s))

/-- What the data check is given, and does not drop: the entries it makes, up to the half-window test and to its end. --/
theorem socketStateDataCheck_ledger (reads : Nat) {p : Packet} (h : Receiving ip s.rcv.rxSequence s.rcv ready pending)
    (hwf : p.WellFormed) (hp : p.octets ≠ [] → p.Enters s.rcv) (hkeep : dataDropped ip s p = false)
    (hA : A ((dataQueued ip s p).socket.rcv.rxSequence - s.rcv.rxSequence)) :
    Ledger ip A s (socketStateDataCheck ip reads s p) ∧
      ∀ u ∈ reopenTested ip s p, Ledger ip A s u := by
  have htrim : Ledger ip A s (queueingSocket s p) := (ledger_trimToWindow s p).trans (ledger_recordFin _ _)
  by_cases hz : (trimToWindow s p).2.dataLength = 0
  · refine ⟨?_, fun u hu => ?_⟩
    · unfold socketStateDataCheck
      dsimp only
      rw [if_pos hz]
      exact htrim.trans (ledger_answerEmpty ip _ _ _)
    · rw [reopenTested, if_neg (fun hc => hc.1 hz)] at hu
      cases hu
  · have hne : p.octets ≠ [] := by
      intro hnil
      apply hz
      have hlen := hwf.dataLength_toNat
      rw [hnil] at hlen
      have hzero : p.dataLength = 0 := BitVec.eq_of_toNat_eq hlen
      rw [trimToWindow_empty hzero]
      exact hzero
    obtain ⟨hack, htrimmed⟩ := trimToWindow_trimmed (hp hne)
    have hfits := htrimmed.fits (hp hne)
    have hfin := hack.recordFin (trimToWindow s p).2
    obtain ⟨hdrop, hlow, hroom⟩ := dropPacket_spec ip (queueingSocket s p)
    have hall := hfin.trans hdrop
    have hask : Ledger ip A s (dropPacket ip (queueingSocket s p)).2 := htrim.trans (ledger_dropPacket ip _)
    have hfalse : (dropPacket ip (queueingSocket s p)).1 = false := by
      rw [dataDropped, Bool.and_eq_false_iff, decide_eq_false_iff_not] at hkeep
      exact hkeep.resolve_left (fun hno => hno hz)
    have hx : (queueingSocket s p).rcv.rxSequence = (dropPacket ip (queueingSocket s p)).2.rcv.rxSequence :=
      hdrop.rcv.rxSequence.symm
    have hxs : (dropPacket ip (queueingSocket s p)).2.rcv.rxSequence = s.rcv.rxSequence := by
      rw [← hx, queueingSocket, rxSequence_recordFin, hack.rcv.rxSequence]
    have hr : Receiving ip (dropPacket ip (queueingSocket s p)).2.rcv.rxSequence
        (dropPacket ip (queueingSocket s p)).2.rcv ready pending := by
      rw [hxs]
      exact (h.recordFin _).sameQueue hall.rcv
    have hf : (trimToWindow s p).2.Fits (dropPacket ip (queueingSocket s p)).2.rcv := (hfits.recordFin _).of_ackOnly hall
    obtain ⟨hleft, htaken⟩ := @queuePacket_sound _ _ _ _ _ false hr hf (fun _ hl => by
      rw [← hr.count, hdrop.rcv.count, hdrop.rcv.maximum]
      exact hroom hfalse hl) (fun hd => absurd hd (by decide))
    rw [← hxs] at hA
    have hqueue : socketStateDataCheck ip reads s p = if (dataQueued ip s p).taken then
        acknowledgeData ip reads
          (settled ip (dataQueued ip s p) (queueingSocket s p).rcv.rxSequence (trimToWindow s p).2.packet.header).2
          (queueingSocket s p).rcv.rxSequence
          (settled ip (dataQueued ip s p) (queueingSocket s p).rcv.rxSequence (trimToWindow s p).2.packet.header).1
          (dataQueued ip s p).outOfSequence
      else (dataQueued ip s p).socket := by
      unfold socketStateDataCheck
      dsimp only
      rw [if_neg hz]
      unfold dataQueued
      unfold queueingSocket at hfalse ⊢
      rw [hfalse]
      rfl
    rw [hqueue]
    unfold reopenTested
    rw [hx]
    cases htake : (dataQueued ip s p).taken with
    | false =>
      refine ⟨?_, fun u hu => ?_⟩
      · rw [if_neg (by decide)]
        exact hask.trans (queuePacket_left ip _ _ (hleft htake) htake)
      · rw [if_neg (fun hc => absurd hc.2 (by decide))] at hu
        cases hu
    | true =>
      obtain ⟨d, ready', pending', hr', hl'⟩ := settled_ledger (htaken htake)
        (queuePacket_took hr (htaken htake) htake hA) (trimToWindow s p).2.packet.header
      refine ⟨?_, fun u hu => ?_⟩
      · rw [if_pos rfl]
        exact (hask.trans hl').trans (acknowledgeData_ledger reads hr' _ _ _)
      · rw [if_pos ⟨hz, rfl⟩] at hu
        cases hu
        exact hask.trans hl'

/-! ### A segment -/

theorem ledger_reopenWindow (h : Receiving ip d s.rcv ready pending) : Ledger ip A s (reopenWindow ip s) := by
  unfold reopenWindow Socket.belowLowWatermark
  split
  · rename_i hempty
    have hq := h.head_none.mp hempty.2.2
    dsimp only
    split
    · exact ledger_asked s _
    · refine .single ⟨rfl, rfl, rfl, rfl⟩ (.gave rfl ?_ (Nat.le_refl _) rfl (fun _ => ?_) rfl)
      · rw [hempty.2.1]
        exact Nat.zero_le _
      · rw [Socket.Level, Receive.readyPackets]
        dsimp only
        rw [hq]
        rfl
  · exact .refl s

theorem ledger_answerOutside (ip : Ip) (s : Socket) (p : Packet) : Ledger ip A s (answerOutside ip s p) := by
  have hrecord : Ledger ip A s (if p.header.has tcpRstBit = false ∧ p.dataLength > 0 ∧
      INT (p.header.sequenceNumber + p.dataLength - s.rcv.rxSequence) ≤ 0 then
      dsackRecord s p.header.sequenceNumber (p.header.sequenceNumber + p.dataLength) else s) :=
    .ite (ledger_dsackRecord s _ _) (.refl s)
  exact .ite (hrecord.trans (ledger_packetSendAck ip _ _)) hrecord

theorem ledger_challengeAck (ip : Ip) (s : Socket) : Ledger ip A s (challengeAck ip s) := by
  refine .ite (.refl s) (.trans ?_ (ledger_packetSendAck ip _ _))
  exact ledger_kept ⟨rfl, rfl, rfl, rfl⟩ rfl rfl rfl rfl rfl

theorem ledger_socketBlockCleanup (s : Socket) : Ledger ip A s (socketBlockCleanup s) :=
  ledger_kept ⟨rfl, rfl, rfl, rfl⟩ rfl rfl rfl rfl rfl

theorem ledger_socketConnectionReset (s : Socket) : Ledger ip A s (socketConnectionReset s) := by
  have hflush : Ledger ip A s (if (socketBlockCleanup s).snd.transmitSent ≠ [] then
      socketTransmitQueueFlush (socketBlockCleanup s) else socketBlockCleanup s) :=
    .ite (ledger_kept ⟨rfl, rfl, rfl, rfl⟩ rfl rfl rfl rfl rfl) (ledger_socketBlockCleanup s)
  exact hflush.trans (ledger_kept ⟨rfl, rfl, rfl, rfl⟩ rfl rfl rfl rfl rfl)

theorem ledger_packetSendRst (ip : Ip) (s : Socket) {h : TcpHeader} (hh : h.has tcpAckBit = true) :
    Ledger ip A s (packetSendRst ip s h) := by
  unfold packetSendRst packetSendControl Socket.packetAllocate
  rw [if_pos hh]
  dsimp only
  split
  · refine .single ⟨rfl, rfl, rfl, rfl⟩ (.sent rfl rfl rfl rfl _ rfl rfl (fun hack => ?_))
    change tcpRstBit &&& tcpAckBit ≠ 0 at hack
    exact absurd hack (by decide)
  · exact ledger_asked s _

theorem ledger_rejectOptions (ip : Ip) (s : Socket) {p : Packet} (hp : p.header.has tcpAckBit = true) :
    Ledger ip A s (rejectOptions ip s p) := by
  unfold rejectOptions
  rw [if_pos hp]
  exact .ite (.refl s) ((ledger_packetSendRst ip s hp).trans (ledger_socketConnectionReset _))

/-- The FIN is taken. --/
theorem ledger_fin {ip : Ip} (s : Socket) (state : State) (x : Transmit) (waiting : List Nat) (txSequence : ULONG) :
    Ledger ip A s (packetSendAck ip { s with
      state := state
      snd := x
      rcv := { s.rcv with rxSequence := s.rcv.rxSequence + 1, receiveSuspensionList := waiting } } txSequence) := by
  refine .trans ?_ (ledger_packetSendAck ip _ _)
  exact .single ⟨rfl, rfl, rfl, rfl⟩ (.kept (.inr rfl) rfl rfl rfl rfl)

theorem socketStateEstablished_ledger (ip : Ip) (s : Socket) : Ledger ip A s (socketStateEstablished ip s) :=
  .ite (ledger_fin s _ s.snd [] _) (.refl s)

theorem socketStateFinWait1_ledger (ip : Ip) (s : Socket) : Ledger ip A s (socketStateFinWait1 ip s) :=
  .ite (ledger_kept ⟨rfl, rfl, rfl, rfl⟩ rfl rfl rfl rfl rfl)
    (.ite (ledger_fin s _ _ s.rcv.receiveSuspensionList _) (.ite (ledger_fin s _ s.snd s.rcv.receiveSuspensionList _) (.refl s)))

theorem socketStateFinWait2_ledger (ip : Ip) (s : Socket) : Ledger ip A s (socketStateFinWait2 ip s) :=
  .ite (ledger_fin s _ _ s.rcv.receiveSuspensionList _) (.refl s)

/-- A segment a socket takes in: its entries, and the ones up to the half-window test. --/
def Takes (ip : Ip) (A : ULONG → Prop) (s t : Socket) (checked : Option Socket) (p : Packet) : Prop :=
  Ledger ip A s t ∧ ∀ u ∈ checked, ∀ v ∈ reopenTested ip u p, Ledger ip A s v

theorem Ledger.takes_none {p : Packet} (h : Ledger ip A s t) : Takes ip A s t none p :=
  ⟨h, fun _ hu => by cases hu⟩

theorem Ledger.takes_trans {checked : Option Socket} {p : Packet} (h : Ledger ip A s t) (h' : Takes ip A t u checked p) :
    Takes ip A s u checked p := ⟨h.trans h'.1, fun v hv w hw => h.trans (h'.2 v hv w hw)⟩

/-- The states that take data. --/
def State.takesData (x : State) : Prop := x = .established ∨ x = .finWait1 ∨ x = .finWait2

instance (x : State) : Decidable x.takesData := by
  unfold State.takesData
  infer_instance

theorem socketStateDispatch_ledger (reads : Nat) {p : Packet} {checked : Option Socket}
    (hsome : s.state.takesData → checked = some s) (hnone : ¬s.state.takesData → checked = none)
    (hdata : s.state.takesData → Ledger ip A s (socketStateDataCheck ip reads s p) ∧
      ∀ v ∈ reopenTested ip s p, Ledger ip A s v) :
    Takes ip A s (socketStateDispatch ip reads s p) checked p := by
  have htakes : ∀ (finish : Socket → Socket), s.state.takesData → (∀ t : Socket, Ledger ip A t (finish t)) →
      Takes ip A s (finish (socketStateDataCheck ip reads s p)) checked p := by
    intro finish hstate hfinish
    obtain ⟨hcheck, htest⟩ := hdata hstate
    rw [hsome hstate]
    refine ⟨hcheck.trans (hfinish _), ?_⟩
    rintro u hu v hv
    cases hu
    exact htest v hv
  have hquiet : ¬s.state.takesData → ∀ {t : Socket}, Ledger ip A s t → Takes ip A s t checked p := by
    intro hstate t ht
    rw [hnone hstate]
    exact ht.takes_none
  unfold socketStateDispatch
  cases hstate : s.state with
  | established => exact htakes _ (.inl hstate) (socketStateEstablished_ledger ip)
  | finWait1 => exact htakes _ (.inr (.inl hstate)) (socketStateFinWait1_ledger ip)
  | finWait2 => exact htakes _ (.inr (.inr hstate)) (socketStateFinWait2_ledger ip)
  | closing =>
    refine hquiet (by rw [hstate]; decide) (.ite ?_ (.refl s))
    exact ledger_kept ⟨rfl, rfl, rfl, rfl⟩ rfl rfl rfl rfl rfl
  | lastAck => exact hquiet (by rw [hstate]; decide) (.ite (ledger_socketBlockCleanup s) (.refl s))
  | timedWait =>
    refine hquiet (by rw [hstate]; decide) (.ite (.trans ?_ (ledger_packetSendAck ip _ _)) (.refl s))
    exact ledger_kept ⟨rfl, rfl, rfl, rfl⟩ rfl rfl rfl rfl rfl
  | closeWait | closed | listen | synSent | synReceived => exact hquiet (by rw [hstate]; decide) (.refl s)

theorem processAccepted_ledger (reads : Nat) {p : Packet} (h : Receiving ip d s.rcv ready pending)
    (hd : s.state.connected → s.state.finTaken = false → d = s.rcv.rxSequence) (hp : p.WellFormed)
    (henter : s.state.connected → s.state.finTaken = false → p.octets ≠ [] → p.Enters s.rcv)
    (hkeep : ∀ u ∈ dataCheckedAccepted ip s p, dataDropped ip u p = false ∧
      A ((dataQueued ip u p).socket.rcv.rxSequence - u.rcv.rxSequence)) :
    Takes ip A s (processAccepted ip reads s p) (dataCheckedAccepted ip s p) p := by
  have hget : Sending ip FreeFlight s (sackOptionGet s p.options) := sending_sackOptionGet s p.options
  have hoption : Sending ip FreeFlight s (if p.header.has tcpAckBit ∧ p.header.headerLength > 20 then
    sackOptionGet s p.options else s) := .ite hget (.refl s)
  unfold dataCheckedAccepted at hkeep ⊢
  unfold processAccepted
  dsimp only at hkeep ⊢
  generalize (if p.header.has tcpAckBit = true ∧ p.header.headerLength > 20 then sackOptionGet s p.options
    else s) = s₁ at hoption hkeep ⊢
  have hcheck := hoption.trans (sending_socketStateAckCheck ip s₁ p.header)
  have hyes : (socketStateAckCheck ip s₁ p.header).1 ≠ false → p.header.has tcpAckBit = true := by
    intro hyes
    by_contra hno
    apply hyes
    unfold socketStateAckCheck
    rw [if_neg hno]
  generalize socketStateAckCheck ip s₁ p.header = res at hcheck hyes hkeep ⊢
  obtain ⟨accepted, s₂⟩ := res
  dsimp only at hcheck hyes hkeep ⊢
  have hl : Ledger ip A s s₂ := hcheck.ledger
  have haside := hcheck.aside
  by_cases haccept : accepted = false
  · rw [if_pos haccept, if_pos haccept]
    exact hl.takes_none
  rw [if_neg haccept] at hkeep ⊢
  rw [if_neg haccept]
  by_cases hlegal : p.header.headerLength > 20 ∧ mssOptionLegal p.options = false
  · rw [if_pos hlegal, if_pos hlegal]
    exact (hl.trans (ledger_rejectOptions ip s₂ (hyes haccept))).takes_none
  rw [if_neg hlegal] at hkeep ⊢
  rw [if_neg hlegal]
  refine hl.takes_trans (socketStateDispatch_ledger reads (fun hstate => if_pos hstate) (fun hstate => if_neg hstate) ?_)
  intro hstate
  obtain ⟨hdrop, hA⟩ := hkeep s₂ (if_pos hstate)
  obtain ⟨hc, hf⟩ : s₂.state.connected ∧ s₂.state.finTaken = false := by
    rcases hstate with hs | hs | hs
    · rw [hs]
      exact ⟨by decide, rfl⟩
    · rw [hs]
      exact ⟨by decide, rfl⟩
    · rw [hs]
      exact ⟨by decide, rfl⟩
  rw [haside.state] at hc hf
  have hdx : d = s₂.rcv.rxSequence := by
    rw [haside.rcv.rxSequence]
    exact hd hc hf
  subst hdx
  exact socketStateDataCheck_ledger reads (h.sameQueue haside.rcv) hp
    (fun hne => (henter hc hf hne).sameQueue haside.rcv) hdrop hA

/-- `_nx_tcp_socket_packet_process` on the account. --/
theorem socketPacketProcess_ledger (reads : Nat) {p : Packet} (h : Receiving ip d s.rcv ready pending)
    (hd : s.state.connected → s.state.finTaken = false → d = s.rcv.rxSequence) (hp : p.WellFormed)
    (hfresh : p.addr ∉ s.rcv.receiveQueue.map (·.addr))
    (hkeep : ∀ u ∈ dataChecked ip s p, dataDropped ip u p = false ∧
      A ((dataQueued ip u p).socket.rcv.rxSequence - u.rcv.rxSequence)) :
    Takes ip A s (socketPacketProcess ip reads s p) (dataChecked ip s p) p := by
  have hreopen := undisturbed_reopenWindow ip s
  have hl : Ledger ip A s (reopenWindow ip s) := ledger_reopenWindow h
  have hstate := state_reopenWindow ip s
  have hwindow : ∀ value, (∀ u ∈ dataCheckedWindow ip s p value, dataDropped ip u p = false ∧
      A ((dataQueued ip u p).socket.rcv.rxSequence - u.rcv.rxSequence)) →
      Takes ip A s (processWindow ip reads s p value) (dataCheckedWindow ip s p value) p := by
    intro value hkeep
    unfold dataCheckedWindow at hkeep ⊢
    unfold processWindow
    dsimp only at hkeep ⊢
    have hr := hreopen.receiving h
    generalize reopenWindow ip s = s₀ at hreopen hl hstate hr hkeep ⊢
    split
    · exact (hl.trans (ledger_answerOutside ip s₀ p)).takes_none
    rename_i haccept
    rw [if_neg haccept] at hkeep
    have htime := ackOnly_recordTimestamp s₀ p value
    have hund : Undisturbed ip s (recordTimestamp s₀ p value) := hreopen.trans htime.undisturbed
    have hlt : Ledger ip A s (recordTimestamp s₀ p value) := hl.trans (ledger_recordTimestamp s₀ p value)
    by_cases hrst : p.header.has tcpRstBit = true
    · have hnone : p.header.has tcpRstBit = true ∨ p.header.has tcpSynBit = true := .inl hrst
      rw [if_pos hrst, if_pos hnone]
      exact Ledger.takes_none (.ite hlt (.ite (hlt.trans (ledger_challengeAck ip _))
        (hlt.trans (ledger_socketConnectionReset _))))
    rw [if_neg hrst]
    by_cases hsyn : p.header.has tcpSynBit = true
    · have hnone : p.header.has tcpRstBit = true ∨ p.header.has tcpSynBit = true := .inr hsyn
      rw [if_pos hsyn, if_pos hnone]
      exact (hlt.trans (ledger_challengeAck ip _)).takes_none
    · have hnone : ¬(p.header.has tcpRstBit = true ∨ p.header.has tcpSynBit = true) := fun hc => hc.elim hrst hsyn
      rw [if_neg hnone] at hkeep ⊢
      rw [if_neg hsyn]
      have hfresh₀ : p.addr ∉ s₀.rcv.receiveQueue.map (·.addr) := by
        rw [hr.queue, ← h.queue]
        exact hfresh
      refine hlt.takes_trans (processAccepted_ledger reads (hund.receiving h)
        (by rw [htime.state, hstate, hund.rxSequence]; exact hd) hp ?_ hkeep)
      intro _ _ hne
      exact (enters_of_accepted hr hp hfresh₀ hne (by simpa using haccept)).sameQueue htime.rcv
  unfold dataChecked at hkeep ⊢
  unfold socketPacketProcess
  generalize packetTimestamp ip s p = stamp at hkeep ⊢
  cases stamp with
  | some value =>
    dsimp only at hkeep ⊢
    by_cases hold : p.header.has tcpRstBit = false ∧ INT (value - s.rcv.tsRecent) < 0
    · rw [if_pos hold, if_pos hold]
      exact (ledger_packetSendAck ip s _).takes_none
    · rw [if_neg hold] at hkeep ⊢
      rw [if_neg hold]
      exact hwindow _ hkeep
  | none => exact hwindow _ hkeep

/-! ### Closing and the timer -/

theorem ledger_disconnectFinish (s : Socket) : Ledger ip A s (disconnectFinish s) := by
  have hflush : Ledger ip A s (if s.snd.transmitSent ≠ [] then socketTransmitQueueFlush s else s) :=
    .ite (ledger_kept ⟨rfl, rfl, rfl, rfl⟩ rfl rfl rfl rfl rfl) (.refl s)
  exact hflush.trans (ledger_kept ⟨rfl, rfl, rfl, rfl⟩ rfl rfl rfl rfl rfl)

theorem ledger_packetSendFin (ip : Ip) (s : Socket) (txSequence : ULONG) : Ledger ip A s (packetSendFin ip s txSequence) :=
  (sending_packetSendControl (F := FreeFlight) ip s (fun _ => trivial) _ _ _ _).ledger

theorem ledger_socketDisconnect (ip : Ip) (s : Socket) (wait ipThread : Bool) :
    Ledger ip A s (socketDisconnect ip s wait ipThread) := by
  have hfin : Ledger ip A s (disconnectFin ip s) := by
    refine .trans ?_ (ledger_packetSendFin ip _ _)
    exact ledger_kept ⟨rfl, rfl, rfl, rfl⟩ rfl rfl rfl rfl rfl
  have hrst : Ledger ip A s (packetSendRst ip s ⟨s.rcv.rxSequence, s.snd.txSequence, tcpAckBit, 0⟩) := by
    refine ledger_packetSendRst ip s ?_
    show (tcpAckBit &&& tcpAckBit != 0) = true
    decide
  exact .ite (.refl s) (.ite ((hrst.trans (ledger_socketBlockCleanup _)).trans (ledger_disconnectFinish _))
    (.ite (hfin.trans (ledger_kept ⟨rfl, rfl, rfl, rfl⟩ rfl rfl rfl rfl rfl))
      (hfin.trans (ledger_disconnectFinish _))))

theorem ledger_disconnectResume (s : Socket) : Ledger ip A s (disconnectResume s) := by
  have hclear : Ledger ip A s { s with disconnectSuspended := false } :=
    ledger_kept ⟨rfl, rfl, rfl, rfl⟩ rfl rfl rfl rfl rfl
  have hclose : Ledger ip A s (if s.state = .timedWait then { s with disconnectSuspended := false }
      else socketBlockCleanup { s with disconnectSuspended := false }) :=
    .ite hclear (hclear.trans (ledger_socketBlockCleanup _))
  exact .ite (hclose.trans (ledger_disconnectFinish _)) (.refl s)

theorem ledger_delayedAck (ip : Ip) (s : Socket) : Ledger ip A s (delayedAck ip s) := by
  have hcounter : ∀ n : ULONG, Ledger ip A s { s with rcv.ackNPacketCounter := n } := fun n =>
    ledger_kept ⟨rfl, rfl, rfl, rfl⟩ rfl rfl rfl rfl rfl
  unfold delayedAck
  exact .ite (.ite ((Ledger.ite (hcounter _) (.refl s)).trans (ledger_packetSendAck ip _ _))
    (ledger_kept ⟨rfl, rfl, rfl, rfl⟩ rfl rfl rfl rfl rfl)) (.refl s)

theorem ledger_snd (s : Socket) (x : Transmit) : Ledger ip A s { s with snd := x } :=
  ledger_kept ⟨rfl, rfl, rfl, rfl⟩ rfl rfl rfl rfl rfl

theorem ledger_fastPeriodicProcessing (ip : Ip) (s : Socket) : Ledger ip A s (fastPeriodicProcessing ip s) := by
  have hresend : ∀ s : Socket, Ledger ip A s (socketRetransmit ip s false) := fun s =>
    (sending_socketRetransmit ip s false).ledger
  have htimeout : ∀ s : Socket, Ledger ip A s (retransmitTimeout ip s) := by
    intro s
    unfold retransmitTimeout
    refine .ite (.trans ?_ (hresend _)) (.ite (.trans ?_ (ledger_packetSendFin ip _ _))
      (.ite (ledger_socketBlockCleanup s) (.refl s)))
    · exact ledger_snd s _
    · exact ledger_snd s _
  have htimer : ∀ s : Socket, Ledger ip A s (retransmitTimer ip s) := by
    intro s
    unfold retransmitTimer
    have htick : Ledger ip A s { s with snd.stallTicks := s.snd.stallTicks + ip.tcpFastTimerRate } := ledger_snd s _
    exact .ite (.ite (htick.trans (ledger_socketConnectionReset _)) (.ite (htick.trans (ledger_snd _ _))
      (.ite (htick.trans (ledger_socketConnectionReset _)) (htick.trans (htimeout _))))) (ledger_snd s _)
  exact (ledger_delayedAck ip s).trans (htimer _)

/-! ### A step -/

/-- What the segment of a step brings is not dropped, and `A` bounds it. --/
def Action.Kept (ip : Ip) (A : ULONG → Prop) (s : Socket) (a : Action) : Prop :=
  a.drops ip s = false ∧ ∀ p ∈ a.arrived, ∀ u ∈ dataChecked ip s p,
    A ((dataQueued ip u p).socket.rcv.rxSequence - u.rcv.rxSequence)

/-- Every step that drops nothing, on the account: its entries, and the ones up to the half-window test. --/
theorem step_ledger (a : Action) (h : Receiving ip d s.rcv ready pending)
    (hd : s.state.connected → s.state.finTaken = false → d = s.rcv.rxSequence) (ha : a.Fresh s)
    (hkeep : a.Kept ip A s) : Ledger ip A s (step ip s a) ∧ ∀ v ∈ a.tested ip s, Ledger ip A s v := by
  have hquiet : a.tested ip s = none → ∀ {t : Socket}, Ledger ip A s t →
      Ledger ip A s t ∧ ∀ v ∈ a.tested ip s, Ledger ip A s v := by
    intro hnone t ht
    refine ⟨ht, fun v hv => ?_⟩
    rw [hnone] at hv
    cases hv
  cases a with
  | segment p reads =>
    obtain ⟨hp, hfresh⟩ := ha p (List.mem_singleton_self p)
    obtain ⟨hdrop, hA⟩ := hkeep
    simp only [step]
    by_cases hc : State.established.code ≤ s.state.code
    · have hconnected : s.state.connected := hc
      obtain ⟨hl, htest⟩ := socketPacketProcess_ledger reads h hd hp hfresh (A := A) (fun u hu => by
        refine ⟨?_, hA p (List.mem_singleton_self p) u hu⟩
        rw [Action.drops, decide_eq_true hconnected, Bool.true_and, Option.any_eq_false] at hdrop
        simpa using hdrop u hu)
      refine ⟨by rw [if_pos hc]; exact hl, fun v hv => ?_⟩
      rw [Action.tested, if_pos hconnected] at hv
      obtain ⟨u, hu, hv⟩ := Option.mem_bind_iff.mp hv
      exact htest u hu v hv
    · rw [if_neg hc]
      exact hquiet (if_neg hc) (.refl s)
  | receive wait => exact hquiet rfl (socketReceive_ledger h wait)
  | send octets addr copies wait => exact hquiet rfl (sending_socketSend ip s octets addr copies wait).ledger
  | transmitCheck waiting => exact hquiet rfl (sending_socketStateTransmitCheck ip s waiting).ledger
  | disconnect wait ipThread => exact hquiet rfl (ledger_socketDisconnect ip s wait ipThread)
  | disconnectResume => exact hquiet rfl (ledger_disconnectResume s)
  | timer => exact hquiet rfl (ledger_fastPeriodicProcessing ip s)
  | transmitted addr => exact hquiet rfl (ledger_snd s _)

end

end Netxduo
