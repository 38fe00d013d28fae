import Mathlib.Data.List.Nodup
import Mathlib.Data.List.Forall2
import Netxduo.Tcp.Progress

/-! Queueing the data of a segment: in order, ahead of an empty queue, or among the queued packets; and
    the drop for want of room. Each leaves the receive half as `Receiving` says. -/

namespace Netxduo
open Serial Spans

/-! ### The segment -/

/-- A segment with data, all of it inside the window, in a packet that is not queued. --/
structure Arrival.Fits (a : Arrival) (r : Receive) : Prop where
  wf : a.packet.WellFormed
  beginSequence : a.beginSequence = a.packet.beginSequence
  endSequence : a.endSequence = a.packet.endSequence
  lower : 0 ≤ a.packet.lo r.rxSequence
  nonempty : a.packet.lo r.rxSequence < a.packet.hi r.rxSequence
  upper : a.packet.hi r.rxSequence ≤ r.rxWindowCurrent.toNat
  fresh : a.packet.addr ∉ r.receiveQueue.map (·.addr)

/-! ### The window -/

theorem debitWindow_eq {r : Receive} (original : ULONG) {y : Nat} (h : rel original r.rxSequence = y)
    (hy : y ≤ r.rxWindowCurrent.toNat) :
    ∃ current last, debitWindow r original false = { r with rxWindowCurrent := current, rxWindowLastSent := last } ∧
      current.toNat = r.rxWindowCurrent.toNat - y := by
  have hadv : (r.rxSequence - original).toNat = y := by
    have := toNat_of_int (x := r.rxSequence - original) h (by omega)
    omega
  unfold debitWindow
  split
  · refine ⟨_, _, rfl, ?_⟩
    rw [BitVec.toNat_sub_of_le (by rw [BitVec.le_def]; omega), hadv]
  · rename_i hsame
    have heq : original = r.rxSequence := by
      by_contra hne
      exact hsame ⟨hne, rfl⟩
    rw [heq, rel_self] at h
    exact ⟨_, _, rfl, by omega⟩

@[simp] theorem debitWindow_drop (r : Receive) (original : ULONG) : debitWindow r original true = r := by
  simp [debitWindow]

/-! ### Counts -/

theorem toNat_add_one {x : ULONG} {n : Nat} (h : x.toNat = n) (hn : n < 2 ^ 30) : (x + 1).toNat = n + 1 := by
  rw [BitVec.toNat_add, h]
  simp
  omega

theorem toNat_sub_ofNat {x : ULONG} {n k : Nat} (h : x.toNat = n) (hk : k ≤ n) :
    (x - BitVec.ofNat 32 k).toNat = n - k := by
  have hx := x.isLt
  have hkk : (BitVec.ofNat 32 k).toNat = k := by
    rw [BitVec.toNat_ofNat]
    omega
  rw [BitVec.toNat_sub_of_le (by rw [BitVec.le_def]; omega), h, hkk]

/-- The end of the contiguous data, `y` octets on. --/
theorem add_of_rel {d e : ULONG} {y : Nat} (h : rel d e = y) : e = d + BitVec.ofNat 32 y := by
  have hy : e - d = BitVec.ofNat 32 y := by
    have h₁ := toNat_of_int (x := e - d) h (by omega)
    have h₂ := (e - d).isLt
    apply BitVec.eq_of_toNat_eq
    rw [BitVec.toNat_ofNat]
    omega
  grind

/-! ### Links -/

section
variable {r : Receive} {p : Packet}

/-- A packet linked behind the tail. --/
theorem Linked.append (h : Linked r) (hlen : r.receiveQueue.length < 2 ^ 30)
    (hfresh : p.addr ∉ r.receiveQueue.map (·.addr)) {r' : Receive} (hq : r'.receiveQueue = r.receiveQueue ++ [p])
    (hcount : r'.receiveQueueCount = r.receiveQueueCount + 1)
    (hhead : r'.receiveQueueHead = if r.receiveQueue = [] then some p.addr else r.receiveQueueHead)
    (htail : r'.receiveQueueTail = some p.addr) : Linked r' := by
  refine ⟨?_, ?_, ?_, ?_⟩
  · rw [hcount, hq, toNat_add_one h.count hlen, List.length_append, List.length_singleton]
  · rw [hhead, hq, h.head]
    cases r.receiveQueue with
    | nil => rfl
    | cons => rfl
  · rw [htail, hq]
    simp
  · rw [hq, List.map_append, List.nodup_append]
    refine ⟨h.nodup, by simp, ?_⟩
    rintro x hx y hy rfl
    rw [List.map_singleton, List.mem_singleton] at hy
    exact hfresh (hy ▸ hx)

theorem Linked.tail_none (h : Linked r) : r.receiveQueueTail = none ↔ r.receiveQueue = [] := by
  rw [h.tail, List.getLast?_eq_none_iff, List.map_eq_nil_iff]

theorem Linked.head_none (h : Linked r) : r.receiveQueueHead = none ↔ r.receiveQueue = [] := by
  rw [h.head, List.head?_eq_none_iff, List.map_eq_nil_iff]

end

/-! ### What the queueing leaves -/

/-- The socket once the window has been debited. --/
def Queued.debited (q : Queued) (original : ULONG) (drop : Bool) : Socket :=
  { q.socket with rcv := debitWindow q.socket.rcv original drop }

@[simp] theorem Queued.debited_drop (q : Queued) (original : ULONG) : q.debited original true = q.socket := by
  simp [Queued.debited]

/-- The packet has been taken: `front` has become ready, and `rest` stands behind a gap. --/
def Queued.Settles (ip : Ip) (s : Socket) (ready pending : List Packet) (p : Packet) (drop : Bool) (q : Queued) :
    Prop :=
  let t := q.debited s.rcv.rxSequence drop
  ∃ front rest, Progress [p] front s ready pending t (ready ++ front.map Packet.markReady) rest ∧
    Receiving ip t.rcv.rxSequence t.rcv (ready ++ front.map Packet.markReady) rest ∧
    q.acked = BitVec.ofNat 32 (ready ++ front).length

section
variable {ip : Ip} {s : Socket} {a : Arrival} {ready pending : List Packet} {p : Packet}

/-- What becomes ready fits the window. --/
theorem Content.bounded_front {e : ULONG} {front rest : List Packet} {window default : Nat}
    (h : Content e (ready ++ front.map Packet.markReady) rest window default) : (octetsOf front).length < 2 ^ 30 := by
  have hcredit := h.credit
  have hbound := h.bound
  simp only [octetsOf_append, octetsOf_markReady, List.length_append] at hcredit
  omega

/-- A change of the receive half that moves no packet forward. --/
theorem progress_rcv (arrived : List Packet) (r : Receive) {pending' : List Packet}
    (hx : r.rxSequence = s.rcv.rxSequence) (hd : r.rxWindowDefault = s.rcv.rxWindowDefault)
    (hf : r.finSequence = s.rcv.finSequence) (hr : r.finReceived = s.rcv.finReceived)
    (hm : r.receiveQueueMaximum = s.rcv.receiveQueueMaximum)
    (hc : ∀ q ∈ pending', ∃ p ∈ arrived ++ pending, q.Cut p) :
    Progress arrived [] s ready pending { s with rcv := r } ready pending' :=
  ⟨⟨rfl, rfl, rfl, rfl, rfl, rfl, hd, hf, hr, hm⟩, [], by simp, by simp, by simp [hx], rfl, by simp, hc, [],
    by simp, by simp⟩

/-- Without room the window closes and nothing else happens. --/
theorem refusePacket_settles (h : Receiving ip s.rcv.rxSequence s.rcv ready []) (p : Packet) (acked : ULONG)
    (hacked : acked = BitVec.ofNat 32 ready.length) (outOfSequence : Bool) :
    Queued.Settles ip s ready [] p true ⟨refusePacket ip s, true, acked, outOfSequence⟩ := by
  have hack := ackOnly_packetSendAck ip
    { s with rcv := { s.rcv with rxWindowCurrent := 0, rxWindowLastSent := 0 } } s.snd.txSequence
  have hclosed : Receiving ip s.rcv.rxSequence { s.rcv with rxWindowCurrent := 0, rxWindowLastSent := 0 }
      ready [] := by
    have hc := h.content
    have hcredit := hc.credit
    refine ⟨h.toLinked.of_addrs rfl rfl rfl rfl, h.queue, ⟨⟨hc.isReady, hc.notReady, hc.wf, hc.tiles, ?_, ?_, hc.bound⟩,
      hc.gap⟩, h.room⟩
    · exact .nil (Int.le_refl _)
    · exact Nat.le_trans (Nat.add_le_add_left (Nat.zero_le _) _) hcredit
  refine ⟨[], [], ?_, ?_, by simp [hacked]⟩
  · have hp := @progress_rcv s ready [] [p]
      { s.rcv with rxWindowCurrent := 0, rxWindowLastSent := 0 } [] rfl rfl rfl rfl rfl (by simp)
    rw [Queued.debited_drop, List.map_nil, List.append_nil]
    exact hp.trans (hack.progress []) (List.nil_subset _)
  · rw [Queued.debited_drop, List.map_nil, List.append_nil]
    have hx : (refusePacket ip s).rcv.rxSequence = s.rcv.rxSequence := hack.rcv.rxSequence
    show Receiving ip (refusePacket ip s).rcv.rxSequence (refusePacket ip s).rcv ready []
    rw [hx]
    exact hclosed.sameQueue hack.rcv

/-- What a packet taken without a drop makes of the receive half, once `front` tiles the octets up to `y`. --/
theorem settles_of_advance (front rest : List Packet) {e : ULONG} {y : Nat} {r : Receive} {outOfSequence : Bool}
    {acked : ULONG} (hkeep : Keeps s { s with rcv := r }) (hx : r.rxSequence = e)
    (hw : r.rxWindowCurrent = s.rcv.rxWindowCurrent) (hlinked : Linked r)
    (hq : r.receiveQueue = ready ++ front.map Packet.markReady ++ rest) (he : rel s.rcv.rxSequence e = y)
    (hy : y ≤ s.rcv.rxWindowCurrent.toNat) (ht : Tiles 0 (spans s.rcv.rxSequence front) y)
    (hc : Content e (ready ++ front.map Packet.markReady) rest (s.rcv.rxWindowCurrent.toNat - y)
      s.rcv.rxWindowDefault.toNat)
    (hcut : ∀ q ∈ front ++ rest, ∃ o ∈ [p] ++ pending, q.Cut o)
    (hacked : acked = BitVec.ofNat 32 (ready ++ front).length)
    (hroom : ip.build.lowWatermark = true → r.receiveQueue.length ≤ r.receiveQueueMaximum.toNat) :
    Queued.Settles ip s ready pending p false ⟨{ s with rcv := r }, true, acked, outOfSequence⟩ := by
  obtain ⟨current, last, hdebit, hcurrent⟩ := debitWindow_eq (r := r) s.rcv.rxSequence (y := y)
    (by rw [hx, he]) (by rw [hw]; exact hy)
  have hlen : (octetsOf front).length = y := by
    have := length_octetsOf ht
    omega
  have hdeb : Queued.debited ⟨{ s with rcv := r }, true, acked, outOfSequence⟩ s.rcv.rxSequence false =
      { s with rcv := { r with rxWindowCurrent := current, rxWindowLastSent := last } } := by
    rw [Queued.debited, hdebit]
  refine ⟨front, rest, ?_, ?_, hacked⟩
  · rw [hdeb]
    refine ⟨⟨rfl, rfl, rfl, rfl, rfl, rfl, hkeep.rxWindowDefault, hkeep.finSequence, hkeep.finReceived,
      hkeep.maximum⟩, [], by simp, by simp, ?_, by rw [hlen]; exact ht, ?_, hcut, [], by simp, by simp⟩
    · rw [hlen, ← add_of_rel he, ← hx]
    · exact hc.bounded_front
  · rw [hdeb]
    refine ⟨hlinked.of_addrs rfl rfl rfl rfl, hq, ?_, hroom⟩
    show Content r.rxSequence _ _ current.toNat r.rxWindowDefault.toNat
    rw [hx, hcurrent, hw, hkeep.rxWindowDefault]
    exact hc

/-- The packet alone, ahead of nothing. --/
theorem Arrival.Fits.within (ha : a.Fits s.rcv) :
    Within s.rcv.rxSequence 0 [a.packet] s.rcv.rxWindowCurrent.toNat :=
  .cons ha.wf ha.lower ha.nonempty (.nil ha.upper)

theorem Arrival.Fits.lt_bound (ha : a.Fits s.rcv) (h : Receiving ip s.rcv.rxSequence s.rcv ready pending) :
    a.packet.hi s.rcv.rxSequence < 2 ^ 30 := by
  have h₁ := h.content.credit
  have h₂ := h.content.bound
  have h₃ := ha.upper
  omega

theorem Arrival.Fits.located (ha : a.Fits s.rcv) (h : Receiving ip s.rcv.rxSequence s.rcv ready pending) :
    a.packet.Located s.rcv.rxSequence :=
  ha.within.located (b := s.rcv.rxWindowCurrent.toNat) (by decide) (by
    have h₁ := h.content.credit
    have h₂ := h.content.bound
    omega) List.mem_cons_self

theorem Receiving.length_lt (h : Receiving ip s.rcv.rxSequence s.rcv ready pending) :
    s.rcv.receiveQueue.length < 2 ^ 30 := by
  have h₁ := h.content.length_le
  have h₂ := h.content.bound
  rw [h.queue]
  omega

/-! ### In order -/

theorem queueInOrder_settles (h : Receiving ip s.rcv.rxSequence s.rcv ready []) (ha : a.Fits s.rcv)
    (hready : a.packet.ready = false) (hseq : a.packet.header.sequenceNumber = s.rcv.rxSequence)
    (hroom : ip.build.lowWatermark = true → s.rcv.receiveQueue.length < s.rcv.receiveQueueMaximum.toNat) :
    (queueInOrder ip s a false).Settles ip s ready [] a.packet false := by
  have hloc := ha.located h
  have hlt := ha.lt_bound h
  have hlo : a.packet.lo s.rcv.rxSequence = 0 := by
    rw [Packet.lo, Packet.beginSequence, hseq, rel_self]
  have hhi : a.packet.hi s.rcv.rxSequence = a.packet.octets.length := by
    rw [Packet.hi, hlo]
    omega
  have hc := h.content
  have hstaged : Staged s.rcv.rxSequence ready ([a.packet] ++ []) s.rcv.rxWindowCurrent.toNat
      s.rcv.rxWindowDefault.toNat := by
    refine ⟨hc.isReady, ?_, hc.wf, hc.tiles, ha.within, hc.credit, hc.bound⟩
    intro p hp
    rw [List.mem_singleton.mp hp]
    exact hready
  have he : rel s.rcv.rxSequence a.endSequence = a.packet.octets.length := by
    rw [ha.endSequence, hloc.rel_end, hhi]
  have htiles : Tiles 0 (spans s.rcv.rxSequence [a.packet]) a.packet.octets.length :=
    ⟨hlo, ha.nonempty, hhi⟩
  have hupper := ha.upper
  have hcontent := hstaged.advance htiles (.nil (by omega)) (fun p hp => absurd hp List.not_mem_nil) he
  obtain ⟨timeout, heq⟩ : ∃ timeout, queueInOrder ip s a false =
      ⟨{ s with rcv := { s.rcv with
        receiveQueue := s.rcv.receiveQueue ++ [{ a.packet with ready := true }]
        receiveQueueHead := if s.rcv.receiveQueue = [] then some a.packet.addr else s.rcv.receiveQueueHead
        receiveQueueTail := some a.packet.addr
        receiveQueueCount := s.rcv.receiveQueueCount + 1
        rxSequence := a.endSequence
        delayedAckTimeout := timeout } }, true, s.rcv.receiveQueueCount + 1, false⟩ := by
    unfold queueInOrder
    rw [if_neg (by simp)]
    dsimp only
    cases htail : s.rcv.receiveQueueTail with
    | some addr =>
      have hne : s.rcv.receiveQueue ≠ [] := by
        rw [Ne, ← h.tail_none, htail]
        simp
      exact ⟨_, by rw [if_neg hne]⟩
    | none =>
      have hnil := h.tail_none.mp htail
      exact ⟨_, by rw [if_pos hnil, hnil]; rfl⟩
  rw [heq]
  refine settles_of_advance [a.packet] [] ⟨rfl, rfl, rfl, rfl, rfl, rfl, rfl, rfl, rfl, rfl⟩
    rfl rfl (h.toLinked.append (p := { a.packet with ready := true }) h.length_lt ha.fresh rfl rfl rfl rfl) ?_ he
    (by omega) htiles hcontent ?_ ?_ ?_
  · rw [h.queue]
    simp
    rfl
  · intro q hq
    exact ⟨q, by simpa using hq, .refl q⟩
  · have hcount := h.count
    rw [h.queue, List.append_nil] at hcount
    apply BitVec.eq_of_toNat_eq
    have := h.length_lt
    rw [h.queue, List.append_nil] at this
    rw [toNat_add_one hcount this, BitVec.toNat_ofNat]
    simp
    omega
  · intro hlow
    have := hroom hlow
    simp
    omega

/-! ### Ahead of an empty queue -/

theorem queueFirst_settles (h : Receiving ip s.rcv.rxSequence s.rcv [] []) (ha : a.Fits s.rcv)
    (hready : a.packet.ready = false) (hgap : 0 < a.packet.lo s.rcv.rxSequence)
    (hroom : ip.build.lowWatermark = true → s.rcv.receiveQueue.length < s.rcv.receiveQueueMaximum.toNat) :
    (queueFirst ip s a false).Settles ip s [] [] a.packet false := by
  have hc := h.content
  have hq : s.rcv.receiveQueue = [] := h.queue
  have hcount : s.rcv.receiveQueueCount = 0 := by
    apply BitVec.eq_of_toNat_eq
    rw [h.count, hq]
    rfl
  have hcontent : Content s.rcv.rxSequence [] [a.packet] (s.rcv.rxWindowCurrent.toNat - 0)
      s.rcv.rxWindowDefault.toNat := by
    refine ⟨⟨hc.isReady, ?_, hc.wf, hc.tiles, ha.within, hc.credit, hc.bound⟩, ?_⟩
    · intro p hp
      rw [List.mem_singleton.mp hp]
      exact hready
    · intro p hp
      rw [List.mem_singleton.mp hp]
      exact hgap
  unfold queueFirst
  rw [if_neg (by simp)]
  refine settles_of_advance [] [a.packet] ⟨rfl, rfl, rfl, rfl, rfl, rfl, rfl, rfl, rfl, rfl⟩
    rfl rfl (h.toLinked.append h.length_lt ha.fresh ?_ ?_ ?_ rfl) rfl (rel_self _) (Nat.zero_le _) rfl hcontent ?_ rfl ?_
  · rw [hq]
    rfl
  · rw [hcount]
    rfl
  · rw [if_pos hq]
  · intro q hq
    exact ⟨q, by simpa using hq, .refl q⟩
  · intro hlow
    have := hroom hlow
    simp
    omega

/-! ### Among the queued packets -/

/-- Pieces of packets that are not ready are not ready. --/
theorem notReady_of_pieces {q q' : List Packet} (h : List.Forall₂ Packet.Piece q' q) (hq : ∀ p ∈ q, p.ready = false) :
    ∀ p ∈ q', p.ready = false := by
  induction h with
  | nil => exact fun p hp => nomatch hp
  | cons hpiece _ ih =>
    intro p hp
    rcases List.mem_cons.mp hp with rfl | hp
    · rw [hpiece.ready]
      exact hq _ List.mem_cons_self
    · exact ih (fun p hp => hq p (List.mem_cons_of_mem _ hp)) p hp

theorem map_addr_of_pieces {q q' : List Packet} (h : List.Forall₂ Packet.Piece q' q) :
    q'.map (·.addr) = q.map (·.addr) := by
  induction h with
  | nil => rfl
  | cons hpiece _ ih => rw [List.map_cons, List.map_cons, hpiece.addr, ih]

theorem cut_of_pieces {q q' : List Packet} (h : List.Forall₂ Packet.Piece q' q) :
    ∀ p' ∈ q', ∃ p ∈ q, p'.Cut p := by
  induction h with
  | nil => exact fun p hp => nomatch hp
  | cons hpiece _ ih =>
    intro p hp
    rcases List.mem_cons.mp hp with rfl | hp
    · exact ⟨_, List.mem_cons_self, hpiece.cut⟩
    · obtain ⟨o, ho, hcut⟩ := ih p hp
      exact ⟨o, List.mem_cons_of_mem _ ho, hcut⟩

/-- What the search and the insertion make of the pending packets. --/
structure Inserted (s : Socket) (ready pending : List Packet) (a : Arrival) (r : Receive) (pending' : List Packet) :
    Prop extends Linked r where
  queue : r.receiveQueue = ready ++ pending'
  staged : Staged s.rcv.rxSequence ready pending' s.rcv.rxWindowCurrent.toNat s.rcv.rxWindowDefault.toNat
  nonempty : pending' ≠ []
  cut : ∀ q ∈ pending', ∃ o ∈ [a.packet] ++ pending, q.Cut o
  length : r.receiveQueue.length ≤ s.rcv.receiveQueue.length + 1
  kept : ∃ head tail queue count, r = { s.rcv with
    receiveQueue := queue
    receiveQueueHead := head
    receiveQueueTail := tail
    receiveQueueCount := count }

/-- The queue with the packet in its place. --/
def Receive.insert (r : Receive) (a : Arrival) (placed : Placement) : Receive :=
  { r with
    receiveQueue := placed.queue
    receiveQueueHead := if placed.first then some a.packet.addr else r.receiveQueueHead
    receiveQueueTail := if placed.last then some a.packet.addr else r.receiveQueueTail
    receiveQueueCount := r.receiveQueueCount - BitVec.ofNat 32 placed.released + 1 }

/-- The packet is a duplicate, or it is inserted among the pending packets. --/
theorem placePacket_inserted (h : Receiving ip s.rcv.rxSequence s.rcv ready pending) (ha : a.Fits s.rcv)
    (hready : a.packet.ready = false) :
    let placed := placePacket a.packet a.beginSequence a.endSequence true s.rcv.receiveQueue
    (placed.duplicate = true ∧ placed.queue = s.rcv.receiveQueue ∧ placed.released = 0) ∨
      (placed.duplicate = false ∧ ∃ pending', Inserted s ready pending a (s.rcv.insert a placed) pending') := by
  have hc := h.content
  have hloc := ha.located h
  have hcredit := hc.credit
  have hbound := hc.bound
  have happend := placePacket_append (q := pending) hloc ready
    (fun p hp => ⟨hc.located_ready hp, Int.le_trans (hc.within_ready.mem hp).2.2 ha.lower⟩) true
  have hout := placePacket_outcome hloc ha.nonempty ha.upper (by omega) (by decide) ha.lower hc.within
    (true && ready.isEmpty)
  rw [ha.beginSequence, ha.endSequence, h.queue, happend]
  generalize placePacket a.packet a.packet.beginSequence a.packet.endSequence (true && ready.isEmpty) pending = res
    at hout
  dsimp only
  cases hout with
  | duplicate => exact .inl ⟨rfl, rfl, rfl⟩
  | @placed before before' after p' k hq hbefore hpiece hk hw =>
    right
    subst hq
    have hlen := h.length_lt
    have hcount := h.count
    rw [h.queue] at hlen hcount
    simp only [List.length_append] at hlen hcount
    have hblen : before'.length = before.length := hbefore.length_eq
    have haddr : (ready ++ (before' ++ p' :: after.drop k)).map (·.addr) =
        (ready ++ before).map (·.addr) ++ a.packet.addr :: (after.drop k).map (·.addr) := by
      simp [map_addr_of_pieces hbefore, hpiece.addr]
    have hsub : ((ready ++ before).map (·.addr) ++ (after.drop k).map (·.addr)).Sublist
        (s.rcv.receiveQueue.map (·.addr)) := by
      rw [h.queue, ← List.append_assoc, @List.map_append _ _ _ (ready ++ before)]
      exact (List.Sublist.refl _).append ((List.drop_sublist k after).map _)
    refine ⟨rfl, before' ++ p' :: after.drop k, ⟨?_, ?_, ?_, ?_⟩, rfl, ?_, by simp, ?_, ?_, ?_⟩
    · have hsubk := toNat_sub_ofNat (k := k) hcount (by omega)
      rw [Receive.insert, toNat_add_one hsubk (by omega)]
      simp only [List.length_append, List.length_cons, List.length_drop]
      omega
    · rw [Receive.insert, haddr]
      simp only [Bool.true_and]
      cases hr : ready with
      | nil =>
        cases before with
        | nil => rfl
        | cons b bs => simp [h.head, h.queue, hr]
      | cons b bs => simp [h.head, h.queue, hr]
    · rw [Receive.insert, haddr]
      cases hd : after.drop k with
      | nil => simp
      | cons b bs =>
        have hafter : after = after.take k ++ b :: bs := by rw [← hd, List.take_append_drop]
        rw [h.tail, h.queue, hafter]
        simp [List.getLast?_append, List.getLast?_cons]
    · rw [Receive.insert, haddr, List.nodup_middle]
      refine List.nodup_cons.mpr ⟨fun hmem => ha.fresh (hsub.subset hmem), h.nodup.sublist hsub⟩
    · refine ⟨hc.isReady, ?_, hc.wf, hc.tiles, hw, hc.credit, hc.bound⟩
      intro q hq
      rcases List.mem_append.mp hq with hq | hq
      · exact notReady_of_pieces hbefore (fun p hp => hc.notReady p (List.mem_append_left _ hp)) q hq
      rcases List.mem_cons.mp hq with rfl | hq
      · rw [hpiece.ready, hready]
      · exact hc.notReady q (List.mem_append_right _ (List.drop_subset k after hq))
    · intro q hq
      rcases List.mem_append.mp hq with hq | hq
      · obtain ⟨o, ho, hcut⟩ := cut_of_pieces hbefore q hq
        exact ⟨o, by simp [ho], hcut⟩
      rcases List.mem_cons.mp hq with rfl | hq
      · exact ⟨a.packet, by simp, hpiece.cut⟩
      · exact ⟨q, by simp [List.drop_subset k after hq], .refl q⟩
    · rw [Receive.insert, h.queue]
      simp only [List.length_append, List.length_cons, List.length_drop]
      omega
    · exact ⟨_, _, _, _, rfl⟩

/-- The packets as the walk leaves them have the addresses they had. --/
theorem map_addr_marked (front rest : List Packet) :
    (ready ++ front.map Packet.markReady ++ rest).map (·.addr) = (ready ++ (front ++ rest)).map (·.addr) := by
  simp [Function.comp_def]

/-- Without a drop the walk covers the whole queue. --/
theorem Inserted.settles {r : Receive} {pending' : List Packet} (hi : Inserted s ready pending a r pending')
    (hroom : ip.build.lowWatermark = true → r.receiveQueue.length ≤ r.receiveQueueMaximum.toNat)
    (outOfSequence : Bool) :
    let w := readyWalk r false r.rxSequence 0 r.receiveQueue
    Queued.Settles ip s ready pending a.packet false
      ⟨{ s with rcv := { r with receiveQueue := w.queue, rxSequence := w.expected } }, true, w.acked, outOfSequence⟩ := by
  obtain ⟨front, rest, e, y, hsplit, he, hy, ht, hc, hwalk⟩ := hi.staged.walk r
  obtain ⟨head, tail, queue, count, hkept⟩ := hi.kept
  have hx : r.rxSequence = s.rcv.rxSequence := by rw [hkept]
  have haddr : (ready ++ front.map Packet.markReady ++ rest).map (·.addr) = r.receiveQueue.map (·.addr) := by
    rw [map_addr_marked, ← hsplit, ← hi.queue]
  rw [← hi.queue, ← hx] at hwalk
  rw [hwalk]
  refine settles_of_advance _ _ ?_ rfl ?_ (hi.toLinked.of_addrs haddr rfl rfl rfl) rfl he hy ht hc ?_ rfl ?_
  · rw [hkept]
    exact ⟨rfl, rfl, rfl, rfl, rfl, rfl, rfl, rfl, rfl, rfl⟩
  · rw [hkept]
  · rw [← hsplit]
    exact hi.cut
  · intro hlow
    have hlen := congrArg List.length haddr
    simp only [List.length_map] at hlen
    show (ready ++ front.map Packet.markReady ++ rest).length ≤ _
    rw [hlen]
    exact hroom hlow

end

/-! ### Dropping the tail -/

theorem dropTail_kept (r : Receive) : ∃ head tail queue count, r.dropTail = { r with
    receiveQueue := queue
    receiveQueueHead := head
    receiveQueueTail := tail
    receiveQueueCount := count } := by
  unfold Receive.dropTail
  split
  · exact ⟨_, _, _, _, rfl⟩
  · exact ⟨_, _, _, _, rfl⟩

theorem Staged.dropLast {d : ULONG} {ready pending : List Packet} {window default : Nat}
    (h : Staged d ready pending window default) : Staged d ready pending.dropLast window default := by
  rcases List.eq_nil_or_concat pending with rfl | ⟨q, t, rfl⟩
  · exact h
  · rw [List.concat_eq_append, List.dropLast_concat]
    have hw := h.within
    rw [List.concat_eq_append] at hw
    obtain ⟨m, h₁, h₂⟩ := within_append.mp hw
    exact ⟨h.isReady, fun p hp => h.notReady p (by simp [hp]), h.wf, h.tiles, ⟨h₁.wf, h₁.ordered.upper h₂.ordered.le⟩,
      h.credit, h.bound⟩

/-- The window ends where the last packet does. --/
theorem Content.closeWindow {r : Receive} {ready pending : List Packet} {window default : Nat} (hl : Linked r)
    (hq : r.receiveQueue = ready ++ pending) (h : Content r.rxSequence ready pending window default) :
    ∃ w, r.closeWindow = { r with rxWindowCurrent := w, rxWindowLastSent := w } ∧
      Content r.rxSequence ready pending w.toNat default := by
  refine ⟨_, rfl, ?_⟩
  rw [hl.tailPacket, hq]
  rcases List.eq_nil_or_concat pending with rfl | ⟨q, t, rfl⟩
  · -- nothing is left behind the contiguous data
    have hclosed : Content r.rxSequence ready [] 0 default :=
      ⟨⟨h.isReady, h.notReady, h.wf, h.tiles, .nil (Int.le_refl _),
        Nat.le_trans (Nat.add_le_add_left (Nat.zero_le _) _) h.credit, h.bound⟩, h.gap⟩
    rcases List.eq_nil_or_concat ready with rfl | ⟨q, t, rfl⟩
    · exact hclosed
    · have ht : t ∈ q.concat t := by simp
      have hend := (h.located_ready ht).rel_end
      have hhi : t.hi r.rxSequence = 0 := by
        have htiles := h.tiles
        rw [List.concat_eq_append, spans_append] at htiles
        exact htiles.last
      rw [hhi, ← rel_self r.rxSequence] at hend
      have heq := rel_injective _ hend
      have hlast : (q.concat t ++ []).getLast? = some t := by simp
      rw [hlast]
      simpa [heq] using hclosed
  · rw [List.concat_eq_append] at h ⊢
    have ht : t ∈ q ++ [t] := by simp
    have hmem := h.within.mem ht
    have hend : rel r.rxSequence t.endSequence = t.hi r.rxSequence := (h.located_pending ht).rel_end
    have hwin := toNat_of_int (x := t.endSequence - r.rxSequence) hend (by omega)
    have hlast : (ready ++ (q ++ [t])).getLast? = some t := by simp
    rw [hlast]
    dsimp only
    have hcredit := h.credit
    refine ⟨⟨h.isReady, h.notReady, h.wf, h.tiles, ?_, by omega, h.bound⟩, h.gap⟩
    obtain ⟨m, h₁, h₂⟩ := within_append.mp h.within
    rw [within_append, hwin]
    exact ⟨m, h₁, h₂.wf, h₂.ordered.1, h₂.ordered.2.1, Int.le_refl _⟩

section
variable {ip : Ip} {s : Socket} {a : Arrival} {ready pending pending' : List Packet} {r : Receive}

/-- With a drop the walk stops in front of the tail, which is released. --/
theorem Inserted.settles_drop (hi : Inserted s ready pending a r pending')
    (hmax : s.rcv.receiveQueue.length ≤ r.receiveQueueMaximum.toNat) (outOfSequence : Bool) :
    let w := readyWalk r true r.rxSequence 0 r.receiveQueue
    Queued.Settles ip s ready pending a.packet true
      ⟨{ s with rcv := ({ r with receiveQueue := w.queue, rxSequence := w.expected } : Receive).dropTail.closeWindow },
        true, w.acked, outOfSequence⟩ := by
  obtain ⟨init, tail, hlast⟩ : ∃ init tail, pending' = init ++ [tail] := by
    rcases List.eq_nil_or_concat pending' with hnil | ⟨q, t, hq⟩
    · exact absurd hnil hi.nonempty
    · exact ⟨q, t, by rw [hq, List.concat_eq_append]⟩
  subst hlast
  have hinit := hi.staged.dropLast
  rw [List.dropLast_concat] at hinit
  obtain ⟨front, rest, e, y, hsplit, he, hy, ht, hc, hwalk⟩ := hinit.walk r
  obtain ⟨headPtr, tailPtr, queue, count, hkept⟩ := hi.kept
  have hx : r.rxSequence = s.rcv.rxSequence := by rw [hkept]
  have hqueue : r.receiveQueue = (ready ++ init) ++ [tail] := by rw [hi.queue, List.append_assoc]
  have htail : r.receiveQueueTail = some tail.addr := by
    rw [hi.tail, hqueue]
    simp
  have hnd := hi.nodup
  rw [hqueue, List.map_append, List.nodup_append] at hnd
  have hne : ∀ p ∈ ready ++ init, p.addr ≠ tail.addr := fun p hp =>
    hnd.2.2 p.addr (List.mem_map_of_mem hp) tail.addr (by simp)
  have hlen : (ready ++ init).length ≤ r.receiveQueueMaximum.toNat := by
    have := hi.length
    rw [hqueue, List.length_append, List.length_singleton] at this
    omega
  have hdrop := readyWalk_drop (e := r.rxSequence) r htail hne 0 (by simpa using hlen)
  rw [← hx] at hwalk
  rw [hwalk] at hdrop
  rw [hqueue, hdrop]
  dsimp only
  have haddr : (ready ++ front.map Packet.markReady ++ rest ++ [tail]).map (·.addr) = r.receiveQueue.map (·.addr) := by
    rw [List.map_append, map_addr_marked, ← hsplit, hqueue, @List.map_append _ _ _ (ready ++ init)]
  have hlinked : Linked { r with
      receiveQueue := ready ++ front.map Packet.markReady ++ rest ++ [tail], rxSequence := e } :=
    hi.toLinked.of_addrs haddr rfl rfl rfl
  obtain ⟨hlinked', hqueue'⟩ := hlinked.dropTail (by simp)
  obtain ⟨headPtr', tailPtr', queue', count', hkept'⟩ := dropTail_kept
    { r with receiveQueue := ready ++ front.map Packet.markReady ++ rest ++ [tail], rxSequence := e }
  rw [List.dropLast_concat] at hqueue'
  rw [hkept'] at hlinked' hqueue' ⊢
  obtain ⟨w, hclose, hcontent⟩ := Content.closeWindow hlinked' hqueue' (hc : Content e _ _ _ _)
  rw [hclose]
  have hoct : (octetsOf front).length = y := by
    have := length_octetsOf ht
    omega
  refine ⟨front, rest, ?_, ?_, rfl⟩
  · rw [Queued.debited_drop]
    refine ⟨?_, [], by simp, by simp, ?_, by rw [hoct]; exact ht, hc.bounded_front, ?_, [],
      by simp, by simp⟩
    · rw [hkept]
      exact ⟨rfl, rfl, rfl, rfl, rfl, rfl, rfl, rfl, rfl, rfl⟩
    · rw [hoct, ← add_of_rel he]
    · rw [← hsplit]
      exact fun q hq => hi.cut q (List.mem_append_left _ hq)
  · rw [Queued.debited_drop]
    refine ⟨hlinked'.of_addrs rfl rfl rfl rfl, hqueue', ?_, ?_⟩
    · show Content e _ _ w.toNat r.rxWindowDefault.toNat
      have hdefault : r.rxWindowDefault = s.rcv.rxWindowDefault := by rw [hkept]
      rw [hdefault]
      exact hcontent
    · intro _
      show queue'.length ≤ r.receiveQueueMaximum.toNat
      have hql : queue' = ready ++ front.map Packet.markReady ++ rest := hqueue'
      rw [hql]
      have := congrArg List.length hsplit
      simp only [List.length_append, List.length_map] at this hlen ⊢
      omega

/-! ### The three ways together -/

theorem Queued.Settles.of_ackOnly {t : Socket} {p : Packet} {drop : Bool} {q : Queued} (h : AckOnly s t)
    (hs : q.Settles ip t ready pending p drop) : q.Settles ip s ready pending p drop := by
  obtain ⟨front, rest, hp, hr, hacked⟩ := hs
  rw [h.rcv.rxSequence] at hp hr
  exact ⟨front, rest, h.trans_progress hp, hr, hacked⟩

/-- What the queueing comes to: the packet is left with the caller, or taken. --/
structure Queued.Sound (ip : Ip) (s : Socket) (ready pending : List Packet) (p : Packet) (drop : Bool) (q : Queued) :
    Prop where
  left : q.taken = false → AckOnly s q.socket
  taken : q.taken = true → q.Settles ip s ready pending p drop

theorem queueOutOfOrder_sound {drop : Bool} (h : Receiving ip s.rcv.rxSequence s.rcv ready pending)
    (ha : a.Fits s.rcv) (hready : a.packet.ready = false)
    (hkeep : drop = false → ip.build.lowWatermark = true →
      s.rcv.receiveQueue.length < s.rcv.receiveQueueMaximum.toNat)
    (hdrop : drop = true → ip.build.lowWatermark = true) :
    (queueOutOfOrder ip s a drop).Sound ip s ready pending a.packet drop := by
  have hack := ackOnly_rememberRecent s a
  unfold queueOutOfOrder
  dsimp only
  generalize rememberRecent s a = t at hack
  have hrt : Receiving ip t.rcv.rxSequence t.rcv ready pending := by
    rw [hack.rcv.rxSequence]
    exact h.sameQueue hack.rcv
  have hat : a.Fits t.rcv := by
    refine ⟨ha.wf, ha.beginSequence, ha.endSequence, ?_, ?_, ?_, ?_⟩
    · rw [hack.rcv.rxSequence]
      exact ha.lower
    · rw [hack.rcv.rxSequence]
      exact ha.nonempty
    · rw [hack.rcv.rxSequence, hack.rcv.rxWindowCurrent]
      exact ha.upper
    · rw [hack.rcv.queue]
      exact ha.fresh
  have hmax : t.rcv.receiveQueueMaximum = s.rcv.receiveQueueMaximum := hack.rcv.maximum
  rcases placePacket_inserted hrt hat hready with ⟨hdup, hqueue, hreleased⟩ | ⟨hdup, pending', hi⟩
  · rw [if_pos hdup]
    refine ⟨fun _ => ?_, fun hf => absurd hf (by simp)⟩
    rw [hqueue, hreleased]
    have hsame : AckOnly t { t with rcv := { t.rcv with
        receiveQueue := t.rcv.receiveQueue
        receiveQueueCount := t.rcv.receiveQueueCount - BitVec.ofNat 32 0 } } :=
      ⟨rfl, rfl, rfl, rfl, ⟨rfl, rfl, rfl, rfl, rfl, rfl, rfl, rfl, by simp, rfl, rfl⟩, rfl, rfl, rfl, [], by simp⟩
    exact hack.trans ((hsame.trans (ackOnly_dsackRecord _ _ _)).trans (ackOnly_packetSendAck ip _ _))
  · rw [if_neg (by simp [hdup])]
    refine ⟨fun hf => absurd hf (by simp), fun _ => Queued.Settles.of_ackOnly hack ?_⟩
    obtain ⟨_, _, _, _, hkept⟩ := hi.kept
    have hm : (t.rcv.insert a (placePacket a.packet a.beginSequence a.endSequence true t.rcv.receiveQueue)).receiveQueueMaximum =
        s.rcv.receiveQueueMaximum := hmax
    have hlen : t.rcv.receiveQueue.length = s.rcv.receiveQueue.length := by rw [hack.rcv.queue]
    cases drop with
    | false =>
      refine hi.settles (fun hlow => ?_) _
      have := hi.length
      have := hkeep rfl hlow
      rw [hm]
      omega
    | true =>
      refine hi.settles_drop ?_ _
      rw [hm, hlen]
      exact h.room (hdrop rfl)

/-- The pending packets, when the queue ends with the contiguous data. --/
theorem Receiving.pending_nil (h : Receiving ip s.rcv.rxSequence s.rcv ready pending)
    (hend : s.rcv.searchEnd = s.rcv.rxSequence) : pending = [] := by
  rcases List.eq_nil_or_concat pending with hnil | ⟨q, t, rfl⟩
  · exact hnil
  · exfalso
    have ht : t ∈ q.concat t := by simp
    have hmem := h.content.within.mem ht
    have hrel := (h.content.located_pending ht).rel_end
    have hlast : s.rcv.tailPacket = some t := by
      rw [h.tailPacket, h.queue]
      simp
    rw [Receive.searchEnd, hlast] at hend
    dsimp only at hend
    rw [hend, rel_self] at hrel
    omega

theorem queuePacket_sound {drop : Bool} (h : Receiving ip s.rcv.rxSequence s.rcv ready pending)
    (ha : a.Fits s.rcv) (hkeep : drop = false → ip.build.lowWatermark = true →
      s.rcv.receiveQueue.length < s.rcv.receiveQueueMaximum.toNat)
    (hdrop : drop = true → ip.build.lowWatermark = true) :
    (queuePacket ip s a drop).Sound ip s ready pending { a.packet with ready := false } drop := by
  have ha' : Arrival.Fits { a with packet := { a.packet with ready := false } } s.rcv :=
    ⟨⟨ha.wf.length_eq, ha.wf.length_lt⟩, ha.beginSequence, ha.endSequence, ha.lower, ha.nonempty, ha.upper, ha.fresh⟩
  unfold queuePacket
  dsimp only
  split
  · rename_i hin
    obtain ⟨hseq, hend⟩ := hin
    have hnil := h.pending_nil hend
    subst hnil
    cases drop with
    | false =>
      have hs := queueInOrder_settles h ha' rfl hseq (hkeep rfl)
      refine ⟨fun hf => ?_, fun _ => hs⟩
      simp [queueInOrder] at hf
    | true =>
      have hcount : (refusePacket ip s).rcv.receiveQueueCount = BitVec.ofNat 32 ready.length := by
        have hack := ackOnly_packetSendAck ip
          { s with rcv := { s.rcv with rxWindowCurrent := 0, rxWindowLastSent := 0 } } s.snd.txSequence
        have hc := h.count
        rw [h.queue, List.append_nil] at hc
        rw [← hc, BitVec.ofNat_toNat, BitVec.setWidth_eq]
        exact hack.rcv.count
      have hs := refusePacket_settles h { a.packet with ready := false } _ hcount false
      refine ⟨fun hf => ?_, fun _ => hs⟩
      simp [queueInOrder] at hf
  · rename_i hin
    split
    · rename_i hnone
      have hq := h.head_none.mp hnone
      rw [h.queue, List.append_eq_nil_iff] at hq
      obtain ⟨rfl, rfl⟩ := hq
      have hend : s.rcv.searchEnd = s.rcv.rxSequence := by
        rw [Receive.searchEnd, h.tailPacket, h.queue]
        rfl
      have hgap : 0 < a.packet.lo s.rcv.rxSequence := by
        refine lt_of_le_of_ne ha.lower fun heq => hin ⟨?_, hend⟩
        rw [← rel_self s.rcv.rxSequence] at heq
        exact (rel_injective _ heq).symm
      cases drop with
      | false =>
        have hs := queueFirst_settles h ha' rfl hgap (hkeep rfl)
        refine ⟨fun hf => ?_, fun _ => hs⟩
        simp [queueFirst] at hf
      | true =>
        have hs := refusePacket_settles h { a.packet with ready := false } 0 rfl false
        refine ⟨fun hf => ?_, fun _ => hs⟩
        simp [queueFirst] at hf
    · exact queueOutOfOrder_sound h ha' rfl hkeep hdrop

end

end Netxduo
