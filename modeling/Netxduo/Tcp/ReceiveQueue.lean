import Netxduo.Tcp.Walk

/-! The receive queue: how the pointers and the count designate the list, and what lies in it. Seen from
    the end of the contiguous data, the packets marked ready tile everything up to it, and the others
    stand behind a gap, in front of the right edge of the window. -/

namespace Netxduo
open Serial Spans

/-! ### Octets -/

/-- The payload of a queue, in order. --/
def octetsOf (q : List Packet) : List UInt8 := q.flatMap Packet.octets

@[simp] theorem octetsOf_nil : octetsOf [] = [] := rfl

@[simp] theorem octetsOf_cons (p : Packet) (q : List Packet) : octetsOf (p :: q) = p.octets ++ octetsOf q := rfl

@[simp] theorem octetsOf_append (q q' : List Packet) : octetsOf (q ++ q') = octetsOf q ++ octetsOf q' :=
  List.flatMap_append

@[simp] theorem octetsOf_markReady (q : List Packet) : octetsOf (q.map Packet.markReady) = octetsOf q := by
  induction q with
  | nil => rfl
  | cons p q ih => rw [List.map_cons, octetsOf_cons, octetsOf_cons, ih, Packet.markReady_octets]

theorem length_octetsOf {d : ULONG} {x y : Int} {q : List Packet} (h : Tiles x (spans d q) y) :
    ((octetsOf q).length : Int) = y - x := by
  induction q generalizing x with
  | nil =>
    have : x = y := h
    simp
    omega
  | cons p q ih =>
    have h₁ : p.lo d = x := h.1
    have hlen : ((octetsOf q).length : Int) = y - p.hi d := ih h.2.2
    have hhi : p.hi d = p.lo d + p.octets.length := rfl
    simp only [octetsOf_cons, List.length_append, Int.natCast_add]
    omega

/-! ### Links -/

/-- The head pointer, the tail pointer and the count designate the list of packets. --/
structure Linked (r : Receive) : Prop where
  count : r.receiveQueueCount.toNat = r.receiveQueue.length
  head : r.receiveQueueHead = (r.receiveQueue.map (·.addr)).head?
  tail : r.receiveQueueTail = (r.receiveQueue.map (·.addr)).getLast?
  nodup : (r.receiveQueue.map (·.addr)).Nodup

theorem nextAddr_eq (q : List Packet) : nextAddr q = (q.map (·.addr)).head? := by cases q <;> rfl

/-- A queue of the same addresses keeps its links. --/
theorem Linked.of_addrs {r r' : Receive} (h : Linked r)
    (haddr : r'.receiveQueue.map (·.addr) = r.receiveQueue.map (·.addr))
    (hcount : r'.receiveQueueCount = r.receiveQueueCount) (hhead : r'.receiveQueueHead = r.receiveQueueHead)
    (htail : r'.receiveQueueTail = r.receiveQueueTail) : Linked r' := by
  refine ⟨?_, ?_, ?_, ?_⟩
  · have hlen := congrArg List.length haddr
    simp only [List.length_map] at hlen
    rw [hcount, h.count, hlen]
  · rw [hhead, haddr, h.head]
  · rw [htail, haddr, h.tail]
  · rw [haddr]
    exact h.nodup

/-- The tail pointer designates the last packet. --/
theorem Linked.tailPacket {r : Receive} (h : Linked r) : r.tailPacket = r.receiveQueue.getLast? := by
  rcases List.eq_nil_or_concat r.receiveQueue with hnil | ⟨q, t, hq⟩
  · simp [Receive.tailPacket, h.tail, hnil]
  · rw [List.concat_eq_append] at hq
    have hnd := h.nodup
    have hne : ∀ p ∈ q, p.addr ≠ t.addr := by
      intro p hp heq
      rw [hq, List.map_append, List.nodup_append] at hnd
      exact hnd.2.2 p.addr (List.mem_map_of_mem hp) t.addr (by simp) heq
    have hfind : q.find? (fun p => p.addr == t.addr) = none := by
      rw [List.find?_eq_none]
      intro p hp
      simpa using hne p hp
    simp [Receive.tailPacket, h.tail, hq, hfind]

theorem Linked.beforeTail {r : Receive} (h : Linked r) : r.beforeTail = r.receiveQueue.dropLast := by
  rcases List.eq_nil_or_concat r.receiveQueue with hnil | ⟨q, t, hq⟩
  · simp [Receive.beforeTail, hnil]
  · rw [List.concat_eq_append] at hq
    have hnd := h.nodup
    have hne : ∀ p ∈ q, r.receiveQueueTail ≠ some p.addr := by
      intro p hp heq
      rw [h.tail, hq] at heq
      rw [hq, List.map_append, List.nodup_append] at hnd
      have hta : t.addr = p.addr := by simpa using heq
      exact hnd.2.2 p.addr (List.mem_map_of_mem hp) t.addr (by simp) hta.symm
    rw [Receive.beforeTail, hq, List.dropLast_concat, List.takeWhile_append_of_pos (by simpa using hne)]
    simp [h.tail, hq]

/-- Releasing the tail shortens the queue by its last packet. --/
theorem Linked.dropTail {r : Receive} (h : Linked r) (hne : r.receiveQueue ≠ []) :
    Linked r.dropTail ∧ r.dropTail.receiveQueue = r.receiveQueue.dropLast := by
  have hlen : r.receiveQueue.length ≠ 0 := by simpa using hne
  have hcount := h.count
  have hlt := r.receiveQueueCount.isLt
  have hdec : (r.receiveQueueCount - 1).toNat = r.receiveQueue.length - 1 := by
    rw [BitVec.toNat_sub_of_le (by rw [BitVec.le_def]; simp; omega), hcount]
    rfl
  have hnd : (r.receiveQueue.dropLast.map (·.addr)).Nodup :=
    h.nodup.sublist ((List.dropLast_sublist _).map _)
  unfold Receive.dropTail
  by_cases hgt : r.receiveQueueCount > 1
  · rw [if_pos hgt]
    have hgt' : 1 < r.receiveQueue.length := by
      rw [gt_iff_lt, BitVec.lt_def] at hgt
      simpa [hcount] using hgt
    refine ⟨⟨?_, ?_, ?_, ?_⟩, h.beforeTail⟩
    · rw [hdec, h.beforeTail, List.length_dropLast]
    · rw [h.head, h.beforeTail]
      cases hq : r.receiveQueue with
      | nil => exact absurd hq hne
      | cons p q =>
        cases q with
        | nil =>
          rw [hq] at hgt'
          simp at hgt'
        | cons => rfl
    · rw [h.beforeTail, List.getLast?_map]
    · rw [h.beforeTail]
      exact hnd
  · rw [if_neg hgt]
    have hone : r.receiveQueue.length = 1 := by
      rw [gt_iff_lt, BitVec.lt_def] at hgt
      have : ¬1 < r.receiveQueue.length := by simpa [hcount] using hgt
      omega
    have hnil : r.receiveQueue.dropLast = [] := List.eq_nil_of_length_eq_zero (by simp [hone])
    refine ⟨⟨?_, ?_, ?_, ?_⟩, hnil.symm⟩
    · rw [hdec, hone]
      rfl
    · rfl
    · rfl
    · exact List.nodup_nil

/-! ### Contents -/

/-- The packets marked ready tile the octets up to `d`; the others lie in the `window` octets behind. --/
structure Staged (d : ULONG) (ready pending : List Packet) (window default : Nat) : Prop where
  isReady : ∀ p ∈ ready, p.ready = true
  notReady : ∀ p ∈ pending, p.ready = false
  wf : ∀ p ∈ ready, p.WellFormed
  tiles : Tiles (-(octetsOf ready).length) (spans d ready) 0
  within : Within d 0 pending window
  credit : (octetsOf ready).length + window ≤ default
  bound : default < 2 ^ 30

/-- Moreover, a gap stands in front of the others. --/
structure Content (d : ULONG) (ready pending : List Packet) (window default : Nat) : Prop
    extends Staged d ready pending window default where
  gap : ∀ p ∈ pending, 0 < p.lo d

section
variable {d e : ULONG} {ready pending q : List Packet} {window default : Nat} {p : Packet}

theorem Staged.within_ready (h : Staged d ready pending window default) :
    Within d (-(octetsOf ready).length) ready 0 :=
  ⟨h.wf, h.tiles.ordered⟩

theorem Staged.located_ready (h : Staged d ready pending window default) (hp : p ∈ ready) : p.Located d := by
  have h₁ := h.credit
  have h₂ := h.bound
  exact h.within_ready.located (by omega) (by omega) hp

theorem Staged.located_pending (h : Staged d ready pending window default) (hp : p ∈ pending) : p.Located d := by
  have h₁ := h.credit
  have h₂ := h.bound
  exact h.within.located (by omega) (by omega) hp

/-- The queue has fewer packets than the window has octets. --/
theorem Staged.length_le (h : Staged d ready pending window default) :
    (ready ++ pending).length ≤ default := by
  have h₁ := h.within_ready.ordered.length_le
  have h₂ := h.within.ordered.length_le
  have h₃ := h.credit
  simp only [spans, List.length_map] at h₁ h₂
  rw [List.length_append]
  omega

/-! ### A new reference -/

/-- Seen from `y` octets further on, everything lies `y` octets further back. --/
theorem Packet.lo_advance {y : Int} (hy : rel d e = y) (h : p.Located d) (hy₁ : 0 ≤ y) (hy₂ : y < 2 ^ 30) :
    p.lo e = p.lo d - y := by
  have h₁ := h.lower
  have h₂ := h.le
  have h₃ := h.upper
  have hlo : rel d p.beginSequence = p.lo d := rfl
  rw [Packet.lo, rel_rebase (r := d) (by omega) (by omega)]
  omega

theorem Packet.hi_advance {y : Int} (hy : rel d e = y) (h : p.Located d) (hy₁ : 0 ≤ y) (hy₂ : y < 2 ^ 30) :
    p.hi e = p.hi d - y := by
  rw [Packet.hi, Packet.hi, Packet.lo_advance hy h hy₁ hy₂]
  omega

theorem spans_advance {y : Int} (hy : rel d e = y) (h : ∀ p ∈ q, p.Located d) (hy₁ : 0 ≤ y) (hy₂ : y < 2 ^ 30) :
    spans e q = shift (-y) (spans d q) := by
  simp only [spans, shift, List.map_map]
  apply List.map_congr_left
  intro p hp
  simp only [Packet.span, Function.comp_apply]
  rw [Packet.lo_advance hy (h p hp) hy₁ hy₂, Packet.hi_advance hy (h p hp) hy₁ hy₂]
  rfl

/-- Marking the packets that tile the octets up to `y` moves the reference there. --/
theorem Staged.advance {front rest : List Packet} {y : Nat} (h : Staged d ready (front ++ rest) window default)
    (ht : Tiles 0 (spans d front) y) (hw : Within d y rest window) (hgap : ∀ p ∈ rest, (y : Int) < p.lo d)
    (he : rel d e = y) :
    Content e (ready ++ front.map Packet.markReady) rest (window - y) default := by
  have hlen := length_octetsOf ht
  have hle : y ≤ window := by
    have := hw.ordered.le
    omega
  have hcredit := h.credit
  have hbound := h.bound
  have hfront : ∀ p ∈ front, p.Located d := fun p hp => h.located_pending (List.mem_append_left _ hp)
  have hrest : ∀ p ∈ rest, p.Located d := fun p hp => h.located_pending (List.mem_append_right _ hp)
  have hmark : spans e (front.map Packet.markReady) = shift (-y) (spans d front) := by
    rw [spans_markReady, spans_advance he hfront (by omega) (by omega)]
  refine ⟨⟨?_, ?_, ?_, ?_, ?_, ?_, h.bound⟩, ?_⟩
  · intro p hp
    rcases List.mem_append.mp hp with hp | hp
    · exact h.isReady p hp
    · obtain ⟨s, -, rfl⟩ := List.mem_map.mp hp
      rfl
  · exact fun p hp => h.notReady p (List.mem_append_right _ hp)
  · intro p hp
    rcases List.mem_append.mp hp with hp | hp
    · exact h.wf p hp
    · obtain ⟨s, hs, rfl⟩ := List.mem_map.mp hp
      exact (hfront s hs).wf.markReady
  · rw [spans_append, tiles_append]
    refine ⟨-y, ?_, ?_⟩
    · rw [spans_advance he (fun p hp => h.located_ready hp) (by omega) (by omega)]
      have := (tiles_shift (-(y : Int))).mpr h.tiles
      convert this using 1
      · simp only [octetsOf_append, octetsOf_markReady, List.length_append]
        omega
      · omega
    · rw [hmark]
      have := (tiles_shift (-(y : Int))).mpr ht
      convert this using 1 <;> omega
  · refine ⟨fun p hp => (hrest p hp).wf, ?_⟩
    rw [spans_advance he hrest (by omega) (by omega)]
    have := (ordered_shift (-(y : Int))).mpr hw.ordered
    convert this using 1 <;> omega
  · simp only [octetsOf_append, octetsOf_markReady, List.length_append]
    omega
  · intro p hp
    have := hgap p hp
    rw [Packet.lo_advance he (hrest p hp) (by omega) (by omega)]
    omega

/-- The walk without a drop, over the whole queue. --/
theorem Staged.walk (r : Receive) (h : Staged d ready pending window default) :
    ∃ front rest e, ∃ y : Nat, pending = front ++ rest ∧ rel d e = y ∧ y ≤ window ∧
      Tiles 0 (spans d front) y ∧ Content e (ready ++ front.map Packet.markReady) rest (window - y) default ∧
      readyWalk r false d 0 (ready ++ pending) =
        ⟨ready ++ front.map Packet.markReady ++ rest, e, BitVec.ofNat 32 (ready ++ front).length⟩ := by
  have hcredit := h.credit
  have hbound := h.bound
  obtain ⟨front, rest, y, e, rfl, he, ht, hw, hgap, heq⟩ := readyWalk_pending (d := d) r (rel_self d) (by omega)
    (by omega) h.within (0 + BitVec.ofNat 32 ready.length)
  have hy := ht.ordered.le
  have hyw := hw.ordered.le
  lift y to Nat using hy
  refine ⟨front, rest, e, y, rfl, he, by omega, ht, h.advance ht hw hgap he, ?_⟩
  rw [readyWalk_ready (d := d) r (near_self d) (fun s hs => ⟨h.located_ready hs, ?_⟩), heq]
  · simp only [List.append_assoc, List.length_append, BitVec.ofNat_add]
    congr 1
    grind
  · rw [rel_self]
    exact (h.within_ready.mem hs).2.2

end

end Netxduo
