import Netxduo.Tcp.Place

/-! The walk that counts what is contiguous: it marks the packets that continue the stream and stops at
    the first gap, or in front of a tail that is about to be released. -/

namespace Netxduo
open Serial Spans

/-- `nx_packet_queue_next` set to `NX_PACKET_READY`. --/
def Packet.markReady (p : Packet) : Packet := { p with ready := true }

namespace Packet

@[simp] theorem markReady_ready (p : Packet) : p.markReady.ready = true := rfl
@[simp] theorem markReady_addr (p : Packet) : p.markReady.addr = p.addr := rfl
@[simp] theorem markReady_header (p : Packet) : p.markReady.header = p.header := rfl
@[simp] theorem markReady_octets (p : Packet) : p.markReady.octets = p.octets := rfl
@[simp] theorem markReady_endSequence (p : Packet) : p.markReady.endSequence = p.endSequence := rfl
@[simp] theorem markReady_lo (r : ULONG) (p : Packet) : p.markReady.lo r = p.lo r := rfl
@[simp] theorem markReady_hi (r : ULONG) (p : Packet) : p.markReady.hi r = p.hi r := rfl

theorem WellFormed.markReady {p : Packet} (h : p.WellFormed) : p.markReady.WellFormed := ⟨h.length_eq, h.length_lt⟩

end Packet

theorem spans_markReady (r : ULONG) (q : List Packet) : spans r (q.map Packet.markReady) = spans r q := by
  simp [spans, Packet.span, Function.comp_def]

section
variable {d e : ULONG} {b x : Int} {q : List Packet}

/-! ### Without a drop -/

/-- The packets already counted are passed. --/
theorem readyWalk_ready (r : Receive) {ready : List Packet} (he : Near d e)
    (h : ∀ s ∈ ready, s.Located d ∧ s.hi d ≤ rel d e) (acked : ULONG) :
    readyWalk r false e acked (ready ++ q) =
      let w := readyWalk r false e (acked + BitVec.ofNat 32 ready.length) q
      { w with queue := ready ++ w.queue } := by
  induction ready generalizing acked with
  | nil => simp
  | cons s ready ih =>
    obtain ⟨hs, hle⟩ := h s List.mem_cons_self
    have hsle := hs.le
    have hlo : rel d s.beginSequence = s.lo d := rfl
    have h₁ : INT (e - s.beginSequence) ≥ 0 := by
      rw [int_sub he hs.near_begin]
      omega
    have h₂ : ¬INT (s.endSequence - e) > 0 := by
      rw [int_sub hs.near_end he, hs.rel_end]
      omega
    have hlen : acked + 1 + BitVec.ofNat 32 ready.length = acked + BitVec.ofNat 32 (s :: ready).length := by
      rw [List.length_cons, BitVec.ofNat_add]
      grind
    rw [List.cons_append, readyWalk, if_neg (by simp), if_pos h₁]
    simp only [h₂, if_false, Bool.false_eq_true, false_and]
    rw [ih (fun t ht => h t (List.mem_cons_of_mem _ ht)), hlen]
    rfl

/-- From the expected sequence number on, the packets up to the first gap are marked, and the number
    moves to the gap. --/
theorem readyWalk_pending (r : Receive) (hx : rel d e = x) (hx₁ : -2 ^ 30 < x) (hb : b < 2 ^ 30)
    (h : Within d x q b) (acked : ULONG) :
    ∃ q₁ q₂ y e', q = q₁ ++ q₂ ∧ rel d e' = y ∧ Tiles x (spans d q₁) y ∧ Within d y q₂ b ∧
      (∀ p ∈ q₂, y < p.lo d) ∧
      readyWalk r false e acked q = ⟨q₁.map Packet.markReady ++ q₂, e', acked + BitVec.ofNat 32 q₁.length⟩ := by
  have hxb : x ≤ b := h.ordered.le
  induction q generalizing x e acked with
  | nil => exact ⟨[], [], x, e, rfl, hx, rfl, h, by simp, by simp [readyWalk]⟩
  | cons s q ih =>
    have hs := h.located hx₁ hb List.mem_cons_self
    have hm := h.mem List.mem_cons_self
    have he : Near d e := by
      rw [Near, hx]
      omega
    have hlo : rel d s.beginSequence = s.lo d := rfl
    rw [readyWalk, if_neg (by simp)]
    by_cases hgap : INT (e - s.beginSequence) ≥ 0
    · rw [if_pos hgap]
      rw [int_sub he hs.near_begin] at hgap
      have hin : INT (s.endSequence - e) > 0 := by
        rw [int_sub hs.near_end he, hs.rel_end]
        omega
      obtain ⟨q₁, q₂, y, e', rfl, hy, ht, hw, hq₂, heq⟩ :=
        ih hs.rel_end (by omega) h.tail (acked + 1) h.tail.ordered.le
      refine ⟨s :: q₁, q₂, y, e', rfl, hy, ⟨?_, hm.2.1, ht⟩, hw, hq₂, ?_⟩
      · show s.lo d = x
        omega
      · have hlen : acked + 1 + BitVec.ofNat 32 q₁.length = acked + BitVec.ofNat 32 (s :: q₁).length := by
          rw [List.length_cons, BitVec.ofNat_add]
          grind
        simp only [hin, if_true, Bool.false_eq_true, false_and, if_false]
        rw [heq, hlen]
        rfl
    · rw [if_neg hgap]
      rw [int_sub he hs.near_begin] at hgap
      refine ⟨[], s :: q, x, e, rfl, hx, rfl, h, fun p hp => ?_, by simp⟩
      rcases List.mem_cons.mp hp with rfl | hp
      · omega
      · have := (h.tail.mem hp).1
        omega

/-! ### With a drop -/

/-- When the tail is about to be released, the walk is the one over the packets in front of it: the
    maximum queue length cannot stop it earlier. --/
theorem readyWalk_drop (r : Receive) {tail : Packet} (ht : r.receiveQueueTail = some tail.addr)
    (hq : ∀ p ∈ q, p.addr ≠ tail.addr) (acked : ULONG)
    (hmax : acked.toNat + q.length ≤ r.receiveQueueMaximum.toNat) :
    readyWalk r true e acked (q ++ [tail]) =
      let w := readyWalk r false e acked q
      { w with queue := w.queue ++ [tail] } := by
  induction q generalizing e acked with
  | nil => simp [readyWalk, ht]
  | cons s q ih =>
    have hs := hq s List.mem_cons_self
    have hacked : (acked + 1).toNat = acked.toNat + 1 := by
      have := r.receiveQueueMaximum.isLt
      rw [BitVec.toNat_add]
      simp only [List.length_cons] at hmax
      simp
      omega
    have htail : ¬(true = true ∧ r.receiveQueueTail = some s.addr) := by
      rw [ht]
      rintro ⟨-, heq⟩
      exact hs (Option.some.inj heq).symm
    have hnodrop : ¬(false = true ∧ r.receiveQueueTail = some s.addr) := by simp
    rw [List.cons_append, readyWalk, if_neg htail, readyWalk, if_neg hnodrop]
    by_cases hge : INT (e - s.beginSequence) ≥ 0
    · rw [if_pos hge, if_pos hge]
      dsimp only
      by_cases hstop : acked + 1 ≥ r.receiveQueueMaximum
      · -- the maximum is reached only in front of the tail itself
        have hnil : q = [] := by
          rw [ge_iff_le, BitVec.le_def] at hstop
          simp only [List.length_cons] at hmax
          exact List.eq_nil_of_length_eq_zero (by omega)
        subst hnil
        rw [if_pos ⟨rfl, hstop⟩]
        simp [readyWalk]
      · simp only [hstop, and_false, if_false]
        rw [ih (fun p hp => hq p (List.mem_cons_of_mem _ hp)) (acked + 1) (by
          simp only [List.length_cons] at hmax
          omega)]
        simp
    · rw [if_neg hge, if_neg hge]
      simp

end

end Netxduo
