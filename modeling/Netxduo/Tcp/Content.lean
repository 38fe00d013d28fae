import Netxduo.Tcp.Stream

/-! What the application reads: segments cut from one stream of octets are put together again in its order. -/

namespace Netxduo
open Serial Spans Runs

/-! ### Places in the stream -/

/-- `p` holds the octets of `b` from `offset` on. --/
structure Packet.CutFrom (irs : ULONG) (b : List UInt8) (offset : Nat) (p : Packet) : Prop where
  sequence : p.beginSequence = irs + 1 + BitVec.ofNat 32 offset
  octets : p.octets <+: b.drop offset
  fin : p.header.has tcpFinBit = true → offset + p.octets.length = b.length

/-- `p` lies in `b` where it stands in the sequence space, `r` being the number of the `n`-th octet. --/
def Packet.Fits (b : List UInt8) (n : Nat) (r : ULONG) (p : Packet) : Prop :=
  ∃ offset : Nat, (offset : Int) = n + p.lo r ∧ p.octets <+: b.drop offset

section
variable {ip : Ip} {irs r e : ULONG} {b : List UInt8} {s t : Socket} {p q : Packet} {n offset : Nat} {cut fin fin' : Bool}
  {arrived ready pending ready' pending' out front : List Packet}

/-- Within half of the sequence space the number of a segment tells its place. --/
theorem Packet.CutFrom.fits (h : p.CutFrom irs b offset) (hr : r = irs + 1 + BitVec.ofNat 32 n)
    (h₁ : -2 ^ 31 ≤ (offset : Int) - n) (h₂ : (offset : Int) - n < 2 ^ 31) : p.Fits b n r := by
  refine ⟨offset, ?_, h.octets⟩
  have hdiff : p.beginSequence - r = BitVec.ofInt 32 ((offset : Int) - n) := by
    rw [h.sequence, hr, ← BitVec.ofInt_natCast 32 offset, ← BitVec.ofInt_natCast 32 n, ← BitVec.add_sub_cancel
      (BitVec.ofInt 32 ((offset : Int) - n)) (BitVec.ofInt 32 n), ← BitVec.ofInt_add, Int.sub_add_cancel]
    grind
  rw [Packet.lo, rel, hdiff, BitVec.toInt_ofInt, bmod_eq (w := 32) (by omega) (by omega)]
  omega

theorem Packet.Slice.fits (h : q.Slice r p) (hp : p.Fits b n r) : q.Fits b n r := by
  obtain ⟨k, hlo, hpre⟩ := h
  obtain ⟨offset, hoff, hoct⟩ := hp
  refine ⟨offset + k, by rw [hlo]; push_cast; omega, hpre.trans ?_⟩
  rw [← List.drop_drop]
  obtain ⟨rest, hrest⟩ := hoct
  rw [← hrest, List.drop_append]
  exact List.prefix_append _ _

/-- A packet near both numbers keeps its place when the reference moves on. --/
theorem Packet.Fits.advance {y : Nat} (h : q.Fits b n r) (hq : q.Located e) (he : e = r + BitVec.ofNat 32 y)
    (hy : y < 2 ^ 30) : q.Fits b (n + y) e := by
  obtain ⟨offset, hoff, hoct⟩ := h
  have hrel : rel r e = y := by
    rw [he, rel_add_ofNat (by rw [rel_self]; omega) (by rw [rel_self]; omega), rel_self, Int.zero_add]
  have hback : rel e r = -(y : Int) := by
    rw [rel_rebase (r := r) (by rw [rel_self, hrel]; omega) (by rw [rel_self, hrel]; omega), rel_self, hrel]
    omega
  have hlo : q.lo r = q.lo e + y := by
    have h₁ := hq.lower
    have h₂ := hq.le
    have h₃ := hq.upper
    have hdef : rel e q.beginSequence = q.lo e := rfl
    rw [Packet.lo, rel_rebase (r := e) (by rw [hback]; omega) (by rw [hback]; omega), hback]
    omega
  exact ⟨offset, by rw [hlo] at hoff; push_cast; omega, hoct⟩

/-- Packets that tile an interval hold the octets of the stream there. --/
theorem octetsOf_prefix {x y : Int} {q : List Packet} (ht : Tiles x (spans r q) y) (hq : ∀ p ∈ q, p.Fits b n r)
    {start : Nat} (hstart : (start : Int) = n + x) : octetsOf q <+: b.drop start := by
  induction q generalizing x start with
  | nil => exact List.nil_prefix
  | cons p q ih =>
    obtain ⟨hx, -, ht⟩ := ht
    change p.lo r = x at hx
    obtain ⟨offset, hoff, hoct⟩ := hq p List.mem_cons_self
    have hsame : offset = start := by omega
    subst hsame
    obtain ⟨rest, hrest⟩ := hoct
    have htail : octetsOf q <+: b.drop (offset + p.octets.length) := by
      apply ih ht (fun o ho => hq o (List.mem_cons_of_mem p ho))
      change ((offset + p.octets.length : Nat) : Int) = n + p.hi r
      rw [Packet.hi]
      push_cast
      omega
    rw [← List.drop_drop, ← hrest, List.drop_left] at htail
    rw [octetsOf_cons, ← hrest]
    exact List.prefix_append_right_inj p.octets |>.mpr htail

/-! ### The invariant -/

/-- The received octets are the first ones of the stream, and what waits behind a gap lies at its place. --/
structure Matches (b : List UInt8) (s : Socket) : Prop where
  received : s.received <+: b
  waiting : s.state.connected → s.state.finTaken = false →
    ∀ p ∈ s.rcv.pendingPackets, p.Fits b s.received.length s.rcv.rxSequence

/-- The environment of a connection whose peer sends the stream `b`: each segment is cut from it, less than half
    of the sequence space away from what is received. --/
def Action.Streams (irs : ULONG) (b : List UInt8) (s : Socket) (a : Action) : Prop :=
  a.Fresh s ∧ ∀ p ∈ a.arrived, ∃ offset, p.CutFrom irs b offset ∧
    -2 ^ 31 ≤ (offset : Int) - s.received.length ∧ (offset : Int) - s.received.length < 2 ^ 31

theorem Matches.next {a : Action} (h : Matches b s) (hr : Receives ip irs s fin) (ha : a.Streams irs b s) :
    ∃ fin', Receives ip irs (step ip s a) fin' ∧ Matches b (step ip s a) := by
  obtain ⟨out, front, fin', hh, hrec, hr'⟩ := hr.next a ha.1
  refine ⟨_, hr', ?_⟩
  -- whatever the step holds lies at its place, while the socket takes data
  have hfits : s.state.connected → s.state.finTaken = false →
      ∀ q ∈ front ++ (step ip s a).rcv.pendingPackets, q.Fits b s.received.length s.rcv.rxSequence := by
    intro hc hf q hq
    obtain ⟨o, ho, hqo⟩ := hh.slice q hq
    apply hqo.fits
    rcases List.mem_append.mp ho with ho | ho
    · obtain ⟨offset, hcut, h₁, h₂⟩ := ha.2 o ho
      apply hcut.fits _ h₁ h₂
      rw [hr.rxSequence, ← hr.state hc, hf, Bool.toNat_false, Nat.add_zero]
    · exact h.waiting hc hf o ho
  have hpre : octetsOf front <+: b.drop s.received.length := by
    by_cases hnil : front = []
    · rw [hnil]
      exact List.nil_prefix
    · obtain ⟨hc, hf⟩ := hh.receptive (.inl hnil)
      exact octetsOf_prefix hh.tiles (fun p hp => hfits hc hf p (List.mem_append_left _ hp)) (by omega)
  refine ⟨?_, ?_⟩
  · obtain ⟨rest, hrest⟩ := h.received
    rw [hrec, ← hrest]
    rw [← hrest, List.drop_left] at hpre
    exact List.prefix_append_right_inj s.received |>.mpr hpre
  · intro hc hf p hp
    obtain ⟨hc', hside⟩ := hh.state hc
    rw [hf, eq_comm, Bool.or_eq_false_iff] at hside
    obtain ⟨hopen, hno⟩ := hside
    have hend := hr'.receivedEnd
    rw [← hr'.state hc, hf, Bool.toNat_false, BitVec.add_zero] at hend
    have hrx := hh.rxSequence
    rw [hno, Bool.toNat_false, Nat.add_zero] at hrx
    rw [hrec, List.length_append]
    refine (hfits hc' hopen p (List.mem_append_right _ hp)).advance ?_ hrx hh.bounded
    rw [hend]
    exact hr'.receiving.content.located_pending hp

theorem Socket.Established.matches (h : s.Established irs) (b : List UInt8) : Matches b s := by
  refine ⟨?_, ?_⟩
  · rw [h.received]
    exact List.nil_prefix
  · intro _ _ p hp
    rw [Receive.pendingPackets, h.queue] at hp
    cases hp

/-! ### Over a run -/

theorem handed_prefix_received (s : Socket) : octetsOf s.handed <+: s.received := List.prefix_append _ _

/-- What is read is at every moment the beginning of the stream, and `rxSequence` counts what is received. --/
theorem handed_prefix {s₀ : Socket} {actions : List Action} (hs₀ : s₀.Established irs)
    (h : Run (step ip) (Action.Streams irs b) s₀ actions s) :
    octetsOf s.handed <+: b ∧ s.received <+: b ∧
      (s.state.connected →
        s.rcv.rxSequence = irs + 1 + BitVec.ofNat 32 (s.received.length + s.state.finTaken.toNat)) := by
  obtain ⟨fin, hr, hm⟩ := h.invariant (P := fun _ s => ∃ fin, Receives ip irs s fin ∧ Matches b s)
    ⟨false, hs₀.receives, hs₀.matches b⟩ (by
      rintro actions s a ⟨fin, hr, hm⟩ ha
      exact hm.next hr ha)
  refine ⟨(handed_prefix_received s).trans hm.received, hm.received, fun hc => ?_⟩
  rw [hr.rxSequence, hr.state hc]

/-- The second half of a stream comes first, and is read once the first half is there. --/
theorem handed_prefix_reordered :
    let a := Action.segment (.plain 1 3 1 tcpAckBit [30, 40]) 0
    let a' := Action.segment (.plain 2 1 1 tcpAckBit [10, 20]) 2
    octetsOf (step .ideal (step .ideal (.opened 0 0 1000 1000) a) a').handed <+: [10, 20, 30, 40] := by
  refine ( handed_prefix (opened_established 0 0 1000 (by decide)) (.next (.single ?_) ?_)).1
  · refine ⟨fresh_opened ⟨by decide, by decide⟩ 0, fun p hp => ?_⟩
    cases List.mem_singleton.mp hp
    exact ⟨2, ⟨by decide, by decide, nofun⟩, by decide, by decide⟩
  · refine ⟨fun p hp => ?_, fun p hp => ?_⟩
    · cases List.mem_singleton.mp hp
      exact ⟨⟨by decide, by decide⟩, by decide⟩
    · cases List.mem_singleton.mp hp
      exact ⟨0, ⟨by decide, by decide, nofun⟩, by decide, by decide⟩

/-- Without the bound on the distance: 2^32 octets further on the sequence numbers come again, and what is cut from
    there is taken for the first octet. --/
theorem handed_prefix_wraps :
    ¬∀ (ip : Ip) (irs : ULONG) (b : List UInt8) (s₀ s : Socket) (actions : List Action), s₀.Established irs →
      Run (step ip) (fun s a => a.Fresh s ∧ ∀ p ∈ a.arrived, ∃ offset, p.CutFrom irs b offset) s₀ actions s →
      octetsOf s.handed <+: b := by
  intro h
  have hfar : (Packet.plain 1 1 1 tcpAckBit [1]).CutFrom 0 (List.replicate (4294967295 + 1) 0 ++ [1]) 4294967296 := by
    refine ⟨by decide, ?_, fun hfin => absurd hfin (by decide)⟩
    rw [List.drop_left' List.length_replicate]
    exact List.prefix_refl _
  have hread := h .ideal 0 (List.replicate (4294967295 + 1) 0 ++ [1]) (.opened 0 0 1000 1000) _
    [.segment (.plain 1 1 1 tcpAckBit [1]) 1] (opened_established _ _ _ (by decide))
    (.single ⟨fresh_opened ⟨by decide, by decide⟩ 1, fun p hp => by
      cases List.mem_singleton.mp hp
      exact ⟨_, hfar⟩⟩)
  have hone : octetsOf (step .ideal (.opened 0 0 1000 1000) (.segment (.plain 1 1 1 tcpAckBit [1]) 1)).handed = [1] := by
    decide
  rw [hone, List.replicate_succ, List.cons_append, List.cons_prefix_cons] at hread
  exact absurd hread.1 (by decide)

end

end Netxduo
