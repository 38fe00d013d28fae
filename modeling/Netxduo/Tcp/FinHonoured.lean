import Netxduo.Tcp.Stream

/-! The FIN of the peer: as long as no segment with a FIN reaches over the right edge of the window, the socket
    takes a FIN where the peer put it. A segment that is cut there gives its FIN to the octets that are left. -/

namespace Netxduo
open Serial Spans Runs

/-- The segments that arrived. --/
def arrivals (actions : List Action) : List Packet := actions.flatMap Action.arrived

/-- No segment with a FIN reaches over the right edge of the window. --/
def Action.Uncut (ip : Ip) (s : Socket) (a : Action) : Prop :=
  ∀ p ∈ a.arrived, p.header.has tcpFinBit = true → a.cut ip s = false

/-- Some segment put its FIN behind the received octets. --/
def Socket.FinDue (irs : ULONG) (arrived : List Packet) (s : Socket) : Prop :=
  ∃ p ∈ arrived, p.header.has tcpFinBit = true ∧ p.endSequence = s.receivedEnd irs

/-- The number acknowledges received octets only, or a FIN that stands right behind all of them. --/
def Socket.AckSound (irs : ULONG) (arrived : List Packet) (s : Socket) (ack : ULONG) : Prop :=
  (∃ n ≤ s.received.length, ack = irs + 1 + BitVec.ofNat 32 n) ∨
    s.FinDue irs arrived ∧ ack = s.receivedEnd irs + 1

section
variable {ip : Ip} {irs ack : ULONG} {s t : Socket} {fin fin' : Bool} {arrived arrived' : List Packet}

/-- What is remembered of a FIN, and what was acknowledged. --/
structure FinSound (irs : ULONG) (arrived : List Packet) (s : Socket) (fin : Bool) : Prop where
  remembered : s.rcv.finReceived = true →
    ∃ p ∈ arrived, p.header.has tcpFinBit = true ∧ s.rcv.finSequence = p.endSequence
  taken : fin = true → s.FinDue irs arrived
  acks : ∀ g ∈ s.wire, g.acknowledges →
    ∃ n ≤ s.received.length + fin.toNat, g.acknowledgmentNumber = irs + 1 + BitVec.ofNat 32 n

theorem FinSound.next {a : Action} (h : FinSound irs arrived s fin) (hr : Receives ip irs s fin)
    (ha : a.Fresh s ∧ a.Uncut ip s) :
    ∃ fin', Receives ip irs (step ip s a) fin' ∧ FinSound irs (arrived ++ a.arrived) (step ip s a) fin' := by
  obtain ⟨out, front, fin', hh, hrec, hr'⟩ := hr.next a ha.1
  refine ⟨_, hr', ?_⟩
  -- a FIN that is taken stays where it is: no octet comes behind it
  have hstay : fin = true → front = [] ∧ fin' = false := by
    intro hfin
    have hno : ¬(front ≠ [] ∨ fin' = true) := by
      intro hne
      obtain ⟨hc, hf⟩ := hh.receptive hne
      rw [hr.state hc, hfin] at hf
      cases hf
    rw [not_or, not_not, Bool.not_eq_true] at hno
    exact hno
  have hremembered : (step ip s a).rcv.finReceived = true → ∃ p ∈ arrived ++ a.arrived,
      p.header.has tcpFinBit = true ∧ (step ip s a).rcv.finSequence = p.endSequence := by
    intro hrecv
    rcases hh.remembered with ⟨h₁, h₂⟩ | ⟨p, hp, hfin, hseq⟩
    · obtain ⟨p, hp, hfin, hseq⟩ := h.remembered (h₁ ▸ hrecv)
      exact ⟨p, List.mem_append_left _ hp, hfin, h₂.trans hseq⟩
    · exact ⟨p, List.mem_append_right _ hp, hfin, hseq (ha.2 p hp hfin)⟩
  have hkeep : fin = true → s.FinDue irs arrived → (step ip s a).FinDue irs (arrived ++ a.arrived) := by
    rintro hfin ⟨p, hp, hbit, hseq⟩
    refine ⟨p, List.mem_append_left _ hp, hbit, ?_⟩
    rw [hseq, Socket.receivedEnd, Socket.receivedEnd, hrec, (hstay hfin).1, octetsOf_nil, List.append_nil]
  have htaken : (fin || fin') = true → (step ip s a).FinDue irs (arrived ++ a.arrived) := by
    intro hor
    cases hfin : fin with
    | true => exact hkeep hfin (h.taken hfin)
    | false =>
      rw [hfin, Bool.false_or] at hor
      obtain ⟨hrecv, hdue⟩ := hh.honoured hor
      obtain ⟨p, hp, hbit, hseq⟩ := hremembered hrecv
      have hend := hr'.receivedEnd
      rw [hfin, hor, hdue, hseq] at hend
      exact ⟨p, hp, hbit, by simpa using hend⟩
  refine ⟨hremembered, htaken, ?_⟩
  obtain ⟨sent, hw, hack⟩ := hh.wire
  intro g hg hc
  rw [hw] at hg
  have hle : s.received.length + fin.toNat ≤ (step ip s a).received.length + (fin || fin').toNat := by
    rw [hrec, List.length_append]
    have hor : fin.toNat ≤ (fin || fin').toNat := by cases fin <;> simp
    omega
  rcases List.mem_append.mp hg with hg | hg
  · obtain ⟨n, hn, heq⟩ := h.acks g hg hc
    exact ⟨n, hn.trans hle, heq⟩
  · obtain ⟨n, hn, heq⟩ := hack g hg hc
    refine ⟨s.received.length + fin.toNat + n, ?_, ?_⟩
    · rw [hrec, List.length_append]
      cases hfin : fin with
      | false =>
        rw [Bool.false_or, Bool.toNat_false]
        omega
      | true =>
        obtain ⟨hnil, hno⟩ := hstay hfin
        rw [hnil, hno] at hn
        have hzero : n = 0 := Nat.le_zero.mp hn
        rw [hzero]
        simp
    · rw [heq, hr.rxSequence, BitVec.add_assoc (irs + 1), ← BitVec.ofNat_add]

theorem Socket.Established.finSound (h : s.Established irs) : FinSound irs [] s false := by
  refine ⟨fun hrecv => ?_, nofun, fun g hg => ?_⟩
  · rw [h.finReceived] at hrecv
    cases hrecv
  · rw [h.wire] at hg
    cases hg

theorem FinSound.ackSound (h : FinSound irs arrived s fin) {g : Segment} (hg : g ∈ s.wire) (hc : g.acknowledges) :
    s.AckSound irs arrived g.acknowledgmentNumber := by
  obtain ⟨n, hn, heq⟩ := h.acks g hg hc
  by_cases hle : n ≤ s.received.length
  · exact .inl ⟨n, hle, heq⟩
  · cases fin with
    | false =>
      rw [Bool.toNat_false] at hn
      omega
    | true =>
      have hlast : n = s.received.length + 1 := by
        rw [Bool.toNat_true] at hn
        omega
      refine .inr ⟨h.taken rfl, ?_⟩
      rw [heq, hlast, BitVec.ofNat_add, ← BitVec.add_assoc]
      rfl

/-- While no FIN reaches over the right edge of the window, the peer's FIN is honoured where the peer put it: behind
    it are only received octets, in `rxSequence` and in every acknowledgment. --/
theorem fin_honoured {s₀ : Socket} {actions : List Action} (hs₀ : s₀.Established irs)
    (h : Run (step ip) (fun s a => a.Fresh s ∧ a.Uncut ip s) s₀ actions s) :
    (s.state.connected → s.state.finTaken = true →
      s.FinDue irs (arrivals actions) ∧ s.rcv.rxSequence = s.receivedEnd irs + 1) ∧
    (s.state.connected → s.state.finTaken = false → s.rcv.rxSequence = s.receivedEnd irs) ∧
    ∀ g ∈ s.wire, g.acknowledges → s.AckSound irs (arrivals actions) g.acknowledgmentNumber := by
  obtain ⟨fin, hr, hsound⟩ := h.invariant
    (P := fun actions s => ∃ fin, Receives ip irs s fin ∧ FinSound irs (arrivals actions) s fin)
    ⟨false, hs₀.receives, hs₀.finSound⟩ (by
      rintro actions s a ⟨fin, hr, hsound⟩ ha
      obtain ⟨fin', hr', hsound'⟩ := hsound.next hr ha
      refine ⟨fin', hr', ?_⟩
      rw [arrivals, List.flatMap_append, List.flatMap_singleton]
      exact hsound')
  refine ⟨?_, ?_, fun g hg hc => hsound.ackSound hg hc⟩
  · intro hc hf
    rw [hr.state hc] at hf
    subst hf
    exact ⟨hsound.taken rfl, hr.receivedEnd⟩
  · intro hc hf
    rw [hr.state hc] at hf
    subst hf
    simpa using hr.receivedEnd

/-- A FIN behind two octets, inside the window. --/
theorem fin_honoured_inside :
    let a := Action.segment (.plain 1 1 1 (tcpAckBit ||| tcpFinBit) [1, 2]) 0
    let s := step .ideal (.opened 0 0 4 1000) a
    s.state = .closeWait ∧ s.FinDue 0 (arrivals [a]) ∧ s.rcv.rxSequence = s.receivedEnd 0 + 1 := by
  refine ⟨by decide, (fin_honoured (opened_established 0 0 1000 (by decide)) (.single ⟨?_, ?_⟩)).1 (by decide) (by decide)⟩
  · exact fresh_opened ⟨by decide, by decide⟩ 0
  · exact fun _ _ _ => by decide

/-- A FIN behind six octets, where the window takes four: it is honoured behind the fourth, and acknowledged. --/
theorem fin_honoured_straddling :
    ¬∀ (ip : Ip) (irs : ULONG) (s₀ s : Socket) (actions : List Action), s₀.Established irs →
      Run (step ip) (fun s a => a.Fresh s) s₀ actions s →
      (s.state.connected → s.state.finTaken = true → s.FinDue irs (arrivals actions)) ∧
      ∀ g ∈ s.wire, g.acknowledges → s.AckSound irs (arrivals actions) g.acknowledgmentNumber := by
  intro h
  obtain ⟨p, hp, -, hseq⟩ := (h .ideal 0 (.opened 0 0 4 1000) _
    [.segment (.plain 1 1 1 (tcpAckBit ||| tcpFinBit) [1, 2, 3, 4, 5, 6]) 0] (opened_established _ _ _ (by decide))
    (.single (fresh_opened ⟨by decide, by decide⟩ 0))).1 (by decide) (by decide)
  cases List.mem_singleton.mp hp
  exact absurd hseq (by decide)

end

end Netxduo
