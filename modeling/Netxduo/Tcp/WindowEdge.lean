import Mathlib.Data.List.Chain
import Netxduo.Tcp.WindowAccount

/-! The right edge a socket announces, over whole runs: it stays where it is or moves on, as long as the octets taken
    in come in units of the window scale. -/

namespace Netxduo
open Serial Spans Runs

/-! ### The right edge -/

/-- The right edge announced last: `rx_sequence` and what is left of the window announced. --/
def Socket.rightEdge (s : Socket) : ULONG := s.rcv.rxSequence + s.rcv.rxWindowLastSent

/-- The octets fill units of a window scale. --/
def Units (scale : Nat) (n : ULONG) : Prop := 2 ^ scale ∣ n.toNat

/-- What is left of the window announced last could be announced again. --/
structure Socket.Announceable (ip : Ip) (s : Socket) : Prop where
  units : Units (ip.rcvScale s) s.rcv.rxWindowLastSent
  field : s.rcv.rxWindowLastSent.toNat ≤ 0xFFFF * 2 ^ ip.rcvScale s

instance (scale : Nat) (n : ULONG) : Decidable (Units scale n) := by
  unfold Units
  infer_instance

instance (g : Segment) : Decidable g.acknowledges := by
  unfold Segment.acknowledges
  infer_instance

/-- What the peer reads off an acknowledging segment. --/
def Segment.announces (g : Segment) (scale : Nat) : ULONG × ULONG := (g.acknowledgmentNumber, g.window <<< scale)

/-- The moments between `s` and `t`, one for each move of the receive window: the right edge never goes back, the
    window announced never exceeds the free space, and the acknowledging segments announce, in their order, the
    window of one of the moments each. --/
structure Moments (ip : Ip) (s t : Socket) (sent : List Segment) (moments : List Socket) : Prop where
  wire : t.wire = s.wire ++ sent
  last : (s :: moments).getLast? = some t
  forward : (s :: moments).IsChain fun u v => 0 ≤ INT (v.rightEdge - u.rightEdge)
  free : ∀ u ∈ moments,
    u.rcv.rxWindowLastSent.toNat + (octetsOf u.rcv.readyPackets).length ≤ u.rcv.rxWindowDefault.toNat
  announced : ((sent.filter fun g => decide g.acknowledges).map (·.announces (ip.rcvScale s))).Sublist
    (moments.map fun u => (u.rcv.rxSequence, u.rcv.rxWindowLastSent))

section
variable {ip : Ip} {irs : ULONG} {A : ULONG → Prop} {s t u s₀ : Socket} {actions : List Action}

theorem SameAccount.rcvScale (h : SameAccount s t) : ip.rcvScale t = ip.rcvScale s := by
  unfold Ip.rcvScale
  rw [h.rcvWinScaleValue]

/-! ### An entry -/

theorem int_nonneg {x : ULONG} (h : x.toNat < 2 ^ 31) : 0 ≤ INT x := by
  rw [INT, BitVec.toInt_eq_toNat_of_lt (by omega)]
  omega

/-- What can be announced again is not announced less of. --/
theorem Socket.Announceable.read (h : s.Announceable ip) (hs : s.Solvent) :
    s.rcv.rxWindowLastSent.toNat ≤ (windowRead ip s).toNat := by
  obtain ⟨⟨m, hm⟩, hfield⟩ := h
  have hadv := (socketRxWindowAdvertised_le ip s hs).1
  have hpos : 0 < 2 ^ ip.rcvScale s := Nat.two_pow_pos _
  rw [windowRead_toNat ip s hs, hm, Nat.mul_comm]
  refine Nat.mul_le_mul_right _ (Nat.le_min.mpr ⟨?_, ?_⟩)
  · rw [Nat.le_div_iff_mul_le hpos, Nat.mul_comm, ← hm]
    exact hadv
  · rw [hm, Nat.mul_comm] at hfield
    exact Nat.le_of_mul_le_mul_right hfield hpos

theorem Units.sub {scale : Nat} {m n : ULONG} (hm : Units scale m) (hn : Units scale n) (h : n ≤ m) :
    Units scale (m - n) := by
  rw [Units, BitVec.toNat_sub_of_le h]
  exact Nat.dvd_sub hm hn

/-- What is left of the window announced last. --/
theorem Entry.announceable {scale : Nat} (hscale : ip.rcvScale s = scale) (ha : SameAccount s t)
    (h : Entry ip (Units scale) s t) (hs : s.Solvent) (hann : s.Announceable ip) : t.Announceable ip := by
  obtain ⟨hunits, hfield⟩ := hann
  have hsame : ip.rcvScale t = ip.rcvScale s := ha.rcvScale
  rw [hscale] at hsame hunits hfield
  suffices hgoal : Units scale t.rcv.rxWindowLastSent ∧ t.rcv.rxWindowLastSent.toNat ≤ 0xFFFF * 2 ^ scale from
    ⟨by rw [hsame]; exact hgoal.1, by rw [hsame]; exact hgoal.2⟩
  cases h with
  | kept _ _ hl _ _ =>
    rw [hl]
    exact ⟨hunits, hfield⟩
  | gave _ _ _ hl _ _ =>
    rw [hl]
    exact ⟨hunits, hfield⟩
  | sent _ _ hl _ _ _ _ _ =>
    have hread := windowRead_toNat ip s hs
    rw [hscale] at hread
    rw [← windowRead] at hl
    rw [hl, Units, hread]
    exact ⟨Nat.dvd_mul_left _ _, Nat.mul_le_mul_right _ (Nat.min_le_right _ _)⟩
  | took n hn _ _ _ hl _ _ =>
    rw [hl]
    split
    · rename_i hgt
      have hle : n ≤ s.rcv.rxWindowLastSent := BitVec.le_of_lt hgt
      refine ⟨hunits.sub hn hle, ?_⟩
      rw [BitVec.toNat_sub_of_le hle]
      omega
    · exact ⟨Nat.dvd_zero _, Nat.zero_le _⟩

/-- No entry takes the right edge back. --/
theorem Entry.forward (h : Entry ip A s t) (hs : s.Solvent) (hann : s.Announceable ip) :
    0 ≤ INT (t.rightEdge - s.rightEdge) := by
  have hlast := hs.last
  have hcurrent := hs.current
  have hbound := hs.bound
  unfold Socket.rightEdge
  cases h with
  | kept hx _ hl _ _ =>
    rw [hl]
    rcases hx with hx | hx
    · rw [hx, BitVec.sub_self]
      decide
    · have hone : s.rcv.rxSequence + 1 + s.rcv.rxWindowLastSent - (s.rcv.rxSequence + s.rcv.rxWindowLastSent) = 1 := by
        grind
      rw [hx, hone]
      decide
  | gave hx _ _ hl _ _ =>
    rw [hx, hl, BitVec.sub_self]
    decide
  | sent hx _ hl _ _ _ _ _ =>
    have hread := hann.read hs
    have hle := windowRead_le ip s hs
    rw [← windowRead] at hl
    have hdiff : s.rcv.rxSequence + windowRead ip s - (s.rcv.rxSequence + s.rcv.rxWindowLastSent) =
        windowRead ip s - s.rcv.rxWindowLastSent := by grind
    rw [hx, hl, hdiff]
    refine int_nonneg ?_
    rw [BitVec.toNat_sub_of_le hread]
    omega
  | took n _ hroom hx _ hl _ _ =>
    rw [hx, hl]
    split
    · have hzero : s.rcv.rxSequence + n + (s.rcv.rxWindowLastSent - n) - (s.rcv.rxSequence + s.rcv.rxWindowLastSent) = 0 := by
        grind
      rw [hzero]
      decide
    · rename_i hle
      rw [gt_iff_lt, BitVec.not_lt] at hle
      have hdiff : s.rcv.rxSequence + n + 0 - (s.rcv.rxSequence + s.rcv.rxWindowLastSent) =
          n - s.rcv.rxWindowLastSent := by grind
      rw [hdiff]
      refine int_nonneg ?_
      rw [BitVec.toNat_sub_of_le hle]
      omega

/-! ### The moments of a ledger -/

/-- What an entry adds to the wire, and where it is announced. --/
theorem Entry.wire (h : Entry ip A s t) : ∃ sent, t.wire = s.wire ++ sent ∧
    ((sent.filter fun g => decide g.acknowledges).map (·.announces (ip.rcvScale s))).Sublist
      [(t.rcv.rxSequence, t.rcv.rxWindowLastSent)] := by
  cases h with
  | kept _ _ _ _ hw => exact ⟨[], by rw [hw, List.append_nil], List.nil_sublist _⟩
  | gave _ _ _ _ _ hw => exact ⟨[], by rw [hw, List.append_nil], List.nil_sublist _⟩
  | took _ _ _ _ _ _ _ hw => exact ⟨[], by rw [hw, List.append_nil], List.nil_sublist _⟩
  | sent hx _ hl _ g hw hwindow hack =>
    refine ⟨[g], hw, ?_⟩
    by_cases hg : g.acknowledges
    · rw [List.filter_cons_of_pos (by simpa using hg), List.filter_nil, List.map_singleton, Segment.announces, hack hg,
        hwindow, hx, hl]
    · rw [List.filter_cons_of_neg (by simpa using hg)]
      exact List.nil_sublist _

theorem free_of_balanced (hs : s.Solvent) (hl : s.Level) :
    s.rcv.rxWindowLastSent.toNat + (octetsOf s.rcv.readyPackets).length ≤ s.rcv.rxWindowDefault.toNat := by
  have hlast := hs.last
  rw [Socket.Level] at hl
  omega

/-- The entries of a stretch are its moments. --/
theorem Ledger.moments {scale : Nat} (h : Ledger ip (Units scale) s t) (hscale : ip.rcvScale s = scale)
    (hs : s.Solvent) (hl : s.Level) (hann : s.Announceable ip) :
    t.Announceable ip ∧ ∃ sent moments, Moments ip s t sent moments := by
  induction h with
  | refl =>
    refine ⟨hann, [], [], by rw [List.append_nil], rfl, List.IsChain.singleton _, ?_, List.Sublist.refl _⟩
    intro u hu
    cases hu
  | @tail u v hsu huv ih =>
    obtain ⟨hannu, sent, moments, hm⟩ := ih
    have hledger : Ledger ip (Units scale) s u := hsu
    have hsolvent := hledger.solvent hs
    have hlevel := hledger.level hl
    have hscaleu : ip.rcvScale u = ip.rcvScale _ := hledger.sameAccount.rcvScale
    obtain ⟨new, hw, hann'⟩ := huv.2.wire
    refine ⟨huv.2.announceable (hscaleu.trans hscale) huv.1 hsolvent hannu, sent ++ new, moments ++ [v], ?_, ?_, ?_, ?_, ?_⟩
    · rw [hw, hm.wire, List.append_assoc]
    · rw [← List.cons_append, List.getLast?_append]
      rfl
    · rw [← List.cons_append, List.isChain_append]
      refine ⟨hm.forward, List.IsChain.singleton _, fun x hx y hy => ?_⟩
      rw [hm.last] at hx
      cases hx
      cases hy
      exact huv.2.forward hsolvent hannu
    · intro x hx
      rcases List.mem_append.mp hx with hx | hx
      · exact hm.free x hx
      · rw [List.mem_singleton.mp hx]
        exact free_of_balanced (huv.2.solvent huv.1 hsolvent) (huv.2.level huv.1 hlevel)
    · rw [List.filter_append, List.map_append, List.map_append]
      rw [hscaleu] at hann'
      exact hm.announced.append hann'

/-! ### Runs -/

/-- In a run that drops nothing, and takes octets in by units of the window scale, no step takes the right edge
    back, and none announces more than the free space. --/
theorem rightEdge_forward (hs₀ : s₀.Established irs) (hfresh : s₀.Fresh) (hann : s₀.Announceable ip)
    (h : Run (step ip) (fun s a => a.Fresh s ∧ a.Kept ip (Units (ip.rcvScale s₀)) s) s₀ actions s) (a : Action)
    (ha : a.Fresh s) (hkeep : a.Kept ip (Units (ip.rcvScale s₀)) s) :
    ∃ sent moments, Moments ip s (step ip s a) sent moments := by
  obtain ⟨⟨fin, hr⟩, hl⟩ := ledger_of_run hs₀ h
  have hsolvent := hfresh.solvent hs₀
  have hlevel := hfresh.level hs₀
  obtain ⟨hann', -⟩ := hl.moments rfl hsolvent hlevel hann
  exact ((hr.step_ledger ha hkeep).1.moments hl.sameAccount.rcvScale (hl.solvent hsolvent) (hl.level hlevel) hann').2

/-- Two octets arrive where the scale is one. --/
theorem rightEdge_forward_two :
    let s₀ := { Socket.opened 0 0 8000 1000 with rcv.rcvWinScaleValue := 1 }
    ∃ sent moments, Moments .ideal s₀ (step .ideal s₀ (.segment (.plain 1 1 1 tcpAckBit [7, 8]) 0)) sent moments := by
  intro s₀
  have hs₀ : s₀.Established 0 := ⟨rfl, rfl, rfl, rfl, rfl, rfl, rfl, by decide, by decide, rfl, rfl⟩
  refine rightEdge_forward hs₀ ⟨rfl, by decide⟩ ⟨by decide, by decide⟩ .start _ ?_ ⟨by decide, ?_⟩
  · intro p hp
    cases List.mem_singleton.mp hp
    exact ⟨⟨by decide, by decide⟩, List.not_mem_nil⟩
  · intro p hp u hu
    cases List.mem_singleton.mp hp
    have hall : (dataChecked .ideal s₀ (.plain 1 1 1 tcpAckBit [7, 8])).all (fun u => decide (Units 1
        ((dataQueued .ideal u (.plain 1 1 1 tcpAckBit [7, 8])).socket.rcv.rxSequence - u.rcv.rxSequence))) = true := by
      decide
    exact of_decide_eq_true ((Option.all_eq_true _ _).mp hall u hu)

/-- With a scale of three, one octet costs the peer seven: the window is announced again in units of eight. --/
theorem rightEdge_retracts :
    let s₀ := { Socket.opened 0 0 8000 1000 with rcv.rcvWinScaleValue := 3 }
    let s := step .ideal s₀ (.segment (.plain 1 1 1 tcpAckBit [7]) 0)
    let t := step .ideal (step .ideal s .timer) .timer
    s.rightEdge = s₀.rightEdge ∧ t.rightEdge = s₀.rightEdge - 7 ∧
      t.wire.map (fun g => (g.acknowledgmentNumber, g.window)) = [(2, 999)] := by
  decide

end

end Netxduo
