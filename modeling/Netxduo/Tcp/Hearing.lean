import Netxduo.Tcp.PacketSound

/-! What a segment makes of the receive half (`Hears`): packets become ready and are handed out in the order
    of the stream, and at the end of the stream a FIN may be taken. -/

namespace Netxduo
open Serial Spans

/-! ### The FIN in the state -/

/-- The states behind the FIN of the peer. --/
def State.finTaken : State → Bool
  | .closeWait | .closing | .timedWait | .lastAck => true
  | .closed | .listen | .synSent | .synReceived | .established | .finWait1 | .finWait2 => false

/-- The connection has passed its handshake and has not been given up. --/
def State.connected (x : State) : Prop := State.established.code ≤ x.code

instance (x : State) : Decidable x.connected := inferInstanceAs (Decidable (_ ≤ _))

/-- A socket that is still connected is on the same side of the FIN of the peer. --/
def SameSide (s t : Socket) : Prop :=
  t.state.connected → s.state.connected ∧ t.state.finTaken = s.state.finTaken

theorem SameSide.of_state {s t : Socket} (h : t.state = s.state) : SameSide s t := by
  intro hc
  rw [h] at hc
  exact ⟨hc, by rw [h]⟩

theorem SameSide.trans {s t u : Socket} (h : SameSide s t) (h' : SameSide t u) : SameSide s u := by
  intro hc
  obtain ⟨hc', hf'⟩ := h' hc
  obtain ⟨hc'', hf⟩ := h hc'
  exact ⟨hc'', hf'.trans hf⟩

theorem SameSide.of_not {s t : Socket} (h : ¬t.state.connected) : SameSide s t := fun hc => absurd hc h

/-- The segment reaches over the right edge of the window. --/
def straddles (s : Socket) (p : Packet) : Bool :=
  p.dataLength != 0 && decide (INT ((p.endSequence - s.rcv.rxSequence) - s.rcv.rxWindowCurrent) > 0)

/-- From `s` to `t` the segments `arrived` are heard: the packets `front` join the ready ones, `out` are handed
    out, and `fin` says whether a FIN is taken. `cut` says that a segment was cut at the right edge. --/
structure Hears (cut : Bool) (arrived : List Packet) (s : Socket) (ready pending : List Packet) (t : Socket)
    (ready' pending' out front : List Packet) (fin : Bool) : Prop where
  handed : t.handed = s.handed ++ out
  ready : out ++ ready' = ready ++ front.map Packet.markReady
  rxSequence : t.rcv.rxSequence = s.rcv.rxSequence + BitVec.ofNat 32 ((octetsOf front).length + fin.toNat)
  tiles : Tiles 0 (spans s.rcv.rxSequence front) (octetsOf front).length
  bounded : (octetsOf front).length < 2 ^ 30
  slice : ∀ q ∈ front ++ pending', ∃ o ∈ arrived ++ pending, q.Slice s.rcv.rxSequence o
  wire : ∃ sent, t.wire = s.wire ++ sent ∧ ∀ g ∈ sent, g.acknowledges →
    ∃ n ≤ (octetsOf front).length + fin.toNat, g.acknowledgmentNumber = s.rcv.rxSequence + BitVec.ofNat 32 n
  remembered : (t.rcv.finReceived = s.rcv.finReceived ∧ t.rcv.finSequence = s.rcv.finSequence) ∨
    ∃ p ∈ arrived, p.header.has tcpFinBit = true ∧ (cut = false → t.rcv.finSequence = p.endSequence)
  honoured : fin = true → t.rcv.finReceived = true ∧ t.rcv.rxSequence = t.rcv.finSequence + 1
  state : t.state.connected → s.state.connected ∧ t.state.finTaken = (s.state.finTaken || fin)
  receptive : front ≠ [] ∨ fin = true → s.state.connected ∧ s.state.finTaken = false

section
variable {ip : Ip} {s t u : Socket} {p : Packet} {cut : Bool} {d : ULONG}
  {arrived ready pending ready' pending' out front : List Packet}

/-! ### Slices -/

theorem Packet.Slice.refl (r : ULONG) (p : Packet) : p.Slice r p := ⟨0, by simp, by simp⟩

theorem Packet.Cut.slice {r : ULONG} {q o p : Packet} (h : q.Cut o) (h' : o.Slice r p) : q.Slice r p := by
  obtain ⟨k, hk, hpre⟩ := h'
  refine ⟨k, ?_, h.octets.trans hpre⟩
  rw [← hk, Packet.lo, Packet.lo, Packet.beginSequence, Packet.beginSequence, h.header]

/-! ### Segments that are not taken -/

theorem Undisturbed.hears (h : Undisturbed ip s t) (hstate : SameSide s t)
    (cut : Bool) (arrived : List Packet) : Hears cut arrived s ready pending t ready pending [] [] false := by
  obtain ⟨sent, hw, hack⟩ := h.wire
  refine ⟨by rw [h.handed, List.append_nil], by simp, by simp [h.rxSequence], rfl, by simp, ?_,
    ⟨sent, hw, ?_⟩,
    .inl ⟨h.finReceived, h.finSequence⟩, nofun, fun hc => by rw [Bool.or_false]; exact hstate hc, by simp⟩
  · intro q hq
    exact ⟨q, List.mem_append_right _ hq, .refl _ q⟩
  · intro g hg hc
    exact ⟨0, Nat.zero_le _, by simp [hack g hg hc]⟩

/-- What came before the segment was heard left everything in place. --/
theorem Undisturbed.hears_trans {fin : Bool} (h : Undisturbed ip s t) (hstate : t.state = s.state)
    (h' : Hears cut arrived t ready pending u ready' pending' out front fin) :
    Hears cut arrived s ready pending u ready' pending' out front fin := by
  obtain ⟨sent, hw, hack⟩ := h.wire
  obtain ⟨hh, hr, hx, ht, hl, hc, ⟨sent', hw', hack'⟩, hf, hb, hs, ho⟩ := h'
  rw [h.rxSequence] at hx ht hc hack'
  refine ⟨by rw [hh, h.handed], hr, hx, ht, hl, hc, ⟨sent ++ sent', by rw [hw', hw, List.append_assoc], ?_⟩, ?_, hb, ?_, ?_⟩
  · intro g hg hc
    rcases List.mem_append.mp hg with hg | hg
    · exact ⟨0, Nat.zero_le _, by simp [hack g hg hc]⟩
    · exact hack' g hg hc
  · rw [h.finReceived, h.finSequence] at hf
    exact hf
  · rw [hstate] at hs
    exact hs
  · rw [hstate] at ho
    exact ho

/-! ### The data -/

theorem progress_hears (hopen : s.state.connected ∧ s.state.finTaken = false) (h : Progress arrived front (recordFin s (trimToWindow s p).2) ready pending t
    ready' pending') (harr : ∀ o ∈ arrived, o.Slice s.rcv.rxSequence p)
    (hfin : (trimToWindow s p).2.packet.header.has tcpFinBit = p.header.has tcpFinBit)
    (hend : straddles s p = false → (trimToWindow s p).2.packet.header.sequenceNumber + (trimToWindow s p).2.dataLength =
      p.endSequence) : t.state = s.state ∧
      ∃ out, Hears (straddles s p) [p] s ready pending t ready' pending' out front false := by
  obtain ⟨finSequence, finReceived, hkept⟩ := recordFin_kept s (trimToWindow s p).2
  obtain ⟨out, hh, hr, hx, ht, hl, hc, sent, hw, hack⟩ := h.moved
  have hrec₁ := h.finReceived
  have hrec₂ := h.finSequence
  have hstate := h.state
  rw [hkept] at hh hx ht hw hack hstate
  refine ⟨hstate, out, hh, hr, by simpa using hx, ht, hl, ?_, ⟨sent, hw, fun g hg _ => hack g hg⟩, ?_,
    nofun, fun _ => ⟨hopen.1, by rw [hstate, Bool.or_false]⟩, fun _ => hopen⟩
  · intro q hq
    obtain ⟨o, ho, hqo⟩ := hc q hq
    rcases List.mem_append.mp ho with ho | ho
    · exact ⟨p, List.mem_append_left _ (List.mem_singleton_self p), hqo.slice (harr o ho)⟩
    · exact ⟨o, List.mem_append_right _ ho, hqo.slice (.refl _ o)⟩
  · unfold recordFin at hrec₁ hrec₂
    by_cases hf : p.header.has tcpFinBit = true
    · refine .inr ⟨p, List.mem_singleton_self p, hf, fun hcut => ?_⟩
      rw [hrec₂, if_pos (hfin.trans hf)]
      exact hend hcut
    · rw [if_neg (by rw [hfin]; exact hf)] at hrec₁ hrec₂
      exact .inl ⟨hrec₁, hrec₂⟩

/-- Without data there is nothing to trim. --/
theorem trimToWindow_empty (hz : p.dataLength = 0) :
    trimToWindow s p = (s, ⟨p, p.dataLength, p.beginSequence, p.endSequence⟩) := by
  unfold trimToWindow
  dsimp only
  rw [if_neg (by simp [hz])]

/-- What ends inside the window is not cut at its end. --/
theorem endSequence_of_inside (hne : p.dataLength ≠ 0) (h : straddles s p = false)
    (htrim : AckOnly s (trimToWindow s p).1) : (trimToWindow s p).2.endSequence = p.endSequence := by
  have hleft : ∀ a : Arrival, (trimLeft s a).2.endSequence = a.endSequence := by
    intro a
    unfold trimLeft
    split <;> rfl
  unfold straddles at h
  rw [Bool.and_eq_false_iff] at h
  have hin : ¬INT ((p.endSequence - s.rcv.rxSequence) - s.rcv.rxWindowCurrent) > 0 := by
    rcases h with h | h
    · exact absurd h (by simpa using hne)
    · simpa using h
  unfold trimToWindow at htrim ⊢
  dsimp only at htrim ⊢
  rw [if_pos hne] at htrim ⊢
  dsimp only at htrim ⊢
  unfold trimRight
  rw [htrim.rcv.rxSequence, htrim.rcv.rxWindowCurrent, hleft, if_neg hin, hleft]

theorem dataCheck_hears (reads : Nat) (hopen : s.state.connected ∧ s.state.finTaken = false)
    (h : Receiving ip s.rcv.rxSequence s.rcv ready pending) (hp : p.WellFormed)
    (henter : p.octets ≠ [] → p.Enters s.rcv) :
    let t := socketStateDataCheck ip reads s p
    t.state = s.state ∧ ∃ ready' pending' out front,
      Hears (straddles s p) [p] s ready pending t ready' pending' out front false ∧
      Receiving ip t.rcv.rxSequence t.rcv ready' pending' := by
  intro t
  by_cases hnil : p.octets = []
  · have hz : p.dataLength = 0 := by
      apply BitVec.eq_of_toNat_eq
      rw [hp.dataLength_toNat, hnil]
      rfl
    have htrim := trimToWindow_empty (s := s) hz
    have hempty := @dataCheck_empty ip s p reads hp hnil
    have hprog : Progress [] [] (recordFin s (trimToWindow s p).2) ready pending t ready pending := by
      rw [htrim]
      exact hempty.progress []
    obtain ⟨hstate, out, hh⟩ := progress_hears hopen hprog (fun o ho => nomatch ho) (by rw [htrim])
      (fun _ => by rw [htrim]; rfl)
    refine ⟨hstate, ready, pending, out, [], hh, ?_⟩
    rw [hempty.rcv.rxSequence, rxSequence_recordFin]
    exact (h.recordFin _).sameQueue hempty.rcv
  · have hin := henter hnil
    obtain ⟨hack, htrim⟩ := trimToWindow_trimmed hin
    obtain ⟨front, ready', pending', hprog, hr⟩ := dataCheck_sound reads h hin
    have hne : p.dataLength ≠ 0 := by
      intro hz
      have hlen := hp.dataLength_toNat
      rw [hz] at hlen
      exact hnil (List.eq_nil_of_length_eq_zero hlen.symm)
    obtain ⟨hstate, out, hh⟩ := progress_hears hopen hprog
      (by
        intro o ho
        rw [List.mem_singleton] at ho
        subst ho
        exact htrim.slice)
      (by rw [TcpHeader.has, TcpHeader.has, htrim.word3])
      (by
        intro hcut
        rw [← endSequence_of_inside hne hcut hack, htrim.endSequence, htrim.dataLength]
        rfl)
    exact ⟨hstate, ready', pending', out, front, hh, hr⟩

/-! ### The FIN -/

/-- The state function after the data: `fin` says that it takes the FIN. --/
structure Closes (ip : Ip) (t u : Socket) (fin : Bool) : Prop where
  receiving : ∀ {d : ULONG} {ready pending : List Packet},
    Receiving ip d t.rcv ready pending → Receiving ip d u.rcv ready pending
  rxSequence : u.rcv.rxSequence = t.rcv.rxSequence + BitVec.ofNat 32 fin.toNat
  finSequence : u.rcv.finSequence = t.rcv.finSequence
  finReceived : u.rcv.finReceived = t.rcv.finReceived
  handed : u.handed = t.handed
  wire : ∃ sent, u.wire = t.wire ++ sent ∧ ∀ g ∈ sent, g.acknowledgmentNumber = u.rcv.rxSequence
  due : fin = true → t.rcv.finReceived = true ∧ t.rcv.finSequence = t.rcv.rxSequence
  state : u.state.finTaken = fin

/-- The FIN stands at `rxSequence`: it is taken and acknowledged. --/
theorem closes_taken (ip : Ip) (t : Socket) {state : State} (x : Transmit) (waiting : List Nat) (txSequence : ULONG)
    (hstate : state.finTaken = true) (hdue : t.rcv.finReceived = true ∧ t.rcv.finSequence = t.rcv.rxSequence) :
    Closes ip t (packetSendAck ip { t with
      state := state
      snd := x
      rcv := { t.rcv with rxSequence := t.rcv.rxSequence + 1, receiveSuspensionList := waiting } } txSequence) true := by
  have hack := ackOnly_packetSendAck ip { t with
    state := state
    snd := x
    rcv := { t.rcv with rxSequence := t.rcv.rxSequence + 1, receiveSuspensionList := waiting } } txSequence
  obtain ⟨sent, hw, hs⟩ := hack.wire
  refine ⟨fun hr => Receiving.sameQueue ?_ hack.rcv, hack.rcv.rxSequence, hack.rcv.finSequence, hack.rcv.finReceived,
    hack.handed, ⟨sent, hw, fun g hg => ?_⟩, fun _ => hdue, by rw [hack.state, hstate]⟩
  · exact ⟨hr.toLinked.of_addrs rfl rfl rfl rfl, hr.queue, hr.content, hr.room⟩
  · rw [hs g hg, hack.rcv.rxSequence]

/-- No FIN is due. --/
theorem closes_open (ip : Ip) (t : Socket) {state : State} (x : Transmit) (hstate : state.finTaken = false) :
    Closes ip t { t with state := state, snd := x } false :=
  ⟨id, by simp, rfl, rfl, rfl, ⟨[], by simp⟩, nofun, hstate⟩

theorem socketStateEstablished_closes (ip : Ip) (t : Socket) (hstate : t.state.finTaken = false) :
    ∃ fin, Closes ip t (socketStateEstablished ip t) fin := by
  unfold socketStateEstablished
  split
  · rename_i hdue
    exact ⟨true, closes_taken ip t t.snd [] _ rfl hdue⟩
  · exact ⟨false, closes_open ip t t.snd hstate⟩

theorem socketStateFinWait1_closes (ip : Ip) (t : Socket) (hstate : t.state.finTaken = false) :
    ∃ fin, Closes ip t (socketStateFinWait1 ip t) fin := by
  unfold socketStateFinWait1
  split
  · exact ⟨false, closes_open ip t _ rfl⟩
  rename_i hopen
  split
  · rename_i hdue
    have hfin : t.rcv.finReceived = true := by
      by_contra hf
      exact hopen ⟨hdue.1, by simpa using hf⟩
    exact ⟨true, closes_taken ip t _ t.rcv.receiveSuspensionList _ rfl ⟨hfin, hdue.2⟩⟩
  split
  · rename_i hdue
    exact ⟨true, closes_taken ip t t.snd t.rcv.receiveSuspensionList _ rfl hdue⟩
  · exact ⟨false, closes_open ip t t.snd hstate⟩

theorem socketStateFinWait2_closes (ip : Ip) (t : Socket) (hstate : t.state.finTaken = false) :
    ∃ fin, Closes ip t (socketStateFinWait2 ip t) fin := by
  unfold socketStateFinWait2
  split
  · rename_i hdue
    exact ⟨true, closes_taken ip t _ t.rcv.receiveSuspensionList _ rfl hdue⟩
  · exact ⟨false, closes_open ip t t.snd hstate⟩

theorem Hears.closes {fin : Bool} (h : Hears cut arrived s ready pending t ready' pending' out front false)
    (hs : s.state.connected ∧ s.state.finTaken = false) (h' : Closes ip t u fin) :
    Hears cut arrived s ready pending u ready' pending' out front fin := by
  obtain ⟨hh, hr, hx, ht, hl, hc, ⟨sent, hw, hack⟩, hf, -, -, -⟩ := h
  obtain ⟨sent', hw', hack'⟩ := h'.wire
  have hx' : u.rcv.rxSequence = s.rcv.rxSequence + BitVec.ofNat 32 ((octetsOf front).length + fin.toNat) := by
    rw [h'.rxSequence, hx, Bool.toNat_false, Nat.add_zero, BitVec.ofNat_add, BitVec.add_assoc]
  refine ⟨h'.handed.trans hh, hr, hx', ht, hl, hc, ⟨sent ++ sent', by rw [hw', hw, List.append_assoc], ?_⟩, ?_, ?_, ?_,
    fun _ => hs⟩
  · intro g hg hc
    rcases List.mem_append.mp hg with hg | hg
    · obtain ⟨n, hn, heq⟩ := hack g hg hc
      exact ⟨n, by rw [Bool.toNat_false] at hn; omega, heq⟩
    · exact ⟨_, Nat.le_refl _, by rw [hack' g hg, hx']⟩
  · rw [h'.finReceived, h'.finSequence]
    exact hf
  · intro hfin
    obtain ⟨hrec, hdue⟩ := h'.due hfin
    refine ⟨h'.finReceived.trans hrec, ?_⟩
    rw [h'.rxSequence, h'.finSequence, hdue, hfin]
    rfl
  · intro _
    exact ⟨hs.1, by rw [h'.state, hs.2, Bool.false_or]⟩

/-! ### Giving up -/

theorem not_connected_cleanup (s : Socket) : ¬(socketBlockCleanup s).state.connected := by
  unfold socketBlockCleanup
  dsimp only
  split <;> decide

theorem not_connected_reset (s : Socket) : ¬(socketConnectionReset s).state.connected := by
  unfold socketConnectionReset
  dsimp only
  split
  · exact not_connected_cleanup _
  · exact not_connected_cleanup _

/-! ### The dispatch -/

/-- What the dispatch makes of an accepted segment. --/
theorem socketStateDispatch_hears (reads : Nat) (h : Receiving ip d s.rcv ready pending)
    (hd : s.state.connected → s.state.finTaken = false → d = s.rcv.rxSequence) (hp : p.WellFormed)
    (henter : s.state.connected → s.state.finTaken = false → p.octets ≠ [] → p.Enters s.rcv) :
    let t := socketStateDispatch ip reads s p
    ∃ ready' pending' out front fin, Hears (straddles s p) [p] s ready pending t ready' pending' out front fin ∧
      Receiving ip (d + BitVec.ofNat 32 (octetsOf front).length) t.rcv ready' pending' := by
  have hquiet : ∀ {t : Socket}, Undisturbed ip s t →
      SameSide s t →
      ∃ ready' pending' out front fin, Hears (straddles s p) [p] s ready pending t ready' pending' out front fin ∧
        Receiving ip (d + BitVec.ofNat 32 (octetsOf front).length) t.rcv ready' pending' := by
    intro t ht hstate
    exact ⟨ready, pending, [], [], false, ht.hears hstate _ _, by simpa using ht.receiving h⟩
  -- the states that take data
  have hdata : ∀ (finish : Socket → Socket), s.state.connected → s.state.finTaken = false →
      (∀ t : Socket, t.state.finTaken = false → ∃ fin, Closes ip t (finish t) fin) →
      ∃ ready' pending' out front fin, Hears (straddles s p) [p] s ready pending
        (finish (socketStateDataCheck ip reads s p)) ready' pending' out front fin ∧
        Receiving ip (d + BitVec.ofNat 32 (octetsOf front).length)
          (finish (socketStateDataCheck ip reads s p)).rcv ready' pending' := by
    intro finish hc hf hfinish
    have hdx := hd hc hf
    subst hdx
    obtain ⟨hstate, ready', pending', out, front, hh, hr⟩ := dataCheck_hears reads ⟨hc, hf⟩ h hp (henter hc hf)
    obtain ⟨fin, hclose⟩ := hfinish _ (by rw [hstate]; exact hf)
    refine ⟨ready', pending', out, front, fin, hh.closes ⟨hc, hf⟩ hclose, ?_⟩
    have hx := hh.rxSequence
    rw [Bool.toNat_false, Nat.add_zero] at hx
    rw [← hx]
    exact hclose.receiving hr
  unfold socketStateDispatch
  cases hstate : s.state with
  | established => exact hdata _ (by rw [hstate]; decide) (by rw [hstate]; rfl) (socketStateEstablished_closes ip)
  | finWait1 => exact hdata _ (by rw [hstate]; decide) (by rw [hstate]; rfl) (socketStateFinWait1_closes ip)
  | finWait2 => exact hdata _ (by rw [hstate]; decide) (by rw [hstate]; rfl) (socketStateFinWait2_closes ip)
  | closing =>
    dsimp only
    unfold socketStateClosing
    split
    · refine hquiet (undisturbed_state s _ _ _ s.rcv.receiveSuspensionList) (fun _ => ?_)
      rw [hstate]
      exact ⟨by decide, rfl⟩
    · exact hquiet (.refl s) (.of_state rfl)
  | lastAck =>
    dsimp only
    unfold socketStateLastAck
    split
    · exact hquiet (undisturbed_socketBlockCleanup s) (.of_not (not_connected_cleanup s))
    · exact hquiet (.refl s) (.of_state rfl)
  | timedWait =>
    dsimp only
    split
    · refine hquiet ((undisturbed_state s _ _ _ s.rcv.receiveSuspensionList).trans
        (ackOnly_packetSendAck ip _ _).undisturbed) (.of_state ?_)
      exact (ackOnly_packetSendAck ip _ _).state.trans hstate.symm
    · exact hquiet (.refl s) (.of_state rfl)
  | closeWait | closed | listen | synSent | synReceived => exact hquiet (.refl s) (.of_state rfl)

/-! ### A segment -/

theorem state_reopenWindow (ip : Ip) (s : Socket) : (reopenWindow ip s).state = s.state := by
  unfold reopenWindow Socket.belowLowWatermark
  split
  · dsimp only
    split <;> rfl
  · rfl

theorem straddles_congr (h : SameQueue s.rcv t.rcv) (p : Packet) : straddles t p = straddles s p := by
  rw [straddles, straddles, h.rxSequence, h.rxWindowCurrent]

/-- From the acknowledgment on: `s` has passed the acceptance test. --/
theorem processAccepted_hears (reads : Nat) (h : Receiving ip d s.rcv ready pending)
    (hd : s.state.connected → s.state.finTaken = false → d = s.rcv.rxSequence) (hp : p.WellFormed)
    (henter : s.state.connected → s.state.finTaken = false → p.octets ≠ [] → p.Enters s.rcv) :
    let t := processAccepted ip reads s p
    ∃ ready' pending' out front fin, Hears (straddles s p) [p] s ready pending t ready' pending' out front fin ∧
      Receiving ip (d + BitVec.ofNat 32 (octetsOf front).length) t.rcv ready' pending' := by
  have hget : Sending ip FreeFlight s (sackOptionGet s p.options) := sending_sackOptionGet s p.options
  have hoption : Aside s (if p.header.has tcpAckBit ∧ p.header.headerLength > 20 then sackOptionGet s p.options else s) :=
    .ite hget.aside (.refl s)
  unfold processAccepted
  dsimp only
  generalize (if p.header.has tcpAckBit = true ∧ p.header.headerLength > 20 then sackOptionGet s p.options
    else s) = s₁ at hoption ⊢
  have hcheck := hoption.trans (sending_socketStateAckCheck ip s₁ p.header).aside
  have hquiet : ∀ {t : Socket}, Undisturbed ip s t → SameSide s t →
      ∃ ready' pending' out front fin, Hears (straddles s p) [p] s ready pending t ready' pending' out front fin ∧
        Receiving ip (d + BitVec.ofNat 32 (octetsOf front).length) t.rcv ready' pending' := by
    intro t ht hstate
    exact ⟨ready, pending, [], [], false, ht.hears hstate _ _, by simpa using ht.receiving h⟩
  split
  · exact hquiet hcheck.undisturbed (.of_state hcheck.state)
  rename_i hyes
  have hack : p.header.has tcpAckBit = true := by
    by_contra hno
    apply hyes
    unfold socketStateAckCheck
    rw [if_neg hno]
  have hund : Undisturbed ip s (socketStateAckCheck ip s₁ p.header).2 := hcheck.undisturbed
  split
  · refine hquiet (hund.trans (undisturbed_rejectOptions ip _ hack)) (fun hc => ?_)
    unfold rejectOptions at hc ⊢
    split
    · rename_i hrst
      rw [if_pos hrst, hcheck.state] at hc
      rw [hcheck.state]
      exact ⟨hc, rfl⟩
    · rename_i hrst
      rw [if_neg hrst] at hc
      exact absurd hc (not_connected_reset _)
  · obtain ⟨ready', pending', out, front, fin, hh, hr⟩ := socketStateDispatch_hears reads (hund.receiving h)
      (by rw [hcheck.state, hund.rxSequence]; exact hd) hp
      (by
        rw [hcheck.state]
        exact fun hc hf hne => (henter hc hf hne).sameQueue hcheck.rcv)
    refine ⟨ready', pending', out, front, fin, ?_, hr⟩
    rw [← straddles_congr hcheck.rcv p]
    exact hund.hears_trans hcheck.state hh

/-- `_nx_tcp_socket_packet_process` on the receive half. --/
theorem socketPacketProcess_hears (reads : Nat) (h : Receiving ip d s.rcv ready pending)
    (hd : s.state.connected → s.state.finTaken = false → d = s.rcv.rxSequence) (hp : p.WellFormed)
    (hfresh : p.addr ∉ s.rcv.receiveQueue.map (·.addr)) :
    let t := socketPacketProcess ip reads s p
    ∃ ready' pending' out front fin,
      Hears (straddles (reopenWindow ip s) p) [p] s ready pending t ready' pending' out front fin ∧
      Receiving ip (d + BitVec.ofNat 32 (octetsOf front).length) t.rcv ready' pending' := by
  have hquiet : ∀ {t : Socket}, Undisturbed ip s t → SameSide s t →
      ∃ ready' pending' out front fin,
        Hears (straddles (reopenWindow ip s) p) [p] s ready pending t ready' pending' out front fin ∧
        Receiving ip (d + BitVec.ofNat 32 (octetsOf front).length) t.rcv ready' pending' := by
    intro t ht hstate
    exact ⟨ready, pending, [], [], false, ht.hears hstate _ _, by simpa using ht.receiving h⟩
  have hreopen := undisturbed_reopenWindow ip s
  have hstate := state_reopenWindow ip s
  have hr := hreopen.receiving h
  have hwindow : ∀ value, ∃ ready' pending' out front fin,
      Hears (straddles (reopenWindow ip s) p) [p] s ready pending (processWindow ip reads s p value) ready' pending' out
        front fin ∧
      Receiving ip (d + BitVec.ofNat 32 (octetsOf front).length) (processWindow ip reads s p value).rcv ready'
        pending' := by
    intro value
    unfold processWindow
    dsimp only
    generalize reopenWindow ip s = s₀ at hreopen hstate hr hquiet ⊢
    split
    · have hack := ackOnly_answerOutside ip s₀ p
      exact hquiet (hreopen.trans hack.undisturbed) (.of_state (hack.state.trans hstate))
    rename_i haccept
    have htime := ackOnly_recordTimestamp s₀ p value
    have hund : Undisturbed ip s (recordTimestamp s₀ p value) := hreopen.trans htime.undisturbed
    have hchallenge := ackOnly_challengeAck ip (recordTimestamp s₀ p value)
    have hquiet' := hquiet (hund.trans hchallenge.undisturbed) (.of_state (by rw [hchallenge.state, htime.state, hstate]))
    split
    · split
      · exact hquiet hund (.of_state (htime.state.trans hstate))
      split
      · exact hquiet'
      · exact hquiet (hund.trans (undisturbed_socketConnectionReset _)) (.of_not (not_connected_reset _))
    split
    · exact hquiet'
    · have hfresh₀ : p.addr ∉ s₀.rcv.receiveQueue.map (·.addr) := by
        rw [hr.queue, ← h.queue]
        exact hfresh
      obtain ⟨ready', pending', out, front, fin, hh, hr'⟩ := processAccepted_hears reads (hund.receiving h)
        (by rw [htime.state, hstate, hund.rxSequence]; exact hd) hp
        (by
          intro _ _ hne
          exact (enters_of_accepted hr hp hfresh₀ hne (by simpa using haccept)).sameQueue htime.rcv)
      refine ⟨ready', pending', out, front, fin, ?_, hr'⟩
      rw [← straddles_congr htime.rcv p]
      exact hund.hears_trans (htime.state.trans hstate) hh
  unfold socketPacketProcess
  dsimp only
  split
  · split
    · have hack := ackOnly_packetSendAck ip s s.snd.txSequence
      exact hquiet hack.undisturbed (.of_state hack.state)
    · exact hwindow _
  · exact hwindow _

end

end Netxduo
