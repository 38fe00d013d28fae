import Mathlib.Logic.Relation
import Netxduo.Tcp.Stream

/-! The receive window as an account: what is ready and what is open make up the buffer, and every segment sent
    announces a part of what is open. A step is cut into the entries of the account. -/

namespace Netxduo
open Serial Spans Runs

/-! ### The account -/

/-- The octets that are ready and the window make up the buffer. --/
def Socket.Level (s : Socket) : Prop :=
  s.rcv.rxWindowCurrent.toNat + (octetsOf s.rcv.readyPackets).length = s.rcv.rxWindowDefault.toNat

/-- The window announced last is open still, and the buffer is one `nxe_tcp_socket_create` admits. --/
structure Socket.Solvent (s : Socket) : Prop where
  last : s.rcv.rxWindowLastSent.toNat ≤ s.rcv.rxWindowCurrent.toNat
  current : s.rcv.rxWindowCurrent.toNat ≤ s.rcv.rxWindowDefault.toNat
  bound : s.rcv.rxWindowDefault.toNat < 2 ^ 30

/-- What the window is computed on, and no step changes. --/
structure SameAccount (s t : Socket) : Prop where
  connectMss : t.connectMss = s.connectMss
  rxWindowDefault : t.rcv.rxWindowDefault = s.rcv.rxWindowDefault
  rxWindowCap : t.rcv.rxWindowCap = s.rcv.rxWindowCap
  rcvWinScaleValue : t.rcv.rcvWinScaleValue = s.rcv.rcvWinScaleValue

theorem SameAccount.refl (s : Socket) : SameAccount s s := ⟨rfl, rfl, rfl, rfl⟩

/-- An entry of the account. `A` bounds how many octets are taken in at once. --/
inductive Entry (ip : Ip) (A : ULONG → Prop) (s t : Socket) : Prop
  /-- Nothing, or the number of a FIN. --/
  | kept (next : t.rcv.rxSequence = s.rcv.rxSequence ∨ t.rcv.rxSequence = s.rcv.rxSequence + 1)
      (current : t.rcv.rxWindowCurrent = s.rcv.rxWindowCurrent)
      (last : t.rcv.rxWindowLastSent = s.rcv.rxWindowLastSent)
      (ready : (octetsOf t.rcv.readyPackets).length = (octetsOf s.rcv.readyPackets).length)
      (wire : t.wire = s.wire)
  /-- A segment is sent. --/
  | sent (next : t.rcv.rxSequence = s.rcv.rxSequence)
      (current : t.rcv.rxWindowCurrent = s.rcv.rxWindowCurrent)
      (last : t.rcv.rxWindowLastSent = windowField ip s <<< ip.rcvScale s)
      (ready : t.rcv.receiveQueue = s.rcv.receiveQueue) (g : Segment) (wire : t.wire = s.wire ++ [g])
      (window : g.window = windowField ip s)
      (ack : g.acknowledges → g.acknowledgmentNumber = s.rcv.rxSequence)
  /-- Octets are taken in. --/
  | took (n : ULONG) (hn : A n) (room : n.toNat ≤ s.rcv.rxWindowCurrent.toNat)
      (next : t.rcv.rxSequence = s.rcv.rxSequence + n)
      (current : t.rcv.rxWindowCurrent = s.rcv.rxWindowCurrent - n)
      (last : t.rcv.rxWindowLastSent = if s.rcv.rxWindowLastSent > n then s.rcv.rxWindowLastSent - n else 0)
      (ready : (octetsOf t.rcv.readyPackets).length = (octetsOf s.rcv.readyPackets).length + n.toNat)
      (wire : t.wire = s.wire)
  /-- Octets are handed out. --/
  | gave (next : t.rcv.rxSequence = s.rcv.rxSequence)
      (opened : s.rcv.rxWindowCurrent.toNat ≤ t.rcv.rxWindowCurrent.toNat)
      (bounded : t.rcv.rxWindowCurrent.toNat ≤ t.rcv.rxWindowDefault.toNat)
      (last : t.rcv.rxWindowLastSent = s.rcv.rxWindowLastSent)
      (level : s.Level → t.Level) (wire : t.wire = s.wire)

/-- The entries of a stretch of the program, one after the other. --/
def Ledger (ip : Ip) (A : ULONG → Prop) : Socket → Socket → Prop :=
  Relation.ReflTransGen fun s t => SameAccount s t ∧ Entry ip A s t

/-! ### The data check inside a step -/

/-- The socket `_nx_tcp_socket_state_data_check` is called on for an accepted segment, if it is. --/
def dataCheckedAccepted (ip : Ip) (s : Socket) (p : Packet) : Option Socket :=
  let s := if p.header.has tcpAckBit ∧ p.header.headerLength > 20 then sackOptionGet s p.options else s
  let (accepted, s) := socketStateAckCheck ip s p.header
  if accepted = false then none
  else if p.header.headerLength > 20 ∧ mssOptionLegal p.options = false then none
  else if s.state = .established ∨ s.state = .finWait1 ∨ s.state = .finWait2 then some s
  else none

def dataCheckedWindow (ip : Ip) (s : Socket) (p : Packet) (value : Option ULONG) : Option Socket :=
  let s := reopenWindow ip s
  if outsideOfWindow s p then none
  else
    let s := recordTimestamp s p value
    if p.header.has tcpRstBit ∨ p.header.has tcpSynBit then none else dataCheckedAccepted ip s p

def dataChecked (ip : Ip) (s : Socket) (p : Packet) : Option Socket :=
  match packetTimestamp ip s p with
  | some value =>
    if p.header.has tcpRstBit = false ∧ INT (value - s.rcv.tsRecent) < 0 then none
    else dataCheckedWindow ip s p (some value)
  | none => dataCheckedWindow ip s p none

/-- The socket the data of a segment is queued on. --/
def queueingSocket (s : Socket) (p : Packet) : Socket := recordFin (trimToWindow s p).1 (trimToWindow s p).2

/-- The data of the segment is dropped for want of room. --/
def dataDropped (ip : Ip) (s : Socket) (p : Packet) : Bool :=
  decide ((trimToWindow s p).2.dataLength ≠ 0) && (dropPacket ip (queueingSocket s p)).1

/-- How the data of a segment is queued when it is not dropped. --/
def dataQueued (ip : Ip) (s : Socket) (p : Packet) : Queued :=
  queuePacket ip (dropPacket ip (queueingSocket s p)).2 (trimToWindow s p).2 false

/-- The socket before the acknowledgment: debited, cut to the limit, and with the waiting threads served. --/
def settled (ip : Ip) (q : Queued) (original : ULONG) (header : TcpHeader) : TcpHeader × Socket :=
  let s := { q.socket with rcv := limitOutOfOrder ip (debitWindow q.socket.rcv original false) q.acked }
  let (header, s) := resumeReceivers q.acked header s s.rcv.receiveSuspensionList
  (header, { s with rcv := clearEmptyQueue s.rcv })

/-- The socket the half-window test looks at, when the data check gets there. --/
def reopenTested (ip : Ip) (s : Socket) (p : Packet) : Option Socket :=
  if (trimToWindow s p).2.dataLength ≠ 0 ∧ (dataQueued ip s p).taken = true then
    some (settled ip (dataQueued ip s p) (queueingSocket s p).rcv.rxSequence (trimToWindow s p).2.packet.header).2
  else none

/-- The step drops the data of its segment: the low-watermark policy. --/
def Action.drops (ip : Ip) (s : Socket) : Action → Bool
  | .segment p _ => decide s.state.connected && (dataChecked ip s p).any (dataDropped ip · p)
  | _ => false

/-- The socket the half-window test of the step looks at. --/
def Action.tested (ip : Ip) (s : Socket) : Action → Option Socket
  | .segment p _ => if s.state.connected then (dataChecked ip s p).bind (reopenTested ip · p) else none
  | _ => none

section
variable {ip : Ip} {A : ULONG → Prop} {s t u : Socket}

theorem Ledger.refl (s : Socket) : Ledger ip A s s := Relation.ReflTransGen.refl

theorem Ledger.trans (h : Ledger ip A s t) (h' : Ledger ip A t u) : Ledger ip A s u :=
  Relation.ReflTransGen.trans h h'

theorem Ledger.ite {c : Prop} [Decidable c] (h : Ledger ip A s t) (h' : Ledger ip A s u) :
    Ledger ip A s (if c then t else u) := by
  split
  · exact h
  · exact h'

theorem Ledger.single (h : SameAccount s t) (h' : Entry ip A s t) : Ledger ip A s t :=
  Relation.ReflTransGen.single ⟨h, h'⟩

/-- Whatever every entry keeps is kept. --/
theorem Ledger.keeps {P : Socket → Prop} (h : Ledger ip A s t)
    (hentry : ∀ s t, SameAccount s t → Entry ip A s t → P s → P t) (hs : P s) : P t := by
  induction h with
  | refl => exact hs
  | tail _ h ih => exact hentry _ _ h.1 h.2 ih

theorem Ledger.sameAccount (h : Ledger ip A s t) : SameAccount s t := by
  induction h with
  | refl => exact .refl s
  | tail _ h ih =>
    obtain ⟨⟨h₁, h₂, h₃, h₄⟩, -⟩ := h
    exact ⟨h₁.trans ih.connectMss, h₂.trans ih.rxWindowDefault, h₃.trans ih.rxWindowCap,
      h₄.trans ih.rcvWinScaleValue⟩

/-! ### What is announced -/

theorem socketRxWindowOpen_le (ip : Ip) (s : Socket) (h : s.Solvent) :
    s.rcv.rxWindowLastSent.toNat ≤ (socketRxWindowOpen ip s).toNat ∧
      (socketRxWindowOpen ip s).toNat ≤ s.rcv.rxWindowCurrent.toNat := by
  have hlast := h.last
  unfold socketRxWindowOpen
  dsimp only
  generalize socketRxWindowCap ip s = cap
  split
  · rename_i hcap
    have hlt := hcap.2
    simp only [gt_iff_lt, BitVec.lt_def] at hlt ⊢
    split
    · split
      · omega
      · omega
    · omega
  · exact ⟨hlast, Nat.le_refl _⟩

theorem socketRxWindowAdvertised_le (ip : Ip) (s : Socket) (h : s.Solvent) :
    s.rcv.rxWindowLastSent.toNat ≤ (socketRxWindowAdvertised ip s).toNat ∧
      (socketRxWindowAdvertised ip s).toNat ≤ s.rcv.rxWindowCurrent.toNat := by
  have hopen := socketRxWindowOpen_le ip s h
  unfold socketRxWindowAdvertised
  split
  · exact hopen
  · exact ⟨Nat.le_refl _, h.last⟩

/-- The window the peer reads off a segment sent now. --/
def windowRead (ip : Ip) (s : Socket) : ULONG := windowField ip s <<< ip.rcvScale s

theorem windowRead_toNat (ip : Ip) (s : Socket) (h : s.Solvent) :
    (windowRead ip s).toNat =
      min ((socketRxWindowAdvertised ip s).toNat / 2 ^ ip.rcvScale s) 0xFFFF * 2 ^ ip.rcvScale s := by
  have hadv := (socketRxWindowAdvertised_le ip s h).2
  have hcurrent := h.current
  have hbound := h.bound
  have hpos : ¬INT s.rcv.rxWindowCurrent < 0 := by
    rw [INT, BitVec.toInt_eq_toNat_of_lt (by omega)]
    omega
  unfold windowRead windowField
  dsimp only
  rw [if_neg hpos]
  generalize socketRxWindowAdvertised ip s = adv at hadv
  generalize ip.rcvScale s = k
  have hshift : (adv >>> k).toNat = adv.toNat / 2 ^ k := by
    rw [BitVec.toNat_ushiftRight, Nat.shiftRight_eq_div_pow]
  have hmul : adv.toNat / 2 ^ k * 2 ^ k ≤ adv.toNat := Nat.div_mul_le_self _ _
  split
  · rename_i hgt
    rw [gt_iff_lt, BitVec.lt_def, hshift] at hgt
    simp only [BitVec.reduceToNat] at hgt
    have hle : 65535 * 2 ^ k ≤ adv.toNat / 2 ^ k * 2 ^ k := Nat.mul_le_mul_right _ (by omega)
    rw [Nat.min_eq_right (by omega), BitVec.toNat_shiftLeft, Nat.shiftLeft_eq]
    simp only [BitVec.reduceToNat]
    exact Nat.mod_eq_of_lt (by omega)
  · rename_i hgt
    rw [gt_iff_lt, BitVec.lt_def, hshift] at hgt
    simp only [BitVec.reduceToNat] at hgt
    rw [Nat.min_eq_left (by omega), BitVec.toNat_shiftLeft, Nat.shiftLeft_eq, hshift]
    exact Nat.mod_eq_of_lt (by omega)

theorem windowRead_le (ip : Ip) (s : Socket) (h : s.Solvent) :
    (windowRead ip s).toNat ≤ s.rcv.rxWindowCurrent.toNat := by
  have hadv := (socketRxWindowAdvertised_le ip s h).2
  rw [windowRead_toNat ip s h]
  have hmin := Nat.min_le_left ((socketRxWindowAdvertised ip s).toNat / 2 ^ ip.rcvScale s) 0xFFFF
  have hmul := Nat.mul_le_mul_right (2 ^ ip.rcvScale s) hmin
  have hdiv := Nat.div_mul_le_self (socketRxWindowAdvertised ip s).toNat (2 ^ ip.rcvScale s)
  omega

/-! ### What every entry keeps -/

theorem Entry.solvent (ha : SameAccount s t) (h : Entry ip A s t) (hs : s.Solvent) : t.Solvent := by
  obtain ⟨hlast, hcurrent, hbound⟩ := hs
  have hd := ha.rxWindowDefault
  cases h with
  | kept _ hc hl _ _ => exact ⟨by rw [hc, hl]; exact hlast, by rw [hc, hd]; exact hcurrent, by rw [hd]; exact hbound⟩
  | sent _ hc hl _ _ _ _ _ =>
    refine ⟨?_, by rw [hc, hd]; exact hcurrent, by rw [hd]; exact hbound⟩
    rw [hc, hl]
    exact windowRead_le ip s ⟨hlast, hcurrent, hbound⟩
  | took n _ room _ hc hl _ _ =>
    have hsub : (s.rcv.rxWindowCurrent - n).toNat = s.rcv.rxWindowCurrent.toNat - n.toNat :=
      BitVec.toNat_sub_of_le (by rw [BitVec.le_def]; exact room)
    refine ⟨?_, by rw [hc, hd, hsub]; omega, by rw [hd]; exact hbound⟩
    rw [hc, hl, hsub]
    split
    · rename_i hgt
      rw [gt_iff_lt, BitVec.lt_def] at hgt
      rw [BitVec.toNat_sub_of_le (by rw [BitVec.le_def]; omega)]
      omega
    · simp
  | gave _ hopen hb hl _ _ => exact ⟨by rw [hl]; omega, hb, by rw [hd]; exact hbound⟩

theorem Entry.level (ha : SameAccount s t) (h : Entry ip A s t) (hs : s.Level) : t.Level := by
  have hd := ha.rxWindowDefault
  cases h with
  | kept _ hc _ hr _ => rw [Socket.Level, hc, hr, hd]; exact hs
  | sent _ hc _ hq _ _ _ _ => rw [Socket.Level, hc, Receive.readyPackets, hq, hd]; exact hs
  | took n _ room _ hc _ hr _ =>
    have hsub : (s.rcv.rxWindowCurrent - n).toNat = s.rcv.rxWindowCurrent.toNat - n.toNat :=
      BitVec.toNat_sub_of_le (by rw [BitVec.le_def]; exact room)
    rw [Socket.Level] at hs ⊢
    rw [hc, hr, hd, hsub]
    omega
  | gave _ _ _ _ hlevel _ => exact hlevel hs

theorem Ledger.solvent (h : Ledger ip A s t) (hs : s.Solvent) : t.Solvent :=
  h.keeps (P := Socket.Solvent) (fun _ _ ha he => he.solvent ha) hs

theorem Ledger.level (h : Ledger ip A s t) (hs : s.Level) : t.Level :=
  h.keeps (P := Socket.Level) (fun _ _ ha he => he.level ha) hs

end

end Netxduo
