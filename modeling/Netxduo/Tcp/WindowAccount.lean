import Netxduo.Tcp.Entries

/-! The receive window over whole runs: with the octets ready it makes up the buffer, and what the half-window test
    calls an opening is one. -/

namespace Netxduo
open Serial Spans Runs

/-! ### The half-window test -/

/-- Half of the window on offer: of the cap where it is the smaller one, else of the buffer. --/
def halfWindow (ip : Ip) (s : Socket) : ULONG :=
  if socketRxWindowCap ip s ≠ 0 ∧ socketRxWindowCap ip s < s.rcv.rxWindowDefault then socketRxWindowCap ip s / 2
  else s.rcv.rxWindowDefault / 2

/-- The window has opened since it was last announced, by half of what is on offer at least. --/
def Socket.Opened (ip : Ip) (s : Socket) : Prop :=
  s.rcv.rxWindowLastSent.toNat < (socketRxWindowOpen ip s).toNat ∧
    s.rcv.rxWindowLastSent.toNat + (halfWindow ip s).toNat ≤ (socketRxWindowOpen ip s).toNat

instance (ip : Ip) (s : Socket) : Decidable (s.Opened ip) := by
  unfold Socket.Opened
  infer_instance

section
variable {ip : Ip} {irs : ULONG} {A : ULONG → Prop} {s t s₀ : Socket} {actions : List Action}

theorem windowReopened_iff (ip : Ip) (s : Socket) :
    windowReopened ip s = true ↔ socketRxWindowOpen ip s - s.rcv.rxWindowLastSent ≥ halfWindow ip s := by
  rw [windowReopened, halfWindow]
  exact decide_eq_true_iff

/-- The difference the test takes does not wrap. --/
theorem Socket.Solvent.opened (h : s.Solvent) (hhalf : halfWindow ip s ≠ 0) (htest : windowReopened ip s = true) :
    s.Opened ip := by
  obtain ⟨hle, -⟩ := socketRxWindowOpen_le ip s h
  rw [windowReopened_iff, ge_iff_le, BitVec.le_def, BitVec.toNat_sub_of_le (by rw [BitVec.le_def]; exact hle)] at htest
  have hpos : 0 < (halfWindow ip s).toNat := by
    rcases Nat.eq_zero_or_pos (halfWindow ip s).toNat with hz | hpos
    · exact absurd (BitVec.eq_of_toNat_eq hz) hhalf
    · exact hpos
  constructor
  · omega
  · omega

theorem SameAccount.halfWindow (h : SameAccount s t) : halfWindow ip t = halfWindow ip s := by
  have hcap : socketRxWindowCap ip t = socketRxWindowCap ip s := by
    unfold socketRxWindowCap
    rw [h.rxWindowCap]
  rw [Netxduo.halfWindow, Netxduo.halfWindow, hcap, h.rxWindowDefault]

/-! ### Runs that drop nothing -/

/-- A step of a run that drops nothing, on the account. --/
theorem Receives.step_ledger {fin : Bool} (h : Receives ip irs s fin) {a : Action} (ha : a.Fresh s)
    (hkeep : a.Kept ip A s) : Ledger ip A s (step ip s a) ∧ ∀ v ∈ a.tested ip s, Ledger ip A s v := by
  refine Netxduo.step_ledger a h.receiving (fun hc hf => ?_) ha hkeep
  rw [h.state hc] at hf
  rw [h.receivedEnd, hf, Bool.toNat_false, BitVec.add_zero]

theorem Action.kept_of_drops {a : Action} (h : a.drops ip s = false) : a.Kept ip (fun _ => True) s :=
  ⟨h, fun _ _ _ _ => trivial⟩

/-- What a connection just established has announced is open, and all of the buffer is. --/
structure Socket.Fresh (s : Socket) : Prop where
  current : s.rcv.rxWindowCurrent = s.rcv.rxWindowDefault
  last : s.rcv.rxWindowLastSent.toNat ≤ s.rcv.rxWindowCurrent.toNat

theorem Socket.Fresh.solvent (h : s.Fresh) (he : s.Established irs) : s.Solvent := ⟨h.last, he.window, he.bound⟩

theorem Socket.Fresh.level (h : s.Fresh) (he : s.Established irs) : s.Level := by
  rw [Socket.Level, h.current, Receive.readyPackets, he.queue]
  rfl

/-- A run that drops nothing is a list of entries. --/
theorem ledger_of_run (hs₀ : s₀.Established irs)
    (h : Run (step ip) (fun s a => a.Fresh s ∧ a.Kept ip A s) s₀ actions s) :
    (∃ fin, Receives ip irs s fin) ∧ Ledger ip A s₀ s := by
  refine h.invariant (P := fun _ s => (∃ fin, Receives ip irs s fin) ∧ Ledger ip A s₀ s)
    ⟨⟨false, hs₀.receives⟩, .refl s₀⟩ ?_
  rintro actions s a ⟨⟨fin, hr⟩, hl⟩ ⟨ha, hkeep⟩
  obtain ⟨out, front, fin', -, -, hr'⟩ := hr.next a ha
  exact ⟨⟨_, hr'⟩, hl.trans (hr.step_ledger ha hkeep).1⟩

/-! ### The account of a run -/

/-- What the account promises of a state: the octets ready and the window make up the buffer, the window stays
    below it, and whatever segment comes next, the half-window test finds nothing but an opening. --/
structure Socket.Balanced (ip : Ip) (s : Socket) : Prop where
  level : s.Level
  current : s.rcv.rxWindowCurrent.toNat ≤ s.rcv.rxWindowDefault.toNat
  opened : ∀ a : Action, a.Fresh s → a.drops ip s = false → ∀ v ∈ a.tested ip s,
    windowReopened ip v = true → v.Opened ip

/-- In every state reached without a drop the window is balanced, when half of the window on offer is not zero. --/
theorem window_balanced (hs₀ : s₀.Established irs) (hfresh : s₀.Fresh) (hhalf : halfWindow ip s₀ ≠ 0)
    (h : Run (step ip) (fun s a => a.Fresh s ∧ a.drops ip s = false) s₀ actions s) : s.Balanced ip := by
  obtain ⟨⟨fin, hr⟩, hl⟩ := ledger_of_run (A := fun _ => True) hs₀
    (h.mono fun _ _ ha => ⟨ha.1, Action.kept_of_drops ha.2⟩)
  have hsolvent := hl.solvent (hfresh.solvent hs₀)
  refine ⟨hl.level (hfresh.level hs₀), hsolvent.current, fun a ha hdrop v hv htest => ?_⟩
  have htested := (hr.step_ledger ha (Action.kept_of_drops hdrop)).2 v hv
  refine (htested.solvent hsolvent).opened ?_ htest
  rw [(hl.trans htested).sameAccount.halfWindow]
  exact hhalf

/-- A segment that waits in a buffer of a thousand octets. --/
theorem window_balanced_thousand :
    let s := step .ideal (.opened 0 0 1000 1000) (.segment (.plain 1 1 1 tcpAckBit [7, 8]) 0)
    s.Balanced .ideal ∧ s.rcv.rxWindowCurrent = 998 := by
  have hs₀ : (Socket.opened 0 0 1000 1000).Established 0 := opened_established _ _ _ (by decide)
  exact ⟨window_balanced hs₀ ⟨rfl, by decide⟩ (by decide)
    (.single ⟨fresh_opened ⟨by decide, by decide⟩ 0, by decide⟩), by decide⟩

/-- With a buffer of one octet half a window is none: after the FIN an octet arrives, and the test forces out an
    acknowledgment though nothing is open. --/
theorem window_opens_none :
    let s := step .ideal (.opened 0 0 1 1000) (.disconnect true false)
    let a := Action.segment (.plain 1 1 1 tcpAckBit [7]) 0
    a.drops .ideal s = false ∧ (a.tested .ideal s).any (fun v => windowReopened .ideal v && !decide (v.Opened .ideal)) =
      true ∧ (step .ideal s a).wire.length = s.wire.length + 1 := by
  decide

end

end Netxduo
