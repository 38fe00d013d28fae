import Netxduo.Tcp.BlindSegments

/-! Writers that wait for room: the check that lets the first of them go on, and the round it makes next, compute
    whether something may be sent each for itself. The two agree. -/

namespace Netxduo
open Runs

/-- The round was allowed to send; a packet to copy into may still have been missing. --/
def SendStatus.permitted : SendStatus → Bool
  | .sent bytes => decide (0 < bytes)
  | .noPacket => true
  | .invalidPacket | .notConnected | .suspended | .windowOverflow | .txQueueDepth => false

/-- There is room on the queue of segments. --/
abbrev Socket.hasPlace (s : Socket) : Prop := s.snd.transmitSent.length < s.snd.transmitQueueMaximum.toNat

section
variable {ip : Ip} {s : Socket}

theorem transmitCheckWindow_eq (s : Socket) (stopped : Bool) : transmitCheckWindow s stopped = txWindowCurrent s stopped := by
  have hsend : sendWindow s = if s.snd.txWindowAdvertised > s.snd.txWindowCongestion then
      let window :=
        if s.snd.duplicatedAckReceived = 1 ∨ s.snd.duplicatedAckReceived = 2 then
          s.snd.txWindowCongestion + (s.connectMss <<< 1)
        else s.snd.txWindowCongestion
      if window > s.snd.txWindowAdvertised then s.snd.txWindowAdvertised else window
    else s.snd.txWindowAdvertised := by
    unfold sendWindow
    split
    · rename_i hlt
      dsimp only
      split
      · rfl
      · rw [if_neg (BitVec.not_lt.mpr (BitVec.le_of_lt hlt))]
    · rfl
  rw [transmitCheckWindow, txWindowCurrent, hsend]
  rfl

/-- The window the check lets the first writer go on with; `length` is the length of its packet. --/
def passedWindow (ip : Ip) (s : Socket) (length : ULONG) : ULONG :=
  let window := transmitCheckWindow s (s.txQueueStopped ip).1
  if swsSendPermitted ip s = false ∧ length > window then 0 else window

/-- Of what the check leaves, the MSS leaves something. --/
theorem roundWindow_ne_zero (hmss : payloadMss ip s ≠ 0) (length : ULONG) :
    roundWindow ip s length (s.txQueueStopped ip).1 ≠ 0 ↔ passedWindow ip s length ≠ 0 := by
  unfold passedWindow roundWindow
  simp only [transmitCheckWindow_eq, and_comm]
  generalize (if swsSendPermitted ip s = false ∧ length > txWindowCurrent s (s.txQueueStopped ip).1 then 0
    else txWindowCurrent s (s.txQueueStopped ip).1) = window
  split
  · rename_i hgt
    refine ⟨fun _ hzero => ?_, fun _ => hmss⟩
    rw [hzero] at hgt
    exact BitVec.not_lt_zero hgt
  · rfl

theorem payloadMss_ne_zero (h : s.connectMss ≠ 0) : payloadMss ip s ≠ 0 := by
  unfold payloadMss
  split
  · rename_i hc
    simp only [Bool.and_eq_true, decide_eq_true_eq] at hc
    have hgt : 12 < s.connectMss := hc.2
    intro hzero
    have := congrArg BitVec.toNat hzero
    bv_omega
  · exact h

/-! ### The two sides -/

theorem transmitCheck_eq {thread : Nat} {threads : List Nat} (hwait : s.snd.transmitSuspensionList = thread :: threads)
    (waiting : ULONG) :
    socketStateTransmitCheck ip s waiting =
      if passedWindow ip s waiting ≠ 0 ∧ s.hasPlace then
        { (s.txQueueStopped ip).2 with snd := { s.snd with transmitSuspensionList := threads } }
      else (s.txQueueStopped ip).2 := by
  rw [socketStateTransmitCheck, hwait]
  rfl

/-- The first writer goes on where the window is open, and nobody else. --/
theorem transmitCheck_resumes {thread : Nat} {threads : List Nat} (hwait : s.snd.transmitSuspensionList = thread :: threads)
    (waiting : ULONG) :
    (socketStateTransmitCheck ip s waiting).snd.transmitSuspensionList =
      if passedWindow ip s waiting ≠ 0 ∧ s.hasPlace then threads else thread :: threads := by
  rw [transmitCheck_eq hwait]
  split
  · rfl
  · exact hwait

theorem permitted_sendPart (ip : Ip) (s : Socket) {part : List UInt8} (addr : Nat) (h : part ≠ []) :
    (sendPart ip s part addr).1.permitted = true :=
  decide_eq_true (List.length_pos_of_ne_nil h)

theorem permitted_sendBlocked (s : Socket) (octets : List UInt8) (wait : Option Nat) :
    (sendBlocked s octets wait).1.permitted = false := by
  cases wait with
  | some thread => rfl
  | none =>
    unfold sendBlocked
    dsimp only
    split
    · rfl
    · rfl

/-- A round sends where its window is open. --/
theorem socketSend_permitted (hopen : s.state = .established ∨ s.state = .closeWait) {octets : List UInt8}
    (hoctets : octets ≠ []) (addr : Nat) (copies : Bool) (wait : Option Nat) :
    (socketSend ip s octets addr copies wait).1.permitted = true ↔
      roundWindow ip s (BitVec.ofNat 32 octets.length) (s.txQueueStopped ip).1 ≠ 0 ∧ s.hasPlace := by
  have hpart : ∀ window : ULONG, window ≠ 0 → octets.take window.toNat ≠ [] := by
    intro window hw hnil
    rcases List.take_eq_nil_iff.mp hnil with h | h
    · exact hw (BitVec.eq_of_toNat_eq h)
    · exact hoctets h
  unfold socketSend
  rw [if_neg hoctets, if_neg (not_and_or.mpr (hopen.imp not_not.mpr not_not.mpr))]
  dsimp only
  split
  · rename_i hgo
    obtain ⟨hwindow, hplace⟩ := hgo
    refine iff_of_true ?_ ⟨hwindow, hplace⟩
    split
    · split
      · exact permitted_sendPart ip _ addr (hpart _ hwindow)
      · rfl
    · exact permitted_sendPart ip _ addr (hpart _ hwindow)
  · rename_i hno
    refine iff_of_false ?_ hno
    rw [permitted_sendBlocked]
    exact Bool.false_ne_true

end

/-! ### In every run -/

theorem connectMss_of_run {ip : Ip} {s₀ s : Socket} {actions : List Action}
    (h : Run (step ip) (fun _ _ => True) s₀ actions s) : s.connectMss = s₀.connectMss := by
  refine h.invariant (P := fun _ s => s.connectMss = s₀.connectMss) rfl ?_
  intro _ s a ih _
  exact (step_spends ip s a).connectMss.trans ih

/-- Where new data may be sent at all, the check lets the first of the waiting writers go on if and only if the round
    it makes in that state may send, and leaves the others waiting. --/
theorem waker_agrees {ip : Ip} {s₀ s : Socket} {actions : List Action} (hmss : s₀.connectMss ≠ 0)
    (h : Run (step ip) (fun _ _ => True) s₀ actions s) (hopen : s.state = .established ∨ s.state = .closeWait)
    {thread : Nat} {threads : List Nat} (hwait : s.snd.transmitSuspensionList = thread :: threads)
    {octets : List UInt8} (hoctets : octets ≠ []) (addr : Nat) (copies : Bool) (wait : Option Nat) :
    (socketStateTransmitCheck ip s (BitVec.ofNat 32 octets.length)).snd.transmitSuspensionList =
      if (socketSend ip s octets addr copies wait).1.permitted then threads else thread :: threads := by
  have hpayload : payloadMss ip s ≠ 0 := by
    refine payloadMss_ne_zero ?_
    rw [connectMss_of_run h]
    exact hmss
  have hagree : (socketSend ip s octets addr copies wait).1.permitted = true ↔
      passedWindow ip s (BitVec.ofNat 32 octets.length) ≠ 0 ∧ s.hasPlace := by
    rw [socketSend_permitted hopen hoctets, roundWindow_ne_zero hpayload]
  rw [transmitCheck_resumes hwait]
  by_cases hgo : passedWindow ip s (BitVec.ofNat 32 octets.length) ≠ 0 ∧ s.hasPlace
  · rw [if_pos hgo, if_pos (hagree.mpr hgo)]
  · rw [if_neg hgo, if_neg (mt hagree.mp hgo)]

/-- A window that opens for two writers. --/
def twoWriters : List Action :=
  [.send [1] 1 false (some 1), .send [2] 2 false (some 2), .segment (Packet.plain 3 1 1 tcpAckBit []) 0]

theorem waker_agrees_two :
    let s := twoWriters.foldl (step Ip.ideal) (Socket.opened 0 0 1000 0)
    (socketStateTransmitCheck Ip.ideal s 1).snd.transmitSuspensionList =
      if (socketSend Ip.ideal s [1] 1 false (some 1)).1.permitted then [2] else [1, 2] := by
  intro s
  have hrun : Run (step Ip.ideal) (fun _ _ => True) (Socket.opened 0 0 1000 0) twoWriters s :=
    .next (.next (.next .start trivial) trivial) trivial
  have hstate : s.state = .established := by decide
  have hwait : s.snd.transmitSuspensionList = [1, 2] := by decide
  clear_value s
  exact waker_agrees (by decide) hrun (.inl hstate) hwait (List.cons_ne_nil 1 []) 1 false (some 1)

/-- The second of two writers sleeps on, although its round would send. --/
theorem second_writer_sleeps :
    ∃ s, Run (step Ip.ideal) (fun _ _ => True) (Socket.opened 0 0 1000 0) twoWriters s ∧
      s.state = .established ∧ s.snd.transmitSuspensionList = [1, 2] ∧
      2 ∈ (socketStateTransmitCheck Ip.ideal s 1).snd.transmitSuspensionList ∧
      (socketSend Ip.ideal s [2] 2 false (some 2)).1 = .sent 1 := by
  have hrun : Run (step Ip.ideal) (fun _ _ => True) (Socket.opened 0 0 1000 0) twoWriters
    (twoWriters.foldl (step Ip.ideal) (Socket.opened 0 0 1000 0)) := .next (.next (.next .start trivial) trivial) trivial
  exact ⟨_, hrun, by decide⟩

end Netxduo
