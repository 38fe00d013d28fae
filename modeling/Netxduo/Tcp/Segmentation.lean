import Netxduo.Library.Runs
import Netxduo.Tcp.Opened
import Netxduo.Tcp.SendLoop

/-! Sending cuts the packet of the application into segments that fit, and loses and changes nothing of it. -/

namespace Netxduo
open Runs

/-! ### The room -/

/-- The room for new data: in a SACK recovery what the peer offers and the credit allows, else the smaller of the two
    windows without what is outstanding. --/
def sendRoom (s : Socket) : ULONG :=
  if s.sackRecoveryActive then
    let window := lessOutstanding s s.snd.txWindowAdvertised
    if window > s.sack.prrCredit then s.sack.prrCredit else window
  else lessOutstanding s (sendWindow s)

theorem cap_le (x y : ULONG) : (if x > y then y else x) ≤ x := by
  split
  · exact BitVec.le_of_lt ‹_›
  · exact BitVec.le_refl x

theorem cap_le_bound (x y : ULONG) : (if x > y then y else x) ≤ y := by
  split
  · exact BitVec.le_refl y
  · exact BitVec.not_lt.mp ‹_›

theorem lessOutstanding_mono (s : Socket) {x y : ULONG} (h : x ≤ y) : lessOutstanding s x ≤ lessOutstanding s y := by
  unfold lessOutstanding
  split
  · split
    · bv_omega
    · bv_omega
  · exact BitVec.not_lt.mp BitVec.not_lt_zero

theorem txWindowCurrent_le (s : Socket) (stopped : Bool) : txWindowCurrent s stopped ≤ sendRoom s := by
  unfold txWindowCurrent sendRoom
  dsimp only
  split
  · exact BitVec.not_lt.mp BitVec.not_lt_zero
  · exact cap_le _ _

theorem currentCredit_le (s : Socket) : currentCredit s ≤ sendRoom s := by
  unfold currentCredit sendRoom
  dsimp only
  refine BitVec.le_trans (cap_le _ _) ?_
  by_cases hactive : s.sackRecoveryActive = true
  · simp [hactive]
  · rw [Bool.not_eq_true] at hactive
    simp only [hactive, Bool.false_eq_true, if_false, false_and, true_and]
    refine lessOutstanding_mono s ?_
    by_cases hgt : s.snd.txWindowAdvertised > s.snd.txWindowCongestion
    · rw [sendWindow, if_pos hgt]
      by_cases hdup : s.snd.duplicatedAckReceived = 1 ∨ s.snd.duplicatedAckReceived = 2
      · rw [if_pos hdup, if_pos hdup]
        exact BitVec.le_refl _
      · rw [if_neg hdup, if_neg hdup]
        exact cap_le _ _
    · rw [sendWindow, if_neg hgt]
      exact cap_le_bound _ _

/-! ### The packet -/

theorem flatten_trimChain (count : Nat) (chain : List (List UInt8)) :
    (trimChain count chain).flatten = chain.flatten.drop count := by
  induction chain generalizing count with
  | nil => simp [trimChain]
  | cons buffer rest ih =>
    unfold trimChain
    split
    · rename_i hlt
      rw [List.flatten_cons, List.flatten_cons, List.nil_append, ih, List.drop_append,
        List.drop_eq_nil_of_le (Nat.le_of_lt hlt), List.nil_append]
    · rename_i hle
      rw [List.flatten_cons, List.flatten_cons, List.drop_append, Nat.sub_eq_zero_of_le (Nat.le_of_not_lt hle),
        List.drop_zero]

/-- A copy holds the first octets of the chain, at most as many as asked for. --/
theorem copyData_spec {remaining : Nat} {chain : List (List UInt8)} {appends : List (Bool × (Socket → Socket))}
    {s t : Socket} {copied octets : List UInt8} (h : copyData remaining chain appends s copied = .done octets t) :
    ∃ part, octets = copied ++ part ∧ part <+: chain.flatten ∧ part.length ≤ remaining := by
  induction chain generalizing remaining appends s copied with
  | nil =>
    unfold copyData at h
    split at h
    · cases h
      exact ⟨[], by simp, List.nil_prefix, Nat.zero_le _⟩
    · cases h
  | cons buffer rest ih =>
    have hnone : ∃ part, copied = copied ++ part ∧ part <+: (buffer :: rest).flatten ∧ part.length ≤ remaining :=
      ⟨[], by simp, List.nil_prefix, Nat.zero_le _⟩
    unfold copyData at h
    split at h
    · cases h
      exact hnone
    split at h
    · rename_i hempty
      obtain ⟨part, ho, hp, hl⟩ := ih h
      refine ⟨part, ho, ?_, hl⟩
      rw [hempty, List.flatten_cons, List.nil_append]
      exact hp
    dsimp only at h
    split at h
    · obtain ⟨part, ho, hp, hl⟩ := ih h
      refine ⟨buffer.take remaining ++ part, by rw [ho, List.append_assoc], ?_, ?_⟩
      · rw [List.flatten_cons]
        by_cases hle : buffer.length ≤ remaining
        · rw [List.take_of_length_le hle]
          exact (List.prefix_append_right_inj buffer).mpr hp
        · have hpart : part = [] := List.eq_nil_of_length_eq_zero (by omega)
          rw [hpart, List.append_nil]
          exact (List.take_prefix _ _).trans (List.prefix_append _ _)
      · rw [List.length_append, List.length_take]
        omega
    · split at h
      · cases h
      · cases h
        exact hnone

/-! ### A segment -/

/-- The segment is no longer than the MSS, and fitted into the room where that was checked last; since then nothing has
    happened but what one of the rounds has for its checksum. --/
structure Placed.Fits (mss : ULONG) (rounds : List Round) (g : Placed) : Prop where
  mss : g.octets.length ≤ mss.toNat
  room : g.octets.length ≤ (sendRoom g.checked).toNat
  sequence : g.sequence = g.placedAt.snd.txSequence
  checksum : ∃ r ∈ rounds, ∃ t, sendRoom t = sendRoom g.checked ∧ g.placedAt = r.checksum t

/-- The segments so far and what is left make up the packet of the application. --/
structure Intact (mss : ULONG) (rounds : List Round) (octets : List UInt8) (c : Call) : Prop where
  octets : (c.placed.map (·.octets)).flatten ++ c.unsent.octets = octets
  fits : ∀ g ∈ c.placed, g.Fits mss rounds

section
variable {ip : Ip} {mss : ULONG} {rounds : List Round} {octets : List UInt8} {c : Call} {r : Round} {s : Socket}

theorem Intact.mono (h : Intact mss rounds octets c) {rounds' : List Round} (hsub : rounds ⊆ rounds') :
    Intact mss rounds' octets c := by
  refine ⟨h.octets, fun g hg => ?_⟩
  obtain ⟨hmss, hroom, hseq, r, hr, hchecksum⟩ := h.fits g hg
  exact ⟨hmss, hroom, hseq, r, hsub hr, hchecksum⟩

/-- Only what has been placed, and the octets that are left, matter. --/
theorem Intact.of_same {c' : Call} (h : Intact mss rounds octets c) (hp : c'.placed = c.placed)
    (hu : c'.unsent.chain = c.unsent.chain) : Intact mss rounds octets c' := by
  refine ⟨?_, fun g hg => h.fits g (hp ▸ hg)⟩
  rw [hp, Unsent.octets, hu]
  exact h.octets

theorem Intact.waits (h : Intact mss rounds octets c) (wait : Option Nat) : Intact mss rounds octets (waitForRoom r c s wait) := by
  unfold waitForRoom
  cases wait with
  | some thread =>
    dsimp only
    split
    · exact h.of_same rfl rfl
    · exact h.of_same rfl rfl
  | none =>
    dsimp only
    split
    · exact h.of_same rfl rfl
    · exact h.of_same rfl rfl

/-- A segment of the first octets is placed. --/
theorem Intact.put (h : Intact mss rounds octets c) {s₀ : Socket} {g : Segment} (addr : Nat)
    (hpart : g.octets <+: c.unsent.octets) (hfits : Placed.Fits mss rounds ⟨s₀, s, g.sequenceNumber, g.octets⟩) :
    Intact mss rounds octets (place ip r c s₀ s g addr) := by
  have hplaced : (place ip r c s₀ s g addr).placed = c.placed ++ [⟨s₀, s, g.sequenceNumber, g.octets⟩] := by
    unfold place
    dsimp only
    split
    · rfl
    · rfl
  have hchain : (place ip r c s₀ s g addr).unsent.chain = trimChain g.octets.length c.unsent.chain := by
    unfold place
    dsimp only
    split
    · rfl
    · rfl
  obtain ⟨rest, hrest⟩ := hpart
  refine ⟨?_, ?_⟩
  · rw [hplaced, Unsent.octets, hchain, flatten_trimChain, ← Unsent.octets, ← h.octets, ← hrest]
    simp
  · rw [hplaced]
    intro q hq
    rcases List.mem_append.mp hq with hq | hq
    · exact h.fits q hq
    · rw [List.mem_singleton] at hq
      rw [hq]
      exact hfits

theorem Intact.checked (h : Intact mss rounds octets c) (hr : r ∈ rounds) {part : List UInt8} (copied : Bool) (hpart : part <+: c.unsent.octets)
    (hmss : part.length ≤ mss.toNat) (hroom : part.length ≤ (sendRoom s).toNat) :
    Intact mss rounds octets (sendChecked ip r c s part copied) := by
  unfold sendChecked
  dsimp only
  split
  · exact h.of_same rfl rfl
  rename_i hseq
  rw [not_not] at hseq
  split
  · exact h.of_same rfl rfl
  · exact h.put _ hpart ⟨hmss, hroom, hseq.symm, r, hr, (buildHeader ip s part).2, rfl, rfl⟩

theorem loopWindow_le (ip : Ip) (mss : ULONG) (s : Socket) (length : ULONG) (stopped : Bool) :
    loopWindow ip mss s length stopped ≤ mss ∧ loopWindow ip mss s length stopped ≤ sendRoom s := by
  unfold loopWindow
  refine ⟨cap_le_bound _ _, BitVec.le_trans (cap_le _ _) ?_⟩
  split
  · exact BitVec.not_lt.mp BitVec.not_lt_zero
  · exact txWindowCurrent_le s stopped

theorem Intact.copy (h : Intact mss rounds octets c) (hr : r ∈ rounds) {window : ULONG} (hmss : window ≤ mss) :
    Intact mss rounds octets (sendCopy ip r c s window) := by
  unfold sendCopy
  dsimp only
  split
  · exact h.of_same rfl rfl
  split
  · exact h.of_same rfl rfl
  · exact h.of_same rfl rfl
  rename_i part t hcopy
  obtain ⟨part', hpart, hprefix, hlength⟩ := copyData_spec hcopy
  rw [List.nil_append] at hpart
  subst hpart
  have hwindow : part.length ≤ window.toNat := hlength.trans (Nat.min_le_right _ _)
  split
  · exact h.of_same rfl rfl
  split
  · exact h.of_same rfl rfl
  · rename_i hcredit
    refine h.checked hr true hprefix (hwindow.trans (BitVec.le_def.mp hmss)) ?_
    have hle : BitVec.ofNat 32 part.length ≤ sendRoom t := BitVec.le_trans (BitVec.not_lt.mp hcredit) (currentCredit_le t)
    have hlt := window.isLt
    rw [BitVec.le_def, BitVec.toNat_ofNat, Nat.mod_eq_of_lt (by omega)] at hle
    exact hle

/-- A round keeps the packet intact. --/
theorem Intact.round (h : Intact mss rounds octets c) (hr : r ∈ rounds) (hlength : octets.length < 2 ^ 32) (wait : Option Nat) :
    Intact mss rounds octets (sendRound ip mss wait c r) := by
  have hleft : c.unsent.octets.length < 2 ^ 32 := by
    have hall := congrArg List.length h.octets
    rw [List.length_append] at hall
    omega
  unfold sendRound
  split
  · exact h
  dsimp only
  obtain ⟨hmss, hroom⟩ := loopWindow_le ip mss (c.socket.txQueueStopped ip).2 (BitVec.ofNat 32 c.unsent.octets.length)
    (c.socket.txQueueStopped ip).1
  generalize loopWindow ip mss (c.socket.txQueueStopped ip).2 (BitVec.ofNat 32 c.unsent.octets.length)
    (c.socket.txQueueStopped ip).1 = window at hmss hroom ⊢
  split
  · split
    · exact h.copy hr hmss
    · rename_i hwhole
      rw [not_or] at hwhole
      have hle := BitVec.not_lt.mp hwhole.1
      have hfit : c.unsent.octets.length ≤ window.toNat := by
        rw [BitVec.le_def, BitVec.toNat_ofNat, Nat.mod_eq_of_lt hleft] at hle
        exact hle
      exact h.checked hr false (List.prefix_refl _) (hfit.trans (BitVec.le_def.mp hmss)) (hfit.trans (BitVec.le_def.mp hroom))
  · exact h.waits wait

end

/-! ### The sequence numbers -/

/-- The segments follow one another from `first` to `last`. --/
def Consecutive : ULONG → List Placed → ULONG → Prop
  | first, [], last => last = first
  | first, g :: rest, last => g.sequence = first ∧ Consecutive (first + BitVec.ofNat 32 g.octets.length) rest last

/-- Nobody else sends on the socket while the mutex is given up. --/
structure Round.Alone (r : Round) : Prop where
  allocating : ∀ s, (r.allocating s).snd.txSequence = s.snd.txSequence
  appends : ∀ a ∈ r.appends, ∀ s, (a.2 s).snd.txSequence = s.snd.txSequence
  checksum : ∀ s, (r.checksum s).snd.txSequence = s.snd.txSequence
  between : ∀ s, (r.between s).snd.txSequence = s.snd.txSequence
  suspended : ∀ s, (r.suspended s).snd.txSequence = s.snd.txSequence

theorem Consecutive.append {first last : ULONG} {placed : List Placed} (h : Consecutive first placed last) {g : Placed}
    (hg : g.sequence = last) : Consecutive first (placed ++ [g]) (last + BitVec.ofNat 32 g.octets.length) := by
  induction placed generalizing first with
  | nil =>
    have hlast : last = first := h
    exact ⟨hg.trans hlast, by rw [hlast]; rfl⟩
  | cons q rest ih => exact ⟨h.1, ih h.2⟩

def Copied.socket : Copied → Socket
  | .done _ s | .failed s | .exhausted s => s

theorem copyData_sequence {remaining : Nat} {chain : List (List UInt8)} {appends : List (Bool × (Socket → Socket))}
    (h : ∀ a ∈ appends, ∀ s, (a.2 s).snd.txSequence = s.snd.txSequence) (s : Socket) (copied : List UInt8) :
    (copyData remaining chain appends s copied).socket.snd.txSequence = s.snd.txSequence := by
  induction chain generalizing remaining appends s copied with
  | nil =>
    unfold copyData
    split
    · rfl
    · rfl
  | cons buffer rest ih =>
    have hgap : ((appends.headD (true, id)).2 s).snd.txSequence = s.snd.txSequence := by
      cases appends with
      | nil => rfl
      | cons a appends => exact h a (List.mem_cons_self ..) s
    unfold copyData
    split
    · rfl
    split
    · exact ih h s copied
    dsimp only
    split
    · exact (ih (fun a ha => h a (List.mem_of_mem_tail ha)) _ _).trans hgap
    · split
      · exact hgap
      · exact hgap

section
variable {ip : Ip} {mss first : ULONG} {c : Call} {r : Round} {s : Socket}

/-- The call has sent one segment behind the other. --/
def Call.InLine (first : ULONG) (c : Call) : Prop := Consecutive first c.placed c.socket.snd.txSequence

theorem txSequence_ite {b : Prop} [Decidable b] {s t : Socket} {n : ULONG} (hs : s.snd.txSequence = n)
    (ht : t.snd.txSequence = n) : (if b then s else t).snd.txSequence = n := by
  split
  · exact hs
  · exact ht

theorem zeroWindowProbeArm_sequence (s : Socket) (octets : List UInt8) :
    (zeroWindowProbeArm s octets).snd.txSequence = s.snd.txSequence := by
  have harm : (if s.snd.zeroWindowProbeHasData then s
      else
        { s with snd := { s.snd with
          zeroWindowProbeHasData := true
          zeroWindowProbeData := octets.headD 0
          zeroWindowProbeSequence := s.snd.txSequence
          zeroWindowProbeFailure := 0 } }).snd.txSequence = s.snd.txSequence := txSequence_ite rfl rfl
  exact txSequence_ite rfl (txSequence_ite harm harm)

theorem enqueueSent_sequence (ip : Ip) (s : Socket) (addr : Nat) (octets : List UInt8) (done : Bool) :
    (enqueueSent ip s addr octets done).snd.txSequence = s.snd.txSequence + BitVec.ofNat 32 octets.length :=
  txSequence_ite rfl rfl

/-- Without a new segment only the number of the socket matters. --/
theorem Call.InLine.of_same (h : c.InLine first) {c' : Call} (hp : c'.placed = c.placed)
    (hs : c'.socket.snd.txSequence = c.socket.snd.txSequence) : c'.InLine first := by
  rw [Call.InLine, hp, hs]
  exact h

theorem inLine_waits (h : c.InLine first) (hr : r.Alone) (hs : s.snd.txSequence = c.socket.snd.txSequence)
    (wait : Option Nat) : (waitForRoom r c s wait).InLine first := by
  have harm := (zeroWindowProbeArm_sequence s c.unsent.octets).trans hs
  unfold waitForRoom
  cases wait with
  | some thread =>
    dsimp only
    split
    · exact h.of_same rfl ((hr.suspended _).trans harm)
    · exact h.of_same rfl ((hr.suspended _).trans harm)
  | none =>
    dsimp only
    split
    · exact h.of_same rfl harm
    · exact h.of_same rfl harm

theorem inLine_place (h : c.InLine first) (hr : r.Alone) {s₀ : Socket} {g : Segment} (addr : Nat)
    (hs : s.snd.txSequence = c.socket.snd.txSequence) (hg : g.sequenceNumber = s.snd.txSequence) :
    (place ip r c s₀ s g addr).InLine first := by
  have hline : Consecutive first (c.placed ++ [⟨s₀, s, g.sequenceNumber, g.octets⟩])
      (c.socket.snd.txSequence + BitVec.ofNat 32 g.octets.length) := Consecutive.append h (hg.trans hs)
  have henqueue := enqueueSent_sequence ip (s.driverTakes ip).2 addr g.octets (s.driverTakes ip).1
  have hdriver : (s.driverTakes ip).2.snd.txSequence = c.socket.snd.txSequence := hs
  rw [hdriver] at henqueue
  unfold place Call.InLine
  dsimp only
  split
  · dsimp only
    rw [henqueue]
    exact hline
  · dsimp only
    rw [hr.between]
    dsimp only
    rw [henqueue]
    exact hline

theorem inLine_checked (h : c.InLine first) (hr : r.Alone) (hs : s.snd.txSequence = c.socket.snd.txSequence)
    (part : List UInt8) (copied : Bool) : (sendChecked ip r c s part copied).InLine first := by
  have hchecksum : (r.checksum (buildHeader ip s part).2).snd.txSequence = s.snd.txSequence := hr.checksum _
  unfold sendChecked
  dsimp only
  split
  · exact h.of_same rfl ((hr.between _).trans (hchecksum.trans hs))
  split
  · exact h.of_same rfl (hchecksum.trans hs)
  · exact inLine_place h hr _ (hchecksum.trans hs) hchecksum.symm

theorem inLine_copy (h : c.InLine first) (hr : r.Alone) (hs : s.snd.txSequence = c.socket.snd.txSequence)
    (window : ULONG) : (sendCopy ip r c s window).InLine first := by
  have hallocate := (hr.allocating s).trans hs
  have hcopy : (copyData (min c.unsent.octets.length window.toNat) c.unsent.chain r.appends (r.allocating s)
      []).socket.snd.txSequence = c.socket.snd.txSequence := (copyData_sequence hr.appends _ _).trans hallocate
  unfold sendCopy
  dsimp only
  split
  · exact h.of_same rfl hallocate
  generalize copyData (min c.unsent.octets.length window.toNat) c.unsent.chain r.appends (r.allocating s) [] = res at hcopy ⊢
  cases res with
  | exhausted t => exact h.of_same rfl hcopy
  | failed t => exact h.of_same rfl hcopy
  | done part t =>
    dsimp only
    split
    · exact h.of_same rfl hcopy
    split
    · exact h.of_same rfl hcopy
    · exact inLine_checked h hr hcopy part true

theorem inLine_round (h : c.InLine first) (hr : r.Alone) (wait : Option Nat) : (sendRound ip mss wait c r).InLine first := by
  have hstop : (c.socket.txQueueStopped ip).2.snd.txSequence = c.socket.snd.txSequence := rfl
  unfold sendRound
  split
  · exact h
  dsimp only
  split
  · split
    · exact inLine_copy h hr hstop _
    · exact inLine_checked h hr hstop _ false
  · exact inLine_waits h hr hstop wait

end

/-! ### The whole call -/

theorem payloadMss_le (ip : Ip) (s : Socket) : payloadMss ip s ≤ s.connectMss := by
  unfold payloadMss
  split
  · rename_i h
    simp only [Bool.and_eq_true, decide_eq_true_eq] at h
    have hgt : 12 < s.connectMss := h.2
    bv_omega
  · exact BitVec.le_refl _

theorem sendInternal_start (s : Socket) (addr : Nat) (chain : List (List UInt8)) :
    (sendInternal s addr chain).placed = [] ∧ (sendInternal s addr chain).unsent.octets = chain.flatten ∧
      (sendInternal s addr chain).socket = s := by
  unfold sendInternal
  dsimp only
  split
  · exact ⟨rfl, rfl, rfl⟩
  split
  · exact ⟨rfl, rfl, rfl⟩
  · exact ⟨rfl, rfl, rfl⟩

/-- Whatever happens around a call, what it has sent and what is left make up the packet; every segment has fitted into
    the MSS and, where that was checked last, into the room, and fits where it is placed if the room does not shrink
    while a checksum is computed; and without another writer the segments follow one another. --/
theorem send_loses_nothing {ip : Ip} {s : Socket} {addr : Nat} {chain : List (List UInt8)} {wait : Option Nat}
    {rounds : List Round} {c : Call} (hlength : chain.flatten.length < 2 ^ 32)
    (h : Run (sendRound ip (payloadMss ip s) wait) (fun _ _ => True) (sendInternal s addr chain) rounds c) :
    (c.placed.map (·.octets)).flatten ++ c.unsent.octets = chain.flatten ∧
      (∀ g ∈ c.placed, g.Fits s.connectMss rounds) ∧
      ((∀ r ∈ rounds, ∀ t, sendRoom t ≤ sendRoom (r.checksum t)) →
        ∀ g ∈ c.placed, g.octets.length ≤ (sendRoom g.placedAt).toNat) ∧
      ((∀ r ∈ rounds, r.Alone) → Consecutive s.snd.txSequence c.placed c.socket.snd.txSequence) := by
  obtain ⟨hplaced, hunsent, hsocket⟩ := sendInternal_start s addr chain
  have hintact : Intact (payloadMss ip s) rounds chain.flatten c := by
    refine h.invariant (P := fun rounds c => Intact (payloadMss ip s) rounds chain.flatten c) ?_ ?_
    · refine ⟨by rw [hplaced, hunsent]; rfl, fun g hg => ?_⟩
      rw [hplaced] at hg
      cases hg
    · intro rounds c r ih _
      exact (ih.mono (List.subset_append_left ..)).round (List.mem_append_right _ (List.mem_singleton_self r)) hlength wait
  have hline : (∀ r ∈ rounds, r.Alone) → c.InLine s.snd.txSequence := by
    refine h.invariant (P := fun rounds c => (∀ r ∈ rounds, r.Alone) → c.InLine s.snd.txSequence) ?_ ?_
    · intro _
      rw [Call.InLine, hplaced, hsocket]
      exact rfl
    · intro rounds c r ih _ halone
      exact inLine_round (ih fun q hq => halone q (List.mem_append_left _ hq))
        (halone r (List.mem_append_right _ (List.mem_singleton_self r))) wait
  refine ⟨hintact.octets, fun g hg => ?_, fun hsteady g hg => ?_, hline⟩
  · obtain ⟨hmss, hroom, hseq, hchecksum⟩ := hintact.fits g hg
    exact ⟨hmss.trans (BitVec.le_def.mp (payloadMss_le ip s)), hroom, hseq, hchecksum⟩
  · obtain ⟨-, hroom, -, r, hr, t, ht, hplace⟩ := hintact.fits g hg
    rw [hplace]
    refine hroom.trans (BitVec.le_def.mp ?_)
    rw [← ht]
    exact hsteady r hr t

/-- Nothing happens meanwhile. --/
def Round.quiet : Round where
  adjust := false
  allocated := true
  allocating := id
  copy := 9
  appends := []
  checksum := id
  between := id
  resumed := true
  suspended := id

theorem send_loses_nothing_two :
    let s : Socket := { Socket.opened 0 0 1000 1000 with connectMss := 2 }
    let round := fun c : Call => sendRound Ip.ideal (payloadMss Ip.ideal s) none c Round.quiet
    let c := round (round (sendInternal s 1 [[1], [2, 3]]))
    (c.placed.map (·.octets)).flatten ++ c.unsent.octets = [1, 2, 3] ∧ c.placed.length = 2 := by
  intro s round c
  have hlength : ([[1], [2, 3]] : List (List UInt8)).flatten.length < 2 ^ 32 := by decide
  have hfirst : Run (sendRound Ip.ideal (payloadMss Ip.ideal s) none) (fun _ _ => True) (sendInternal s 1 [[1], [2, 3]])
      [Round.quiet] (round (sendInternal s 1 [[1], [2, 3]])) := .single trivial
  have hsecond : Run (sendRound Ip.ideal (payloadMss Ip.ideal s) none) (fun _ _ => True) (sendInternal s 1 [[1], [2, 3]])
      ([Round.quiet] ++ [Round.quiet]) c := .next hfirst trivial
  have hplaced : c.placed.length = 2 := by decide
  exact ⟨(send_loses_nothing hlength hsecond).1, hplaced⟩

/-- In a SACK recovery the credit counts, not the congestion window: a segment goes out where the window leaves
    nothing. --/
theorem recovery_passes_congestion_window :
    let s := Socket.opened 0 0 10000 10000
    let s : Socket := { s with
      snd := { s.snd with
        txSequence := 1001
        fastRecovery := true
        txWindowCongestion := 1000
        txOutstandingBytes := 1000
        transmitSent := [⟨5, 1, 20, [], true⟩] }
      sack := { s.sack with prrRecoverFs := 1000, prrCredit := 500 } }
    let c := sendRound Ip.ideal 1460 none (sendInternal s 1 [[7, 7, 7]]) Round.quiet
    c.placed.map (fun g => (g.octets.length, lessOutstanding g.placedAt (sendWindow g.placedAt))) = [(3, 0)] := by
  decide

end Netxduo
