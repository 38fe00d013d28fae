import Mathlib
import Netxduo.Library.Bitmap
import Netxduo.Library.Runs
import Netxduo.Tcp.Types

/-! The sliding window of a DTLS session: which record numbers are taken for new, and how the window is moved. -/

namespace Netxduo.Dtls
open Bitmap Runs

/-! ### The source -/

/-- A record number, in its two halves. --/
structure SequenceNumber where
  upper : ULONG
  lower : ULONG
deriving DecidableEq, Repr

def SequenceNumber.value (n : SequenceNumber) : Nat := n.upper.toNat * 2 ^ 32 + n.lower.toNat

/-- What the window functions read and write of the session. --/
structure Session where
  remoteSequenceNumber : SequenceNumber
  slidingWindow : ULONG
deriving DecidableEq, Repr

inductive UpdateStatus
  | success
  | outOfOrderMessage
deriving DecidableEq, Repr

/-- `x << n`. The language leaves a shift by the whole width or more to the machine, which is the parameter. --/
def shiftLeft (machine : ULONG → ULONG → ULONG) (x n : ULONG) : ULONG :=
  if n.toNat < 32 then x <<< n.toNat else machine x n

/-- The distance from a number up to one in the next upper half, as both functions compute it. --/
def deltaAcross (low high : SequenceNumber) : ULONG := (0xFFFFFFFF - low.lower) + high.lower

/-- `_nx_secure_dtls_session_sliding_window_check` --/
def slidingWindowCheck (machine : ULONG → ULONG → ULONG) (s : Session) (n : SequenceNumber) : Bool :=
  let last := s.remoteSequenceNumber
  if n.upper = last.upper ∧ n.lower = last.lower then false
  else if n.upper > last.upper ∨ n.upper = last.upper ∧ n.lower > last.lower then true
  else
    let inWindow (delta : ULONG) : Bool :=
      if delta > 32 then false
      else if s.slidingWindow &&& shiftLeft machine 1 delta ≠ 0 then false
      else true
    if n.upper + 1 = last.upper then inWindow (deltaAcross n last)
    else if n.upper = last.upper then inWindow (last.lower - n.lower)
    else false

/-- `_nx_secure_dtls_session_sliding_window_update` --/
def slidingWindowUpdate (machine : ULONG → ULONG → ULONG) (s : Session) (n : SequenceNumber) : UpdateStatus × Session :=
  let last := s.remoteSequenceNumber
  if n.upper = last.upper ∧ n.lower = last.lower then (.outOfOrderMessage, s)
  else if n.upper < last.upper ∨ n.upper = last.upper ∧ n.lower < last.lower then
    let delta := if n.upper = last.upper then last.lower - n.lower else deltaAcross n last
    (.success, { s with slidingWindow := s.slidingWindow ||| shiftLeft machine 1 delta })
  else
    let delta := if n.upper > last.upper then deltaAcross last n else n.lower - last.lower
    let window := if delta > 32 then 1 else shiftLeft machine s.slidingWindow delta ||| 1
    (.success, { remoteSequenceNumber := n, slidingWindow := window })

/-- A record number is checked, and updates the window when it is accepted. --/
def process (machine : ULONG → ULONG → ULONG) (s : Session) (n : SequenceNumber) : Session :=
  if slidingWindowCheck machine s n then (slidingWindowUpdate machine s n).2 else s

/-- A session whose keys have just changed. --/
def Session.fresh : Session := ⟨⟨0, 0⟩, 0⟩

/-- The window, and the numbers it was given and accepted, the last one first. --/
structure History where
  session : Session
  seen : List SequenceNumber
deriving DecidableEq, Repr

def History.receive (machine : ULONG → ULONG → ULONG) (h : History) (n : SequenceNumber) : History :=
  ⟨process machine h.session n, if slidingWindowCheck machine h.session n then n :: h.seen else h.seen⟩

/-! ### Where the distance is right -/

/-- The distance the code shifts by is the distance between the number and the right edge, and less than the width; or
    both of them are beyond the window. A window that is still empty has no number at its edge. --/
structure Exact (s : Session) (n : SequenceNumber) : Prop where
  same : n.upper = s.remoteSequenceNumber.upper →
    n.value ≠ s.remoteSequenceNumber.value + 32 ∧ s.remoteSequenceNumber.value ≠ n.value + 32
  above : s.remoteSequenceNumber.upper < n.upper → 32 < (n.value - s.remoteSequenceNumber.value - 1) % 2 ^ 32
  below : n.upper.toNat + 1 = s.remoteSequenceNumber.upper.toNat →
    32 < (s.remoteSequenceNumber.value - n.value - 1) % 2 ^ 32
  first : s.slidingWindow = 0 → n ≠ s.remoteSequenceNumber

instance (s : Session) (n : SequenceNumber) : Decidable (Exact s n) :=
  decidable_of_iff ((n.upper = s.remoteSequenceNumber.upper →
      n.value ≠ s.remoteSequenceNumber.value + 32 ∧ s.remoteSequenceNumber.value ≠ n.value + 32) ∧
    (s.remoteSequenceNumber.upper < n.upper → 32 < (n.value - s.remoteSequenceNumber.value - 1) % 2 ^ 32) ∧
    (n.upper.toNat + 1 = s.remoteSequenceNumber.upper.toNat →
      32 < (s.remoteSequenceNumber.value - n.value - 1) % 2 ^ 32) ∧
    (s.slidingWindow = 0 → n ≠ s.remoteSequenceNumber))
    ⟨fun h => ⟨h.1, h.2.1, h.2.2.1, h.2.2.2⟩, fun h => ⟨h.same, h.above, h.below, h.first⟩⟩

section
variable {machine : ULONG → ULONG → ULONG} {s : Session} {n m : SequenceNumber}

theorem value_injective : Function.Injective SequenceNumber.value := by
  rintro ⟨u, l⟩ ⟨u', l'⟩ h
  have hl := l.isLt
  have hl' := l'.isLt
  simp only [SequenceNumber.value] at h
  have hupper : u = u' := BitVec.eq_of_toNat_eq (by omega)
  have hlower : l = l' := BitVec.eq_of_toNat_eq (by omega)
  rw [hupper, hlower]

theorem value_lt_iff : n.value < m.value ↔ n.upper < m.upper ∨ n.upper = m.upper ∧ n.lower < m.lower := by
  have hn := n.lower.isLt
  have hm := m.lower.isLt
  rw [BitVec.lt_def, BitVec.lt_def, ← BitVec.toNat_inj]
  unfold SequenceNumber.value
  omega

theorem value_gt_iff : m.value < n.value ↔ n.upper > m.upper ∨ n.upper = m.upper ∧ n.lower > m.lower := by
  rw [value_lt_iff, eq_comm]

theorem eq_iff : (n.upper = m.upper ∧ n.lower = m.lower) ↔ n = m := by
  cases n
  cases m
  simp

/-- Inside one half the distance is exact. --/
theorem delta_same (hupper : n.upper = m.upper) (hle : n.value ≤ m.value) :
    (m.lower - n.lower).toNat = m.value - n.value := by
  have hn := n.lower.isLt
  have hm := m.lower.isLt
  unfold SequenceNumber.value at *
  rw [hupper] at *
  rw [BitVec.toNat_sub]
  omega

/-- Across the halves it is one short, and what exceeds a word is lost. --/
theorem deltaAcross_eq (hupper : n.upper < m.upper) :
    (deltaAcross n m).toNat = (m.value - n.value - 1) % 2 ^ 32 := by
  have hn := n.lower.isLt
  have hm := m.lower.isLt
  rw [BitVec.lt_def] at hupper
  unfold deltaAcross SequenceNumber.value
  rw [BitVec.toNat_add, BitVec.toNat_sub, show (0xFFFFFFFF : ULONG).toNat = 2 ^ 32 - 1 from rfl]
  obtain ⟨k, hk⟩ : ∃ k, m.upper.toNat = n.upper.toNat + 1 + k := ⟨m.upper.toNat - n.upper.toNat - 1, by omega⟩
  rw [hk]
  omega

/-- The mask picks one bit out. --/
theorem and_mask (window : ULONG) {d : Nat} (hd : d < 32) : window &&& (1 : ULONG) <<< d ≠ 0 ↔ window.getLsbD d = true := by
  constructor
  · intro hne
    by_contra hbit
    refine hne (BitVec.eq_of_getLsbD_eq fun i hi => ?_)
    rw [BitVec.getLsbD_and, BitVec.getLsbD_shiftLeft, show (1 : ULONG) = 1#32 from rfl, BitVec.getLsbD_one]
    rcases Nat.lt_trichotomy i d with hlt | rfl | hgt
    · simp [hlt]
    · simp [hbit]
    · simp [show i - d ≠ 0 by omega]
  · intro hbit hzero
    have h : (window &&& (1 : ULONG) <<< d).getLsbD d = false := by
      rw [hzero]
      simp
    rw [BitVec.getLsbD_and, hbit, BitVec.getLsbD_shiftLeft] at h
    simp [hd] at h

theorem shiftLeft_eq {x delta : ULONG} (h : delta.toNat < 32) : shiftLeft machine x delta = x <<< delta.toNat := if_pos h

theorem delta_gt {delta : ULONG} : delta > 32 ↔ 32 < delta.toNat := by
  rw [gt_iff_lt, BitVec.lt_def]
  rfl

/-! ### What the two functions do -/

/-- Where the distance is right, a number is accepted above the edge, and inside the window where its bit is clear. --/
theorem check_exact (h : Exact s n) : slidingWindowCheck machine s n = true ↔
    s.remoteSequenceNumber.value < n.value ∨
      ∃ d < 32, 0 < d ∧ n.value + d = s.remoteSequenceNumber.value ∧ s.slidingWindow.getLsbD d = false := by
  unfold slidingWindowCheck
  obtain ⟨hsame, -, hbelow, -⟩ := h
  generalize s.remoteSequenceNumber = e at *
  dsimp only
  by_cases heq : n = e
  · rw [if_pos (eq_iff.mpr heq), heq]
    simp
  rw [if_neg (mt eq_iff.mp heq)]
  by_cases hlt : e.value < n.value
  · rw [if_pos (value_gt_iff.mp hlt)]
    exact iff_of_true rfl (.inl hlt)
  rw [if_neg (mt value_gt_iff.mpr hlt)]
  have hne : n.value ≠ e.value := fun hv => heq (value_injective hv)
  have hle := n.lower.isLt
  have hele := e.lower.isLt
  -- the bit is looked at for the distance `d`, and for nothing that lies further away
  have hinside : ∀ delta : ULONG, (delta.toNat < 32 → n.value + delta.toNat = e.value ∧ 0 < delta.toNat) →
      (32 ≤ delta.toNat → n.value + 32 < e.value ∧ delta.toNat ≠ 32) →
      ((if delta > 32 then false
        else if s.slidingWindow &&& shiftLeft machine 1 delta ≠ 0 then false else true) = true ↔
        e.value < n.value ∨ ∃ d < 32, 0 < d ∧ n.value + d = e.value ∧ s.slidingWindow.getLsbD d = false) := by
    intro delta hnear hfar
    by_cases hd : delta.toNat < 32
    · obtain ⟨hsum, hpos⟩ := hnear hd
      rw [if_neg (by rw [delta_gt]; omega), shiftLeft_eq hd]
      have hmask := and_mask s.slidingWindow hd
      constructor
      · intro hok
        refine .inr ⟨delta.toNat, hd, hpos, hsum, ?_⟩
        by_contra hbit
        rw [Bool.not_eq_false] at hbit
        rw [if_pos (hmask.mpr hbit)] at hok
        cases hok
      · rintro (habove | ⟨d, -, -, hd', hbit⟩)
        · omega
        · obtain rfl : d = delta.toNat := by omega
          rw [if_neg fun hc => by simp [hmask.mp hc] at hbit]
    · obtain ⟨hout, hne32⟩ := hfar (Nat.not_lt.mp hd)
      rw [if_pos (by rw [delta_gt]; omega)]
      refine iff_of_false (by simp) ?_
      rintro (habove | ⟨d, hd32, -, hsum, -⟩)
      · omega
      · omega
  by_cases hacross : n.upper + 1 = e.upper
  · have hstep : n.upper.toNat + 1 = e.upper.toNat := by
      have hup := congrArg BitVec.toNat hacross
      rw [BitVec.toNat_add] at hup
      have hn := n.upper.isLt
      simp only [show (1 : ULONG).toNat = 1 from rfl] at hup
      by_contra hc
      have hzero : e.upper.toNat = 0 := by omega
      have : e.value < n.value := by
        unfold SequenceNumber.value
        omega
      exact hlt this
    have hdelta := deltaAcross_eq (n := n) (m := e) (by rw [BitVec.lt_def]; omega)
    have hb := hbelow hstep
    rw [if_pos hacross]
    refine hinside _ (fun hd => by omega) fun hd => ?_
    unfold SequenceNumber.value at hb hdelta ⊢
    omega
  rw [if_neg hacross]
  by_cases hup : n.upper = e.upper
  · have hdelta := delta_same hup (Nat.not_lt.mp hlt)
    have hs := hsame hup
    rw [if_pos hup]
    refine hinside _ (fun hd => ?_) fun hd => ?_
    · omega
    · omega
  · rw [if_neg hup]
    refine iff_of_false (by simp) ?_
    rintro (habove | ⟨d, hd, -, hsum, -⟩)
    · exact hlt habove
    refine hacross (BitVec.eq_of_toNat_eq ?_)
    have hne : n.upper.toNat ≠ e.upper.toNat := fun hc => hup (BitVec.eq_of_toNat_eq hc)
    have hu := e.upper.isLt
    unfold SequenceNumber.value at hsum
    rw [BitVec.toNat_add, show (1 : ULONG).toNat = 1 from rfl]
    omega

/-- An accepted number above the edge moves the window by its distance, one inside it is marked. --/
theorem update_exact (h : Exact s n) : 
    (s.remoteSequenceNumber.value < n.value → slidingWindowUpdate machine s n = (.success,
      ⟨n, s.slidingWindow <<< (n.value - s.remoteSequenceNumber.value) ||| 1⟩)) ∧
    ∀ d < 32, 0 < d → n.value + d = s.remoteSequenceNumber.value → slidingWindowUpdate machine s n = (.success,
      { s with slidingWindow := s.slidingWindow ||| (1 : ULONG) <<< d }) := by
  unfold slidingWindowUpdate
  obtain ⟨hsame, habove, hbelow, -⟩ := h
  generalize s.remoteSequenceNumber = e at *
  have hle := n.lower.isLt
  have hele := e.lower.isLt
  dsimp only
  refine ⟨fun hlt => ?_, fun d hd hpos hsum => ?_⟩
  · rw [if_neg fun hc => by rw [eq_iff.mp hc] at hlt; omega, if_neg fun hc => by have := value_lt_iff.mpr hc; omega]
    -- a shift by more than the width clears the window, as the code does
    have hmove : ∀ delta : ULONG, (delta.toNat < 32 → delta.toNat = n.value - e.value) →
        (32 ≤ delta.toNat → 32 < n.value - e.value ∧ delta.toNat ≠ 32) →
        (if delta > 32 then 1 else shiftLeft machine s.slidingWindow delta ||| 1) =
          s.slidingWindow <<< (n.value - e.value) ||| 1 := by
      intro delta hnear hfar
      by_cases hd : delta.toNat < 32
      · rw [if_neg (by rw [delta_gt]; omega), shiftLeft_eq hd, hnear hd]
      · obtain ⟨hout, hne32⟩ := hfar (Nat.not_lt.mp hd)
        rw [if_pos (by rw [delta_gt]; omega), BitVec.shiftLeft_eq_zero (by omega), BitVec.zero_or]
    by_cases hup : e.upper < n.upper
    · have hdelta := deltaAcross_eq hup
      have ha := habove hup
      rw [if_pos hup, hmove _ (fun hd => by omega) fun hd => ?_]
      rw [BitVec.lt_def] at hup
      unfold SequenceNumber.value at ha hdelta ⊢
      omega
    · have heq : n.upper = e.upper := by
        rcases value_lt_iff.mp hlt with hc | hc
        · exact absurd hc hup
        · exact hc.1.symm
      have hdelta := delta_same heq.symm (Nat.le_of_lt hlt)
      have hs := hsame heq
      rw [if_neg hup, hmove _ (fun hd => hdelta) fun hd => by omega]
  · rw [if_neg fun hc => by rw [eq_iff.mp hc] at hsum; omega, if_pos (value_lt_iff.mp (by omega))]
    by_cases heq : n.upper = e.upper
    · have hdelta := delta_same heq (by omega)
      rw [if_pos heq, shiftLeft_eq (by omega), hdelta, show e.value - n.value = d by omega]
    · exfalso
      have hup : n.upper < e.upper := (value_lt_iff.mp (show n.value < e.value by omega)).resolve_right fun hc => heq hc.1
      rw [BitVec.lt_def] at hup
      have hb := hbelow (by unfold SequenceNumber.value at hsum; omega)
      omega

/-! ### In every run -/

/-- The window stands for the numbers accepted so far, each of them once. --/
structure Faithful (h : History) : Prop where
  marks : Marks h.session.slidingWindow h.session.remoteSequenceNumber.value {v | ∃ n ∈ h.seen, n.value = v}
  nodup : h.seen.Nodup
  edge : h.seen = [] ∧ h.session = .fresh ∨ h.session.remoteSequenceNumber ∈ h.seen

theorem faithful_fresh : Faithful ⟨.fresh, []⟩ := by
  refine ⟨?_, .nil, .inl ⟨rfl, rfl⟩⟩
  have hnone : {v | ∃ n ∈ ([] : List SequenceNumber), n.value = v} = ∅ := by simp
  rw [hnone]
  exact marks_empty _

theorem seen_cons (n : SequenceNumber) (seen : List SequenceNumber) :
    {v | ∃ m ∈ n :: seen, m.value = v} = insert n.value {v | ∃ m ∈ seen, m.value = v} := by
  ext v
  simp [eq_comm]

/-- What the check looks at tells the numbers accepted from the others. --/
theorem Faithful.check {h : History} (hf : Faithful h) (hn : Exact h.session n) :
    slidingWindowCheck machine h.session n = true ↔ h.session.remoteSequenceNumber.value < n.value ∨
      n ∉ h.seen ∧ n.value < h.session.remoteSequenceNumber.value ∧
        h.session.remoteSequenceNumber.value < n.value + 32 := by
  have hmem : n ∈ h.seen ↔ n.value ∈ {v | ∃ m ∈ h.seen, m.value = v} :=
    ⟨fun hm => ⟨n, hm, rfl⟩, fun ⟨m, hm, hv⟩ => value_injective hv ▸ hm⟩
  rw [check_exact hn]
  constructor
  · rintro (habove | ⟨d, hd, hpos, hsum, hbit⟩)
    · exact .inl habove
    · refine .inr ⟨fun hs => ?_, by omega, by omega⟩
      rw [(hf.marks.seen_iff hd hsum).mpr (hmem.mp hs)] at hbit
      cases hbit
  · rintro (habove | ⟨hnew, hlt, hin⟩)
    · exact .inl habove
    · refine .inr ⟨h.session.remoteSequenceNumber.value - n.value, by omega, by omega, by omega, ?_⟩
      by_contra hbit
      rw [Bool.not_eq_false] at hbit
      exact hnew (hmem.mpr ((hf.marks.seen_iff (by omega) (by omega)).mp hbit))

theorem Faithful.receive {h : History} (hf : Faithful h) (hn : Exact h.session n) : Faithful (h.receive machine n) := by
  unfold History.receive process
  by_cases hok : slidingWindowCheck machine h.session n = true
  · rw [if_pos hok, if_pos hok]
    obtain ⟨hmove, hmark⟩ := @update_exact machine h.session n hn
    rcases (hf.check hn).mp hok with habove | ⟨hnew, hlt, hin⟩
    · rw [hmove habove]
      have hmarks := hf.marks.advance (Nat.sub_pos_of_lt habove)
      rw [Nat.add_sub_cancel' (Nat.le_of_lt habove)] at hmarks
      refine ⟨by rw [seen_cons]; exact hmarks, .cons (fun hm => ?_) hf.nodup, .inr (List.mem_cons_self ..)⟩
      have hle := hf.marks.le n.value ⟨n, hm, rfl⟩
      omega
    · have hsum : n.value + (h.session.remoteSequenceNumber.value - n.value) = h.session.remoteSequenceNumber.value := by
        omega
      rw [hmark _ (by omega) (by omega) hsum]
      refine ⟨by rw [seen_cons]; exact hf.marks.mark hsum, .cons hnew hf.nodup, .inr ?_⟩
      rcases hf.edge with ⟨-, hfresh⟩ | hedge
      · rw [hfresh] at hlt
        exact absurd hlt (by simp [Session.fresh, SequenceNumber.value])
      · exact List.mem_cons_of_mem _ hedge
  · rw [if_neg hok, if_neg hok]
    exact hf

/-- What the window is for, in a state where it has taken some numbers. --/
structure Guards (machine : ULONG → ULONG → ULONG) (h : History) : Prop where
  once : h.seen.Nodup
  again : ∀ n ∈ h.seen, Exact h.session n → slidingWindowCheck machine h.session n = false
  above : ∀ n, Exact h.session n → (∀ m ∈ h.seen, m.value < n.value) → slidingWindowCheck machine h.session n = true
  inside : ∀ n, Exact h.session n → n ∉ h.seen → (∃ m ∈ h.seen, n.value < m.value) →
    (∀ m ∈ h.seen, m.value < n.value + 32) → slidingWindowCheck machine h.session n = true

/-- In every run whose numbers all lie at a distance the code computes right, no number is accepted twice, and every
    number above the highest one and every new one inside the window is accepted. --/
theorem replay_guarded {ns : List SequenceNumber} {h : History}
    (hrun : Run (History.receive machine) (fun h n => Exact h.session n) ⟨.fresh, []⟩ ns h) : Guards machine h := by
  have hf : Faithful h := 
    hrun.invariant (P := fun _ h => Faithful h) faithful_fresh fun _ _ _ hf hn => hf.receive hn
  refine ⟨hf.nodup, fun n hn hexact => ?_, fun n hexact habove => ?_, fun n hexact hnew hlow hin => ?_⟩
  · rw [← Bool.not_eq_true, hf.check hexact]
    rintro (habove | ⟨hnew, -⟩)
    · have hle := hf.marks.le n.value ⟨n, hn, rfl⟩
      omega
    · exact hnew hn
  · rw [hf.check hexact]
    rcases hf.edge with ⟨-, hfresh⟩ | hedge
    · have hfirst := hexact.first
      rw [hfresh] at hfirst ⊢
      have hne : n.value ≠ 0 := fun hv => hfirst rfl (value_injective hv)
      exact .inl (Nat.pos_of_ne_zero hne)
    · exact .inl (habove _ hedge)
  · rw [hf.check hexact]
    obtain ⟨m, hm, hlt⟩ := hlow
    have hle := hf.marks.le m.value ⟨m, hm, rfl⟩
    rcases hf.edge with ⟨hnil, -⟩ | hedge
    · rw [hnil] at hm
      cases hm
    · exact .inr ⟨hnew, by omega, hin _ hedge⟩

end

/-- A target that takes the count of a shift modulo the width. --/
def countModWidth (x n : ULONG) : ULONG := x <<< (n.toNat % 32)

/-- Three numbers of one half, the third one behind the second. --/
theorem replay_guarded_three :
    Guards countModWidth ([⟨0, 1⟩, ⟨0, 5⟩, ⟨0, 3⟩].foldl (History.receive countModWidth) ⟨.fresh, []⟩) :=
  replay_guarded (.next (.next (.next .start (by decide)) (by decide)) (by decide))

/-- The numbers pass into the next half, after a step that has cleared the window. --/
def crossed : History := [⟨0, 10⟩, ⟨0, 100⟩, ⟨1, 12⟩].foldl (History.receive countModWidth) ⟨.fresh, []⟩

/-- The last number of the first half is left out. --/
def skipped : History := (⟨.fresh, []⟩ : History).receive countModWidth ⟨1, 0⟩

/-- Once the numbers have passed into the next half, an old one is accepted again, and a new one is not accepted. --/
theorem replay_accepted :
    (⟨0, 10⟩ ∈ crossed.seen ∧ slidingWindowCheck countModWidth crossed.session ⟨0, 10⟩ = true) ∧
    skipped.seen = [⟨1, 0⟩] ∧ slidingWindowCheck countModWidth skipped.session ⟨0, 0xFFFFFFFF⟩ = false := by
  decide

end Netxduo.Dtls
