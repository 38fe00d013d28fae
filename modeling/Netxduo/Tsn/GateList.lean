import Mathlib

/-! The gate list of the time-aware shaper: the windows of the traffic entries are split into slots, and each slot has
    a gate for every hardware queue. -/

namespace Netxduo.Tsn.GateList

/-! ### The source -/

/-- `NX_SHAPER_TAS_TRAFFIC_CONFIG`. A PCP is an index into `queue_map`. --/
structure Traffic where
  pcp : Fin 8
  trafficControl : Nat
  timeOffset : BitVec 32
  duration : BitVec 32
deriving DecidableEq, Repr

/-- `NX_SHAPER_GCL_LENGTH_MAX` --/
def gclLengthMax : Nat := 32

/-- `NX_SHAPER_TAS_CONFIG`, with `traffic_count` entries. --/
structure TasConfig where
  baseTime : BitVec 64
  cycleTime : BitVec 32
  autoFillStatus : Nat
  traffic : List Traffic
  count : traffic.length ≤ gclLengthMax

/-- A slot of the container: the type of the shaper, and the express queues of one for frame preemption. --/
structure Shaper where
  shaperType : Nat
  expressQueueBitmap : BitVec 32
deriving DecidableEq, Repr

/-- `NX_SHAPER_CONTAINER` --/
structure Container where
  shaper : List (Option Shaper)
  queueMap : Fin 8 → Nat

/-- `NX_SHAPER_GATE_OPERATION_SET` and its siblings. --/
inductive Operation
  | set
  | hold
  | release
deriving DecidableEq, Repr

/-- `NX_SHAPER_TAS_GCL` --/
structure Gcl where
  gateControl : BitVec 32
  duration : Nat
  operation : Operation
deriving DecidableEq, Repr

/-- `NX_SHAPER_TAS_PARAMETER` --/
structure TasParameter where
  baseTime : BitVec 64
  cycleTime : BitVec 32
  cycleTimeExtension : BitVec 32
  gcl : List Gcl
  fpParameter : Option (BitVec 32)

/-- `NX_SHAPER_TRAFFIC_OPEN` --/
def trafficOpen : Nat := 1

/-- `NX_SHAPER_TAS_IDLE_CYCLE_AUTO_FILL_DISABLED` --/
def autoFillDisabled : Nat := 0

/-- `NX_SHAPER_TAS_IDLE_CYCLE_AUTO_FILL_WITH_OPEN` --/
def autoFillWithOpen : Nat := 1

/-- `NX_SHAPER_GCL_AUTO_FILL_FLAG`, which is 0x80000000. --/
def autoFillFlag : BitVec 32 := BitVec.twoPow 32 31

/-- `NX_SHAPER_TYPE_TAS` and `NX_SHAPER_TYPE_FP` --/
def shaperTypeTas : Nat := 1
def shaperTypeFp : Nat := 2

/-- The end of a window, as the 32 bits of the sum. --/
def Traffic.stop (w : Traffic) : Nat := (w.timeOffset + w.duration).toNat

def Traffic.start (w : Traffic) : Nat := w.timeOffset.toNat

/-- The loop for `auto_fill_start`. --/
def autoFillStart (traffic : List Traffic) : Nat := traffic.foldl (fun m w => if w.stop > m then w.stop else m) 0

/-- Where the slots end. --/
def endOf (cfg : TasConfig) : Nat :=
  if cfg.autoFillStatus = autoFillDisabled then autoFillStart cfg.traffic else cfg.cycleTime.toNat

/-- What one entry leaves of the step. --/
def narrow (front last step : Nat) (w : Traffic) : Nat :=
  if w.start > front ∧ step > w.start - front then w.start - front
  else if w.stop > front ∧ step > w.stop - front then w.stop - front
  else if step > last - front then last - front
  else step

def stepAt (cfg : TasConfig) (front : Nat) : Nat :=
  cfg.traffic.foldl (narrow front (endOf cfg)) (endOf cfg - front)

/-- The loop that splits the cycle, for a number of rounds; there is no result where it needs more. --/
def splitLoop (cfg : TasConfig) : Nat → Nat → Option (List Gcl)
  | 0, front => if front < endOf cfg then none else some []
  | rounds + 1, front =>
    if front < endOf cfg then
      (splitLoop cfg rounds (front + stepAt cfg front)).map
        (⟨if front ≥ autoFillStart cfg.traffic then autoFillFlag else 0, stepAt cfg front, .set⟩ :: ·)
    else some []

/-- `(UCHAR)(1 << hw_queue_id)` --/
def queueBit (hwQueueId : Nat) : BitVec 32 := if hwQueueId < 8 then BitVec.twoPow 32 hwQueueId else 0

/-- The inner loop of the second pass. --/
def control (c : Container) (traffic : List Traffic) (left right : Nat) (gate : BitVec 32) : BitVec 32 :=
  traffic.foldl (fun gate w =>
    if right ≤ w.start ∨ left ≥ w.stop then gate
    else if w.trafficControl = trafficOpen then gate ||| queueBit (c.queueMap w.pcp)
    else gate) gate

/-- A slot in the second pass. --/
def configure (c : Container) (cfg : TasConfig) (fp : Option (BitVec 32)) (left : Nat) (g : Gcl) : Gcl :=
  let gate := control c cfg.traffic left (left + g.duration) g.gateControl
  let gate := if gate &&& autoFillFlag ≠ 0 then
      if cfg.autoFillStatus = autoFillWithOpen then 0xFF else gate &&& ~~~autoFillFlag
    else gate
  ⟨gate, g.duration, fp.elim .set fun express => if gate &&& express ≠ 0 then .hold else .release⟩

def configureAll (c : Container) (cfg : TasConfig) (fp : Option (BitVec 32)) : Nat → List Gcl → List Gcl
  | _, [] => []
  | left, g :: gcl => configure c cfg fp left g :: configureAll c cfg fp (left + g.duration) gcl

/-- The last shaper of a type. --/
def findShaper (c : Container) (shaperType : Nat) : Option Shaper :=
  (c.shaper.filterMap id).reverse.find? fun s => s.shaperType = shaperType

/-- What `nx_shaper_tas_parameter_set` gives to the driver, for a number of rounds of its first loop. `none` stands for
    `NX_NOT_FOUND`, the inner one for a loop that needs more rounds. --/
def tasParameterSet (c : Container) (cfg : TasConfig) (rounds : Nat) : Option (Option TasParameter) :=
  (findShaper c shaperTypeTas).map fun _ =>
    let fp := (findShaper c shaperTypeFp).map Shaper.expressQueueBitmap
    (splitLoop cfg rounds 0).map fun gcl =>
      ⟨cfg.baseTime, cfg.cycleTime, cfg.cycleTime / 2, configureAll c cfg fp 0 gcl, fp⟩

/-! ### What is promised -/

/-- The end of a window on the line of all times. --/
def Traffic.past (w : Traffic) : Nat := w.start + w.duration.toNat

def Traffic.Covers (w : Traffic) (t : Nat) : Prop := w.start ≤ t ∧ t < w.past

/-- The end of the last window. --/
def lastEnd (traffic : List Traffic) : Nat := (traffic.map Traffic.past).foldr max 0

/-- A gate list is right: it fits its array, its slots fill the cycle without one across a boundary, a gate is open at a
    time before the end of the last window where an open entry of its queue covers it, and all of them are what the mode
    says behind it. --/
structure Right (c : Container) (cfg : TasConfig) (p : TasParameter) : Prop where
  fits : p.gcl.length ≤ gclLengthMax
  positive : ∀ g ∈ p.gcl, 0 < g.duration
  total : (p.gcl.map Gcl.duration).sum =
    if cfg.autoFillStatus = autoFillDisabled then lastEnd cfg.traffic else cfg.cycleTime.toNat
  whole : ∀ before g after, p.gcl = before ++ g :: after → ∀ w ∈ cfg.traffic, ∀ b, b = w.start ∨ b = w.past →
    ¬((before.map Gcl.duration).sum < b ∧ b < (before.map Gcl.duration).sum + g.duration)
  gate : ∀ before g after, p.gcl = before ++ g :: after →
    ∀ t, (before.map Gcl.duration).sum ≤ t → t < (before.map Gcl.duration).sum + g.duration → t < lastEnd cfg.traffic →
      ∀ q, q < 8 → (g.gateControl.getLsbD q ↔
        ∃ w ∈ cfg.traffic, w.trafficControl = trafficOpen ∧ c.queueMap w.pcp = q ∧ w.Covers t)
  idle : ∀ before g after, p.gcl = before ++ g :: after →
    ∀ t, (before.map Gcl.duration).sum ≤ t → t < (before.map Gcl.duration).sum + g.duration → lastEnd cfg.traffic ≤ t →
      g.gateControl = if cfg.autoFillStatus = autoFillWithOpen then 0xFF else 0

/-- What is promised of a configuration: the loop ends, and the gate list is right. --/
def Promised (c : Container) (cfg : TasConfig) : Prop :=
  ∃ p, (∃ enough, ∀ rounds, enough ≤ rounds → tasParameterSet c cfg rounds = some (some p)) ∧ Right c cfg p

/-- The end of every window is a number of 32 bits. --/
def NoWrap (cfg : TasConfig) : Prop := ∀ w ∈ cfg.traffic, w.past < 2 ^ 32

/-- The different times behind the start of the cycle at which a slot ends. --/
def cuts (cfg : TasConfig) : Finset Nat :=
  let last := if cfg.autoFillStatus = autoFillDisabled then lastEnd cfg.traffic else cfg.cycleTime.toNat
  ((cfg.traffic.flatMap fun w => [w.start, w.past]) ++ [last]).toFinset.filter fun b => 0 < b ∧ b ≤ last

/-! ### The steps -/

section
variable {c : Container} {cfg : TasConfig} {front last step : Nat}

theorem narrow_le (w : Traffic) : narrow front last step w ≤ step := by
  unfold narrow
  split_ifs <;> omega

theorem narrow_pos (w : Traffic) (hlast : front < last) (h : 0 < step) : 0 < narrow front last step w := by
  unfold narrow
  split_ifs <;> omega

/-- The step is positive and does not lead over the end. --/
theorem foldl_narrow : ∀ (l : List Traffic) {step : Nat}, front < last → 0 < step →
    0 < l.foldl (narrow front last) step ∧ l.foldl (narrow front last) step ≤ step
  | [], _, _, h => ⟨h, le_refl _⟩
  | w :: l, step, hlast, h => by
    obtain ⟨hpos, hle⟩ := foldl_narrow l hlast (narrow_pos w hlast h)
    exact ⟨hpos, hle.trans (narrow_le w)⟩

theorem stepAt_spec (h : front < endOf cfg) : 0 < stepAt cfg front ∧ front + stepAt cfg front ≤ endOf cfg := by
  obtain ⟨hpos, hle⟩ := @foldl_narrow front (endOf cfg) cfg.traffic (endOf cfg - front) h (by omega)
  refine ⟨hpos, ?_⟩
  unfold stepAt
  omega

/-- The loop ends, for every configuration. --/
theorem splitLoop_ends : ∀ {rounds front : Nat}, endOf cfg - front ≤ rounds → ∃ gcl, ∀ more, rounds ≤ more →
    splitLoop cfg more front = some gcl := by
  intro rounds
  induction rounds with
  | zero =>
    intro front h
    refine ⟨[], fun more _ => ?_⟩
    cases more <;> rw [splitLoop, if_neg (by omega)]
  | succ rounds ih =>
    intro front h
    by_cases hfront : front < endOf cfg
    · obtain ⟨hpos, hle⟩ := stepAt_spec hfront
      obtain ⟨gcl, hgcl⟩ := ih (show endOf cfg - (front + stepAt cfg front) ≤ rounds by omega)
      refine ⟨⟨if front ≥ autoFillStart cfg.traffic then autoFillFlag else 0, stepAt cfg front, .set⟩ :: gcl,
        fun more hmore => ?_⟩
      obtain ⟨more, rfl⟩ : ∃ m, more = m + 1 := ⟨more - 1, by omega⟩
      rw [splitLoop, if_pos hfront, hgcl more (by omega)]
      rfl
    · refine ⟨[], fun more _ => ?_⟩
      cases more <;> rw [splitLoop, if_neg hfront]

theorem foldl_narrow_le : ∀ (l : List Traffic) {step : Nat}, l.foldl (narrow front last) step ≤ step
  | [], _ => le_refl _
  | w :: l, _ => (foldl_narrow_le l).trans (narrow_le w)

/-- No entry leaves a step that leads over one of its boundaries. --/
theorem narrow_first {w : Traffic} (hw : w.start ≤ w.stop) {b : Nat} (hb : b = w.start ∨ b = w.stop)
    (hfront : front < b) : narrow front last step w ≤ b - front := by
  unfold narrow
  rcases hb with rfl | rfl <;> split_ifs <;> omega

/-- What an entry leaves is the step, or leads to one of its boundaries. --/
theorem narrow_at (w : Traffic) (h : step ≤ last - front) : narrow front last step w = step ∨
    ∃ b, (b = w.start ∨ b = w.stop) ∧ front < b ∧ narrow front last step w = b - front := by
  unfold narrow
  split_ifs with hstart hstop hlast
  · exact Or.inr ⟨_, Or.inl rfl, hstart.1, rfl⟩
  · exact Or.inr ⟨_, Or.inr rfl, hstop.1, rfl⟩
  · omega
  · exact Or.inl rfl

/-- A step ends at the first boundary behind it. --/
theorem foldl_narrow_first : ∀ (l : List Traffic) {step : Nat}, (∀ w ∈ l, w.start ≤ w.stop) → step ≤ last - front →
    (∀ w ∈ l, ∀ b, b = w.start ∨ b = w.stop → front < b → l.foldl (narrow front last) step ≤ b - front) ∧
      (l.foldl (narrow front last) step = step ∨
        ∃ w ∈ l, ∃ b, (b = w.start ∨ b = w.stop) ∧ front < b ∧ l.foldl (narrow front last) step = b - front)
  | [], _, _, _ => ⟨fun _ hw => absurd hw List.not_mem_nil, Or.inl rfl⟩
  | w :: l, step, hwraps, h => by
    have hw := hwraps w List.mem_cons_self
    obtain ⟨hall, hat⟩ := foldl_narrow_first l
      (fun x hx => hwraps x (List.mem_cons_of_mem _ hx)) ((narrow_le w).trans h)
    refine ⟨fun x hx b hb hfront => ?_, ?_⟩
    · rcases List.mem_cons.mp hx with rfl | hx
      · exact (foldl_narrow_le l).trans (narrow_first hw hb hfront)
      · exact hall x hx b hb hfront
    · rcases hat with hat | ⟨x, hx, b, hb, hfront, hat⟩
      · rcases narrow_at w h with hsame | ⟨b, hb, hfront, hto⟩
        · exact Or.inl (hat.trans hsame)
        · exact Or.inr ⟨w, List.mem_cons_self, b, hb, hfront, hat.trans hto⟩
      · exact Or.inr ⟨x, List.mem_cons_of_mem _ hx, b, hb, hfront, hat⟩

/-! ### Windows that do not wrap -/

theorem NoWrap.stop (h : NoWrap cfg) {w : Traffic} (hw : w ∈ cfg.traffic) : w.stop = w.past := by
  have := h w hw
  unfold Traffic.past Traffic.start at this
  unfold Traffic.stop Traffic.past Traffic.start
  rw [BitVec.toNat_add, Nat.mod_eq_of_lt this]

theorem Traffic.start_le_past (w : Traffic) : w.start ≤ w.past := Nat.le_add_right _ _

theorem foldl_max_eq : ∀ {l : List Traffic} {m : Nat}, (∀ w ∈ l, w.stop = w.past) →
    l.foldl (fun m w => if w.stop > m then w.stop else m) m = max m (lastEnd l)
  | [], _, _ => (max_eq_left (Nat.zero_le _)).symm
  | w :: l, m, h => by
    rw [List.foldl_cons, foldl_max_eq fun x hx => h x (List.mem_cons_of_mem _ hx), h w List.mem_cons_self]
    show _ = max m (max w.past (lastEnd l))
    split <;> omega

theorem NoWrap.autoFillStart (h : NoWrap cfg) : autoFillStart cfg.traffic = lastEnd cfg.traffic := by
  rw [GateList.autoFillStart, foldl_max_eq fun w hw => h.stop hw, Nat.zero_max]

theorem NoWrap.endOf (h : NoWrap cfg) :
    endOf cfg = if cfg.autoFillStatus = autoFillDisabled then lastEnd cfg.traffic else cfg.cycleTime.toNat := by
  rw [GateList.endOf, h.autoFillStart]

theorem past_le_lastEnd : ∀ {l : List Traffic} {w : Traffic}, w ∈ l → w.past ≤ lastEnd l
  | x :: l, w, hw => by
    show _ ≤ max x.past (lastEnd l)
    rcases List.mem_cons.mp hw with rfl | hw
    · exact le_max_left _ _
    · exact (past_le_lastEnd hw).trans (le_max_right _ _)

theorem lastEnd_le : ∀ {l : List Traffic} {n : Nat}, (∀ w ∈ l, w.past ≤ n) → lastEnd l ≤ n
  | [], _, _ => Nat.zero_le _
  | w :: _, _, h => max_le (h w List.mem_cons_self) (lastEnd_le fun x hx => h x (List.mem_cons_of_mem _ hx))

/-- The last end is that of a window, where there is one with an end. --/
theorem lastEnd_mem : ∀ {l : List Traffic}, 0 < lastEnd l → ∃ w ∈ l, w.past = lastEnd l
  | w :: l, h => by
    have hmax : lastEnd (w :: l) = max w.past (lastEnd l) := rfl
    rcases le_total (lastEnd l) w.past with hle | hle
    · exact ⟨w, List.mem_cons_self, by rw [hmax, max_eq_left hle]⟩
    · rw [hmax, max_eq_right hle] at h ⊢
      obtain ⟨x, hx, hpast⟩ := lastEnd_mem h
      exact ⟨x, List.mem_cons_of_mem _ hx, hpast⟩

theorem mem_cuts (h : NoWrap cfg) {b : Nat} : b ∈ cuts cfg ↔
    ((∃ w ∈ cfg.traffic, b = w.start ∨ b = w.stop) ∨ b = endOf cfg) ∧ 0 < b ∧ b ≤ endOf cfg := by
  have hmem : b ∈ (cfg.traffic.flatMap fun w => [w.start, w.past]) ↔ ∃ w ∈ cfg.traffic, b = w.start ∨ b = w.stop := by
    simp only [List.mem_flatMap, List.mem_cons, List.not_mem_nil, or_false]
    exact ⟨fun ⟨w, hw, hb⟩ => ⟨w, hw, by rwa [h.stop hw]⟩, fun ⟨w, hw, hb⟩ => ⟨w, hw, by rwa [← h.stop hw]⟩⟩
  rw [cuts, ← h.endOf]
  simp only [Finset.mem_filter, List.mem_toFinset, List.mem_append, List.mem_singleton, hmem]

/-- The next slot ends at the least cut behind its start. --/
theorem step_cut (h : NoWrap cfg) (hfront : front < endOf cfg) :
    front + stepAt cfg front ∈ cuts cfg ∧ ∀ b ∈ cuts cfg, front < b → front + stepAt cfg front ≤ b := by
  obtain ⟨hpos, hle⟩ := stepAt_spec hfront
  obtain ⟨hall, hat⟩ := @foldl_narrow_first front (endOf cfg) cfg.traffic (endOf cfg - front)
    (fun w hw => by rw [h.stop hw]; exact w.start_le_past) (le_refl (endOf cfg - front))
  refine ⟨(mem_cuts h).mpr ⟨?_, by omega, hle⟩, fun b hb hbehind => ?_⟩
  · rcases hat with hat | ⟨w, hw, b, hb, hbehind, hat⟩
    · right
      show front + cfg.traffic.foldl _ _ = _
      omega
    · left
      refine ⟨w, hw, ?_⟩
      have : front + stepAt cfg front = b := by
        show front + cfg.traffic.foldl _ _ = _
        omega
      rwa [this]
  · obtain ⟨⟨w, hw, hb⟩ | rfl, -, -⟩ := (mem_cuts h).mp hb
    · have := hall w hw b hb hbehind
      show front + cfg.traffic.foldl _ _ ≤ _
      omega
    · exact hle

/-- The slots from a time on: as many as there are cuts behind it, and each from one cut to the next. --/
theorem splitLoop_spec (h : NoWrap cfg) : ∀ {rounds front : Nat} {gcl : List Gcl}, front ≤ endOf cfg →
    splitLoop cfg rounds front = some gcl →
    gcl.length = ((cuts cfg).filter fun b => front < b).card ∧ front + (gcl.map Gcl.duration).sum = endOf cfg ∧
      ∀ before g after, gcl = before ++ g :: after →
        0 < g.duration ∧ front + (before.map Gcl.duration).sum + g.duration ≤ endOf cfg ∧
          (∀ b ∈ cuts cfg, ¬(front + (before.map Gcl.duration).sum < b ∧
            b < front + (before.map Gcl.duration).sum + g.duration)) ∧
          g.gateControl = if front + (before.map Gcl.duration).sum ≥ autoFillStart cfg.traffic then autoFillFlag
            else 0 := by
  intro rounds
  have hdone : ∀ front, front = endOf cfg → ((cuts cfg).filter fun b => front < b).card = 0 := fun front hfront => by
    refine Finset.card_eq_zero.mpr (Finset.filter_eq_empty_iff.mpr fun b hb => ?_)
    have := ((mem_cuts h).mp hb).2.2
    omega
  induction rounds with
  | zero =>
    intro front gcl hfront hgcl
    rw [splitLoop] at hgcl
    split at hgcl
    · cases hgcl
    obtain rfl := Option.some.inj hgcl
    have hfront : front = endOf cfg := by omega
    exact ⟨(hdone front hfront).symm, hfront, fun before g after he => by cases before <;> cases he⟩
  | succ rounds ih =>
    intro front gcl hfront hgcl
    rw [splitLoop] at hgcl
    split at hgcl
    · rename_i hlt
      rw [Option.map_eq_some_iff] at hgcl
      obtain ⟨rest, hrest, rfl⟩ := hgcl
      obtain ⟨hpos, hle⟩ := stepAt_spec hlt
      obtain ⟨hcut, hfirst⟩ := step_cut h hlt
      obtain ⟨hlength, hsum, hslots⟩ := ih hle hrest
      refine ⟨?_, ?_, fun before g after he => ?_⟩
      · have hset : (cuts cfg).filter (fun b => front < b) =
            insert (front + stepAt cfg front) ((cuts cfg).filter fun b => front + stepAt cfg front < b) := by
          ext b
          simp only [Finset.mem_filter, Finset.mem_insert]
          refine ⟨fun ⟨hb, hbehind⟩ => ?_, ?_⟩
          · have := hfirst b hb hbehind
            rcases this.lt_or_eq with hlt | heq
            · exact Or.inr ⟨hb, hlt⟩
            · exact Or.inl heq.symm
          · rintro (rfl | ⟨hb, hbehind⟩)
            · exact ⟨hcut, by omega⟩
            · exact ⟨hb, by omega⟩
        rw [List.length_cons, hlength, hset, Finset.card_insert_of_notMem (by simp)]
      · rw [List.map_cons, List.sum_cons, ← Nat.add_assoc]
        exact hsum
      · cases before with
        | nil =>
          obtain ⟨rfl, -⟩ := List.cons.inj he
          refine ⟨hpos, ?_, fun b hb => ?_, ?_⟩
          · simpa using hle
          · rintro ⟨hlow, hhigh⟩
            have := hfirst b hb (by simpa using hlow)
            simp only [List.map_nil, List.sum_nil] at hhigh
            omega
          · simp
        | cons first before =>
          obtain ⟨rfl, hrestEq⟩ := List.cons.inj he
          have := hslots before g after hrestEq
          simpa only [List.map_cons, List.sum_cons, Nat.add_assoc] using this
    · obtain rfl := Option.some.inj hgcl
      have hfront : front = endOf cfg := by omega
      exact ⟨(hdone front hfront).symm, hfront, fun before g after he => by cases before <;> cases he⟩

/-- The slots fill the time up to the end, for every configuration. --/
theorem splitLoop_sum : ∀ {rounds front : Nat} {gcl : List Gcl}, front ≤ endOf cfg →
    splitLoop cfg rounds front = some gcl → front + (gcl.map Gcl.duration).sum = endOf cfg := by
  intro rounds
  induction rounds with
  | zero =>
    intro front gcl hfront hgcl
    rw [splitLoop] at hgcl
    split at hgcl
    · cases hgcl
    · obtain rfl := Option.some.inj hgcl
      simp only [List.map_nil, List.sum_nil]
      omega
  | succ rounds ih =>
    intro front gcl hfront hgcl
    rw [splitLoop] at hgcl
    split at hgcl
    · rename_i hlt
      rw [Option.map_eq_some_iff] at hgcl
      obtain ⟨rest, hrest, rfl⟩ := hgcl
      rw [List.map_cons, List.sum_cons, ← Nat.add_assoc]
      exact ih (stepAt_spec hlt).2 hrest
    · obtain rfl := Option.some.inj hgcl
      simp only [List.map_nil, List.sum_nil]
      omega

/-! ### The gates -/

theorem getLsbD_queueBit {hwQueueId q : Nat} : (queueBit hwQueueId).getLsbD q ↔ hwQueueId < 8 ∧ hwQueueId = q := by
  unfold queueBit
  split
  · rename_i h
    rw [BitVec.getLsbD_twoPow]
    simp only [Bool.and_eq_true, decide_eq_true_eq]
    omega
  · rename_i h
    simp [h]

/-- A gate is open where it was, or for an open entry that is not passed over. --/
theorem getLsbD_control {left right q : Nat} : ∀ {l : List Traffic} {gate : BitVec 32},
    (control c l left right gate).getLsbD q ↔ gate.getLsbD q ∨ ∃ w ∈ l, w.start < right ∧ left < w.stop ∧
      w.trafficControl = trafficOpen ∧ (queueBit (c.queueMap w.pcp)).getLsbD q
  | [], gate => by simp [control]
  | w :: l, gate => by
    have hstep : control c (w :: l) left right gate = control c l left right
        (if right ≤ w.start ∨ left ≥ w.stop then gate
          else if w.trafficControl = trafficOpen then gate ||| queueBit (c.queueMap w.pcp) else gate) := rfl
    rw [hstep, getLsbD_control, List.exists_mem_cons_iff, ← or_assoc]
    refine or_congr_left ?_
    split_ifs with hskip hopen
    · exact ⟨Or.inl, fun h => h.resolve_right fun ⟨h₁, h₂, _⟩ => by omega⟩
    · rw [not_or, not_le, not_le] at hskip
      rw [BitVec.getLsbD_or, Bool.or_eq_true]
      exact or_congr_right ⟨fun h => ⟨hskip.1, hskip.2, hopen, h⟩, fun h => h.2.2.2⟩
    · exact ⟨Or.inl, fun h => h.resolve_right fun ⟨_, _, h₃, _⟩ => hopen h₃⟩

theorem and_autoFillFlag {gate : BitVec 32} : gate &&& autoFillFlag ≠ 0 ↔ gate.getLsbD 31 := by
  unfold autoFillFlag
  rw [BitVec.and_twoPow]
  split
  · rename_i h
    exact iff_of_true (by decide) h
  · rename_i h
    exact iff_of_false (by simp) h

/-- The second pass keeps the slots, and configures each one for its place. --/
theorem configureAll_split {fp : Option (BitVec 32)} : ∀ {gcl : List Gcl} {left : Nat} {before : List Gcl} {g : Gcl}
    {after : List Gcl}, configureAll c cfg fp left gcl = before ++ g :: after →
    ∃ before' g' after', gcl = before' ++ g' :: after' ∧ before.map Gcl.duration = before'.map Gcl.duration ∧
      g = configure c cfg fp (left + (before.map Gcl.duration).sum) g'
  | [], _, before, _, _, h => by cases before <;> cases h
  | g' :: gcl, left, before, g, after, h => by
    rw [configureAll] at h
    cases before with
    | nil =>
      obtain ⟨rfl, -⟩ := List.cons.inj h
      exact ⟨[], g', gcl, rfl, rfl, rfl⟩
    | cons first before =>
      obtain ⟨rfl, hrest⟩ := List.cons.inj h
      obtain ⟨before', x, after', rfl, hsame, hg⟩ := configureAll_split hrest
      refine ⟨g' :: before', x, after', rfl, ?_, ?_⟩
      · rw [List.map_cons, List.map_cons, hsame]
        rfl
      · rw [hg, List.map_cons, List.sum_cons, Nat.add_assoc]
        rfl

theorem durations_configureAll {fp : Option (BitVec 32)} : ∀ {gcl : List Gcl} {left : Nat},
    (configureAll c cfg fp left gcl).map Gcl.duration = gcl.map Gcl.duration
  | [], _ => rfl
  | g :: gcl, left => by
    rw [configureAll, List.map_cons, List.map_cons, durations_configureAll]
    rfl

/-- The gates of a slot between two boundaries. --/
theorem configure_gate (h : NoWrap cfg) {fp : Option (BitVec 32)} {left : Nat} {g : Gcl}
    (hgate : g.gateControl = if left ≥ lastEnd cfg.traffic then autoFillFlag else 0) :
    (left < lastEnd cfg.traffic → ∀ q, q < 8 → ((configure c cfg fp left g).gateControl.getLsbD q ↔
      ∃ w ∈ cfg.traffic, w.trafficControl = trafficOpen ∧ c.queueMap w.pcp = q ∧ w.start < left + g.duration ∧
        left < w.past)) ∧
    (lastEnd cfg.traffic ≤ left →
      (configure c cfg fp left g).gateControl = if cfg.autoFillStatus = autoFillWithOpen then 0xFF else 0) := by
  have hbit : ∀ q, (control c cfg.traffic left (left + g.duration) g.gateControl).getLsbD q ↔
      g.gateControl.getLsbD q ∨ ∃ w ∈ cfg.traffic, w.start < left + g.duration ∧ left < w.past ∧
        w.trafficControl = trafficOpen ∧ c.queueMap w.pcp < 8 ∧ c.queueMap w.pcp = q := fun q => by
    rw [getLsbD_control]
    refine or_congr_right ⟨fun ⟨w, hw, h₁, h₂, h₃, h₄⟩ => ?_, fun ⟨w, hw, h₁, h₂, h₃, h₄⟩ => ?_⟩
    · rw [h.stop hw] at h₂
      exact ⟨w, hw, h₁, h₂, h₃, getLsbD_queueBit.mp h₄⟩
    · rw [← h.stop hw] at h₂
      exact ⟨w, hw, h₁, h₂, h₃, getLsbD_queueBit.mpr h₄⟩
  refine ⟨fun hleft q hq => ?_, fun hleft => ?_⟩
  · rw [if_neg (by omega)] at hgate
    have hflag : ¬control c cfg.traffic left (left + g.duration) g.gateControl &&& autoFillFlag ≠ 0 := by
      rw [and_autoFillFlag, hbit, hgate]
      rintro (h | ⟨w, -, -, -, -, h₁, h₂⟩)
      · simp at h
      · omega
    show (if _ then _ else _ : BitVec 32).getLsbD q ↔ _
    rw [if_neg hflag, hbit, hgate]
    simp only [BitVec.ofNat_eq_ofNat, BitVec.getLsbD_zero, Bool.false_eq_true, false_or]
    exact ⟨fun ⟨w, hw, h₁, h₂, h₃, _, h₅⟩ => ⟨w, hw, h₃, h₅, h₁, h₂⟩,
      fun ⟨w, hw, h₃, h₅, h₁, h₂⟩ => ⟨w, hw, h₁, h₂, h₃, by omega, h₅⟩⟩
  · rw [if_pos hleft] at hgate
    -- Behind the last window every entry is passed over.
    have hsame : control c cfg.traffic left (left + g.duration) g.gateControl = autoFillFlag := by
      refine BitVec.eq_of_getLsbD_eq fun q _ => Bool.eq_iff_iff.mpr ?_
      rw [hbit, hgate]
      refine or_iff_left_of_imp fun ⟨w, hw, _, h₂, _⟩ => ?_
      have := past_le_lastEnd hw
      omega
    show (if _ then _ else _ : BitVec 32) = _
    rw [hsame, if_pos (by decide)]
    split
    · rfl
    · decide

/-! ### The gate list -/

/-- With every end in 32 bits, a gate list comes out that is right but for its length, which is the number of cuts. --/
theorem tasParameterSet_right (h : NoWrap cfg) (htas : (findShaper c shaperTypeTas).isSome) :
    ∃ p, (∃ enough, ∀ rounds, enough ≤ rounds → tasParameterSet c cfg rounds = some (some p)) ∧
      p.gcl.length = (cuts cfg).card ∧ (p.gcl.length ≤ gclLengthMax → Right c cfg p) := by
  obtain ⟨s, hs⟩ := Option.isSome_iff_exists.mp htas
  have hends : ∃ gcl, ∀ more, endOf cfg ≤ more → splitLoop cfg more 0 = some gcl := splitLoop_ends (Nat.sub_le _ _)
  obtain ⟨gcl, hgcl⟩ := hends
  obtain ⟨hlength, hsum, hslots⟩ := splitLoop_spec h (Nat.zero_le _) (hgcl (endOf cfg) (le_refl _))
  have hdurations : (configureAll c cfg ((findShaper c shaperTypeFp).map Shaper.expressQueueBitmap) 0 gcl).map
      Gcl.duration = gcl.map Gcl.duration := durations_configureAll
  refine ⟨⟨cfg.baseTime, cfg.cycleTime, cfg.cycleTime / 2,
    configureAll c cfg ((findShaper c shaperTypeFp).map Shaper.expressQueueBitmap) 0 gcl,
    (findShaper c shaperTypeFp).map Shaper.expressQueueBitmap⟩, ⟨endOf cfg, fun rounds hrounds => ?_⟩,
      ?_, fun hfits => ?_⟩
  · rw [tasParameterSet, hs, hgcl rounds hrounds]
    rfl
  · have hall : (cuts cfg).filter (fun b => 0 < b) = cuts cfg :=
      Finset.filter_true_of_mem fun b hb => ((mem_cuts h).mp hb).2.1
    rw [hall] at hlength
    rw [← hlength]
    simpa only [List.length_map] using congrArg List.length hdurations
  have hslot : ∀ before g after,
      configureAll c cfg ((findShaper c shaperTypeFp).map Shaper.expressQueueBitmap) 0 gcl = before ++ g :: after →
      ∃ g' : Gcl, 0 < g'.duration ∧ (before.map Gcl.duration).sum + g'.duration ≤ endOf cfg ∧
        (∀ b ∈ cuts cfg, ¬((before.map Gcl.duration).sum < b ∧ b < (before.map Gcl.duration).sum + g'.duration)) ∧
        g'.gateControl = (if (before.map Gcl.duration).sum ≥ lastEnd cfg.traffic then autoFillFlag else 0) ∧
        g = configure c cfg ((findShaper c shaperTypeFp).map Shaper.expressQueueBitmap)
          (before.map Gcl.duration).sum g' := by
    intro before g after he
    obtain ⟨before', g', after', hsplit, hsame, hg⟩ := configureAll_split he
    obtain ⟨hpos, hle, hcuts, hgate⟩ := hslots before' g' after' hsplit
    rw [Nat.zero_add] at hg hle hcuts hgate
    rw [← hsame] at hle hcuts hgate
    rw [h.autoFillStart] at hgate
    exact ⟨g', hpos, hle, hcuts, hgate, hg⟩
  have hwhole : ∀ (left : Nat) (g' : Gcl), left + g'.duration ≤ endOf cfg →
      (∀ b ∈ cuts cfg, ¬(left < b ∧ b < left + g'.duration)) →
      ∀ w ∈ cfg.traffic, ∀ b, b = w.start ∨ b = w.past → ¬(left < b ∧ b < left + g'.duration) := by
    intro left g' hle hcuts w hw b hb hin
    rw [← h.stop hw] at hb
    exact hcuts b ((mem_cuts h).mpr ⟨Or.inl ⟨w, hw, hb⟩, by omega, by omega⟩) hin
  refine ⟨hfits, fun g hg => ?_, ?_, fun before g after he => ?_, fun before g after he t hlow hhigh hlast q hq => ?_,
    fun before g after he t hlow hhigh hlast => ?_⟩
  · obtain ⟨before, after, he⟩ := List.append_of_mem hg
    obtain ⟨g', hpos, -, -, -, rfl⟩ := hslot before g after he
    exact hpos
  · rw [hdurations, ← h.endOf, ← hsum, Nat.zero_add]
  · obtain ⟨g', -, hle, hcuts, -, rfl⟩ := hslot before g after he
    exact hwhole _ g' hle hcuts
  · obtain ⟨g', -, hle, hcuts, hgate, rfl⟩ := hslot before g after he
    have hno := hwhole _ g' hle hcuts
    have hhigh : t < (before.map Gcl.duration).sum + g'.duration := hhigh
    rw [(configure_gate h hgate).1 (by omega) q hq]
    refine exists_congr fun w => and_congr_right fun hw => and_congr_right fun _ => and_congr_right fun _ => ?_
    have hstart := hno w hw w.start (Or.inl rfl)
    have hpast := hno w hw w.past (Or.inr rfl)
    unfold Traffic.Covers
    omega
  · obtain ⟨g', -, hle, hcuts, hgate, rfl⟩ := hslot before g after he
    have hno := hwhole _ g' hle hcuts
    have hhigh : t < (before.map Gcl.duration).sum + g'.duration := hhigh
    refine (configure_gate h hgate).2 ?_
    -- The end of the last window is a boundary, so the slot is behind it as a whole.
    by_contra hbefore
    obtain ⟨w, hw, hpast⟩ := lastEnd_mem (l := cfg.traffic) (by omega)
    exact hno w hw w.past (Or.inr rfl) (by omega)

theorem foldl_max_lt : ∀ (l : List Traffic) {m : Nat}, m < 2 ^ 32 →
    l.foldl (fun m w => if w.stop > m then w.stop else m) m < 2 ^ 32
  | [], _, h => h
  | w :: l, m, h => foldl_max_lt l (by
      dsimp only
      split
      · exact w.timeOffset.add w.duration |>.isLt
      · exact h)

/-- Where the slots end at the last window, the sum of a right list is a number of 32 bits. --/
theorem noWrap_of_right (hmode : cfg.autoFillStatus = autoFillDisabled) (h : Promised c cfg) : NoWrap cfg := by
  obtain ⟨p, ⟨enough, hp⟩, hright⟩ := h
  have hset := hp enough (le_refl _)
  unfold tasParameterSet at hset
  rw [Option.map_eq_some_iff] at hset
  obtain ⟨s, -, hset⟩ := hset
  rw [Option.map_eq_some_iff] at hset
  obtain ⟨gcl, hgcl, rfl⟩ := hset
  have hsum := splitLoop_sum (Nat.zero_le _) hgcl
  have htotal := hright.total
  rw [durations_configureAll, if_pos hmode] at htotal
  have hlt : endOf cfg < 2 ^ 32 := by
    rw [endOf, if_pos hmode]
    exact foldl_max_lt _ (by decide)
  intro w hw
  have := past_le_lastEnd hw
  omega

/-- With every end in 32 bits only the number of cuts decides. --/
theorem promised_of_noWrap (h : NoWrap cfg) (htas : (findShaper c shaperTypeTas).isSome) :
    Promised c cfg ↔ (cuts cfg).card ≤ gclLengthMax := by
  obtain ⟨p, ⟨enough, hp⟩, hlength, hright⟩ := tasParameterSet_right h htas
  refine ⟨fun ⟨p', ⟨enough', hp'⟩, hright'⟩ => ?_, fun hcount => ⟨p, ⟨enough, hp⟩, hright (by rwa [hlength])⟩⟩
  have hboth := (hp (max enough enough') (le_max_left _ _)).symm.trans (hp' (max enough enough') (le_max_right _ _))
  obtain rfl := Option.some.inj (Option.some.inj hboth)
  rw [← hlength]
  exact hright'.fits

/-- For every configuration the function accepts. With every end in 32 bits what is promised holds exactly where there
    are no more cuts than the array has places; without auto-fill it fails where an end is not in 32 bits. --/
theorem promised_iff (c : Container) (cfg : TasConfig) (htas : (findShaper c shaperTypeTas).isSome) :
    (NoWrap cfg → (Promised c cfg ↔ (cuts cfg).card ≤ gclLengthMax)) ∧
      (cfg.autoFillStatus = autoFillDisabled →
        (Promised c cfg ↔ NoWrap cfg ∧ (cuts cfg).card ≤ gclLengthMax)) := by
  refine ⟨fun h => promised_of_noWrap h htas, fun hmode => ⟨fun h => ?_, fun ⟨h, hcount⟩ =>
    (promised_of_noWrap h htas).mpr hcount⟩⟩
  have hends := noWrap_of_right hmode h
  exact ⟨hends, (promised_of_noWrap hends htas).mp h⟩

/-- The example of the source: two windows in a cycle of 1000. --/
def twoWindows : TasConfig :=
  ⟨0, 1000, 2, [⟨3, 1, 0, 200⟩, ⟨2, 1, 0, 300⟩], by decide⟩

/-- A container with a time-aware shaper, and the queue of each PCP by its own number. --/
def plainContainer : Container := ⟨[some ⟨1, 0⟩, none, none], fun pcp => pcp.val⟩

theorem promised_iff_twoWindows :
    (NoWrap twoWindows → (Promised plainContainer twoWindows ↔ (cuts twoWindows).card ≤ gclLengthMax)) ∧
      (twoWindows.autoFillStatus = autoFillDisabled →
        (Promised plainContainer twoWindows ↔ NoWrap twoWindows ∧ (cuts twoWindows).card ≤ gclLengthMax)) :=
  promised_iff plainContainer twoWindows (by decide)

example : ((tasParameterSet plainContainer twoWindows 10).join.map fun p =>
    p.gcl.map fun g => (g.gateControl, g.duration)) = some [(12, 200), (4, 100), (0, 700)] := by
  decide +kernel

/-- Seventeen windows of length 1 with gaps of 1 between them. --/
def seventeenWindows : TasConfig :=
  ⟨0, 1000, 0, (List.range 17).map fun i => ⟨0, 1, BitVec.ofNat 32 (2 * i), 1⟩, by decide⟩

/-- They make a slot too many for the array. --/
theorem seventeenWindows_too_many : ¬∀ (c : Container) (cfg : TasConfig), (findShaper c shaperTypeTas).isSome →
    Promised c cfg := by
  intro h
  have hends : NoWrap seventeenWindows :=
    (by decide +kernel : ∀ w ∈ seventeenWindows.traffic, w.past < 2 ^ 32)
  have hcount := (promised_of_noWrap hends (by decide)).mp (h plainContainer seventeenWindows (by decide))
  exact absurd hcount (by decide +kernel)

end

end Netxduo.Tsn.GateList
