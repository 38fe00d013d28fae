import Mathlib
import Netxduo.Tcp.SackReport

/-! The decoder of the SACK option, `_nx_tcp_sack_option_get`: a walk over the octets of the peer that reads none beyond
    the option area, and undoes what `_nx_tcp_sack_option_build` writes. -/

namespace Netxduo
open Serial Spans

/-! ### Reading -/

/-- `_nx_tcp_sack_sequence_read`, where the four octets are there. --/
def sequenceReadAt (area : List UInt8) (i : Nat) : Option ULONG := do
  let first ← area[i]?
  let second ← area[i + 1]?
  let third ← area[i + 2]?
  let fourth ← area[i + 3]?
  return sequenceRead [first, second, third, fourth]

/-- The walk from the octet `i` on, with `size` octets left: where the option stands and how much is left there. Nothing
    comes out of a read beyond the area, nor where the rounds do not suffice. --/
def sackOptionWalk (area : List UInt8) : Nat → Nat → Nat → Option (Option (Nat × Nat))
  | 0, _, _ => none
  | rounds + 1, i, size =>
    if size < 2 then some none
    else do
      let kind ← area[i]?
      if kind = tcpSackKind then some (some (i, size))
      else if kind = tcpEolKind then some none
      else if kind = tcpNopKind then sackOptionWalk area rounds (i + 1) (size - 1)
      else do
        let length ← area[i + 1]?
        if length = 0 ∨ length.toNat > size then some none
        else sackOptionWalk area rounds (i + length.toNat) (size - length.toNat)

/-- The edges of block `n` of the option at `i`. --/
def sackBlockAt (area : List UInt8) (i n : Nat) : Option SackBlock := do
  let left ← sequenceReadAt area (i + 2 + 8 * n)
  let right ← sequenceReadAt area (i + 6 + 8 * n)
  return ⟨left, right⟩

/-- The edges of all blocks, where the length is one of an option. --/
def sackEdgesAt (area : List UInt8) (i size : Nat) : Option (Option (List SackBlock)) := do
  let length ← area[i + 1]?
  if length.toNat < 10 ∨ length.toNat > size ∨ (length.toNat - 2) % 8 ≠ 0 then some none
  else do
    let edges ← (List.range (min ((length.toNat - 2) / 8) sackMaxBlocks)).mapM (sackBlockAt area i)
    return some edges

/-- What `_nx_tcp_sack_option_get` reads of the area, with every read checked. --/
def sackOptionRead (rounds : Nat) (area : List UInt8) : Option (Option (List SackBlock)) := do
  match ← sackOptionWalk area rounds 0 area.length with
  | some (i, size) => sackEdgesAt area i size
  | none => some none

/-! ### No read beyond the area -/

section
variable {area : List UInt8} {rounds rounds' i size : Nat}

theorem sequenceReadAt_eq (h : i + 4 ≤ area.length) : sequenceReadAt area i = some (sequenceRead (area.drop i)) := by
  have h₀ : area[i]? = some (area.getD i 0) := by
    rw [List.getD_eq_getElem?_getD, List.getElem?_eq_getElem (by omega)]
    rfl
  have h₁ : area[i + 1]? = some (area.getD (i + 1) 0) := by
    rw [List.getD_eq_getElem?_getD, List.getElem?_eq_getElem (by omega)]
    rfl
  have h₂ : area[i + 2]? = some (area.getD (i + 2) 0) := by
    rw [List.getD_eq_getElem?_getD, List.getElem?_eq_getElem (by omega)]
    rfl
  have h₃ : area[i + 3]? = some (area.getD (i + 3) 0) := by
    rw [List.getD_eq_getElem?_getD, List.getElem?_eq_getElem (by omega)]
    rfl
  have hdrop : ∀ k, (area.drop i).getD k 0 = area.getD (i + k) 0 := fun k => by
    rw [List.getD_eq_getElem?_getD, List.getElem?_drop, List.getD_eq_getElem?_getD]
  unfold sequenceReadAt
  rw [h₀, h₁, h₂, h₃]
  simp only [Option.bind_eq_bind, Option.bind_some]
  unfold sequenceRead
  simp only [hdrop, Nat.add_zero]
  rfl

theorem exists_two {l : List UInt8} (h : 2 ≤ l.length) : ∃ a b rest, l = a :: b :: rest := by
  cases l with
  | nil => cases h
  | cons a l =>
    cases l with
    | nil => exact absurd h (by simp)
    | cons b rest => exact ⟨a, b, rest, rfl⟩

theorem sackOptionFind_short {l : List UInt8} {n : Nat} (h : l.length < 2) : sackOptionFind n l = none := by
  cases n with
  | zero => rfl
  | succ n =>
    cases l with
    | nil => rfl
    | cons a l =>
      cases l with
      | nil => rfl
      | cons b rest => exact absurd h (by simp)

/-- Steps that all succeed succeed together. --/
theorem mapM_eq {α β : Type} {f : α → Option β} {g : α → β} {l : List α} (h : ∀ x ∈ l, f x = some (g x)) :
    l.mapM f = some (l.map g) := by
  induction l with
  | nil => rfl
  | cons x l ih =>
    rw [List.mapM_cons, h x (List.mem_cons_self ..), ih fun y hy => h y (List.mem_cons_of_mem x hy)]
    rfl

/-- The walk stays inside the area, ends, and finds what the walk over the octets left finds. --/
theorem sackOptionWalk_spec (area : List UInt8) (rounds rounds' i size : Nat)
    (hsize : i + size = area.length) (hrounds : size < rounds) (hrounds' : size ≤ rounds') :
    ∃ r, sackOptionWalk area rounds i size = some r ∧
      r.map (fun q => area.drop q.1) = sackOptionFind rounds' (area.drop i) ∧
      ∀ q, r = some q → q.1 + q.2 = area.length ∧ 2 ≤ q.2 := by
  induction rounds generalizing i size rounds' with
  | zero => omega
  | succ rounds ih =>
    have hlen : (area.drop i).length = size := by
      rw [List.length_drop]
      omega
    rw [sackOptionWalk]
    by_cases hend : size < 2
    · rw [if_pos hend]
      exact ⟨none, rfl, (sackOptionFind_short (by omega)).symm, fun q hq => by cases hq⟩
    · rw [if_neg hend]
      obtain ⟨rounds', rfl⟩ : ∃ k, rounds' = k + 1 := ⟨rounds' - 1, by omega⟩
      obtain ⟨kind, length, rest, hrest⟩ := exists_two (l := area.drop i) (by omega)
      have hkind : area[i]? = some kind := by
        have := congrArg (·[0]?) hrest
        rw [List.getElem?_drop] at this
        exact this
      have hlength : area[i + 1]? = some length := by
        have := congrArg (·[1]?) hrest
        rw [List.getElem?_drop] at this
        exact this
      have hnext : area.drop (i + 1) = length :: rest := by
        rw [← List.drop_drop, hrest]
        rfl
      rw [hkind, Option.bind_eq_bind, Option.bind_some, hrest, sackOptionFind]
      by_cases hsack : kind = tcpSackKind
      · rw [if_pos hsack, if_pos hsack]
        refine ⟨_, rfl, congrArg some hrest, fun q hq => ?_⟩
        cases hq
        exact ⟨hsize, by dsimp only; omega⟩
      rw [if_neg hsack, if_neg hsack]
      by_cases heol : kind = tcpEolKind
      · rw [if_pos heol, if_pos heol]
        exact ⟨none, rfl, rfl, fun q hq => by cases hq⟩
      rw [if_neg heol, if_neg heol]
      by_cases hnop : kind = tcpNopKind
      · rw [if_pos hnop, if_pos hnop, ← hnext]
        exact ih _ _ _ (by omega) (by omega) (by omega)
      rw [if_neg hnop, if_neg hnop, hlength, Option.bind_some, ← hrest, hlen]
      by_cases hbad : length = 0 ∨ length.toNat > size
      · rw [if_pos hbad, if_pos hbad]
        exact ⟨none, rfl, rfl, fun q hq => by cases hq⟩
      · rw [if_neg hbad, if_neg hbad, List.drop_drop]
        have hpos : length.toNat ≠ 0 := fun h => hbad (.inl (UInt8.toNat_inj.mp h))
        have hle : ¬length.toNat > size := fun h => hbad (.inr h)
        exact ih _ _ _ (by omega) (by omega) (by omega)

theorem sackEdgesAt_spec (hsize : i + size = area.length) (htwo : 2 ≤ size) :
    sackEdgesAt area i size = some (sackOptionEdges (area.drop i)) := by
  have hlen : (area.drop i).length = size := by
    rw [List.length_drop]
    omega
  obtain ⟨kind, length, rest, hrest⟩ := exists_two (l := area.drop i) (by omega)
  have hlength : area[i + 1]? = some length := by
    have := congrArg (·[1]?) hrest
    rw [List.getElem?_drop] at this
    exact this
  have hget : (area.drop i).getD 1 0 = length := by
    rw [hrest]
    rfl
  unfold sackEdgesAt sackOptionEdges
  dsimp only
  rw [hlength, Option.bind_eq_bind, Option.bind_some, hget, hlen]
  by_cases hbad : length.toNat < 10 ∨ length.toNat > size ∨ (length.toNat - 2) % 8 ≠ 0
  · rw [if_pos hbad, if_pos hbad]
  · rw [if_neg hbad, if_neg hbad]
    have hblock : ∀ n ∈ List.range (min ((length.toNat - 2) / 8) sackMaxBlocks), sackBlockAt area i n =
        some ⟨sequenceRead ((area.drop i).drop (2 + 8 * n)), sequenceRead ((area.drop i).drop (6 + 8 * n))⟩ := by
      intro n hn
      have hn := List.mem_range.mp hn
      have hfit : 2 + 8 * (n + 1) ≤ size := by omega
      unfold sackBlockAt
      rw [sequenceReadAt_eq (by omega), sequenceReadAt_eq (by omega), List.drop_drop, List.drop_drop, Nat.add_assoc,
        Nat.add_assoc]
      rfl
    rw [mapM_eq hblock]
    rfl

/-- The decoder ends after as many rounds as the area has octets, and reads none beyond it. --/
theorem sackOptionRead_eq (h : area.length < rounds) :
    sackOptionRead rounds area = some ((sackOptionFind area.length area).bind sackOptionEdges) := by
  obtain ⟨r, hwalk, hfind, hplace⟩ := sackOptionWalk_spec area rounds area.length
    0 area.length (Nat.zero_add _) h (Nat.le_refl _)
  rw [List.drop_zero] at hfind
  unfold sackOptionRead
  rw [hwalk, ← hfind, Option.bind_eq_bind, Option.bind_some]
  cases r with
  | none => rfl
  | some q =>
    obtain ⟨hsize, htwo⟩ := hplace q rfl
    exact sackEdgesAt_spec hsize htwo

end

/-! ### The blocks taken -/

/-- `snd_una` of the decoder: a FIN that is sent is no data outstanding. --/
def sackUnacked (t : Socket) : ULONG :=
  if finPending t then t.snd.txSequence - t.snd.txOutstandingBytes - 1 else t.snd.txSequence - t.snd.txOutstandingBytes

/-- The blocks `_nx_tcp_sack_option_get` leaves, if the area holds an option. --/
def sackOptionDecode (t : Socket) (options : List UInt8) : Option (List SackBlock) :=
  ((sackOptionFind options.length options).bind sackOptionEdges).map fun edges =>
    sackOptionTake (sackUnacked t) t.snd.txSequence edges []

section
variable {t : Socket} {options : List UInt8} {unacked next r x : ULONG} {b c : SackBlock}
  {blocks edges taken rest : List SackBlock}

theorem sackOptionGet_eq (hp : t.sackPermitted = true) :
    sackOptionGet t options = { t with sack.blocks := (sackOptionDecode t options).getD t.sack.blocks } := by
  unfold sackOptionGet sackOptionDecode
  rw [if_pos hp]
  cases (sackOptionFind options.length options).bind sackOptionEdges with
  | none => rfl
  | some edges => rfl

/-- What the decoder asks of a block by itself. --/
structure Passes (unacked next : ULONG) (b : SackBlock) : Prop where
  nonempty : INT (b.right - b.left) > 0
  above : INT (b.left - unacked) > 0
  below : INT (next - b.right) ≥ 0

/-- The test for a block taken before. --/
def overlaps (b t : SackBlock) : Bool := decide (INT (b.right - t.left) > 0) && decide (INT (t.right - b.left) > 0)

theorem sackOptionTake_cons : sackOptionTake unacked next (b :: rest) taken =
    if INT (b.right - b.left) ≤ 0 ∨ INT (b.left - unacked) ≤ 0 ∨ INT (next - b.right) < 0 ∨
        taken.any (overlaps b) = true then sackOptionTake unacked next rest taken
    else sackOptionTake unacked next rest (taken ++ [b]) := rfl

theorem passes_sackOptionTake (unacked next : ULONG) (edges taken : List SackBlock)
    (htaken : ∀ c ∈ taken, Passes unacked next c) :
    ∀ c ∈ sackOptionTake unacked next edges taken, Passes unacked next c := by
  induction edges generalizing taken with
  | nil => exact htaken
  | cons b rest ih =>
    rw [sackOptionTake_cons]
    by_cases hdrop : INT (b.right - b.left) ≤ 0 ∨ INT (b.left - unacked) ≤ 0 ∨ INT (next - b.right) < 0 ∨
        taken.any (overlaps b) = true
    · rw [if_pos hdrop]
      exact ih _ htaken
    · rw [if_neg hdrop]
      simp only [not_or] at hdrop
      refine ih _ fun c hc => ?_
      rcases List.mem_append.mp hc with hc | hc
      · exact htaken c hc
      · cases List.mem_singleton.mp hc
        exact ⟨Int.not_le.mp hdrop.1, Int.not_le.mp hdrop.2.1, Int.not_lt.mp hdrop.2.2.1⟩

theorem length_sackOptionTake (unacked next : ULONG) (edges taken : List SackBlock) :
    (sackOptionTake unacked next edges taken).length ≤ taken.length + edges.length := by
  induction edges generalizing taken with
  | nil => exact Nat.le_refl _
  | cons b rest ih =>
    have hkeep := ih taken
    have hadd := ih (taken ++ [b])
    rw [List.length_append, List.length_singleton] at hadd
    rw [sackOptionTake_cons, List.length_cons]
    split <;> omega

/-- Blocks that pass, none of which overlaps another one, are all taken. --/
theorem sackOptionTake_all (hpass : ∀ c ∈ edges, Passes unacked next c)
    (hapart : edges.Pairwise fun b c => overlaps c b = false) (htaken : ∀ b ∈ taken, ∀ c ∈ edges, overlaps c b = false) :
    sackOptionTake unacked next edges taken = taken ++ edges := by
  induction edges generalizing taken with
  | nil => exact (List.append_nil _).symm
  | cons b rest ih =>
    obtain ⟨hfirst, hrest⟩ := List.pairwise_cons.mp hapart
    obtain ⟨h₁, h₂, h₃⟩ := hpass b (List.mem_cons_self ..)
    have hnone : ¬taken.any (overlaps b) = true := fun hany => by
      obtain ⟨c, hc, hover⟩ := List.any_eq_true.mp hany
      rw [htaken c hc b (List.mem_cons_self ..)] at hover
      exact Bool.false_ne_true hover
    have hkeep : ¬(INT (b.right - b.left) ≤ 0 ∨ INT (b.left - unacked) ≤ 0 ∨ INT (next - b.right) < 0 ∨
        taken.any (overlaps b) = true) := by
      simp only [not_or]
      exact ⟨Int.not_le.mpr h₁, Int.not_le.mpr h₂, Int.not_lt.mpr h₃, hnone⟩
    rw [sackOptionTake_cons, if_neg hkeep, ih (fun c hc => hpass c (List.mem_cons_of_mem b hc)) hrest,
      List.append_assoc]
    · rfl
    · intro d hd c hc
      rcases List.mem_append.mp hd with hd | hd
      · exact htaken d hd c (List.mem_cons_of_mem b hc)
      · cases List.mem_singleton.mp hd
        exact hfirst c hc

theorem length_edges_le (h : (sackOptionFind options.length options).bind sackOptionEdges = some edges) :
    edges.length ≤ sackMaxBlocks := by
  obtain ⟨area, -, hedges⟩ := Option.bind_eq_some_iff.mp h
  unfold sackOptionEdges at hedges
  dsimp only at hedges
  split at hedges
  · cases hedges
  · cases hedges
    rw [List.length_map, List.length_range]
    exact Nat.min_le_right _ _

/-- A block that passes and begins before the end of what is sent lies inside of it. --/
theorem Passes.inside (h : Passes unacked next b) (hout : 0 ≤ rel unacked next) (hbegins : INT (next - b.left) > 0) :
    0 < rel unacked b.left ∧ rel unacked b.left < rel unacked b.right ∧ rel unacked b.right ≤ rel unacked next := by
  obtain ⟨hnonempty, habove, hbelow⟩ := h
  have habove : 0 < rel unacked b.left := habove
  have hl := rel_bounds unacked b.left
  have hr := rel_bounds unacked b.right
  have hn := rel_bounds unacked next
  have hbegin : INT (next - b.left) = rel unacked next - rel unacked b.left := int_sub_rel (by omega) (by omega)
  have hwidth : INT (b.right - b.left) = (rel unacked b.right - rel unacked b.left).bmod (2 ^ 32) :=
    toInt_sub_sub b.right b.left unacked
  have hend : INT (next - b.right) = (rel unacked next - rel unacked b.right).bmod (2 ^ 32) :=
    toInt_sub_sub next b.right unacked
  rw [hwidth, Int.bmod_def] at hnonempty
  rw [hend, Int.bmod_def] at hbelow
  split_ifs at hnonempty hbelow <;> omega

/-! ### What the encoder writes -/

theorem sequenceRead_write (x : ULONG) (rest : List UInt8) : sequenceRead (sequenceWrite x ++ rest) = x := by
  have hoctet : ∀ n, BitVec.ofNat 32 (UInt8.ofBitVec (x.extractLsb' n 8)).toNat = (x.extractLsb' n 8).setWidth 32 :=
    fun n => by rw [UInt8.toNat_ofBitVec, BitVec.ofNat_toNat]
  unfold sequenceRead sequenceWrite
  simp only [List.cons_append, List.getD_cons_zero, List.getD_cons_succ, hoctet]
  apply BitVec.eq_of_getLsbD_eq
  intro i hi
  simp only [BitVec.getLsbD_or, BitVec.getLsbD_shiftLeft, BitVec.getLsbD_setWidth, BitVec.getLsbD_extractLsb']
  grind

/-- The octets of the blocks. --/
def blockOctets (blocks : List SackBlock) : List UInt8 :=
  blocks.flatMap fun b => sequenceWrite b.left ++ sequenceWrite b.right

theorem blockOctets_cons (b : SackBlock) (rest : List SackBlock) :
    blockOctets (b :: rest) = sequenceWrite b.left ++ (sequenceWrite b.right ++ blockOctets rest) := by
  rw [blockOctets, List.flatMap_cons, List.append_assoc]
  rfl

theorem length_sequenceWrite (x : ULONG) : (sequenceWrite x).length = 4 := rfl

theorem length_blockOctets (blocks : List SackBlock) : (blockOctets blocks).length = 8 * blocks.length := by
  induction blocks with
  | nil => rfl
  | cons b rest ih =>
    rw [blockOctets_cons, List.length_append, List.length_append, ih, length_sequenceWrite, length_sequenceWrite,
      List.length_cons]
    omega

/-- Each block is read back from its place. --/
theorem blockOctets_read (front : List UInt8) (blocks : List SackBlock) :
    ((List.range blocks.length).map fun i =>
      (⟨sequenceRead ((front ++ blockOctets blocks).drop (front.length + 8 * i)),
        sequenceRead ((front ++ blockOctets blocks).drop (front.length + 4 + 8 * i))⟩ : SackBlock)) = blocks := by
  induction blocks generalizing front with
  | nil => rfl
  | cons b rest ih =>
    have hsplit : front ++ blockOctets (b :: rest) =
        (front ++ (sequenceWrite b.left ++ sequenceWrite b.right)) ++ blockOctets rest := by
      rw [blockOctets_cons, List.append_assoc, List.append_assoc]
    have hlen : (front ++ (sequenceWrite b.left ++ sequenceWrite b.right)).length = front.length + 8 := by
      rw [List.length_append, List.length_append, length_sequenceWrite, length_sequenceWrite]
    have hrest := ih (front ++ (sequenceWrite b.left ++ sequenceWrite b.right))
    rw [hlen] at hrest
    rw [List.length_cons, List.range_succ_eq_map, List.map_cons, List.map_map]
    refine congrArg₂ List.cons ?_ ?_
    · have hleft : (front ++ blockOctets (b :: rest)).drop (front.length + 8 * 0) =
          sequenceWrite b.left ++ (sequenceWrite b.right ++ blockOctets rest) := by
        rw [Nat.mul_zero, Nat.add_zero, List.drop_left, blockOctets_cons]
      have hright : (front ++ blockOctets (b :: rest)).drop (front.length + 4 + 8 * 0) =
          sequenceWrite b.right ++ blockOctets rest := by
        rw [Nat.mul_zero, Nat.add_zero, ← List.drop_drop, List.drop_left, blockOctets_cons]
        exact List.drop_left' (length_sequenceWrite b.left)
      rw [hleft, hright, sequenceRead_write, sequenceRead_write]
    · rw [hsplit]
      refine Eq.trans (List.map_congr_left fun i _ => ?_) hrest
      rw [Function.comp_apply, show front.length + 8 * i.succ = front.length + 8 + 8 * i by omega,
        show front.length + 4 + 8 * i.succ = front.length + 8 + 4 + 8 * i by omega]

theorem sackOptionFind_nop (n : Nat) (a : UInt8) (l : List UInt8) :
    sackOptionFind (n + 1) (tcpNopKind :: a :: l) = sackOptionFind n (a :: l) := by
  rw [sackOptionFind, if_neg (by decide), if_neg (by decide), if_pos rfl]

theorem sackOptionFind_sack (n : Nat) (a : UInt8) (l : List UInt8) :
    sackOptionFind (n + 1) (tcpSackKind :: a :: l) = some (tcpSackKind :: a :: l) := by
  rw [sackOptionFind, if_pos rfl]

/-- The decoder finds the blocks in what the encoder has written. --/
theorem edges_write (hne : blocks ≠ []) (hmax : blocks.length ≤ sackMaxBlocks) :
    (sackOptionFind (sackOptionWrite blocks).length (sackOptionWrite blocks)).bind sackOptionEdges = some blocks := by
  have hpos := List.length_pos_iff.mpr hne
  have hmax : blocks.length ≤ 4 := hmax
  have hsize : (UInt8.ofNat (2 + blocks.length <<< 3)).toNat = 2 + 8 * blocks.length := by
    rw [UInt8.toNat_ofNat', Nat.shiftLeft_eq]
    omega
  have hwrite : sackOptionWrite blocks = tcpNopKind :: tcpNopKind :: tcpSackKind ::
      UInt8.ofNat (2 + blocks.length <<< 3) :: blockOctets blocks := by
    rw [sackOptionWrite, if_neg (by omega)]
    rfl
  have hlen : (sackOptionWrite blocks).length = 3 + (1 + 8 * blocks.length) := by
    rw [hwrite]
    simp only [List.length_cons, length_blockOctets]
    omega
  have hfind : sackOptionFind (3 + (1 + 8 * blocks.length)) (sackOptionWrite blocks) =
      some (tcpSackKind :: UInt8.ofNat (2 + blocks.length <<< 3) :: blockOctets blocks) := by
    rw [hwrite, show 3 + (1 + 8 * blocks.length) = 1 + 8 * blocks.length + 1 + 1 + 1 by omega, sackOptionFind_nop,
      sackOptionFind_nop, sackOptionFind_sack]
  rw [hlen, hfind, Option.bind_some]
  unfold sackOptionEdges
  have hget : (tcpSackKind :: UInt8.ofNat (2 + blocks.length <<< 3) :: blockOctets blocks).getD 1 0 =
      UInt8.ofNat (2 + blocks.length <<< 3) := rfl
  have harea : (tcpSackKind :: UInt8.ofNat (2 + blocks.length <<< 3) :: blockOctets blocks).length =
      2 + 8 * blocks.length := by
    simp only [List.length_cons, length_blockOctets]
    omega
  dsimp only
  rw [hget, hsize, harea, if_neg (by omega)]
  have hcount : min ((2 + 8 * blocks.length - 2) / 8) sackMaxBlocks = blocks.length := by
    show min ((2 + 8 * blocks.length - 2) / 8) 4 = blocks.length
    omega
  rw [hcount]
  exact congrArg some (blockOctets_read [tcpSackKind, UInt8.ofNat (2 + blocks.length <<< 3)] blocks)

/-! ### The encoder undone -/

/-- What the receiver `s` holds out of order is data the sender `t` has sent, and `t` has not been told of more than `s`
    has received. Behind its FIN `t` sends nothing. --/
structure SentBy (s t : Socket) (fin : Bool) : Prop where
  behind : rel s.rcv.rxSequence (sackUnacked t) ≤ 0
  near : -2 ^ 30 ≤ rel s.rcv.rxSequence (sackUnacked t)
  held : ∀ x ∈ s.heldAbove, x < rel s.rcv.rxSequence t.snd.txSequence
  closed : fin = true → t.snd.txSequence = s.rcv.rxSequence

end

section
variable {ip : Ip} {irs : ULONG} {s t : Socket} {fin : Bool} {b c : SackBlock}

/-- The next octet awaited is not held. --/
theorem Receives.next_not_held (h : Receives ip irs s fin) (hs : SentBy s t fin) : (0 : Int) ∉ s.heldAbove := by
  intro hzero
  cases fin with
  | true =>
    have hlt := hs.held 0 hzero
    rw [hs.closed rfl, rel_self] at hlt
    omega
  | false =>
    have hend := h.receivedEnd
    rw [Bool.toNat_false, BitVec.add_zero] at hend
    rw [h.heldAbove, hend] at hzero
    obtain ⟨sp, hsp, hlo, hhi⟩ := hzero
    obtain ⟨p, hp, rfl⟩ := List.mem_map.mp hsp
    have hgap := h.receiving.content.gap p hp
    have hlo : p.lo (s.receivedEnd irs) ≤ 0 := hlo
    omega

theorem Receives.mem_ordinary (h : Receives ip irs s fin) (hp : s.sackPermitted = true) :
    b ∈ Netxduo.sackOrdinary ip s ↔ b ∈ sackHeld ip s := by
  rw [h.sackOrdinary hp]
  exact (sackOrder_perm s _).mem_iff

/-- The blocks behind the duplicate pass the decoder, each by itself. --/
theorem Receives.passes (h : Receives ip irs s fin) (hs : SentBy s t fin) (hb : b ∈ sackHeld ip s) :
    Passes (sackUnacked t) t.snd.txSequence b := by
  obtain ⟨h₁, h₂, h₃⟩ := h.ahead.ordered.merge.1.mem _ (List.mem_of_mem_drop (h.mem_sackHeld hb))
  have hrun := h.isRun hb
  have h₁ : 0 ≤ rel s.rcv.rxSequence b.left := h₁
  have h₂ : rel s.rcv.rxSequence b.left < rel s.rcv.rxSequence b.right := h₂
  have h₃ : rel s.rcv.rxSequence b.right ≤ 2 ^ 30 := h₃
  have hfirst : rel s.rcv.rxSequence b.left ≠ 0 := fun hzero =>
    h.next_not_held hs (hrun.subset ⟨Int.le_of_eq hzero, by rw [← hzero]; exact h₂⟩)
  have hlast := hs.held (rel s.rcv.rxSequence b.right - 1) (hrun.subset ⟨by
    show rel s.rcv.rxSequence b.left ≤ _
    omega, by
    show _ < rel s.rcv.rxSequence b.right
    omega⟩)
  have hnext := rel_bounds s.rcv.rxSequence t.snd.txSequence
  have hbehind := hs.behind
  have hnear := hs.near
  refine ⟨?_, ?_, ?_⟩
  · have hint : INT (b.right - b.left) = rel s.rcv.rxSequence b.right - rel s.rcv.rxSequence b.left :=
      int_sub_rel (by omega) (by omega)
    omega
  · have hint : INT (b.left - sackUnacked t) = rel s.rcv.rxSequence b.left - rel s.rcv.rxSequence (sackUnacked t) :=
      int_sub_rel (by omega) (by omega)
    omega
  · have hint : INT (t.snd.txSequence - b.right) =
        rel s.rcv.rxSequence t.snd.txSequence - rel s.rcv.rxSequence b.right := int_sub_rel (by omega) (by omega)
    omega

theorem Receives.apart (h : Receives ip irs s fin) (hb : b ∈ sackHeld ip s) (hc : c ∈ sackHeld ip s)
    (hdisjoint : Disjoint (Set.Ico (b.span s.rcv.rxSequence).1 (b.span s.rcv.rxSequence).2)
      (Set.Ico (c.span s.rcv.rxSequence).1 (c.span s.rcv.rxSequence).2)) : overlaps c b = false := by
  obtain ⟨b₁, b₂, b₃⟩ := h.ahead.ordered.merge.1.mem _ (List.mem_of_mem_drop (h.mem_sackHeld hb))
  obtain ⟨c₁, c₂, c₃⟩ := h.ahead.ordered.merge.1.mem _ (List.mem_of_mem_drop (h.mem_sackHeld hc))
  simp only [SackBlock.span] at b₁ b₂ b₃ c₁ c₂ c₃ hdisjoint
  have hfirst : INT (c.right - b.left) = rel s.rcv.rxSequence c.right - rel s.rcv.rxSequence b.left :=
    int_sub_rel (by omega) (by omega)
  have hsecond : INT (b.right - c.left) = rel s.rcv.rxSequence b.right - rel s.rcv.rxSequence c.left :=
    int_sub_rel (by omega) (by omega)
  rw [overlaps, Bool.and_eq_false_iff, decide_eq_false_iff_not, decide_eq_false_iff_not, hfirst, hsecond]
  by_contra hboth
  rw [not_or, not_not, not_not] at hboth
  rw [Set.disjoint_left] at hdisjoint
  exact hdisjoint (a := max (rel s.rcv.rxSequence b.left) (rel s.rcv.rxSequence c.left)) ⟨by omega, by omega⟩
    ⟨by omega, by omega⟩

/-- Every block behind the duplicate is taken. --/
theorem Receives.take_ordinary (h : Receives ip irs s fin) (hp : s.sackPermitted = true) (hs : SentBy s t fin) :
    sackOptionTake (sackUnacked t) t.snd.txSequence (Netxduo.sackOrdinary ip s) [] = Netxduo.sackOrdinary ip s := by
  refine sackOptionTake_all (fun c hc => h.passes hs ((h.mem_ordinary hp).mp hc)) ?_ fun b hb => by cases hb
  have hperm := (sackOrder_perm s (sackHeld ip s)).symm
  have hdisjoint := hperm.pairwise h.disjoint_sackHeld fun hbc => hbc.symm
  rw [← h.sackOrdinary hp] at hdisjoint
  exact hdisjoint.imp_of_mem fun hb hc hbc =>
    h.apart ((h.mem_ordinary hp).mp hb) ((h.mem_ordinary hp).mp hc) hbc

/-- The decoder undoes the encoder; a duplicate at or below the acknowledgment is left out. --/
theorem Receives.decoded (h : Receives ip irs s fin) (hp : s.sackPermitted = true) (hs : SentBy s t fin)
    (hdup : s.duplicatePending = true → INT (s.rcv.dsackLeft - sackUnacked t) ≤ 0)
    (hne : (sackOptionBuild ip s).1 ≠ []) :
    sackOptionDecode t (sackOptionWrite (sackOptionBuild ip s).1) = some (Netxduo.sackOrdinary ip s) := by
  have hlen := h.length_sackOptionBuild
  have hmax : (sackOptionBuild ip s).1.length ≤ sackMaxBlocks := by
    show _ ≤ 4
    split at hlen <;> omega
  rw [sackOptionDecode, edges_write hne hmax, Option.map_some]
  congr 1
  have htake := h.take_ordinary (t := t) hp hs
  have hbuild := @sackOptionBuild_eq ip s hp
  have hordinary : Netxduo.sackOrdinary ip s = (sackOptionBuild ip s).1.drop s.duplicatePending.toNat := rfl
  cases hpending : s.duplicatePending with
  | false =>
    rw [hpending, Bool.toNat_false, List.drop_zero] at hordinary
    rw [← hordinary]
    exact htake
  | true =>
    rw [hpending, if_pos rfl] at hbuild
    rw [hpending, Bool.toNat_true] at hordinary
    have hfirst : (sackOptionBuild ip s).1 = ⟨s.rcv.dsackLeft, s.rcv.dsackRight⟩ :: Netxduo.sackOrdinary ip s := by
      rw [hordinary, hbuild]
      rfl
    rw [hfirst, sackOptionTake_cons, if_pos (.inr (.inl (hdup hpending)))]
    exact htake

end

/-- A sender with 1000 octets outstanding from sequence number 1 on. --/
def Socket.sender : Socket :=
  let s := Socket.opened 0 0 1000 60000
  { s with snd := { s.snd with txSequence := 1001, txOutstandingBytes := 1000 } }

end Netxduo
