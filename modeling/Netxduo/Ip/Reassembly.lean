import Mathlib
import Netxduo.Ip.Ownership
import Netxduo.Library.Pieces

/-! What reassembly dispatches: with every fragment as long as its header says, the loop that looks for a gap finds
    one exactly where octets are missing. -/

namespace Netxduo.Ip
open Runs Pieces

/-! ### What a fragment carries -/

namespace Fragment

/-- The unit of the offset, in octets. --/
def unit (f : Fragment) : Nat :=
  match f.header with
  | .v4 .. => 8
  | .v6 .. => 1

/-- The part of the datagram that the fragment carries. --/
def piece (f : Fragment) : Piece UInt8 := ⟨f.unit * f.offset.toNat, f.data, !f.more⟩

/-- The protocol the fragment names. --/
def protocol (f : Fragment) : Nat :=
  match f.header with
  | .v4 _ _ word2 _ _ => (word2 >>> 16 &&& 0xFF).toNat
  | .v6 _ _ nextHeader _ _ => nextHeader.toNat

/-- The header says what the fragment carries. --/
structure Sound (f : Fragment) : Prop where
  nonempty : f.data ≠ []
  within : f.piece.stop ≤ 65535
  length : f.length.toNat = f.headerSize.toNat + f.data.length
  advance : f.more = true → f.unit * f.advance.toNat = f.data.length
  part : f.offset = 0 → f.more = true

/-- Fragments of one datagram fit together. --/
def Agrees (f g : Fragment) : Prop := f.key = g.key → f.piece.Agrees g.piece ∧ f.protocol = g.protocol

variable {f g : Fragment}

theorem unit_pos (f : Fragment) : 0 < f.unit := by
  rw [unit]
  split <;> decide

theorem unit_eq (h : f.key = g.key) : f.unit = g.unit := by
  rw [key, key] at h
  rw [unit, unit]
  cases hf : f.header <;> cases hg : g.header <;> rw [hf, hg] at h
  · cases h
  · cases h

theorem agrees_refl (f : Fragment) : f.Agrees f := fun _ => ⟨f.piece.agrees_refl, rfl⟩

theorem Agrees.symm (h : f.Agrees g) : g.Agrees f := fun hkey => ⟨(h hkey.symm).1.symm, (h hkey.symm).2.symm⟩

/-- Nothing that matters here depends on the timer. --/
theorem Sound.of_untimed (h : f.Sound) (heq : f.untimed = g.untimed) : g.Sound := by
  rw [untimed, untimed, mk.injEq] at heq
  obtain ⟨-, hheader, hlength, hdata, -⟩ := heq
  cases f
  cases g
  subst hheader hlength hdata
  exact ⟨h.nonempty, h.within, h.length, h.advance, h.part⟩

theorem key_of_untimed (heq : f.untimed = g.untimed) : f.key = g.key := by
  show f.untimed.key = g.untimed.key
  rw [heq]

theorem piece_of_untimed (heq : f.untimed = g.untimed) : f.piece = g.piece := by
  show f.untimed.piece = g.untimed.piece
  rw [heq]

theorem protocol_of_untimed (heq : f.untimed = g.untimed) : f.protocol = g.protocol := by
  show f.untimed.protocol = g.untimed.protocol
  rw [heq]

end Fragment

/-! ### The loop that looks for a gap -/

section
variable {f g : Fragment} {l : List Fragment} {c : Chain} {key : FragmentKey}

/-- Fragments of one datagram, in the order of their offsets. --/
structure Queued (key : FragmentKey) (l : List Fragment) : Prop where
  keys : ∀ f ∈ l, f.key = key
  sound : ∀ f ∈ l, f.Sound
  agree : ∀ f ∈ l, ∀ g ∈ l, f.Agrees g
  ascending : l.Pairwise fun f g => f.offset < g.offset

theorem Queued.tail (h : Queued key (f :: l)) : Queued key l :=
  ⟨fun g hg => h.keys g (List.mem_cons_of_mem f hg), fun g hg => h.sound g (List.mem_cons_of_mem f hg),
    fun g hg k hk => h.agree g (List.mem_cons_of_mem f hg) k (List.mem_cons_of_mem f hk),
    (List.pairwise_cons.mp h.ascending).2⟩

theorem Queued.pieces (h : Queued key l) : Ascending (l.map Fragment.piece) := by
  refine ⟨?_, fun p hp q hq => ?_, fun p hp => ?_⟩
  · refine List.pairwise_map.mpr (h.ascending.imp_of_mem fun {f g} hf hg hlt => ?_)
    have hunit := Fragment.unit_eq ((h.keys f hf).trans (h.keys g hg).symm)
    have hpos := Fragment.unit_pos f
    show f.unit * f.offset.toNat < g.unit * g.offset.toNat
    rw [← hunit]
    exact Nat.mul_lt_mul_of_pos_left (BitVec.lt_def.mp hlt) hpos
  · obtain ⟨f, hf, rfl⟩ := List.mem_map.mp hp
    obtain ⟨g, hg, rfl⟩ := List.mem_map.mp hq
    exact (h.agree f hf g hg ((h.keys f hf).trans (h.keys g hg).symm)).1
  · obtain ⟨f, hf, rfl⟩ := List.mem_map.mp hp
    exact (h.sound f hf).nonempty

/-- The expected offset is that of the next octet. --/
theorem Queued.contiguous_iff {expected : ULONG} {n : Nat} (h : Queued key l)
    (hn : ∀ f ∈ l, n = f.unit * expected.toNat) : contiguous expected l = true ↔ Contiguous n (l.map Fragment.piece) := by
  induction l generalizing expected n with
  | nil => exact ⟨fun _ => trivial, fun _ => rfl⟩
  | cons f l ih =>
    have hf := hn f (List.mem_cons_self ..)
    have hpos := Fragment.unit_pos f
    have hstart : f.piece.start = n ↔ expected = f.offset := by
      rw [hf]
      show f.unit * f.offset.toNat = _ ↔ _
      rw [Nat.mul_right_inj (Nat.pos_iff_ne_zero.mp hpos), BitVec.toNat_inj]
      exact eq_comm
    rw [contiguous, List.map_cons, contiguous_cons, hstart]
    by_cases heq : expected = f.offset
    · rw [if_neg (fun hne => hne heq)]
      refine Iff.trans (ih h.tail fun g hg => ?_) (Iff.symm (and_iff_right heq))
      -- a fragment that others follow moves the expected offset by what it carries
      have hmore : f.more = true := by
        have := (h.pieces.before (List.mem_map_of_mem hg)).2
        simpa [Fragment.piece] using this
      have hadvance := (h.sound f (List.mem_cons_self ..)).advance hmore
      have hwithin := (h.sound f (List.mem_cons_self ..)).within
      have hunit := Fragment.unit_eq ((h.keys f (List.mem_cons_self ..)).trans
        (h.keys g (List.mem_cons_of_mem f hg)).symm)
      have hstop : f.piece.stop = f.unit * f.offset.toNat + f.data.length := rfl
      have hsum : f.unit * (f.offset.toNat + f.advance.toNat) ≤ 65535 := by
        rw [Nat.mul_add, hadvance, ← hstop]
        exact hwithin
      have hle := Nat.le_trans (Nat.le_mul_of_pos_left _ hpos) hsum
      rw [hstop, ← hunit, heq, BitVec.toNat_add_of_lt (by omega), Nat.mul_add, hadvance]
    · rw [if_pos heq]
      exact iff_of_false Bool.false_ne_true fun hand => heq hand.1

/-- A chain is complete exactly where its fragments carry the whole datagram. --/
theorem Queued.complete_iff (h : Queued key c.toList) :
    c.complete = true ↔ ∃ total, Complete {p | p ∈ c.toList.map Fragment.piece} total := by
  have hne : c.toList.map Fragment.piece ≠ [] := fun hnil => List.cons_ne_nil _ _ (List.map_eq_nil_iff.mp hnil)
  have hgap : contiguous 0 c.toList = true ↔ Contiguous 0 (c.toList.map Fragment.piece) :=
    h.contiguous_iff fun f _ => (Nat.mul_zero f.unit).symm
  rw [← h.pieces.complete_iff hne, Chain.complete, Bool.and_eq_true, hgap, List.getLast_map]
  exact Iff.rfl

/-- The data of a complete chain, put together. --/
theorem Queued.holds (h : Queued key c.toList) (hcomplete : c.complete = true) :
    Holds {p | p ∈ c.toList.map Fragment.piece} (c.toList.flatMap Fragment.data) := by
  have hne : c.toList.map Fragment.piece ≠ [] := fun hnil => List.cons_ne_nil _ _ (List.map_eq_nil_iff.mp hnil)
  obtain ⟨hcontiguous, hlast⟩ := (h.pieces.complete_iff hne).mpr (h.complete_iff.mp hcomplete)
  have hholds := hcontiguous.holds hne hlast
  rw [List.flatMap_map] at hholds
  exact hholds

/-! ### An insertion -/

theorem mem_chainInsert_self (f : Fragment) (l : List Fragment) : f ∈ (chainInsert f l).1 := by
  induction l with
  | nil => exact List.mem_cons_self ..
  | cons g l ih =>
    rw [chainInsert]
    split_ifs
    · exact List.mem_cons_self ..
    · exact List.mem_cons_self ..
    · exact List.mem_cons_of_mem g ih

/-- What gives way to a fragment of its datagram carries the same. --/
theorem Fragment.Agrees.piece_eq (h : f.Agrees g) (hkey : f.key = g.key) (hf : f.Sound) (hg : g.Sound)
    (hoffset : f.offset = g.offset) : f.piece = g.piece := by
  have hunit := Fragment.unit_eq hkey
  have hstart : f.piece.start = g.piece.start := by
    show f.unit * f.offset.toNat = g.unit * g.offset.toNat
    rw [hunit, hoffset]
  have hlenf := List.length_pos_of_ne_nil hf.nonempty
  have hleng := List.length_pos_of_ne_nil hg.nonempty
  have hstopf : f.piece.stop = f.piece.start + f.data.length := rfl
  have hstopg : g.piece.stop = g.piece.start + g.data.length := rfl
  rcases (h hkey).1 with heq | ⟨hle, -⟩ | ⟨hle, -⟩
  · exact heq
  · omega
  · omega

theorem Queued.arrive (h : Queued key l) (hkey : f.key = key) (hf : f.Sound) (hagree : ∀ g ∈ l, f.Agrees g) :
    Queued key (chainInsert f l).1 := by
  have hmem : ∀ {g}, g ∈ (chainInsert f l).1 → g = f ∨ g ∈ l := mem_chainInsert
  refine ⟨fun g hg => ?_, fun g hg => ?_, fun g hg k hk => ?_, chainInsert_ascending h.ascending⟩
  · rcases hmem hg with rfl | hg
    · exact hkey
    · exact h.keys g hg
  · rcases hmem hg with rfl | hg
    · exact hf
    · exact h.sound g hg
  · rcases hmem hg with rfl | hgl
    · rcases hmem hk with rfl | hkl
      · exact Fragment.agrees_refl _
      · exact hagree k hkl
    · rcases hmem hk with rfl | hkl
      · exact (hagree g hgl).symm
      · exact h.agree g hgl k hkl

/-- Afterwards the chain carries what it did, and the new fragment. --/
theorem Queued.pieces_insert (h : Queued key l) (hkey : f.key = key) (hf : f.Sound) (hagree : ∀ g ∈ l, f.Agrees g) :
    {p | p ∈ (chainInsert f l).1.map Fragment.piece} = insert f.piece {p | p ∈ l.map Fragment.piece} := by
  have hself := mem_chainInsert_self f l
  ext p
  simp only [Set.mem_ofPred_eq, Set.mem_insert_iff, List.mem_map]
  constructor
  · rintro ⟨g, hg, rfl⟩
    rcases mem_chainInsert hg with rfl | hg
    · exact Or.inl rfl
    · exact Or.inr ⟨g, hg, rfl⟩
  · rintro (rfl | ⟨g, hg, rfl⟩)
    · exact ⟨f, hself, rfl⟩
    · rcases List.mem_append.mp ((chainInsert_perm f l).symm.subset (List.mem_cons_of_mem f hg)) with hin | hold
      · exact ⟨g, hin, rfl⟩
      · obtain ⟨-, hoffset⟩ := offset_of_mem_old hold
        exact ⟨f, hself, (hagree g hg).piece_eq (hkey.trans (h.keys g hg).symm) hf (h.sound g hg) hoffset⟩

end

/-! ### The assembly list -/

section
variable {env : Environment} {a : Assembly} {f g : Fragment} {before after : List Chain} {c : Chain}
  {key : FragmentKey} {p : Piece UInt8}

/-- What is held of a datagram. --/
def Assembly.pieces (a : Assembly) (key : FragmentKey) : Set (Piece UInt8) :=
  {p | ∃ f ∈ a.held, f.key = key ∧ f.piece = p}

/-- The fragments on the list fit together, and none of their datagrams is complete. --/
structure Consistent (a : Assembly) : Prop where
  sound : ∀ f ∈ a.held, f.Sound
  agree : ∀ f ∈ a.held, ∀ g ∈ a.held, f.Agrees g
  incomplete : ∀ c ∈ a.chains, c.complete = false

/-- What is held of a datagram is on its chain. --/
theorem Owned.pieces_eq (ha : Owned env a) (hc : c ∈ a.chains) :
    a.pieces c.first.key = {p | p ∈ c.toList.map Fragment.piece} := by
  ext p
  simp only [Assembly.pieces, Set.mem_ofPred_eq, List.mem_map]
  constructor
  · rintro ⟨f, hf, hkey, rfl⟩
    obtain ⟨d, hd, hf⟩ := List.mem_flatMap.mp hf
    have heq : d = c := List.inj_on_of_nodup_map ha.distinct hd hc ((ha.keys d hd f hf).symm.trans hkey)
    subst heq
    exact ⟨f, hf, rfl⟩
  · rintro ⟨f, hf, rfl⟩
    exact ⟨f, List.mem_flatMap.mpr ⟨c, hc, hf⟩, ha.keys c hc f hf, rfl⟩

theorem Owned.pieces_eq_empty (ha : Owned env a) (hnone : ∀ d ∈ a.chains, d.first.key ≠ key) : a.pieces key = ∅ := by
  ext p
  simp only [Assembly.pieces, Set.mem_ofPred_eq, Set.mem_empty_iff_false, iff_false]
  rintro ⟨f, hf, hkey, -⟩
  obtain ⟨d, hd, hf⟩ := List.mem_flatMap.mp hf
  exact hnone d hd ((ha.keys d hd f hf).symm.trans hkey)

theorem mem_held (hc : c ∈ a.chains) (hf : f ∈ c.toList) : f ∈ a.held := List.mem_flatMap.mpr ⟨c, hc, hf⟩

theorem Consistent.queued (h : Consistent a) (ha : Owned env a) (hc : c ∈ a.chains) : Queued c.first.key c.toList :=
  ⟨ha.keys c hc, fun f hf => h.sound f (mem_held hc hf),
    fun f hf g hg => h.agree f (mem_held hc hf) g (mem_held hc hg), ha.ascending c hc⟩

/-- No whole datagram is kept back. --/
theorem Consistent.not_complete (h : Consistent a) (ha : Owned env a) (key : FragmentKey) (total : Nat) :
    ¬ Complete (a.pieces key) total := by
  intro hcomplete
  by_cases hkey : ∃ c ∈ a.chains, c.first.key = key
  · obtain ⟨c, hc, rfl⟩ := hkey
    rw [ha.pieces_eq hc] at hcomplete
    have := (h.queued ha hc).complete_iff.mpr ⟨total, hcomplete⟩
    rw [h.incomplete c hc] at this
    cases this
  · rw [ha.pieces_eq_empty fun d hd heq => hkey ⟨d, hd, heq⟩] at hcomplete
    obtain ⟨p, hp, -⟩ := hcomplete.closed
    exact hp

/-! ### A dispatched datagram -/

/-- A datagram put together from `pieces`, which determine it; `f` has come last. --/
structure Reassembled (pieces : Set (Piece UInt8)) (f : Fragment) (d : Datagram) : Prop where
  octets : ∀ data, Holds pieces data ↔ data = d.octets
  length : d.length.toNat = d.octets.length
  protocol : d.protocol = f.protocol
  keys : ∀ g ∈ d.fragments, g.key = f.key

theorem toNat_length_foldl {l : List Fragment} {n : ULONG} (hsound : ∀ g ∈ l, g.Sound)
    (hn : n.toNat + (l.flatMap Fragment.data).length < 2 ^ 32) :
    (l.foldl (fun length f => length + f.length - f.headerSize) n).toNat =
      n.toNat + (l.flatMap Fragment.data).length := by
  induction l generalizing n with
  | nil => rfl
  | cons f l ih =>
    have hlength := (hsound f (List.mem_cons_self ..)).length
    rw [List.flatMap_cons, List.length_append] at hn ⊢
    have hstep : (n + f.length - f.headerSize).toNat = n.toNat + f.data.length := by
      have := f.headerSize.isLt
      rw [BitVec.toNat_sub, BitVec.toNat_add, hlength]
      omega
    rw [List.foldl_cons, ih (fun g hg => hsound g (List.mem_cons_of_mem f hg)) (by omega), hstep]
    omega

theorem Queued.reassembled (h : Queued f.key c.toList) (hf : f ∈ c.toList) (hcomplete : c.complete = true) :
    Reassembled {p | p ∈ c.toList.map Fragment.piece} f (assembleDatagram env c f) := by
  have hholds := h.holds hcomplete
  have hfirst : c.first ∈ c.toList := List.mem_cons_self ..
  have hkey := h.keys c.first hfirst
  obtain ⟨-, hprotocol⟩ := h.agree c.first hfirst f hf hkey
  refine ⟨fun data => ⟨fun hdata => ?_, ?_⟩, ?_, ?_, h.keys⟩
  · exact hdata.unique hholds h.pieces.agree
  · rintro rfl
    exact hholds
  · obtain ⟨q, hq, -, hstop⟩ := hholds.complete.closed
    obtain ⟨g, hg, rfl⟩ := List.mem_map.mp hq
    have hwithin := (h.sound g hg).within
    have hlength := (h.sound c.first hfirst).length
    have hsplit : (c.toList.flatMap Fragment.data).length =
        c.first.data.length + (c.rest.flatMap Fragment.data).length := by
      rw [Chain.toList, List.flatMap_cons, List.length_append]
    have hheader : c.first.headerSize.toNat ≤ 20 := by
      rw [Fragment.headerSize]
      split <;> decide
    have hrest := toNat_length_foldl (n := c.first.length)
      (fun g hg => h.sound g (List.mem_cons_of_mem c.first hg)) (by omega)
    show (c.rest.foldl (fun length f => length + f.length - f.headerSize) c.first.length - c.first.headerSize).toNat =
      (c.toList.flatMap Fragment.data).length
    rw [BitVec.toNat_sub_of_le (by rw [BitVec.le_def]; omega), hrest]
    omega
  · rw [Fragment.key, Fragment.key] at hkey
    rw [Fragment.protocol, Fragment.protocol] at hprotocol
    rw [Fragment.protocol, assembleDatagram]
    generalize c.first.header = first at hkey hprotocol
    generalize f.header = current at hkey hprotocol
    rcases first with _ | _
    · exact hprotocol
    · rcases current with _ | _
      · cases hkey
      · rfl

/-! ### An arrival -/

/-- The chain of the datagram after a fragment has come. --/
theorem Queued.joined (h : Queued c.first.key c.toList) (hkey : c.first.key = f.key) (hf : f.Sound)
    (hagree : ∀ g ∈ c.toList, f.Agrees g) :
    Queued c.first.key (c.insert (f.joining c)).1.toList ∧
      {p | p ∈ (c.insert (f.joining c)).1.toList.map Fragment.piece} =
        insert f.piece {p | p ∈ c.toList.map Fragment.piece} ∧
      f.joining c ∈ (c.insert (f.joining c)).1.toList := by
  have hsound : (f.joining c).Sound := hf.of_untimed (untimed_joining f c).symm
  rw [(Chain.toList_insert (f.joining c) c).1]
  exact ⟨h.arrive hkey.symm hsound hagree, h.pieces_insert hkey.symm hsound hagree, mem_chainInsert_self ..⟩

/-- What an arrival dispatches: the datagram of the fragment, exactly where nothing of it is missing. --/
structure Reassembles (env : Environment) (a : Assembly) (f : Fragment) : Prop where
  dispatched : (∃ d, (fragmentArrive env a f).dispatched = a.dispatched ++ [d]) ↔
    assemblyFits env a f = true ∧ ∃ total, Complete (insert f.piece (a.pieces f.key)) total
  datagram : ∀ d, (fragmentArrive env a f).dispatched = a.dispatched ++ [d] →
    Reassembled (insert f.piece (a.pieces f.key)) f d
  otherwise : (fragmentArrive env a f).dispatched = a.dispatched ∨
    ∃ d, (fragmentArrive env a f).dispatched = a.dispatched ++ [d]

/-- Nothing is dispatched, and nothing is complete. --/
theorem Reassembles.of_eq (heq : (fragmentArrive env a f).dispatched = a.dispatched)
    (hnot : assemblyFits env a f = true → ∀ total, ¬ Complete (insert f.piece (a.pieces f.key)) total) :
    Reassembles env a f := by
  have hnone : ∀ d, (fragmentArrive env a f).dispatched ≠ a.dispatched ++ [d] := by
    intro d hd
    rw [heq] at hd
    exact List.cons_ne_nil _ _ (List.append_right_eq_self.mp hd.symm)
  refine ⟨⟨fun ⟨d, hd⟩ => absurd hd (hnone d), fun ⟨hfits, total, h⟩ => absurd h (hnot hfits total)⟩,
    fun d hd => absurd hd (hnone d), Or.inl heq⟩

theorem Consistent.reassembles (h : Consistent a) (ha : Owned env a) (hf : f.Sound)
    (hagree : ∀ g ∈ a.held, f.Agrees g) : Reassembles env a f := by
  rcases fragmentArrive_cases env a f with ⟨hfits, heq⟩ | ⟨-, hnone, heq⟩ | ⟨before, c, after, hfits, hsplit, hkey, heq⟩
  · refine Reassembles.of_eq (by rw [heq]) fun htrue => ?_
    cases hfits.symm.trans htrue
  · refine Reassembles.of_eq (by rw [heq]) fun _ total hcomplete => ?_
    rw [ha.pieces_eq_empty hnone, insert_empty_eq] at hcomplete
    -- one fragment is not a whole datagram
    have hlength := List.length_pos_of_ne_nil hf.nonempty
    have hstop : f.piece.stop = f.unit * f.offset.toNat + f.data.length := rfl
    obtain ⟨p, rfl, hlast, rfl⟩ := hcomplete.closed
    obtain ⟨q, rfl, hle, -⟩ := hcomplete.covered 0 (by omega)
    have hzero : f.unit * f.offset.toNat = 0 := Nat.le_zero.mp hle
    have hoffset : f.offset = 0 := by
      rcases Nat.mul_eq_zero.mp hzero with hunit | hoffset
      · exact absurd hunit (Nat.pos_iff_ne_zero.mp f.unit_pos)
      · exact BitVec.eq_of_toNat_eq hoffset
    have hmore := hf.part hoffset
    rw [Fragment.piece, hmore] at hlast
    cases hlast
  · have hc : c ∈ a.chains := by
      rw [hsplit]
      exact List.mem_append_right _ (List.mem_cons_self ..)
    obtain ⟨hqueued, hpieces, hmem⟩ := @Queued.joined f.arriving c (h.queued ha hc) hkey
      (hf.of_untimed rfl) fun g hg => hagree g (mem_held hc hg)
    have hset : {p | p ∈ (c.insert (f.arriving.joining c)).1.toList.map Fragment.piece} =
        insert f.piece (a.pieces f.key) := by
      rw [hpieces, ← hkey, ha.pieces_eq hc]
      rfl
    rw [joinDatagram_eq] at heq
    by_cases hcomplete : (c.insert (f.arriving.joining c)).1.complete = true
    · rw [if_pos hcomplete] at heq
      have hdispatched : (fragmentArrive env a f).dispatched =
          a.dispatched ++ [assembleDatagram env (c.insert (f.arriving.joining c)).1 (f.arriving.joining c)] := by
        rw [heq]
      rw [hkey] at hqueued
      have hwhole := @Queued.reassembled env (f.arriving.joining c) _ hqueued hmem hcomplete
      rw [hset] at hwhole
      have hall := hqueued.complete_iff.mp hcomplete
      rw [hset] at hall
      refine ⟨⟨fun _ => ⟨hfits, hall⟩, fun _ => ⟨_, hdispatched⟩⟩, fun d hd => ?_, Or.inr ⟨_, hdispatched⟩⟩
      rw [hdispatched, List.append_cancel_left_eq, List.cons.injEq] at hd
      rw [← hd.1]
      exact ⟨hwhole.octets, hwhole.length, hwhole.protocol, hwhole.keys⟩
    · rw [if_neg hcomplete] at heq
      refine Reassembles.of_eq (by rw [heq]; rfl) fun _ total htotal => hcomplete ?_
      rw [hqueued.complete_iff, hset]
      exact ⟨total, htotal⟩

/-! ### Steps keep the list consistent -/

theorem Fragment.Agrees.of_untimed {f' g' : Fragment} (h : f.Agrees g) (hf : f.untimed = f'.untimed)
    (hg : g.untimed = g'.untimed) : f'.Agrees g' := by
  rw [Agrees, ← key_of_untimed hf, ← key_of_untimed hg, ← piece_of_untimed hf, ← piece_of_untimed hg,
    ← protocol_of_untimed hf, ← protocol_of_untimed hg]
  exact h

/-- A list on which every fragment is, but for its timer, one of those that fit together. --/
theorem consistent_of_untimed {l : List Fragment} (hsound : ∀ f ∈ l, f.Sound) (hagree : ∀ f ∈ l, ∀ g ∈ l, f.Agrees g)
    (hheld : ∀ g ∈ a.held, ∃ f ∈ l, f.untimed = g.untimed) (hincomplete : ∀ c ∈ a.chains, c.complete = false) :
    Consistent a := by
  refine ⟨fun f hf => ?_, fun f hf g hg => ?_, hincomplete⟩
  · obtain ⟨f', hf', heq⟩ := hheld f hf
    exact (hsound f' hf').of_untimed heq
  · obtain ⟨f', hf', heqf⟩ := hheld f hf
    obtain ⟨g', hg', heqg⟩ := hheld g hg
    exact (hagree f' hf' g' hg').of_untimed heqf heqg

theorem Consistent.arrive (h : Consistent a) (hf : f.Sound) (hagree : ∀ g ∈ a.held, f.Agrees g) :
    Consistent (fragmentArrive env a f) := by
  refine @consistent_of_untimed _ (f :: a.held) ?_ ?_ (fun g hg => ?_) ?_
  · exact List.forall_mem_cons.mpr ⟨hf, h.sound⟩
  · refine List.forall_mem_cons.mpr ⟨List.forall_mem_cons.mpr ⟨f.agrees_refl, hagree⟩, fun g hg => ?_⟩
    exact List.forall_mem_cons.mpr ⟨(hagree g hg).symm, h.agree g hg⟩
  · rcases mem_held_arrive hg with heq | hg
    · exact ⟨f, List.mem_cons_self .., heq.symm⟩
    · exact ⟨g, List.mem_cons_of_mem f hg, rfl⟩
  · rcases fragmentArrive_cases env a f with ⟨-, heq⟩ | ⟨-, -, heq⟩ | ⟨before, c, after, -, hsplit, -, heq⟩
    · rw [heq]
      exact h.incomplete
    · rw [heq]
      refine List.forall_mem_append.mpr ⟨h.incomplete, List.forall_mem_singleton.mpr ?_⟩
      have hcomplete : Chain.complete ⟨f.arriving, []⟩ = (contiguous 0 [f.arriving] && !f.more) := rfl
      rw [hcomplete, contiguous]
      by_cases hoffset : f.offset = 0
      · rw [hf.part hoffset, Bool.not_true, Bool.and_false]
      · rw [if_pos (show 0 ≠ f.arriving.offset from fun hzero => hoffset hzero.symm), Bool.false_and]
    · have hold := h.incomplete
      rw [hsplit] at hold
      obtain ⟨hbefore, hrest⟩ := List.forall_mem_append.mp hold
      have hafter := (List.forall_mem_cons.mp hrest).2
      rw [heq, joinDatagram_eq]
      by_cases hcomplete : (c.insert (f.arriving.joining c)).1.complete = true
      · rw [if_pos hcomplete]
        exact List.forall_mem_append.mpr ⟨hbefore, hafter⟩
      · rw [if_neg hcomplete]
        exact List.forall_mem_append.mpr ⟨hbefore, List.forall_mem_cons.mpr ⟨eq_false_of_ne_true hcomplete, hafter⟩⟩

theorem complete_tick (c : Chain) : c.tick.complete = c.complete := by
  obtain ⟨first, rest⟩ := c
  cases rest with
  | nil => rfl
  | cons g rest => rfl

theorem Consistent.timeoutCheck (h : Consistent a) : Consistent (fragmentTimeoutCheck a) := by
  have hchains : (fragmentTimeoutCheck a).chains = (a.chains.filter (·.first.reassemblyTime ≠ 0)).map Chain.tick :=
    chains_timeoutWalk [] a.chains
  have hold : ∀ d ∈ (fragmentTimeoutCheck a).chains, ∃ c ∈ a.chains, c.tick = d := by
    intro d hd
    rw [hchains] at hd
    obtain ⟨c, hc, rfl⟩ := List.mem_map.mp hd
    exact ⟨c, List.mem_of_mem_filter hc, rfl⟩
  refine consistent_of_untimed h.sound h.agree (fun g hg => ?_) fun d hd => ?_
  · obtain ⟨d, hd, hg⟩ := List.mem_flatMap.mp hg
    obtain ⟨c, hc, rfl⟩ := hold d hd
    rcases List.mem_cons.mp hg with rfl | hg
    · exact ⟨c.first, mem_held hc (List.mem_cons_self ..), rfl⟩
    · exact ⟨g, mem_held hc (List.mem_cons_of_mem c.first hg), rfl⟩
  · obtain ⟨c, hc, rfl⟩ := hold d hd
    rw [complete_tick]
    exact h.incomplete c hc

theorem Consistent.assembly {queue : List Fragment} (h : Consistent a) (hsound : ∀ f ∈ queue, f.Sound)
    (hagree : ∀ f ∈ queue, ∀ g ∈ a.held ++ queue, f.Agrees g) : Consistent (fragmentAssembly env a queue) := by
  induction queue generalizing a with
  | nil => exact h
  | cons f queue ih =>
    have hf := hagree f (List.mem_cons_self ..)
    refine ih (h.arrive (hsound f (List.mem_cons_self ..)) fun g hg => hf g (List.mem_append_left _ hg))
      (fun g hg => hsound g (List.mem_cons_of_mem f hg)) fun g hg k hk => ?_
    have hg' := hagree g (List.mem_cons_of_mem f hg)
    rcases List.mem_append.mp hk with hk | hk
    · rcases mem_held_arrive hk with heq | hk
      · exact (hg' f (List.mem_append_right _ (List.mem_cons_self ..))).of_untimed rfl heq.symm
      · exact hg' k (List.mem_append_left _ hk)
    · exact hg' k (List.mem_append_right _ (List.mem_cons_of_mem f hk))

end

/-! ### Packets -/

namespace Ipv4Packet

def more (p : Ipv4Packet) : Bool := p.word1 &&& ipMoreFragment != 0

/-- The data without padding. --/
def octets (p : Ipv4Packet) : List UInt8 :=
  p.data.take ((p.word0 &&& lower16Mask).toNat - 4 * p.headerLength.toNat)

def piece (p : Ipv4Packet) : Piece UInt8 := ⟨8 * (p.word1 &&& ipOffsetMask).toNat, p.octets, !p.more⟩

/-- A fragment of an IPv4 datagram. --/
structure WellFormed (p : Ipv4Packet) : Prop where
  fragment : p.word1 &&& ipFragmentMask ≠ 0
  headerLength : 5 ≤ p.headerLength.toNat
  length : p.length.toNat = 4 * p.headerLength.toNat + p.data.length
  total : (p.word0 &&& lower16Mask).toNat ≤ p.length.toNat
  nonempty : p.octets ≠ []
  aligned : p.more = true → 8 ∣ p.octets.length
  within : p.piece.stop ≤ 65535

/-- A fragment that others follow has no options. --/
def Plain (p : Ipv4Packet) : Prop := p.more = true → p.headerLength = 5

variable {p : Ipv4Packet}

theorem headerLength_le (p : Ipv4Packet) : p.headerLength.toNat ≤ 15 := by
  rw [headerLength, BitVec.toNat_ushiftRight, Nat.shiftRight_eq_div_pow]
  have hle : (p.word0 &&& ipLengthMask).toNat ≤ ipLengthMask.toNat := by
    rw [BitVec.toNat_and]
    exact Nat.and_le_right
  have hmask : ipLengthMask.toNat = 0x0F000000 := rfl
  omega

/-- How long the data without padding is. --/
theorem WellFormed.length_octets (h : p.WellFormed) :
    (p.word0 &&& lower16Mask).toNat = 4 * p.headerLength.toNat + p.octets.length ∧ 0 < p.octets.length := by
  have hlength := h.length
  have htotal := h.total
  have hpos := List.length_pos_of_ne_nil h.nonempty
  have hoctets : p.octets.length = min ((p.word0 &&& lower16Mask).toNat - 4 * p.headerLength.toNat) p.data.length :=
    List.length_take
  omega

theorem toNat_headerLength_shift (p : Ipv4Packet) : (p.headerLength <<< 2).toNat = 4 * p.headerLength.toNat := by
  have hle := p.headerLength_le
  rw [BitVec.toNat_shiftLeft, Nat.shiftLeft_eq]
  omega

/-- What the receive path takes as the data is the data without padding. --/
theorem WellFormed.take_eq (h : p.WellFormed) :
    p.data.take ((p.word0 &&& lower16Mask) - p.headerLength <<< 2).toNat = p.octets := by
  obtain ⟨htotal, -⟩ := h.length_octets
  rw [octets, BitVec.toNat_sub_of_le (by rw [BitVec.le_def, toNat_headerLength_shift]; omega), toNat_headerLength_shift]

/-- The data of a fragment without options is what the length in its header counts. --/
theorem WellFormed.count (h : p.WellFormed) (hfive : p.headerLength = 5) :
    ((p.word0 &&& lower16Mask) - ipv4HeaderSize).toNat = p.octets.length := by
  obtain ⟨htotal, -⟩ := h.length_octets
  have hsize : ipv4HeaderSize.toNat = 20 := rfl
  have hwords : p.headerLength.toNat = 5 := congrArg BitVec.toNat hfive
  rw [BitVec.toNat_sub_of_le (by rw [BitVec.le_def]; omega)]
  omega

theorem more_iff (p : Ipv4Packet) : p.word1 &&& ipMoreFragment ≠ 0 ↔ p.more = true := bne_iff_ne.symm

theorem headerLength_gt_iff (p : Ipv4Packet) : p.headerLength > 5 ↔ 5 < p.headerLength.toNat := BitVec.lt_def

/-- What the receive path makes of a fragment: the options are gone from the packet and from the header length, and
    still in the total length. --/
def stripped (p : Ipv4Packet) : Fragment where
  addr := p.addr
  header := .v4 (if p.headerLength > 5 then p.word0 &&& ~~~ipLengthMask ||| 0x45000000 else p.word0) p.word1 p.word2
    p.source p.destination
  length := if p.headerLength > 5 then (p.word0 &&& lower16Mask) - (p.headerLength - 5) * 4 else p.word0 &&& lower16Mask
  data := p.octets
  pools := p.pools
  reassemblyTime := 0

theorem WellFormed.receive_eq (h : p.WellFormed) (hplain : p.Plain) {optionProcess : Ipv4Packet → Bool}
    (hoptions : p.headerLength > 5 → optionProcess p = true) :
    ipv4PacketReceive optionProcess p = .queued p.stripped := by
  obtain ⟨htotal, hpos⟩ := h.length_octets
  have hheader := h.headerLength
  rw [ipv4PacketReceive]
  dsimp only
  rw [if_neg, if_neg, if_neg, if_neg h.fragment, if_neg, stripped, ← h.take_eq]
  · rintro ⟨hmore, hne⟩
    rw [more_iff] at hmore
    refine hne (BitVec.eq_of_toNat_eq ?_)
    have hmod := Nat.and_two_pow_sub_one_eq_mod p.octets.length 3
    rw [Nat.mod_eq_zero_of_dvd (h.aligned hmore)] at hmod
    rw [BitVec.toNat_and, h.count (hplain hmore)]
    exact hmod
  · exact fun hand => Bool.false_ne_true (hand.2.symm.trans (hoptions hand.1))
  · have hfive : (5 : ULONG).toNat = 5 := rfl
    rw [BitVec.le_def, BitVec.lt_def, toNat_headerLength_shift]
    omega
  · rw [BitVec.lt_def]
    exact Nat.not_lt.mpr h.total

theorem WellFormed.toNat_length (h : p.WellFormed) : p.stripped.length.toNat = 20 + p.octets.length := by
  obtain ⟨htotal, -⟩ := h.length_octets
  have hle := p.headerLength_le
  have hheader := h.headerLength
  have hfive : (5 : ULONG).toNat = 5 := rfl
  rw [stripped]
  dsimp only
  split_ifs with hlong
  · rw [headerLength_gt_iff] at hlong
    have hextra : ((p.headerLength - 5) * 4).toNat = (p.headerLength.toNat - 5) * 4 := by
      rw [BitVec.toNat_mul, BitVec.toNat_sub_of_le (by rw [BitVec.le_def]; omega), hfive]
      exact Nat.mod_eq_of_lt (show (p.headerLength.toNat - 5) * 4 < 2 ^ 32 by omega)
    rw [BitVec.toNat_sub_of_le (by rw [BitVec.le_def]; omega)]
    omega
  · rw [headerLength_gt_iff] at hlong
    omega

theorem WellFormed.sound (h : p.WellFormed) (hplain : p.Plain) : p.stripped.Sound := by
  refine ⟨h.nonempty, h.within, h.toNat_length, fun hmore => ?_, fun hoffset => ?_⟩
  · have hfive := hplain hmore
    have hword0 : (if p.headerLength > 5 then p.word0 &&& ~~~ipLengthMask ||| 0x45000000 else p.word0) = p.word0 :=
      if_neg (by rw [hfive]; decide)
    show 8 * (((if p.headerLength > 5 then p.word0 &&& ~~~ipLengthMask ||| 0x45000000 else p.word0) &&& lower16Mask)
      - ipv4HeaderSize).toNat.div 8 = p.octets.length
    rw [hword0, h.count hfive]
    exact Nat.mul_div_cancel' (h.aligned hmore)
  · have hmask : ipFragmentMask = ipOffsetMask ||| ipMoreFragment := rfl
    have hzero : p.word1 &&& ipOffsetMask = 0 := hoffset
    have hfragment := h.fragment
    rw [hmask, BitVec.and_or_distrib_left, hzero] at hfragment
    exact p.more_iff.mp fun hmore => hfragment (by rw [hmore]; rfl)

end Ipv4Packet

namespace Ipv6Packet

def more (p : Ipv6Packet) : Bool := p.offsetFlag &&& 1 != 0

def piece (p : Ipv6Packet) : Piece UInt8 := ⟨(p.offsetFlag &&& 0xFFF8).toNat, p.data, !p.more⟩

/-- A fragment of an IPv6 datagram. --/
structure WellFormed (p : Ipv6Packet) : Prop where
  fragment : p.more = true ∨ p.offsetFlag &&& 0xFFF8 ≠ 0
  length : p.length.toNat = 8 + p.data.length
  nonempty : p.data ≠ []
  aligned : p.more = true → p.word1 >>> 16 &&& 0xFFF8 = p.word1 >>> 16
  within : p.piece.stop ≤ 65535

variable {p : Ipv6Packet}

/-- What the receive path makes of a fragment. --/
def asFragment (p : Ipv6Packet) : Fragment where
  addr := p.addr
  header := .v6 p.source p.destination p.nextHeader p.offsetFlag p.packetId
  length := p.length
  data := p.data
  pools := p.pools
  reassemblyTime := 0

theorem toNat_offset (p : Ipv6Packet) :
    ((p.offsetFlag &&& 0xFFF8).setWidth 32).toNat = (p.offsetFlag &&& 0xFFF8).toNat :=
  BitVec.toNat_setWidth_of_le (by decide)

theorem piece_asFragment (p : Ipv6Packet) : p.asFragment.piece = p.piece := by
  show (⟨1 * ((p.offsetFlag &&& 0xFFF8).setWidth 32).toNat, p.data, !p.more⟩ : Piece UInt8) = p.piece
  rw [Nat.one_mul, toNat_offset, piece]

theorem WellFormed.more_of_offset (h : p.WellFormed) (hzero : (p.offsetFlag &&& 0xFFF8).setWidth 32 = (0 : ULONG)) :
    p.more = true := by
  refine h.fragment.resolve_right fun hne => hne (BitVec.eq_of_toNat_eq ?_)
  rw [← toNat_offset, hzero]
  rfl

theorem WellFormed.process_eq (h : p.WellFormed) : ipv6ProcessFragmentOption p = .queued p.asFragment := by
  have hlength := h.length
  have hwithin := h.within
  have hstop : p.piece.stop = (p.offsetFlag &&& 0xFFF8).toNat + p.data.length := rfl
  have hsize : fragmentOptionSize.toNat = 8 := rfl
  have hoffset := p.toNat_offset
  have hmore : p.offsetFlag &&& 1 ≠ 0 ↔ p.more = true := bne_iff_ne.symm
  rw [ipv6ProcessFragmentOption]
  dsimp only
  rw [if_neg, if_neg, if_neg, if_neg, asFragment]
  · have hmax : (65535 : ULONG).toNat = 65535 := rfl
    rw [gt_iff_lt, BitVec.lt_def, BitVec.toNat_sub_of_le, BitVec.toNat_add_of_lt]
    · omega
    · omega
    · rw [BitVec.le_def, BitVec.toNat_add_of_lt (by omega)]
      omega
  · exact fun hand => absurd (h.more_of_offset hand.2) fun htrue => hmore.mpr htrue hand.1
  · exact fun hand => hand.2 (h.aligned (hmore.mp hand.1))
  · rw [BitVec.lt_def]
    omega

theorem WellFormed.sound (h : p.WellFormed) : p.asFragment.Sound := by
  have hlength := h.length
  have hsize : fragmentOptionSize.toNat = 8 := rfl
  refine ⟨h.nonempty, ?_, hlength, fun _ => ?_, h.more_of_offset⟩
  · rw [piece_asFragment]
    exact h.within
  · show 1 * (p.length - fragmentOptionSize).toNat = p.data.length
    rw [BitVec.toNat_sub_of_le (by rw [BitVec.le_def]; omega)]
    omega

end Ipv6Packet

/-! ### Over a run -/

/-- The packets are fragments, those that others follow without options. --/
def Action.Plain : Action → Prop
  | .ipv4 p => p.WellFormed ∧ p.Plain
  | .ipv6 p => p.WellFormed
  | .assemble queue => ∀ f ∈ queue,
    (∃ p : Ipv4Packet, p.WellFormed ∧ p.Plain ∧ f = p.stripped) ∨ ∃ p : Ipv6Packet, p.WellFormed ∧ f = p.asFragment
  | .timeout => True

/-- What arrives are fragments that fit together with each other and with those of their datagrams. --/
structure Action.Proper (env : Environment) (a : Assembly) (action : Action) : Prop where
  fresh : action.Fresh env a
  plain : action.Plain
  agree : ∀ f ∈ action.queue env, ∀ g ∈ a.held ++ action.queue env, f.Agrees g

section
variable {env : Environment} {a : Assembly} {f : Fragment} {action : Action}

theorem Action.Plain.sound (h : action.Plain) (hf : f ∈ action.queue env) : f.Sound := by
  cases action with
  | ipv4 p =>
    obtain ⟨hp, hplain⟩ := h
    by_cases hoptions : p.headerLength > 5 → env.optionProcess p = true
    · rw [Action.queue, hp.receive_eq hplain hoptions] at hf
      cases List.mem_singleton.mp hf
      exact hp.sound hplain
    · rw [Classical.not_imp, Bool.not_eq_true] at hoptions
      have hdropped : ipv4PacketReceive env.optionProcess p = .dropped := by
        rw [ipv4PacketReceive]
        dsimp only
        split_ifs
        · rfl
        · rfl
        · rfl
      rw [Action.queue, hdropped] at hf
      cases hf
  | ipv6 p =>
    have hp : p.WellFormed := h
    rw [Action.queue, hp.process_eq] at hf
    cases List.mem_singleton.mp hf
    exact hp.sound
  | assemble queue =>
    rcases h f hf with ⟨p, hp, hplain, rfl⟩ | ⟨p, hp, rfl⟩
    · exact hp.sound hplain
    · exact hp.sound
  | timeout => cases hf

theorem Consistent.step (h : Consistent a) (hproper : action.Proper env a) : Consistent (Ip.step env a action) := by
  have hsound : ∀ f ∈ action.queue env, f.Sound := fun f hf => hproper.plain.sound hf
  have hagree := hproper.agree
  cases action with
  | ipv4 p => exact h.assembly hsound hagree
  | ipv6 p => exact h.assembly hsound hagree
  | assemble queue => exact h.assembly hsound hagree
  | timeout => exact h.timeoutCheck

theorem consistent_empty : Consistent .empty := by
  refine ⟨?_, ?_, ?_⟩
  · exact List.forall_mem_nil _
  · exact List.forall_mem_nil _
  · exact List.forall_mem_nil _

theorem run_consistent {actions : List Action} (h : Run (Ip.step env) (Action.Proper env) .empty actions a) :
    Owned env a ∧ Consistent a := by
  refine h.invariant (P := fun _ a => Owned env a ∧ Consistent a) ⟨owned_empty env, consistent_empty⟩ ?_
  rintro actions a action ⟨ha, hc⟩ hproper
  exact ⟨ha.step hproper.fresh, hc.step hproper⟩

theorem dispatched_timeoutWalk (kept rest : List Chain) : (timeoutWalk a kept rest).dispatched = a.dispatched := by
  induction rest generalizing a kept with
  | nil => rfl
  | cons c rest ih =>
    rw [timeoutWalk]
    by_cases hexpired : c.first.reassemblyTime = 0
    · rw [if_pos hexpired, ih]
    · rw [if_neg hexpired, ih]

/-- After any fragments in any order, of any datagrams, and any timeouts: the next one completes its datagram exactly
    where what is held of it, with the new fragment, is the whole, and then its octets are dispatched; until then
    they are kept, and never longer. --/
theorem fragments_reassembled {actions : List Action} (h : Run (Ip.step env) (Action.Proper env) .empty actions a) :
    (∀ p : Ipv4Packet, (Action.ipv4 p).Proper env a → (p.headerLength > 5 → env.optionProcess p = true) →
      ∃ f, Ip.step env a (.ipv4 p) = fragmentArrive env a f ∧ f.piece = p.piece ∧ Reassembles env a f) ∧
    (∀ p : Ipv6Packet, (Action.ipv6 p).Proper env a →
      ∃ f, Ip.step env a (.ipv6 p) = fragmentArrive env a f ∧ f.piece = p.piece ∧ Reassembles env a f) ∧
    (fragmentTimeoutCheck a).dispatched = a.dispatched ∧ ∀ key total, ¬ Complete (a.pieces key) total := by
  obtain ⟨ha, hc⟩ := run_consistent h
  refine ⟨fun p hproper hoptions => ?_, fun p hproper => ?_, dispatched_timeoutWalk [] a.chains, hc.not_complete ha⟩
  · obtain ⟨hp, hplain⟩ := hproper.plain
    have hqueue : (Action.ipv4 p).queue env = [p.stripped] := by rw [Action.queue, hp.receive_eq hplain hoptions]
    have hagree := hproper.agree
    rw [hqueue] at hagree
    refine ⟨p.stripped, ?_, rfl, hc.reassembles ha (hp.sound hplain) fun g hg => ?_⟩
    · show fragmentAssembly env a ((Action.ipv4 p).queue env) = _
      rw [hqueue]
      rfl
    · exact hagree _ (List.mem_singleton_self _) g (List.mem_append_left _ hg)
  · have hp : p.WellFormed := hproper.plain
    have hqueue : (Action.ipv6 p).queue env = [p.asFragment] := by rw [Action.queue, hp.process_eq]
    have hagree := hproper.agree
    rw [hqueue] at hagree
    refine ⟨p.asFragment, ?_, p.piece_asFragment, hc.reassembles ha hp.sound fun g hg => ?_⟩
    · show fragmentAssembly env a ((Action.ipv6 p).queue env) = _
      rw [hqueue]
      rfl
    · exact hagree _ (List.mem_singleton_self _) g (List.mem_append_left _ hg)

/-- A first fragment of eight octets, and a last one behind it. --/
theorem fragments_reassembled_pair :
    let first := Ipv4Packet.plain 1 7 0 true [] [1, 2, 3, 4, 5, 6, 7, 8]
    let last := Ipv4Packet.plain 2 7 1 false [] [9]
    ∃ f, f.piece = last.piece ∧ Reassembles .ideal (step .ideal .empty (.ipv4 first)) f := by
  intro first last
  have hfirst : first.WellFormed :=
    ⟨by decide, by decide, by decide, by decide, by decide, fun _ => by decide, by decide⟩
  have hlast : last.WellFormed :=
    ⟨by decide, by decide, by decide, by decide, by decide, fun hmore => absurd hmore (by decide), by decide⟩
  have hstart : (Action.ipv4 first).Proper .ideal .empty := by
    have hqueue : (Action.ipv4 first).queue .ideal = [first.stripped] := by decide
    refine ⟨⟨by decide, by decide⟩, ⟨hfirst, fun _ => by decide⟩, ?_⟩
    rw [hqueue]
    exact List.forall_mem_singleton.mpr (List.forall_mem_singleton.mpr (Fragment.agrees_refl _))
  have hnext : (Action.ipv4 last).Proper .ideal (step .ideal .empty (.ipv4 first)) := by
    have hqueue : (Action.ipv4 last).queue .ideal = [last.stripped] := by decide
    have hheld : (step .ideal .empty (.ipv4 first)).held = [first.stripped.arriving] := by decide
    refine ⟨⟨by decide, by decide⟩, ⟨hlast, fun hmore => absurd hmore (by decide)⟩, ?_⟩
    rw [hqueue, hheld]
    refine List.forall_mem_singleton.mpr (List.forall_mem_cons.mpr ⟨fun _ => ⟨?_, by decide⟩, ?_⟩)
    · exact Or.inr (Or.inr ⟨by decide, by decide⟩)
    · exact List.forall_mem_singleton.mpr (Fragment.agrees_refl _)
  obtain ⟨f, -, hpiece, h⟩ := (fragments_reassembled (.single hstart)).1 last hnext fun hlong => absurd hlong (by decide)
  exact ⟨f, hpiece, h⟩

/-- With two words of options in the first fragment its datagram is not put together, and one that lacks the eight
    octets behind it is. --/
theorem fragments_with_options :
    let first := Ipv4Packet.plain 1 7 0 true [0x01010101, 0x01010101] [1, 2, 3, 4, 5, 6, 7, 8]
    let last := Ipv4Packet.plain 2 7 1 false [] [9]
    let behind := Ipv4Packet.plain 2 7 2 false [] [9]
    let a := step .ideal .empty (.ipv4 first)
    first.WellFormed ∧ last.WellFormed ∧ behind.WellFormed ∧
      Complete (insert last.piece (a.pieces last.stripped.key)) 9 ∧ (step .ideal a (.ipv4 last)).dispatched = [] ∧
      (∀ total, ¬ Complete (insert behind.piece (a.pieces behind.stripped.key)) total) ∧
      (step .ideal a (.ipv4 behind)).dispatched.map (·.octets) = [[1, 2, 3, 4, 5, 6, 7, 8, 9]] := by
  intro first last behind a
  have hheld : a.held = [first.stripped.arriving] := by decide
  have hkey : first.stripped.key = last.stripped.key := by decide
  have hkey' : behind.stripped.key = last.stripped.key := by decide
  have hpieces : a.pieces last.stripped.key = {first.piece} := by
    ext p
    rw [Assembly.pieces, hheld, Set.mem_ofPred_eq, Set.mem_singleton_iff]
    constructor
    · rintro ⟨f, hf, -, rfl⟩
      rw [List.mem_singleton.mp hf]
      rfl
    · rintro rfl
      exact ⟨_, List.mem_singleton_self _, hkey, rfl⟩
  rw [hkey', hpieces]
  refine ⟨?_, ?_, ?_, ⟨fun n hn => ?_, last.piece, Set.mem_insert .., by decide, by decide⟩, by decide +kernel,
    fun total h => ?_, by decide +kernel⟩
  · exact ⟨by decide, by decide, by decide, by decide, by decide, fun _ => by decide, by decide⟩
  · exact ⟨by decide, by decide, by decide, by decide, by decide, fun hmore => absurd hmore (by decide), by decide⟩
  · exact ⟨by decide, by decide, by decide, by decide, by decide, fun hmore => absurd hmore (by decide), by decide⟩
  · have hstart : last.piece.start = 8 := by decide
    have hstop : last.piece.stop = 9 := by decide
    have hstop' : first.piece.stop = 8 := by decide
    have hstart' : first.piece.start = 0 := by decide
    by_cases hn8 : n < 8
    · exact ⟨first.piece, Or.inr rfl, hstart'.le.trans (Nat.zero_le n), hn8.trans_eq hstop'.symm⟩
    · exact ⟨last.piece, Set.mem_insert .., hstart.le.trans (Nat.not_lt.mp hn8), hn.trans_eq hstop.symm⟩
  · obtain ⟨p, hp, hlast, rfl⟩ := h.closed
    rcases hp with rfl | rfl
    · obtain ⟨q, hq, hle, hlt⟩ := h.covered 8 (by decide)
      rcases hq with rfl | rfl
      · exact absurd hle (by decide)
      · exact absurd hlt (by decide)
    · exact absurd hlast (by decide)

end

end Netxduo.Ip
