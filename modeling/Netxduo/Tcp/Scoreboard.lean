import Netxduo.Library.Coverage
import Netxduo.Tcp.SackRecovery

/-! The scoreboard as a list of holes. A rebuild writes the holes of the next scoreboard into the bank that is not
    active: what it writes is the list `rebuilt`, and the active bank does not change until all of it fits. -/

namespace Netxduo
open Serial Spans

namespace SackRecovery

/-! ### Banks -/

section
variable {k k' k'' : SackRecovery} {bank bank' : Bool} {i j n : Nat}

/-- The first `n` holes of a bank. --/
def bankHoles (k : SackRecovery) (bank : Bool) (n : Nat) : List SackHole := (List.range n).map (k.hole bank)

theorem holes_eq (k : SackRecovery) : k.holes = k.bankHoles k.flags.bank k.holeCount := rfl

theorem bankHoles_succ (k : SackRecovery) (bank : Bool) (n : Nat) :
    k.bankHoles bank (n + 1) = k.bankHoles bank n ++ [k.hole bank n] := by
  simp [bankHoles, List.range_succ]

theorem hole_setHole_self (k : SackRecovery) (bank : Bool) (i : Nat) (h : SackHole) :
    (k.setHole bank i h).hole bank i = h := by
  simp [hole, setHole, slot]

/-- Two holes lie in different cells. --/
theorem hole_setHole_ne (hp : 0 < k.pageCapacity) (h : SackHole) (hne : bank' ≠ bank ∨ j ≠ i) :
    (k.setHole bank i h).hole bank' j = k.hole bank' j := by
  have hi := Nat.mod_lt i hp
  have hj := Nat.mod_lt j hp
  simp only [hole, setHole, slot]
  by_cases hpage : j / k.pageCapacity = i / k.pageCapacity
  · rw [hpage, Function.update_self, Function.update_of_ne]
    intro hslot
    have hmod : bank' = bank ∧ j % k.pageCapacity = i % k.pageCapacity := by
      cases bank' <;> cases bank <;> simp at hslot ⊢ <;> omega
    rcases hne with hne | hne
    · exact hne hmod.1
    · rw [← Nat.div_add_mod j k.pageCapacity, ← Nat.div_add_mod i k.pageCapacity, hpage, hmod.2] at hne
      exact hne rfl
  · rw [Function.update_of_ne hpage]

/-- Only cells of `bank` are written. --/
structure Drafts (bank : Bool) (k k' : SackRecovery) : Prop where
  others : k' = { k with cells := k'.cells }
  kept : ∀ i, k'.hole (!bank) i = k.hole (!bank) i

theorem Drafts.refl (bank : Bool) (k : SackRecovery) : Drafts bank k k := ⟨rfl, fun _ => rfl⟩

theorem Drafts.trans (h : Drafts bank k k') (h' : Drafts bank k' k'') : Drafts bank k k'' := by
  refine ⟨?_, fun i => (h'.kept i).trans (h.kept i)⟩
  rw [h'.others, h.others]

theorem drafts_setHole (hp : 0 < k.pageCapacity) (bank : Bool) (i : Nat) (h : SackHole) :
    Drafts bank k (k.setHole bank i h) :=
  ⟨rfl, fun _ => hole_setHole_ne hp h (.inl (by simp))⟩

theorem Drafts.pageCapacity (h : Drafts bank k k') : k'.pageCapacity = k.pageCapacity := by
  rw [h.others]

theorem Drafts.holes (h : Drafts (!k.flags.bank) k k') : k'.holes = k.holes := by
  have hflags : k'.flags = k.flags := by rw [h.others]
  have hcount : k'.holeCount = k.holeCount := by rw [h.others]
  rw [holes_eq, holes_eq, hflags, hcount, bankHoles, bankHoles]
  apply List.map_congr_left
  intro i _
  have := h.kept i
  rwa [Bool.not_not] at this

end

end SackRecovery

open SackRecovery

/-! ### What is written -/

section
variable {k k' : SackRecovery} {bank : Bool} {count cap : Nat} {left right rxmit : ULONG} {blocks : List SackBlock}
  {l l₁ l₂ : List SackHole} {out out' : Nat × SackRecovery}

/-- From the index `count` on the holes `l` are written into a bank of `cap` holes, or it is found that they do not
    fit. --/
structure Writes (bank : Bool) (cap count : Nat) (k : SackRecovery) (l : List SackHole) (out : Nat × SackRecovery) :
    Prop where
  drafts : Drafts bank k out.2
  fits : count + l.length ≤ cap →
    out.1 = count + l.length ∧ out.2.bankHoles bank (count + l.length) = k.bankHoles bank count ++ l
  full : cap < count + l.length → out.1 = cap + 1

theorem Writes.none (bank : Bool) {cap count : Nat} (h : count ≤ cap) (k : SackRecovery) :
    Writes bank cap count k [] (count, k) :=
  ⟨.refl bank k, fun _ => ⟨rfl, by simp⟩, fun h' => absurd h' (by simpa using h)⟩

/-- One after the other, the second only where the first have fitted. --/
theorem Writes.seq (h : Writes bank cap count k l₁ out)
    (h' : count + l₁.length ≤ cap → Writes bank cap out.1 out.2 l₂ out') :
    Writes bank cap count k (l₁ ++ l₂) (if out.1 > cap then out else out') := by
  by_cases hfit : count + l₁.length ≤ cap
  · obtain ⟨hcount, hholes⟩ := h.fits hfit
    rw [if_neg (by omega)]
    obtain ⟨hd, hf, hn⟩ := h' hfit
    rw [hcount] at hf hn
    refine ⟨h.drafts.trans hd, fun hle => ?_, fun hlt => ?_⟩
    · rw [List.length_append, ← Nat.add_assoc] at hle ⊢
      obtain ⟨h₁, h₂⟩ := hf hle
      exact ⟨h₁, by rw [h₂, hholes, List.append_assoc]⟩
    · rw [List.length_append, ← Nat.add_assoc] at hlt
      exact hn hlt
  · have hover := h.full (by omega)
    rw [if_pos (by omega)]
    refine ⟨h.drafts, fun hle => ?_, fun _ => hover⟩
    rw [List.length_append] at hle
    omega

/-- The hole of `sack_append`. --/
def kept (left right rxmit : ULONG) : List SackHole :=
  if INT (right - left) ≤ 0 then [] else [⟨left, right, sackClamp left right rxmit⟩]

theorem sackAppend_writes (hp : 0 < k.pageCapacity) (hc : count ≤ cap) (left right rxmit : ULONG) :
    Writes bank cap count k (kept left right rxmit) (sackAppend k bank count cap left right rxmit) := by
  unfold sackAppend kept
  split
  · exact .none bank hc k
  split
  · rename_i hfull
    refine ⟨.refl bank k, fun hle => ?_, fun _ => rfl⟩
    rw [List.length_singleton] at hle
    omega
  · rename_i hroom
    refine ⟨drafts_setHole hp bank count _, fun _ => ⟨rfl, ?_⟩, fun hlt => ?_⟩
    · rw [List.length_singleton, bankHoles_succ, hole_setHole_self]
      congr 1
      apply List.map_congr_left
      intro i hi
      have := List.mem_range.mp hi
      exact hole_setHole_ne hp _ (.inr (by omega))
    · rw [List.length_singleton] at hlt
      omega

/-- The holes of `sack_subtract`. --/
def pieces (left right rxmit : ULONG) : List SackBlock → List SackHole
  | [] => kept left right rxmit
  | b :: rest =>
    if INT (right - left) > 0 then
      if INT (b.right - left) ≤ 0 then pieces left right rxmit rest
      else if INT (b.left - right) ≥ 0 then kept left right rxmit
      else if INT (b.left - left) > 0 then kept left b.left rxmit ++ pieces b.right right rxmit rest
      else pieces b.right right rxmit rest
    else kept left right rxmit

theorem sackSubtract_writes (hp : 0 < k.pageCapacity) (hc : count ≤ cap) (left right rxmit : ULONG)
    (blocks : List SackBlock) :
    Writes bank cap count k (pieces left right rxmit blocks)
      (sackSubtract k bank count cap left right rxmit blocks) := by
  induction blocks generalizing k count left with
  | nil => exact sackAppend_writes hp hc left right rxmit
  | cons b rest ih =>
    unfold sackSubtract pieces
    split
    · split
      · exact ih hp hc left
      split
      · exact sackAppend_writes hp hc left right rxmit
      split
      · have hfirst : Writes bank cap count k (kept left b.left rxmit) _ := sackAppend_writes hp hc left b.left rxmit
        refine hfirst.seq fun hfit => ih ?_ ?_ _
        · rw [hfirst.drafts.pageCapacity]
          exact hp
        · rw [(hfirst.fits hfit).1]
          exact hfit
      · exact ih hp hc _
    · exact sackAppend_writes hp hc left right rxmit

/-- The holes of a rebuild that come from one active hole. --/
def cutHole (ack : ULONG) (blocks : List SackBlock) (h : SackHole) : List SackHole :=
  pieces (if INT (ack - h.left) > 0 then ack else h.left) h.right h.rxmit blocks

theorem sackRebuildHoles_writes (hp : 0 < k.pageCapacity) (hc : count ≤ cap) (blocks : List SackBlock) (ack : ULONG)
    (bank : Bool) (indices : List Nat) :
    Writes (!bank) cap count k ((indices.map (k.hole bank)).flatMap (cutHole ack blocks))
      (sackRebuildHoles blocks ack bank cap indices count k) := by
  induction indices generalizing k count with
  | nil => exact .none _ hc k
  | cons i rest ih =>
    have hfirst : Writes (!bank) cap count k (cutHole ack blocks (k.hole bank i)) _ :=
      sackSubtract_writes hp hc _ _ _ blocks
    rw [List.map_cons, List.flatMap_cons]
    refine hfirst.seq fun hfit => ?_
    have hrest := ih (hfirst.drafts.pageCapacity ▸ hp) ((hfirst.fits hfit).1 ▸ hfit)
    have hkept := funext hfirst.drafts.kept
    rw [Bool.not_not] at hkept
    rw [hkept] at hrest
    exact hrest

/-! ### A rebuild -/

/-- The evidence held before, as far as it lies above the acknowledgment. --/
def oldFack (k : SackRecovery) : ULONG := if INT (k.highAck - k.fack) > 0 then k.highAck else k.fack

/-- The scoreboard of a rebuild. --/
def rebuilt (k : SackRecovery) (blocks : List SackBlock) (fack : ULONG) (discard : Bool) : List SackHole :=
  if discard then pieces k.highAck fack k.highAck blocks
  else k.holes.flatMap (cutHole k.highAck blocks) ++ pieces (oldFack k) fack (oldFack k) blocks

/-- The holes fit, and are the active ones. --/
structure Rebuilds (k : SackRecovery) (l : List SackHole) (fack : ULONG) (k' : SackRecovery) : Prop where
  others : k' = { k with
    cells := k'.cells
    holeCount := l.length
    fack := fack
    flags := { k.flags with bank := !k.flags.bank } }
  holes : k'.holes = l

theorem sackRebuild_writes (hp : 0 < k.pageCapacity) (blocks : List SackBlock) (fack : ULONG) (discard : Bool) :
    ∃ out, Writes (!k.flags.bank) k.holeCapacity 0 k (rebuilt k blocks fack discard) out ∧
      sackRebuild k blocks fack discard =
        if out.1 > k.holeCapacity then (false, out.2)
        else (true, { out.2 with
          holeCount := out.1
          fack := fack
          flags := { out.2.flags with bank := !k.flags.bank } }) := by
  unfold sackRebuild rebuilt
  cases discard with
  | true => exact ⟨_, sackSubtract_writes hp (Nat.zero_le _) _ _ _ blocks, rfl⟩
  | false =>
    have hfirst := sackRebuildHoles_writes hp (Nat.zero_le k.holeCapacity) blocks k.highAck k.flags.bank
      (List.range k.holeCount)
    refine ⟨_, hfirst.seq fun hfit => ?_, rfl⟩
    have hfack : (sackRebuildHoles blocks k.highAck k.flags.bank k.holeCapacity (List.range k.holeCount) 0 k).2.fack =
        k.fack := by rw [hfirst.drafts.others]
    rw [hfack]
    exact sackSubtract_writes (hfirst.drafts.pageCapacity ▸ hp) ((hfirst.fits hfit).1 ▸ hfit) _ _ _ blocks

/-- A rebuild whose holes fit makes them the active ones. --/
theorem sackRebuild_fits (hp : 0 < k.pageCapacity) {fack : ULONG} {discard : Bool}
    (h : (rebuilt k blocks fack discard).length ≤ k.holeCapacity) :
    ∃ k', sackRebuild k blocks fack discard = (true, k') ∧ Rebuilds k (rebuilt k blocks fack discard) fack k' := by
  obtain ⟨out, hw, heq⟩ := sackRebuild_writes hp blocks fack discard
  rw [← Nat.zero_add (List.length _)] at h
  obtain ⟨hcount, hholes⟩ := hw.fits h
  rw [Nat.zero_add] at hcount hholes
  rw [if_neg (by omega)] at heq
  refine ⟨_, heq, ?_, ?_⟩
  · rw [hw.drafts.others, hcount]
  · rw [holes_eq, hcount]
    exact hholes

/-- A rebuild that overflows leaves the active bank the way it was. --/
theorem sackRebuild_overflows (hp : 0 < k.pageCapacity) {fack : ULONG} {discard : Bool}
    (h : k.holeCapacity < (rebuilt k blocks fack discard).length) :
    ∃ k', sackRebuild k blocks fack discard = (false, k') ∧ Drafts (!k.flags.bank) k k' := by
  obtain ⟨out, hw, heq⟩ := sackRebuild_writes hp blocks fack discard
  have hfull := hw.full (by rw [Nat.zero_add]; exact h)
  rw [if_pos (by omega)] at heq
  exact ⟨_, heq, hw.drafts⟩

end

end Netxduo
