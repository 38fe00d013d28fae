import Mathlib.Data.List.Basic

/-! Iterated hashing of a sequence that comes in pieces: a state that takes whole blocks, and what is kept of a block
    that is not complete. -/

namespace BlockHash

variable {σ α : Type*} {n : Nat} {f : σ → List α → σ} {s₀ s : σ} {m rest x : List α}

/-- The first blocks of a sequence. --/
def blocks (n : Nat) : Nat → List α → List (List α)
  | 0, _ => []
  | k + 1, l => l.take n :: blocks n k (l.drop n)

/-- The state after all blocks of a sequence. --/
def hash (n : Nat) (f : σ → List α → σ) (s₀ : σ) (l : List α) : σ := (blocks n (l.length / n) l).foldl f s₀

/-- Of what has come so far the state has taken the whole blocks, and this is the rest. --/
structure Absorbed (n : Nat) (f : σ → List α → σ) (s₀ : σ) (m : List α) (s : σ) (rest : List α) : Prop where
  taken : ∃ bs : List (List α), (∀ b ∈ bs, b.length = n) ∧ m = bs.flatten ++ rest ∧ s = bs.foldl f s₀
  short : rest.length < n

theorem absorbed_nil (hn : 0 < n) : Absorbed n f s₀ [] s₀ [] := ⟨⟨[], by simp, rfl, rfl⟩, hn⟩

theorem length_flatten {bs : List (List α)} (hbs : ∀ b ∈ bs, b.length = n) : bs.flatten.length = bs.length * n := by
  induction bs with
  | nil => simp
  | cons b bs ih =>
    rw [List.flatten_cons, List.length_append, hbs b List.mem_cons_self,
      ih fun c hc => hbs c (List.mem_cons_of_mem _ hc), List.length_cons, Nat.succ_mul, Nat.add_comm]

/-- How long the rest is. --/
theorem Absorbed.length (h : Absorbed n f s₀ m s rest) : rest.length = m.length % n := by
  obtain ⟨bs, hbs, rfl, -⟩ := h.taken
  rw [List.length_append, length_flatten hbs, Nat.mul_comm, Nat.mul_add_mod, Nat.mod_eq_of_lt h.short]

/-- A piece that does not complete the block. --/
theorem Absorbed.part (h : Absorbed n f s₀ m s rest) (hx : (rest ++ x).length < n) :
    Absorbed n f s₀ (m ++ x) s (rest ++ x) := by
  obtain ⟨bs, hbs, rfl, hs⟩ := h.taken
  exact ⟨⟨bs, hbs, List.append_assoc .., hs⟩, hx⟩

/-- A piece that completes it. --/
theorem Absorbed.block (h : Absorbed n f s₀ m s rest) (hx : (rest ++ x).length = n) :
    Absorbed n f s₀ (m ++ x) (f s (rest ++ x)) [] := by
  obtain ⟨bs, hbs, rfl, rfl⟩ := h.taken
  refine ⟨⟨bs ++ [rest ++ x], fun b hb => ?_, by simp, by simp⟩, Nat.lt_of_le_of_lt (Nat.zero_le _) h.short⟩
  rcases List.mem_append.mp hb with hb | hb
  · exact hbs b hb
  · rw [List.mem_singleton.mp hb]
    exact hx

theorem blocks_flatten : ∀ {bs : List (List α)}, (∀ b ∈ bs, b.length = n) → blocks n bs.length bs.flatten = bs
  | [], _ => rfl
  | b :: bs, hbs => by
    have hb := hbs b List.mem_cons_self
    rw [List.length_cons, List.flatten_cons, blocks, List.take_left' hb, List.drop_left' hb,
      blocks_flatten fun c hc => hbs c (List.mem_cons_of_mem _ hc)]

/-- Nothing is left: the state is that after all blocks. --/
theorem Absorbed.hash (h : Absorbed n f s₀ m s []) : s = hash n f s₀ m := by
  obtain ⟨bs, hbs, rfl, rfl⟩ := h.taken
  rw [BlockHash.hash, List.append_nil, length_flatten hbs,
    Nat.mul_div_cancel _ (Nat.lt_of_le_of_lt (Nat.zero_le _) h.short), blocks_flatten hbs]

end BlockHash
