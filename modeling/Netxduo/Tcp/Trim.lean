import Netxduo.Tcp.Socket

/-! Cutting a packet chain at either end, `nx_tcp_socket_state_data_check.c`. -/

namespace Netxduo

/-! ### The two walks -/

/-- The walk of `_nx_tcp_socket_state_data_trim` over the chained buffers: the buffer the kept bytes
    end in is cut, the rest of the chain is released. --/
def dataTrimChain (bytesToKeep : Nat) : List (List UInt8) → List (List UInt8)
  | [] => []
  | buffer :: rest =>
    if buffer.length < bytesToKeep then buffer :: dataTrimChain (bytesToKeep - buffer.length) rest
    else [buffer.take bytesToKeep]

/-- `_nx_tcp_socket_state_data_trim`: `amount` bytes come off the end. --/
def socketStateDataTrim (p : Packet) (amount : ULONG) : Packet :=
  if amount ≥ p.length then p
  else
    let bytesToKeep := p.length - amount
    let headerLength := p.header.headerLength.toNat
    if headerLength + p.first.length < bytesToKeep.toNat then
      { p with
        length := bytesToKeep
        chain := dataTrimChain (bytesToKeep.toNat - (headerLength + p.first.length)) p.chain }
    else
      { p with
        length := bytesToKeep
        first := p.first.take (bytesToKeep.toNat - headerLength)
        chain := [] }

/-- The walk of `_nx_tcp_socket_state_data_trim_front` behind the first buffer: buffers the amount
    covers are released, the next one starts behind it. --/
def dataTrimFrontChain (amount : Nat) : List (List UInt8) → List (List UInt8)
  | [] => []
  | buffer :: rest =>
    if amount > buffer.length then dataTrimFrontChain (amount - buffer.length) rest
    else buffer.drop amount :: rest

/-- `_nx_tcp_socket_state_data_trim_front`: `amount` bytes come off the front of the payload. --/
def socketStateDataTrimFront (p : Packet) (amount : ULONG) : Packet :=
  if amount ≥ p.length ∨ amount = 0 then p
  else if amount.toNat > p.first.length then
    { p with
      length := p.length - amount
      first := []
      chain := dataTrimFrontChain (amount.toNat - p.first.length) p.chain }
  else
    { p with
      length := p.length - amount
      first := p.first.drop amount.toNat }

/-! ### What is kept -/

theorem flatten_dataTrimChain (n : Nat) (l : List (List UInt8)) :
    (dataTrimChain n l).flatten = l.flatten.take n := by
  induction l generalizing n with
  | nil => simp [dataTrimChain]
  | cons buffer rest ih =>
    by_cases h : buffer.length < n
    · rw [dataTrimChain, if_pos h, List.flatten_cons, List.flatten_cons, ih, List.take_append,
        List.take_of_length_le (Nat.le_of_lt h)]
    · have hn : n - buffer.length = 0 := Nat.sub_eq_zero_of_le (Nat.le_of_not_lt h)
      rw [dataTrimChain, if_neg h, List.flatten_cons, List.flatten_cons, List.take_append, hn]
      simp

theorem flatten_dataTrimFrontChain (n : Nat) (l : List (List UInt8)) :
    (dataTrimFrontChain n l).flatten = l.flatten.drop n := by
  induction l generalizing n with
  | nil => simp [dataTrimFrontChain]
  | cons buffer rest ih =>
    by_cases h : n > buffer.length
    · rw [dataTrimFrontChain, if_pos h, ih, List.flatten_cons, List.drop_append,
        List.drop_eq_nil_of_le (Nat.le_of_lt h), List.nil_append]
    · rw [dataTrimFrontChain, if_neg h, List.flatten_cons, List.flatten_cons, List.drop_append,
        Nat.sub_eq_zero_of_le (Nat.le_of_not_lt h), List.drop_zero]

namespace Packet

variable {p : Packet} {amount : ULONG}

theorem WellFormed.dataLength_toNat (h : p.WellFormed) : p.dataLength.toNat = p.octets.length := by
  have h₁ := h.length_eq
  have h₂ := h.length_lt
  rw [dataLength, BitVec.toNat_sub_of_le (by rw [BitVec.le_def]; omega)]
  omega

theorem WellFormed.dataLength_toInt (h : p.WellFormed) : p.dataLength.toInt = p.octets.length := by
  have h₁ := h.dataLength_toNat
  have h₂ := h.length_eq
  have h₃ := h.length_lt
  rw [BitVec.toInt_eq_toNat_of_lt (by omega), h₁]

@[simp] theorem header_dataTrim : (socketStateDataTrim p amount).header = p.header := by
  unfold socketStateDataTrim
  split
  · rfl
  · dsimp only
    split <;> rfl

@[simp] theorem header_dataTrimFront : (socketStateDataTrimFront p amount).header = p.header := by
  unfold socketStateDataTrimFront
  split
  · rfl
  · split <;> rfl

theorem octets_dataTrim (h : p.WellFormed) (ha : amount.toNat < p.octets.length) :
    (socketStateDataTrim p amount).octets = p.octets.take (p.octets.length - amount.toNat) := by
  have h₁ := h.length_eq
  have hkeep : (p.length - amount).toNat = p.header.headerLength.toNat + (p.octets.length - amount.toNat) := by
    rw [BitVec.toNat_sub_of_le (by rw [BitVec.le_def]; omega)]
    omega
  have hlen : p.octets.length = p.first.length + p.chain.flatten.length := by simp [octets]
  unfold socketStateDataTrim
  rw [if_neg (by rw [ge_iff_le, BitVec.le_def]; omega)]
  dsimp only
  split
  · rename_i hlt
    show p.first ++ (dataTrimChain _ p.chain).flatten = (p.first ++ p.chain.flatten).take _
    rw [flatten_dataTrimChain, List.take_append, List.take_of_length_le (l := p.first) (by omega)]
    congr 2
    omega
  · rename_i hge
    show p.first.take _ ++ [] = (p.first ++ p.chain.flatten).take _
    rw [List.take_append, List.append_nil,
      show p.octets.length - amount.toNat - p.first.length = 0 by omega, List.take_zero, List.append_nil]
    congr 1
    omega

theorem octets_dataTrimFront (h : p.WellFormed) (ha : amount.toNat < p.octets.length) :
    (socketStateDataTrimFront p amount).octets = p.octets.drop amount.toNat := by
  have h₁ := h.length_eq
  unfold socketStateDataTrimFront
  split
  · rename_i hnone
    rw [ge_iff_le, BitVec.le_def] at hnone
    have h0 : amount = 0 := by
      rcases hnone with hle | h0
      · omega
      · exact h0
    simp [h0]
  · split
    · rename_i hgt
      simp only [octets, flatten_dataTrimFrontChain, List.nil_append]
      rw [List.drop_append, List.drop_eq_nil_of_le (Nat.le_of_lt hgt), List.nil_append]
    · rename_i hle
      simp only [octets]
      rw [List.drop_append, Nat.sub_eq_zero_of_le (Nat.le_of_not_lt hle), List.drop_zero]

theorem WellFormed.dataTrim (h : p.WellFormed) (ha : amount.toNat < p.octets.length) :
    (socketStateDataTrim p amount).WellFormed := by
  have h₁ := h.length_eq
  have h₂ := h.length_lt
  have hkeep : (p.length - amount).toNat = p.length.toNat - amount.toNat :=
    BitVec.toNat_sub_of_le (by rw [BitVec.le_def]; omega)
  have hlength : (socketStateDataTrim p amount).length = p.length - amount := by
    unfold socketStateDataTrim
    rw [if_neg (by rw [ge_iff_le, BitVec.le_def]; omega)]
    dsimp only
    split <;> rfl
  constructor
  · rw [hlength, header_dataTrim, octets_dataTrim h ha, List.length_take, hkeep]
    omega
  · rw [hlength, hkeep]
    omega

theorem WellFormed.dataTrimFront (h : p.WellFormed) (ha : amount.toNat < p.octets.length) :
    (socketStateDataTrimFront p amount).WellFormed := by
  have h₁ := h.length_eq
  have h₂ := h.length_lt
  have hkeep : (p.length - amount).toNat = p.length.toNat - amount.toNat :=
    BitVec.toNat_sub_of_le (by rw [BitVec.le_def]; omega)
  have hlength : (socketStateDataTrimFront p amount).length = p.length - amount := by
    unfold socketStateDataTrimFront
    split
    · rename_i hnone
      rw [ge_iff_le, BitVec.le_def] at hnone
      have h0 : amount = 0 := by
        rcases hnone with hle | h0
        · omega
        · exact h0
      simp [h0]
    · split <;> rfl
  constructor
  · rw [hlength, header_dataTrimFront, octets_dataTrimFront h ha, List.length_drop, hkeep]
    omega
  · rw [hlength, hkeep]
    omega

end Packet

end Netxduo
