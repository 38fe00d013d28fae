import Mathlib.Data.List.Basic
import Mathlib.Data.List.TakeDrop
import Netxduo.Library.Runs

/-! PPP frames on a serial line: octets that are escaped, a check sequence, flags. What is sent is received, however
    the octets come in. -/

namespace Netxduo.Ppp

open Runs

/-! ### The source -/

/-- `_nx_ppp_crc_table` --/
def crcTable : List (BitVec 16) := [0x0000, 0x1189, 0x2312, 0x329b, 0x4624, 0x57ad, 0x6536, 0x74bf, 0x8c48, 0x9dc1,
    0xaf5a, 0xbed3, 0xca6c, 0xdbe5,
  0xe97e, 0xf8f7, 0x1081, 0x0108, 0x3393, 0x221a, 0x56a5, 0x472c, 0x75b7, 0x643e, 0x9cc9, 0x8d40, 0xbfdb, 0xae52,
  0xdaed, 0xcb64, 0xf9ff, 0xe876, 0x2102, 0x308b, 0x0210, 0x1399, 0x6726, 0x76af, 0x4434, 0x55bd, 0xad4a, 0xbcc3,
  0x8e58, 0x9fd1, 0xeb6e, 0xfae7, 0xc87c, 0xd9f5, 0x3183, 0x200a, 0x1291, 0x0318, 0x77a7, 0x662e, 0x54b5, 0x453c,
  0xbdcb, 0xac42, 0x9ed9, 0x8f50, 0xfbef, 0xea66, 0xd8fd, 0xc974, 0x4204, 0x538d, 0x6116, 0x709f, 0x0420, 0x15a9,
  0x2732, 0x36bb, 0xce4c, 0xdfc5, 0xed5e, 0xfcd7, 0x8868, 0x99e1, 0xab7a, 0xbaf3, 0x5285, 0x430c, 0x7197, 0x601e,
  0x14a1, 0x0528, 0x37b3, 0x263a, 0xdecd, 0xcf44, 0xfddf, 0xec56, 0x98e9, 0x8960, 0xbbfb, 0xaa72, 0x6306, 0x728f,
  0x4014, 0x519d, 0x2522, 0x34ab, 0x0630, 0x17b9, 0xef4e, 0xfec7, 0xcc5c, 0xddd5, 0xa96a, 0xb8e3, 0x8a78, 0x9bf1,
  0x7387, 0x620e, 0x5095, 0x411c, 0x35a3, 0x242a, 0x16b1, 0x0738, 0xffcf, 0xee46, 0xdcdd, 0xcd54, 0xb9eb, 0xa862,
  0x9af9, 0x8b70, 0x8408, 0x9581, 0xa71a, 0xb693, 0xc22c, 0xd3a5, 0xe13e, 0xf0b7, 0x0840, 0x19c9, 0x2b52, 0x3adb,
  0x4e64, 0x5fed, 0x6d76, 0x7cff, 0x9489, 0x8500, 0xb79b, 0xa612, 0xd2ad, 0xc324, 0xf1bf, 0xe036, 0x18c1, 0x0948,
  0x3bd3, 0x2a5a, 0x5ee5, 0x4f6c, 0x7df7, 0x6c7e, 0xa50a, 0xb483, 0x8618, 0x9791, 0xe32e, 0xf2a7, 0xc03c, 0xd1b5,
  0x2942, 0x38cb, 0x0a50, 0x1bd9, 0x6f66, 0x7eef, 0x4c74, 0x5dfd, 0xb58b, 0xa402, 0x9699, 0x8710, 0xf3af, 0xe226,
  0xd0bd, 0xc134, 0x39c3, 0x284a, 0x1ad1, 0x0b58, 0x7fe7, 0x6e6e, 0x5cf5, 0x4d7c, 0xc60c, 0xd785, 0xe51e, 0xf497,
  0x8028, 0x91a1, 0xa33a, 0xb2b3, 0x4a44, 0x5bcd, 0x6956, 0x78df, 0x0c60, 0x1de9, 0x2f72, 0x3efb, 0xd68d, 0xc704,
  0xf59f, 0xe416, 0x90a9, 0x8120, 0xb3bb, 0xa232, 0x5ac5, 0x4b4c, 0x79d7, 0x685e, 0x1ce1, 0x0d68, 0x3ff3, 0x2e7a,
  0xe70e, 0xf687, 0xc41c, 0xd595, 0xa12a, 0xb0a3, 0x8238, 0x93b1, 0x6b46, 0x7acf, 0x4854, 0x59dd, 0x2d62, 0x3ceb,
  0x0e70, 0x1ff9, 0xf78f, 0xe606, 0xd49d, 0xc514, 0xb1ab, 0xa022, 0x92b9, 0x8330, 0x7bc7, 0x6a4e, 0x58d5, 0x495c,
  0x3de3, 0x2c6a, 0x1ef1, 0x0f78]

/-- The update of the check sequence by an octet. --/
def crcStep (crc : BitVec 16) (byte : UInt8) : BitVec 16 :=
  (crc >>> 8) ^^^ crcTable.getD ((crc.setWidth 8 ^^^ byte.toBitVec).toNat) 0

/-- `_nx_ppp_crc_append`: over the address, the control octet and the data. --/
def crcAppend (data : List UInt8) : List UInt8 :=
  let crc : BitVec 16 := ([0xff, 0x03] ++ data).foldl crcStep 0xffff ^^^ 0xffff
  [⟨crc.setWidth 8⟩, ⟨(crc >>> 8).setWidth 8⟩]

/-- `_nx_ppp_check_crc`: over what is between the flags. Its counter has 16 bits; where they are not enough it runs to
    the end of the frame. --/
def checkCrc (frame : List UInt8) : Bool :=
  (if frame.length ≤ 65536 then (frame.drop 1).take (frame.length - 2) else frame.drop 1).foldl crcStep 0xffff == 0xf0b8

def escape (byte : UInt8) : List UInt8 :=
  if byte < 0x20 ∨ byte = 0x7e ∨ byte = 0x7d then [0x7d, byte ^^^ 0x20] else [byte]

/-- The octets that `_nx_ppp_packet_transmit` sends; the first flag is not escaped. --/
def packetTransmit (data : List UInt8) : List UInt8 :=
  [0x7e] ++ [0xff, 0x03].flatMap escape ++ data.flatMap escape ++ (crcAppend data).flatMap escape ++ [0x7e]

/-- A receiver: the contents of the packet it fills, the chained ones behind it included, the octets in the serial
    buffer, and the timer events since the last octet of the packet. --/
structure Receiver where
  buffer : List UInt8
  serial : List UInt8
  timeouts : Nat

/-- What a round of the receive loop ends with. --/
inductive Outcome
  | wait
  | more
  | packet (data : List UInt8)
  | bad

/-- `NX_PPP_RECEIVE_TIMEOUTS` --/
def receiveTimeouts : Nat := 4

/-- The packet that is filled begins like a frame with an IP packet. --/
def isIpData (buffer : List UInt8) : Bool := buffer.take 5 == [0x7e, 0xff, 0x03, 0x00, 0x21]

/-- An octet is put into the packet, if there is room or another one may be chained to it; else what was received is no
    PPP frame and is disposed of. --/
def put (room : Nat) (byte : UInt8) (buffer : List UInt8) : List UInt8 :=
  if buffer.length < room ∨ isIpData buffer then buffer ++ [byte] else []

/-- The frame is complete: it is checked, and the header and what is behind the data are removed. --/
def endOfFrame (frame : List UInt8) : Outcome :=
  if checkCrc frame then
    if frame.length - 3 < 3 then .bad else .packet ((frame.take (frame.length - 3)).drop 3)
  else .bad

/-- A round of the loop in `_nx_ppp_receive_packet_get`. What a call of it saves is what its loop has between two
    rounds; the count of timeouts says nothing where the packet is empty. --/
def receiveRound (room : Nat) (r : Receiver) : Receiver × Outcome :=
  match r.serial with
  | [] => if receiveTimeouts < r.timeouts then (⟨[], [], 0⟩, .wait) else (r, .wait)
  | byte :: rest =>
    if byte = 0x7d ∧ rest = [] then (r, .wait)
    else if r.buffer ≠ [] ∧ byte = 0x7e then
      if r.buffer.head? ≠ some 0x7e then (⟨[], rest, 0⟩, .more)
      else (⟨[], rest, 0⟩, endOfFrame (r.buffer ++ [0x7e]))
    else
      -- a frame may come without its first flag
      let buffer := if r.buffer = [] ∧ byte = 0xff then [0x7e] else r.buffer
      if byte = 0x7d then (⟨put room (rest.headD 0 ^^^ 0x20) buffer, rest.drop 1, 0⟩, .more)
      else (⟨put room byte buffer, rest, 0⟩, .more)

/-- `_nx_ppp_byte_receive`: a full serial buffer drops the octet. --/
def byteReceive (bufferSize : Nat) (byte : UInt8) (r : Receiver) : Receiver :=
  if bufferSize ≤ r.serial.length then r else { r with serial := r.serial ++ [byte] }

/-! ### Runs -/

/-- A serial line: its receiver, the octets under way to it, the packets that were sent, and the ones that the receiver
    handed on. --/
structure Link where
  receiver : Receiver
  wire : List UInt8
  sent : List (List UInt8)
  delivered : List (List UInt8)

inductive Action
  | send (data : List UInt8)
  | arrive
  | timer
  | round

section link
variable (room bufferSize : Nat)

/-- Packets are sent, an octet comes in, the timer ticks, or the receiver does another round: in any order, as the
    octets come in from an interrupt. --/
def step (l : Link) : Action → Link
  | .send data => { l with wire := l.wire ++ packetTransmit data, sent := l.sent ++ [data] }
  | .arrive =>
    match l.wire with
    | [] => l
    | byte :: wire => { l with receiver := byteReceive bufferSize byte l.receiver, wire := wire }
  | .timer => { l with receiver := { l.receiver with timeouts := l.receiver.timeouts + 1 } }
  | .round =>
    match receiveRound room l.receiver with
    | (r, .packet data) => { l with receiver := r, delivered := l.delivered ++ [data] }
    | (r, _) => { l with receiver := r }

/-- A frame of the data fits into a packet of the receiver, or into several where it may chain them. --/
def Fits (data : List UInt8) : Prop :=
  data.length + 6 ≤ 65536 ∧ (data.length + 5 ≤ room ∨ 5 ≤ room ∧ data.take 2 = [0x00, 0x21])

/-- What is sent fits, no octet is lost, and the receiver does not give up a frame because the rest of it is late. --/
def Sound (l : Link) : Action → Prop
  | .send data => Fits room data
  | .arrive => l.receiver.serial.length < bufferSize
  | .timer => True
  | .round => l.receiver.serial = [] → l.receiver.buffer ≠ [] → l.receiver.timeouts ≤ receiveTimeouts

end link

/-- A line on which nothing was sent. --/
def newLink : Link := ⟨⟨[], [], 0⟩, [], [], []⟩

/-! ### The check sequence -/

theorem xor_xor_xor (x a b : BitVec 8) : (x ^^^ a) ^^^ (x ^^^ b) = a ^^^ b := by
  rw [BitVec.xor_comm x a, BitVec.xor_assoc, ← BitVec.xor_assoc x, BitVec.xor_self, BitVec.zero_xor]

/-- A sequence behind its own complement always leaves the same remainder. --/
theorem crc_residue (data : List UInt8) : ([0xff, 0x03] ++ data ++ crcAppend data).foldl crcStep 0xffff = 0xf0b8 := by
  rw [List.foldl_append]
  unfold crcAppend
  generalize ([0xff, 0x03] ++ data).foldl crcStep 0xffff = crc
  have hfirst : crcStep crc ⟨(crc ^^^ 0xffff).setWidth 8⟩ = (crc >>> 8) ^^^ 0x0f78 := by
    have hindex : crc.setWidth 8 ^^^ (crc ^^^ 0xffff).setWidth 8 = 0xff := by
      rw [BitVec.setWidth_xor, ← BitVec.xor_assoc, BitVec.xor_self]
      decide
    unfold crcStep
    rw [hindex]
    rfl
  have hsecond : crcStep ((crc >>> 8) ^^^ 0x0f78) ⟨((crc ^^^ 0xffff) >>> 8).setWidth 8⟩ = 0xf0b8 := by
    have hindex : ((crc >>> 8) ^^^ 0x0f78).setWidth 8 ^^^ ((crc ^^^ 0xffff) >>> 8).setWidth 8 = 0x87 := by
      rw [BitVec.ushiftRight_xor_distrib, BitVec.setWidth_xor, BitVec.setWidth_xor, xor_xor_xor]
      decide
    have hhigh : ((crc >>> 8) ^^^ 0x0f78) >>> 8 = 0x0f := by
      rw [BitVec.ushiftRight_xor_distrib, ← BitVec.shiftRight_add, BitVec.ushiftRight_eq_zero (Nat.le_refl 16)]
      decide
    unfold crcStep
    rw [hindex, hhigh]
    rfl
  simp only [List.foldl_cons, List.foldl_nil]
  rw [hfirst, hsecond]

/-! ### Frames -/

/-- What a packet of the receiver contains when the frame is there but for the last flag. --/
def contents (data : List UInt8) : List UInt8 := [0x7e, 0xff, 0x03] ++ data ++ crcAppend data

theorem packetTransmit_eq (data : List UInt8) :
    packetTransmit data = 0x7e :: (([0xff, 0x03] ++ data ++ crcAppend data).flatMap escape ++ [0x7e]) := by
  simp [packetTransmit]

theorem crcAppend_length (data : List UInt8) : (crcAppend data).length = 2 := rfl

theorem contents_length (data : List UInt8) : (contents data).length = data.length + 5 := by
  simp [contents, crcAppend_length]

/-- A frame that was sent is accepted, and its data comes out of it. --/
theorem endOfFrame_contents {data : List UInt8} (hlength : data.length + 6 ≤ 65536) :
    endOfFrame (contents data ++ [0x7e]) = .packet data := by
  have hlen : (contents data ++ [0x7e]).length = data.length + 6 := by simp [contents_length]
  have hbetween : ((contents data ++ [0x7e]).drop 1).take (data.length + 6 - 2) =
      [0xff, 0x03] ++ data ++ crcAppend data := by
    have hshape : (contents data ++ [0x7e]).drop 1 = ([0xff, 0x03] ++ data ++ crcAppend data) ++ [0x7e] := by
      simp [contents]
    rw [hshape, List.take_append_of_le_length (by simp [crcAppend_length]), List.take_of_length_le]
    simp [crcAppend_length]
  have hcheck : checkCrc (contents data ++ [0x7e]) = true := by
    unfold checkCrc
    rw [hlen, if_pos hlength, hbetween, crc_residue]
    rfl
  have hdata : ((contents data ++ [0x7e]).take (data.length + 6 - 3)).drop 3 = data := by
    have hshape : contents data ++ [0x7e] = ([0x7e, 0xff, 0x03] ++ data) ++ (crcAppend data ++ [0x7e]) := by
      simp [contents]
    rw [hshape, List.take_append_of_le_length (by simp), List.take_of_length_le (by simp)]
    simp
  unfold endOfFrame
  rw [if_pos hcheck, hlen, if_neg (by omega), hdata]

/-- An octet is sent as it is, which is not a flag or an escape then, or behind an escape. --/
theorem escape_cases (byte : UInt8) :
    escape byte = [byte] ∧ byte ≠ 0x7e ∧ byte ≠ 0x7d ∨ escape byte = [0x7d, byte ^^^ 0x20] := by
  unfold escape
  split
  · exact Or.inr rfl
  · rename_i hplain
    rw [not_or, not_or] at hplain
    exact Or.inl ⟨rfl, hplain.2⟩

theorem unescape (byte : UInt8) : byte ^^^ 0x20 ^^^ 0x20 = byte := by
  rw [UInt8.xor_assoc, UInt8.xor_self, UInt8.xor_zero]

/-- There is room for every octet of a frame that fits. --/
theorem put_contents {room : Nat} {data done left : List UInt8} {byte : UInt8} (hfits : Fits room data)
    (hcontents : contents data = done ++ byte :: left) : put room byte done = done ++ [byte] := by
  refine if_pos ?_
  rcases hfits.2 with hroom | ⟨hroom, hip⟩
  · have hlength := congrArg List.length hcontents
    simp [contents_length] at hlength
    exact Or.inl (by omega)
  · rcases Nat.lt_or_ge done.length room with hless | hmore
    · exact Or.inl hless
    · refine Or.inr ?_
      have htake : done.take 5 = (contents data).take 5 := by
        rw [hcontents, List.take_append_of_le_length (by omega)]
      obtain ⟨first, second, rest, rfl⟩ : ∃ first second rest, data = first :: second :: rest := by
        rcases data with _ | ⟨first, _ | ⟨second, rest⟩⟩
        · simp at hip
        · simp at hip
        · exact ⟨first, second, rest, rfl⟩
      simp at hip
      unfold isIpData
      rw [htake]
      simp [contents, hip]

/-! ### What is under way -/

/-- The packet that the receiver fills, the octets that are still to come to it, and the packets they stand for: it is
    between two frames, or within one. --/
inductive UnderWay : List UInt8 → List UInt8 → List (List UInt8) → Prop
  | between (todo : List (List UInt8)) : UnderWay [] (todo.flatMap packetTransmit) todo
  | within {data done left : List UInt8} (todo : List (List UInt8)) : contents data = done ++ left → done ≠ [] →
      UnderWay done (left.flatMap escape ++ 0x7e :: todo.flatMap packetTransmit) (data :: todo)

section underWay
variable {room bufferSize : Nat} {buffer pending : List UInt8} {todo : List (List UInt8)} {data : List UInt8}
  {r : Receiver} {wire : List UInt8}

/-- A packet that is sent is under way behind the others. --/
theorem UnderWay.send (h : UnderWay buffer pending todo) (data : List UInt8) :
    UnderWay buffer (pending ++ packetTransmit data) (todo ++ [data]) := by
  cases h with
  | between todo => simpa using UnderWay.between (todo ++ [data])
  | within todo hcontents hdone => simpa using UnderWay.within (todo ++ [data]) hcontents hdone

/-- Where no octet is to come, there is no packet under way. --/
theorem UnderWay.todo_nil (h : UnderWay buffer [] todo) : todo = [] ∧ buffer = [] := by
  generalize hpending : ([] : List UInt8) = pending at h
  cases h with
  | between todo =>
    rcases todo with _ | ⟨data, todo⟩
    · exact ⟨rfl, rfl⟩
    · simp [packetTransmit_eq] at hpending
  | within todo hcontents hdone => simp at hpending

/-- A lone escape is followed by another octet. --/
theorem UnderWay.ne_escape (h : UnderWay buffer pending todo) : pending ≠ [0x7d] := by
  cases h with
  | between todo =>
    rcases todo with _ | ⟨data, todo⟩
    · simp
    · simp [packetTransmit_eq]
  | @within data _ left todo hcontents hdone =>
    intro hlone
    have hlast := congrArg List.length hlone
    rcases left with _ | ⟨byte, left⟩
    · simp at hlone
    · rcases escape_cases byte with ⟨hescape, -⟩ | hescape
      · simp [hescape] at hlast
      · simp [hescape] at hlast

/-- What a round of the receiver makes of the octets under way: it waits for others, it takes some, or it hands on the
    first of the packets they stand for. --/
theorem round_cases (h : UnderWay r.buffer (r.serial ++ wire) todo) (hfits : ∀ data ∈ todo, Fits room data)
    (hlate : r.serial = [] → r.buffer ≠ [] → r.timeouts ≤ receiveTimeouts) :
    (∃ r', receiveRound room r = (r', .wait) ∧ UnderWay r'.buffer (r'.serial ++ wire) todo ∧
      (r.serial = [] ∨ r.serial = [0x7d])) ∨
    (∃ r', receiveRound room r = (r', .more) ∧ UnderWay r'.buffer (r'.serial ++ wire) todo ∧
      r'.serial.length < r.serial.length) ∨
    (∃ r' data rest, receiveRound room r = (r', .packet data) ∧ todo = data :: rest ∧
      UnderWay r'.buffer (r'.serial ++ wire) rest ∧ r'.serial.length < r.serial.length) := by
  obtain ⟨buffer, serial, timeouts⟩ := r
  rcases serial with _ | ⟨byte, serial⟩
  · refine Or.inl ?_
    by_cases hexpired : receiveTimeouts < timeouts
    · obtain rfl : buffer = [] := Classical.byContradiction fun hne => Nat.not_le_of_lt hexpired (hlate rfl hne)
      exact ⟨_, if_pos hexpired, h, Or.inl rfl⟩
    · exact ⟨_, if_neg hexpired, h, Or.inl rfl⟩
  · generalize hpending : byte :: serial ++ wire = pending at h
    cases h with
    | between todo =>
      rcases todo with _ | ⟨data, todo⟩
      · simp at hpending
      · simp [packetTransmit_eq] at hpending
        obtain ⟨rfl, hrest⟩ := hpending
        have hput : put room 0x7e [] = [0x7e] :=
          @put_contents room data [] ([0xff, 0x03] ++ data ++ crcAppend data) 0x7e (hfits data (by simp)) rfl
        have hwithin := @UnderWay.within data [0x7e] ([0xff, 0x03] ++ data ++ crcAppend data) todo rfl (by simp)
        refine Or.inr (Or.inl ⟨⟨[0x7e], serial, 0⟩, by simp [receiveRound, hput], ?_, by simp⟩)
        rw [hrest]
        simpa using hwithin
    | @within data _ left todo hcontents hdone =>
      rcases left with _ | ⟨next, left⟩
      · simp at hpending
        obtain ⟨rfl, hrest⟩ := hpending
        obtain rfl : buffer = contents data := by simpa using hcontents.symm
        refine Or.inr (Or.inr ⟨⟨[], serial, 0⟩, data, todo, ?_, rfl, ?_, by simp⟩)
        · simp [receiveRound, hdone, endOfFrame_contents (hfits data (by simp)).1]
          simp [contents]
        · rw [hrest]
          exact .between todo
      · have hput := put_contents (hfits data (by simp)) hcontents
        have hnext : contents data = (buffer ++ [next]) ++ left := by simpa using hcontents
        rcases escape_cases next with ⟨hescape, hflag, hplain⟩ | hescape
        · simp [hescape] at hpending
          obtain ⟨rfl, hrest⟩ := hpending
          refine Or.inr (Or.inl ⟨⟨buffer ++ [byte], serial, 0⟩, ?_, ?_, by simp⟩)
          · simp [receiveRound, hflag, hplain, hdone, hput]
          · rw [hrest]
            exact .within todo hnext (by simp)
        · simp [hescape] at hpending
          obtain ⟨rfl, hrest⟩ := hpending
          rcases serial with _ | ⟨second, serial⟩
          · refine Or.inl ⟨⟨buffer, [0x7d], timeouts⟩, by simp [receiveRound], ?_, Or.inr rfl⟩
            simp at hrest
            have hsame := UnderWay.within todo hcontents hdone
            simpa [hescape, hrest] using hsame
          · simp at hrest
            obtain ⟨rfl, hrest⟩ := hrest
            refine Or.inr (Or.inl ⟨⟨buffer ++ [next], serial, 0⟩, ?_, ?_, ?_⟩)
            · simp [receiveRound, hdone, unescape, hput]
            · rw [hrest]
              exact .within todo hnext (by simp)
            · exact Nat.lt_succ_of_lt (Nat.lt_succ_self _)

end underWay

/-! ### Runs of a link -/

section link
variable {room bufferSize : Nat} {actions : List Action} {l : Link}

/-- What was delivered, and what is under way, is what was sent. --/
structure Carried (room : Nat) (l : Link) : Prop where
  under_way : ∃ todo, UnderWay l.receiver.buffer (l.receiver.serial ++ l.wire) todo ∧ l.delivered ++ todo = l.sent
  fits : ∀ data ∈ l.sent, Fits room data

/-- Every action keeps it. --/
theorem Carried.step (h : Carried room l) {a : Action} (ha : Sound room bufferSize l a) :
    Carried room (step room bufferSize l a) := by
  obtain ⟨todo, hunder, hsent⟩ := h.under_way
  cases a with
  | send data =>
    refine ⟨⟨todo ++ [data], ?_, by simp [Ppp.step, ← hsent]⟩, fun other hother => ?_⟩
    · simpa [Ppp.step] using hunder.send data
    · rcases List.mem_append.mp hother with hold | hnew
      · exact h.fits other hold
      · obtain rfl := List.mem_singleton.mp hnew
        exact ha
  | arrive =>
    rcases hwire : l.wire with _ | ⟨byte, wire⟩
    · simpa [Ppp.step, hwire] using h
    · refine ⟨⟨todo, ?_, by simpa [Ppp.step, hwire] using hsent⟩, by simpa [Ppp.step, hwire] using h.fits⟩
      simpa [Ppp.step, hwire, byteReceive, Nat.not_le_of_lt ha] using hunder
  | timer => exact ⟨⟨todo, hunder, hsent⟩, h.fits⟩
  | round =>
    have htodo : ∀ data ∈ todo, Fits room data := fun data hdata => h.fits data (by simp [← hsent, hdata])
    rcases round_cases hunder htodo ha with ⟨r, hround, hnext, -⟩ | ⟨r, hround, hnext, -⟩ |
      ⟨r, data, rest, hround, rfl, hnext, -⟩
    · simp only [Ppp.step, hround]
      exact ⟨⟨todo, hnext, hsent⟩, h.fits⟩
    · simp only [Ppp.step, hround]
      exact ⟨⟨todo, hnext, hsent⟩, h.fits⟩
    · simp only [Ppp.step, hround]
      exact ⟨⟨rest, hnext, by simpa using hsent⟩, h.fits⟩

theorem carried_of_run (h : Run (step room bufferSize) (Sound room bufferSize) newLink actions l) : Carried room l :=
  h.invariant (P := fun _ l => Carried room l) ⟨⟨[], .between [], rfl⟩, by simp [newLink]⟩
    fun _ _ _ hcarried ha => hcarried.step ha

example : ((List.replicate 20 Action.arrive ++ List.replicate 20 Action.round).foldl (step 32 64)
    (step 32 64 newLink (.send [0xc0, 0x21, 0x7e]))).delivered = [[0xc0, 0x21, 0x7e]] := by
  decide +kernel

end link

end Netxduo.Ppp
