import Netxduo.Tcp.SackRecovery

/-! Reading the options of an arriving segment: `_nx_tcp_sack_option_get`, `_nx_tcp_timestamp_option_get` and
    `_nx_tcp_mss_option_get`. Every round of a walk consumes an octet of the option area at least, so the
    size of the area bounds the rounds. -/

namespace Netxduo

def tcpEolKind : UInt8 := 0
def tcpNopKind : UInt8 := 1
def tcpMssKind : UInt8 := 2
def tcpSackKind : UInt8 := 5
def tcpTimestampKind : UInt8 := 8

/-- `_nx_tcp_sack_sequence_read` --/
def sequenceRead (octets : List UInt8) : ULONG :=
  let octet (i : Nat) : ULONG := BitVec.ofNat 32 (octets.getD i 0).toNat
  octet 0 <<< 24 ||| octet 1 <<< 16 ||| octet 2 <<< 8 ||| octet 3

/-! ### SACK -/

/-- The walk to the SACK option. --/
def sackOptionFind : Nat → List UInt8 → Option (List UInt8)
  | 0, _ => none
  | rounds + 1, area =>
    match area with
    | kind :: size :: rest =>
      if kind = tcpSackKind then some area
      else if kind = tcpEolKind then none
      else if kind = tcpNopKind then sackOptionFind rounds (size :: rest)
      else if size = 0 ∨ size.toNat > area.length then none
      else sackOptionFind rounds (area.drop size.toNat)
    | _ => none

/-- The edges of the blocks of an option of well-formed length. --/
def sackOptionEdges (area : List UInt8) : Option (List SackBlock) :=
  let size := (area.getD 1 0).toNat
  if size < 10 ∨ size > area.length ∨ (size - 2) % 8 ≠ 0 then none
  else
    some <| (List.range (min ((size - 2) / 8) sackMaxBlocks)).map fun i =>
      ⟨sequenceRead (area.drop (2 + 8 * i)), sequenceRead (area.drop (6 + 8 * i))⟩

/-- The loop over the blocks: those that describe outstanding data and overlap none taken before. --/
def sackOptionTake (unacked next : ULONG) : List SackBlock → List SackBlock → List SackBlock
  | [], taken => taken
  | b :: rest, taken =>
    if INT (b.right - b.left) ≤ 0 ∨ INT (b.left - unacked) ≤ 0 ∨ INT (next - b.right) < 0 ∨
        taken.any (fun t => decide (INT (b.right - t.left) > 0) && decide (INT (t.right - b.left) > 0)) = true then
      sackOptionTake unacked next rest taken
    else sackOptionTake unacked next rest (taken ++ [b])

/-- `_nx_tcp_sack_option_get` --/
def sackOptionGet (s : Socket) (options : List UInt8) : Socket :=
  if s.sackPermitted then
    match (sackOptionFind options.length options).bind sackOptionEdges with
    | some edges =>
      let next := s.snd.txSequence
      let unacked := next - s.snd.txOutstandingBytes
      let unacked := if finPending s then unacked - 1 else unacked
      { s with sack.blocks := sackOptionTake unacked next edges [] }
    | none => s
  else s

/-! ### Timestamps -/

/-- The walk of `_nx_tcp_timestamp_option_get`: the value and the echo. --/
def timestampOptionFind : Nat → List UInt8 → Option (ULONG × ULONG)
  | 0, _ => none
  | rounds + 1, area =>
    if area.length < 10 then none
    else
      let kind := area.getD 0 0
      let size := area.getD 1 0
      if kind = tcpTimestampKind then
        if size ≠ 10 then none else some (sequenceRead (area.drop 2), sequenceRead (area.drop 6))
      else if kind = tcpEolKind then none
      else if kind = tcpNopKind then timestampOptionFind rounds (area.drop 1)
      else if size < 2 ∨ size.toNat > area.length then none
      else timestampOptionFind rounds (area.drop size.toNat)

/-- `_nx_tcp_timestamp_option_get` --/
def timestampOptionGet (options : List UInt8) : Option (ULONG × ULONG) := timestampOptionFind options.length options

/-! ### Maximum segment size -/

/-- The walk of `_nx_tcp_mss_option_get`: whether the area is legal. --/
def mssOptionWalk : Nat → List UInt8 → Bool
  | 0, _ => true
  | rounds + 1, area =>
    if area.length < 4 then true
    else
      let kind := area.getD 0 0
      let size := area.getD 1 0
      if kind = tcpMssKind then size == 4
      else if kind = tcpEolKind then true
      else if kind = tcpNopKind then mssOptionWalk rounds (area.drop 1)
      else if size = 0 ∨ size.toNat > area.length then false
      else mssOptionWalk rounds (area.drop size.toNat)

/-- The status of `_nx_tcp_mss_option_get`. --/
def mssOptionLegal (options : List UInt8) : Bool := mssOptionWalk options.length options

end Netxduo
