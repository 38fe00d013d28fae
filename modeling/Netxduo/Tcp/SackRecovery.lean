import Mathlib
import Netxduo.Tcp.Socket

/-! SACK recovery, `nx_tcp_sack_recovery.c`: the scoreboard of holes with its two banks, the delivery
    credit, and the selection of repairs. -/

namespace Netxduo

/-- `NX_SACK_HOLES_PER_PAGE` --/
def sackHolesPerPage : Nat := 64

/-- `NX_SACK_PAGES_MAX` --/
def sackPagesMax : Nat := 16

/-- `NX_TCP_SACK_MAX_BLOCKS` --/
def sackMaxBlocks : Nat := 4

/-- `NX_TCP_FAST_RETRANSMIT_THRESHOLD` --/
def fastRetransmitThreshold : Nat := 3

/-- A FIN has been sent and not been acknowledged. --/
def finPending (s : Socket) : Bool :=
  !s.snd.finAcked && (s.state == .finWait1 || s.state == .closing || s.state == .lastAck)

/-- `sack_data_end` --/
def sackDataEnd (s : Socket) : ULONG :=
  if finPending s then s.snd.txSequence - 1 else s.snd.txSequence

/-! ### The scoreboard -/

namespace SackRecovery

/-- The slot of a hole on its page. --/
def slot (k : SackRecovery) (bank : Bool) (index : Nat) : Nat :=
  (if bank then k.pageCapacity else 0) + index % k.pageCapacity

/-- `sack_hole` --/
def hole (k : SackRecovery) (bank : Bool) (index : Nat) : SackHole :=
  k.cells (index / k.pageCapacity) (k.slot bank index)

def setHole (k : SackRecovery) (bank : Bool) (index : Nat) (h : SackHole) : SackRecovery :=
  let page := index / k.pageCapacity
  { k with cells := Function.update k.cells page (Function.update (k.cells page) (k.slot bank index) h) }

/-- The holes of the active bank. --/
def holes (k : SackRecovery) : List SackHole := (List.range k.holeCount).map (k.hole k.flags.bank)

end SackRecovery

/-- `sack_grow`. Whether the pool has a packet beyond its reserve is asked together with the allocation. --/
def sackGrow (ip : Ip) (s : Socket) : Bool × Socket :=
  if s.sack.pages ≥ min (ip.packetPoolTotal / 32) sackPagesMax then (false, s)
  else
    let (allocated, s) := s.packetAllocate ip
    if allocated then
      (true, { s with sack := { s.sack with
        pages := s.sack.pages + 1
        holeCapacity := s.sack.holeCapacity + s.sack.pageCapacity } })
    else (false, s)

/-! ### The blocks of the last option -/

/-- The insertion by descending left edge: `sack_blocks` sorts from the end of its array. --/
def sackInsert (b : SackBlock) : List SackBlock → List SackBlock
  | [] => [b]
  | x :: rest => if INT (x.left - b.left) > 0 then x :: sackInsert b rest else b :: x :: rest

/-- The part of a block that counts as evidence, if there is one. --/
def sackClip (s : Socket) (b : SackBlock) : Option SackBlock :=
  let ack := s.sack.highAck
  let dataEnd := sackDataEnd s
  let right := if b.right = dataEnd + 1 ∧ b.right = s.snd.txSequence then dataEnd else b.right
  if INT (b.left - ack) ≤ 0 ∨ INT (right - b.left) ≤ 0 ∨ INT (dataEnd - right) < 0 then none
  else if s.sack.flags.uncertain then
    let frontier := s.sack.uncertainStart
    if INT (b.left - frontier) ≥ 0 then none
    else some ⟨b.left, if INT (right - frontier) > 0 then frontier else right⟩
  else some ⟨b.left, right⟩

/-- `sack_blocks` --/
def sackBlocks (s : Socket) : List SackBlock :=
  ((s.sack.blocks.take sackMaxBlocks).filterMap (sackClip s)).foldl (fun sorted b => sackInsert b sorted) [] |>.reverse

/-! ### The rebuild -/

/-- The retransmission cursor of a hole, brought inside it. --/
def sackClamp (left right rxmit : ULONG) : ULONG :=
  let rxmit := if INT (rxmit - left) < 0 then left else rxmit
  if INT (rxmit - right) > 0 then right else rxmit

/-- `sack_append` into a bank; a count of `cap + 1` says that the hole does not fit. --/
def sackAppend (k : SackRecovery) (bank : Bool) (count cap : Nat) (left right rxmit : ULONG) : Nat × SackRecovery :=
  if INT (right - left) ≤ 0 then (count, k)
  else if count = cap then (cap + 1, k)
  else (count + 1, k.setHole bank count ⟨left, right, sackClamp left right rxmit⟩)

/-- `sack_subtract` --/
def sackSubtract (k : SackRecovery) (bank : Bool) (count cap : Nat) (left right rxmit : ULONG) :
    List SackBlock → Nat × SackRecovery
  | [] => sackAppend k bank count cap left right rxmit
  | b :: rest =>
    if INT (right - left) > 0 then
      if INT (b.right - left) ≤ 0 then sackSubtract k bank count cap left right rxmit rest
      else if INT (b.left - right) ≥ 0 then sackAppend k bank count cap left right rxmit
      else if INT (b.left - left) > 0 then
        let (count, k) := sackAppend k bank count cap left b.left rxmit
        if count > cap then (count, k) else sackSubtract k bank count cap b.right right rxmit rest
      else sackSubtract k bank count cap b.right right rxmit rest
    else sackAppend k bank count cap left right rxmit

/-- The loop of `sack_rebuild` over the active holes. --/
def sackRebuildHoles (blocks : List SackBlock) (ack : ULONG) (bank : Bool) (cap : Nat) :
    List Nat → Nat → SackRecovery → Nat × SackRecovery
  | [], count, k => (count, k)
  | i :: rest, count, k =>
    let h := k.hole bank i
    let left := if INT (ack - h.left) > 0 then ack else h.left
    let (count, k) := sackSubtract k (!bank) count cap left h.right h.rxmit blocks
    if count > cap then (count, k) else sackRebuildHoles blocks ack bank cap rest count k

/-- `sack_rebuild`: the other bank becomes the active one, unless the holes do not fit. --/
def sackRebuild (k : SackRecovery) (blocks : List SackBlock) (fack : ULONG) (discard : Bool) : Bool × SackRecovery :=
  let bank := k.flags.bank
  let cap := k.holeCapacity
  let ack := k.highAck
  let (count, k) :=
    if discard then sackSubtract k (!bank) 0 cap ack fack ack blocks
    else
      let (count, k) := sackRebuildHoles blocks ack bank cap (List.range k.holeCount) 0 k
      if count > cap then (count, k)
      else
        let oldFack := if INT (ack - k.fack) > 0 then ack else k.fack
        sackSubtract k (!bank) count cap oldFack fack oldFack blocks
  if count > cap then (false, k)
  else (true, { k with holeCount := count, fack := fack, flags := { k.flags with bank := !bank } })

/-- The retry of `_nx_tcp_sack_recovery_ack`: one page more as long as the rebuild fails and a page can be
    had. The bound on the tries is above the number of pages there can be. --/
def sackRebuildGrow (ip : Ip) (blocks : List SackBlock) (fack : ULONG) (discard : Bool) :
    Nat → Socket → Bool × Socket
  | 0, s => (false, s)
  | tries + 1, s =>
    let (rebuilt, k) := sackRebuild s.sack blocks fack discard
    let s := { s with sack := k }
    if rebuilt then (true, s)
    else
      let (grown, s) := sackGrow ip s
      if grown then sackRebuildGrow ip blocks fack discard tries s else (false, s)

/-! ### The view without a scoreboard -/

/-- The scratch holes of `sack_view` between the blocks. --/
def sackScratch (rxmit : ULONG) : ULONG → List SackBlock → List SackHole × ULONG
  | left, [] => ([], left)
  | left, b :: rest =>
    let (holes, fack) := sackScratch rxmit b.right rest
    (if INT (b.left - left) ≤ 0 then holes else ⟨left, b.left, sackClamp left b.left rxmit⟩ :: holes, fack)

/-- `sack_view`: the holes and the highest evidence. --/
def sackView (s : Socket) : List SackHole × ULONG :=
  if s.sack.pages ≠ 0 then (s.sack.holes, s.sack.fack)
  else sackScratch s.sack.txHighRxt s.sack.highAck (sackBlocks s)

/-! ### Loss -/

/-- The loop of `sack_lost_edge`, over the holes from the highest on. --/
def sackLostEdgeLoop (threshold : ULONG) : List SackHole → ULONG → ULONG → ULONG → Nat → ULONG
  | [], edge, _, _, _ => edge
  | h :: rest, edge, cursor, bytes, ranges =>
    let gap := cursor - h.right
    if gap ≠ 0 then
      let edge := if bytes ≤ threshold ∧ gap > threshold - bytes then cursor - (threshold - bytes) else edge
      let edge := if ranges + 1 = fastRetransmitThreshold ∧ INT (h.right - edge) > 0 then h.right else edge
      sackLostEdgeLoop threshold rest edge h.left (bytes + gap) (ranges + 1)
    else sackLostEdgeLoop threshold rest edge h.left bytes ranges

/-- `sack_lost_edge` --/
def sackLostEdge (s : Socket) (holes : List SackHole) (fack : ULONG) : ULONG :=
  sackLostEdgeLoop ((BitVec.ofNat 32 (fastRetransmitThreshold - 1)) * s.connectMss) holes.reverse s.sack.highAck fack 0 0

/-- The loop of `sack_lost_retransmit`. --/
def sackLostRetransmitLoop (bank : Bool) : List Nat → SackRecovery → SackRecovery
  | [], k => k
  | i :: rest, k =>
    let h := k.hole bank i
    if INT (h.rxmit - h.left) > 0 then
      let k := k.setHole bank i { h with rxmit := h.left }
      sackLostRetransmitLoop bank rest
        (if INT (k.txHighRxt - h.left) > 0 then { k with txHighRxt := h.left } else k)
    else sackLostRetransmitLoop bank rest k

/-- `sack_lost_retransmit` --/
def sackLostRetransmit (s : Socket) : Socket :=
  if INT (s.sack.fack - s.sack.rxtMark) < INT s.connectMss then s
  else { s with sack := sackLostRetransmitLoop s.sack.flags.bank (List.range s.sack.holeCount) s.sack }

/-! ### The pipe and the credit -/

/-- What one hole adds to the pipe. --/
def sackPipeHole (highRxt edge : ULONG) (h : SackHole) : ULONG :=
  let left := if INT (edge - h.left) > 0 then edge else h.left
  let original := if INT (h.right - left) > 0 then h.right - left else 0
  let left := if INT (highRxt - h.right) > 0 then h.right else highRxt
  original + if INT (left - h.left) > 0 then left - h.left else 0

/-- `_nx_tcp_sack_recovery_pipe` --/
def sackRecoveryPipe (s : Socket) : ULONG × Socket :=
  let (holes, fack) := sackView s
  let edge := sackLostEdge s holes fack
  let edge :=
    if s.sack.flags.uncertain ∧ INT (edge - s.sack.uncertainStart) > 0 then
      if INT (s.sack.highAck - s.sack.uncertainStart) > 0 then s.sack.highAck else s.sack.uncertainStart
    else edge
  let pipe := sackDataEnd s - fack
  let pipe := if INT (s.sack.txHighRxt - fack) > 0 then pipe + (s.sack.txHighRxt - fack) else pipe
  ((holes.map (sackPipeHole s.sack.txHighRxt edge)).foldl (· + ·) pipe, { s with sack.lostEdge := edge })

/-- The fractional loop of `_nx_tcp_prr_proportional_credit`, over the bits of the threshold. --/
def prrFraction (flight residue threshold : ULONG) : List Nat → ULONG → ULONG → ULONG × ULONG
  | [], fraction, remainder => (fraction, remainder)
  | bit :: rest, fraction, remainder =>
    let fraction := fraction <<< 1
    let (fraction, remainder) :=
      if remainder ≥ flight - remainder then (fraction + 1, remainder - (flight - remainder))
      else (fraction, remainder + remainder)
    let (fraction, remainder) :=
      if threshold.getLsbD bit then
        if remainder ≥ flight - residue then (fraction + 1, remainder - (flight - residue))
        else (fraction, remainder + residue)
      else (fraction, remainder)
    prrFraction flight residue threshold rest fraction remainder

/-- `_nx_tcp_prr_proportional_credit` --/
def prrProportionalCredit (delivered threshold flight : ULONG) : ULONG :=
  let maximum : ULONG := 0xFFFFFFFF
  if flight = 0 ∨ threshold = 0 then 0
  else if threshold = flight / 2 then
    if flight &&& 1 = 0 ∨ delivered < flight then (delivered >>> 1) + (delivered &&& 1)
    else
      let residue := delivered % flight
      delivered / flight * threshold + (residue >>> 1) + (residue &&& 1)
  else if threshold = flight then delivered
  else if delivered ≤ maximum / threshold then
    let product := delivered * threshold
    product / flight + if product % flight ≠ 0 then 1 else 0
  else
    let whole := delivered / flight
    let residue := delivered % flight
    if whole ≠ 0 ∧ threshold > maximum / whole then maximum
    else
      let product := whole * threshold
      let (fraction, remainder) := prrFraction flight residue threshold (List.range 32).reverse 0 0
      let fraction := fraction + if remainder ≠ 0 then 1 else 0
      if fraction > maximum - product then maximum else product + fraction

/-- `sack_prr_credit` --/
def sackPrrCredit (s : Socket) : Socket :=
  let (pipe, s) := sackRecoveryPipe s
  let threshold := s.snd.txSlowStartThreshold
  let delivered := s.sack.prrDelivered
  let sent := s.sack.prrOut
  let credit :=
    if pipe > threshold then
      let credit := prrProportionalCredit delivered threshold s.sack.prrRecoverFs
      if credit > sent then credit - sent else 0
    else
      let limit := if delivered > sent then delivered - sent else 0
      let limit := if limit < s.sack.deliveredData then s.sack.deliveredData else limit
      let limit := limit + s.connectMss
      if threshold - pipe > limit then limit else threshold - pipe
  { s with sack.prrCredit := credit }

/-! ### An acknowledgment -/

/-- The acknowledgment number as far as data goes. --/
def sackAckData (s : Socket) (ack : ULONG) : ULONG :=
  if INT (ack - sackDataEnd s) > 0 then sackDataEnd s else ack

/-- The first acknowledgment since a reset starts the accounting. --/
def sackInitialize (s : Socket) : Socket :=
  if s.sack.flags.initialized then s
  else
    let highAck := sackDataEnd s - s.snd.txOutstandingBytes
    { s with sack := { s.sack with
      highAck := highAck
      fack := highAck
      deliveryBank := 0
      flags := ⟨false, true, false, false, false⟩ } }

/-- A cumulative acknowledgment below the evidence that lies in no hole: the scoreboard is rebuilt from
    the blocks alone. --/
def sackDiscard (s : Socket) (ack : ULONG) : Bool :=
  decide (INT (ack - s.sack.highAck) > 0) && s.sack.pages != 0 && decide (INT (s.sack.fack - ack) > 0) &&
    !s.sack.holes.any fun h => decide (INT (ack - h.left) ≥ 0) && decide (INT (h.right - ack) > 0)

/-- The cumulative part: how far the acknowledgment advances, and the socket with it. --/
def sackAdvance (s : Socket) (ack : ULONG) : ULONG × Socket :=
  let advance := if INT (ack - s.sack.highAck) > 0 then ack - s.sack.highAck else 0
  let highAck := if INT (ack - s.sack.highAck) > 0 then ack else s.sack.highAck
  let uncertain := s.sack.flags.uncertain && !decide (INT (highAck - s.sack.uncertainEnd) ≥ 0)
  let s := { s with sack := { s.sack with
    highAck := highAck
    flags := { s.sack.flags with ackJump := decide (advance > s.connectMss), uncertain := uncertain } } }
  (advance, if advance ≠ 0 ∧ s.snd.fastRecovery = true then
      { s with snd := { s.snd with timeout := s.snd.timeoutRate, timeoutRetries := 0, stallTicks := 0 } }
    else s)

/-- The first page, once there is a block to keep. --/
def sackAllocate (ip : Ip) (s : Socket) (blocks : List SackBlock) : Socket :=
  if s.sack.pages = 0 ∧ blocks ≠ [] ∧ s.sack.flags.allocFailed = false then
    let (allocated, s) := s.packetAllocate ip
    if allocated ∧ 2 ≤ ip.sackPageRoom then
      let cap := min ip.sackPageRoom sackHolesPerPage
      { s with sack := { s.sack with
        pages := 1
        pageCapacity := cap
        holeCapacity := cap
        holeCount := 0
        fack := s.sack.highAck } }
    else { s with sack.flags.allocFailed := true }
  else s

/-- The highest evidence with the acknowledgment and the blocks taken in. --/
def sackForward (fack ack : ULONG) (blocks : List SackBlock) : ULONG :=
  blocks.foldl (fun fack b => if INT (b.right - fack) > 0 then b.right else fack)
    (if INT (ack - fack) > 0 then ack else fack)

/-- The scoreboard update. Without room the evidence held before is kept, cut at the acknowledgment. --/
def sackUpdate (ip : Ip) (s : Socket) (blocks : List SackBlock) (discard : Bool) : Socket :=
  let ack := s.sack.highAck
  let (rebuilt, s) := sackRebuildGrow ip blocks (sackForward s.sack.fack ack blocks) discard (sackPagesMax + 1) s
  if rebuilt then s
  else
    let start := if s.sack.flags.uncertain then s.sack.uncertainStart else s.sack.fack
    let s := { s with sack := { s.sack with
      uncertainStart := start
      uncertainEnd := sackDataEnd s
      flags := { s.sack.flags with uncertain := true } } }
    { s with sack := (sackRebuild s.sack [] (sackForward s.sack.fack ack []) discard).2 }

/-- The octets reported above the acknowledgment. --/
def sackSacked (s : Socket) (blocks : List SackBlock) : ULONG :=
  if s.sack.pages ≠ 0 then
    s.sack.holes.foldl (fun sacked h => sacked - (h.right - h.left)) (s.sack.fack - s.sack.highAck)
  else blocks.foldl (fun sacked b => sacked + (b.right - b.left)) 0

/-- The delivery credit: what is newly delivered, and the octets credited above the acknowledgment. --/
def sackCredit (s : Socket) (advance sacked : ULONG) : Socket :=
  let bank := s.sack.deliveryBank
  let estimate := advance + sacked
  let delivered := if estimate > bank then estimate - bank else 0
  let bank := if bank > advance then bank - advance else 0
  { s with sack := { s.sack with
    deliveredData := delivered
    deliveryBank := if sacked > bank then sacked else bank } }

/-- The end of the acknowledgment, inside a recovery. --/
def sackRespond (s : Socket) : Socket :=
  let s := if s.sackRecoveryActive ∧ s.sack.pages ≠ 0 then sackLostRetransmit s else s
  if s.sackRecoveryActive ∧ s.sack.deliveredData ≠ 0 then
    sackPrrCredit { s with sack.prrDelivered := s.sack.prrDelivered + s.sack.deliveredData }
  else s

/-- `_nx_tcp_sack_recovery_ack` --/
def sackRecoveryAck (ip : Ip) (s : Socket) (ack : ULONG) : Socket :=
  let ack := sackAckData s ack
  let s := sackInitialize s
  let discard := sackDiscard s ack
  let (advance, s) := sackAdvance s ack
  let blocks := sackBlocks s
  let s := sackAllocate ip s blocks
  let s := if s.sack.pages ≠ 0 then sackUpdate ip s blocks discard else s
  sackRespond (sackCredit s advance (sackSacked s blocks))

/-! ### A recovery -/

/-- `_nx_tcp_sack_recovery_begin` --/
def sackRecoveryBegin (ip : Ip) (s : Socket) : Socket :=
  let s := if s.sack.flags.initialized then s else sackRecoveryAck ip s (sackDataEnd s - s.snd.txOutstandingBytes)
  let dataEnd := sackDataEnd s
  let fs := dataEnd - s.sack.highAck
  if fs = 0 then s
  else
    let threshold := if fs / 2 < 2 * s.connectMss then 2 * s.connectMss else fs / 2
    let s := sackPrrCredit { s with
      snd := { s.snd with
        txSlowStartThreshold := threshold
        txWindowCongestion := threshold
        fastRecovery := true
        txSequenceRecover := dataEnd - 1
        txRtoNext := 0
        txRtoEnd := 0 }
      sack := { s.sack with
        txHighRxt := s.sack.highAck
        rescueRxt := s.sack.highAck
        rxtMark := dataEnd
        prrRecoverFs := fs
        prrDelivered := s.sack.deliveredData
        prrOut := 0
        cursor := (s.snd.transmitSent.head?).map (·.addr) } }
    if s.sack.prrCredit < s.connectMss then { s with sack.prrCredit := s.connectMss } else s

/-- A range to send again; a rescue sends the highest octet. --/
structure Repair where
  rescue : Bool
  sequence : ULONG
  limit : ULONG
deriving DecidableEq, Repr

/-- Where the part of a hole that can still be sent begins. --/
def repairLeft (s : Socket) (h : SackHole) : ULONG :=
  if INT (s.sack.txHighRxt - h.rxmit) > 0 then s.sack.txHighRxt else h.rxmit

/-- What the loss rule selects of a hole. --/
def repairLost (s : Socket) (h : SackHole) : Option Repair :=
  let limit := if INT (h.right - s.sack.lostEdge) > 0 then s.sack.lostEdge else h.right
  if INT (limit - repairLeft s h) > 0 then some ⟨false, repairLeft s h, limit⟩ else none

/-- What the rule for idle credit selects of a hole. --/
def repairIdle (s : Socket) (h : SackHole) : Option Repair :=
  if INT (h.right - repairLeft s h) > 0 then some ⟨false, repairLeft s h, h.right⟩ else none

/-- The missing segment in front of an uncertain flight. --/
def repairUncertain (s : Socket) : Option Repair :=
  if s.sack.flags.uncertain ∧ INT (s.sack.highAck - s.sack.uncertainStart) ≥ 0 ∧
      INT (s.sack.highAck - s.sack.txHighRxt) ≥ 0 ∧ INT (sackDataEnd s - s.sack.highAck) > 0 then
    some ⟨false, s.sack.highAck,
      if sackDataEnd s - s.sack.highAck > s.connectMss then s.sack.highAck + s.connectMss else sackDataEnd s⟩
  else none

/-- A suspended writer has data the credit can carry. --/
def writerWaits (s : Socket) (stopped : Bool) : Bool :=
  !s.snd.transmitSuspensionList.isEmpty && !stopped &&
    decide (s.snd.txWindowAdvertised > s.snd.txOutstandingBytes) &&
    decide (s.snd.transmitSent.length < s.snd.transmitQueueMaximum.toNat)

/-- The rescue of the tail. --/
def repairRescue (s : Socket) (fack : ULONG) : Option Repair :=
  let dataEnd := sackDataEnd s
  let tail := dataEnd - s.sack.highAck
  if s.sack.flags.ackJump ∧ INT (s.sack.highAck - s.sack.rescueRxt) ≥ 0 ∧
      INT (s.sack.highAck - s.sack.txHighRxt) ≥ 0 ∧ tail ≠ 0 ∧ tail ≤ s.connectMss ∧ INT (dataEnd - fack) > 0 then
    some ⟨true, dataEnd - 1, dataEnd⟩
  else none

/-- `_nx_tcp_sack_recovery_next`. `stopped` says that the interface has stopped its transmit queue. --/
def sackRecoveryNext (s : Socket) (stopped : Bool) : Option Repair :=
  let (holes, fack) := sackView s
  match holes.findSome? (repairLost s) with
  | some r => some r
  | none =>
    if s.sack.prrOut = 0 then some ⟨false, s.sack.highAck, sackDataEnd s⟩
    else
      match repairUncertain s with
      | some r => some r
      | none =>
        if writerWaits s stopped then none
        else
          match if s.sack.prrCredit ≥ s.connectMss then holes.findSome? (repairIdle s) else none with
          | some r => some r
          | none => repairRescue s fack

/-- The loop of `_nx_tcp_sack_recovery_sent` over the holes. --/
def sackSentLoop (bank : Bool) (sequence limit : ULONG) : List Nat → SackRecovery → SackRecovery
  | [], k => k
  | i :: rest, k =>
    let h := k.hole bank i
    if INT (sequence - h.rxmit) ≤ 0 ∧ INT (limit - h.left) > 0 ∧ INT (h.right - sequence) > 0 ∧
        INT (limit - h.rxmit) > 0 then
      sackSentLoop bank sequence limit rest
        (k.setHole bank i { h with rxmit := if INT (limit - h.right) > 0 then h.right else limit })
    else sackSentLoop bank sequence limit rest k

/-- `_nx_tcp_sack_recovery_sent` --/
def sackRecoverySent (s : Socket) (sequence bytes : ULONG) (rescue : Bool) : Socket :=
  let limit := sequence + bytes
  let k := s.sack
  let k := { k with
    rescueRxt :=
      if rescue then s.snd.txSequenceRecover + 1 else if k.prrOut = 0 then limit else k.rescueRxt
    prrOut := k.prrOut + bytes
    prrCredit := if k.prrCredit > bytes then k.prrCredit - bytes else 0 }
  if rescue then { s with sack := k }
  else
    let k := { k with
      txHighRxt := if INT (limit - k.txHighRxt) > 0 then limit else k.txHighRxt
      rxtMark := sackDataEnd s }
    { s with sack :=
        if k.pages ≠ 0 then sackSentLoop k.flags.bank sequence limit (List.range k.holeCount) k else k }

/-- `_nx_tcp_sack_recovery_end` --/
def SackRecovery.finish (k : SackRecovery) : SackRecovery :=
  { k with prrRecoverFs := 0, prrCredit := 0, cursor := none }

/-- `_nx_tcp_sack_recovery_reset` --/
def SackRecovery.reset (k : SackRecovery) : SackRecovery :=
  SackRecovery.finish { k with
    pages := 0
    holeCount := 0
    holeCapacity := 0
    pageCapacity := 0
    uncertainStart := 0
    uncertainEnd := 0
    flags := ⟨false, false, false, false, false⟩
    deliveryBank := 0
    deliveredData := 0 }

end Netxduo
