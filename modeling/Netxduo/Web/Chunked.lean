import Mathlib.Data.List.Basic

/-! The chunked responses of the HTTP client: how the octets of a chunk are found in the packets that TCP brings. -/

namespace Netxduo.Web

/-! ### The source -/

def carriageReturn : UInt8 := 0x0D
def lineFeed : UInt8 := 0x0A
def semicolon : UInt8 := 0x3B

/-- A packet, as the octets of the buffers of its chain. --/
abbrev Chain := List (List UInt8)

inductive Status
  | noPacket
  | invalidPacket
  | notFound
deriving DecidableEq, Repr

/-- The place where a call reads: the buffers from `*current_packet_pptr` on, the first of them from
    `*current_data_pptr` on; whether they are those of `nx_web_http_client_response_packet`; the remaining size; and the
    packets that are still to be received. --/
structure Reader where
  cursor : Chain
  held : Bool
  remaining : Nat
  incoming : List Chain
deriving DecidableEq, Repr

/-- The receive loop: packets without data are passed over. --/
def receiveLoop : List Chain → Option (Chain × List Chain)
  | [] => none
  | p :: incoming => if p.flatten.length = 0 then receiveLoop incoming else some (p, incoming)

/-- Where no data remains, another packet is received. --/
def receive (r : Reader) : Except Status Reader :=
  if r.remaining = 0 then
    match receiveLoop r.incoming with
    | none => .error .noPacket
    | some (p, incoming) => .ok ⟨p, true, p.flatten.length, incoming⟩
  else .ok r

/-- The octet at the data pointer, or at the start of the next buffer. --/
def octetRead (r : Reader) : Except Status (UInt8 × Reader) :=
  match r.cursor with
  | (data :: buffer) :: rest => .ok (data, { r with cursor := buffer :: rest, remaining := r.remaining - 1 })
  | [] :: (data :: buffer) :: rest => .ok (data, { r with cursor := buffer :: rest, remaining := r.remaining - 1 })
  | _ => .error .invalidPacket

/-- `_nx_web_http_client_response_read` --/
def responseRead (r : Reader) : Except Status (UInt8 × Reader) := do
  let r ← receive r
  octetRead r

/-- `_nx_web_http_client_response_byte_expect` --/
def responseByteExpect (data : UInt8) (r : Reader) : Except Status Reader := do
  let (tmp, r) ← responseRead r
  if tmp = data then .ok r else .error .notFound

/-- What an octet of the size line does: it goes on, with the extension or the size changed, it ends, or it fails. --/
inductive SizeStep
  | next (extension : Bool) (size : UInt32)
  | stop
  | bad
deriving DecidableEq, Repr

/-- The body of the loop of `_nx_web_http_client_chunked_size_get`. --/
def sizeStep (extension : Bool) (size : UInt32) (tmp : UInt8) : SizeStep :=
  if extension = true ∧ tmp ≠ carriageReturn then .next extension size
  else if 0x61 ≤ tmp ∧ tmp ≤ 0x66 then .next extension (size <<< 4 + 10 + (tmp - 0x61).toUInt32)
  else if 0x41 ≤ tmp ∧ tmp ≤ 0x46 then .next extension (size <<< 4 + 10 + (tmp - 0x41).toUInt32)
  else if 0x30 ≤ tmp ∧ tmp ≤ 0x39 then .next extension (size <<< 4 + (tmp - 0x30).toUInt32)
  else if tmp = carriageReturn then .stop
  else if tmp = semicolon then .next true size
  else .bad

/-- The loop, which reads an octet each time; the fuel is one more than there are octets. --/
def sizeLoop : Nat → Bool → UInt32 → Reader → Except Status (UInt32 × Reader)
  | 0, _, _, _ => .error .noPacket
  | fuel + 1, extension, size, r => do
    let (tmp, r) ← responseRead r
    match sizeStep extension size tmp with
    | .next extension size => sizeLoop fuel extension size r
    | .stop => .ok (size, r)
    | .bad => .error .notFound

def Reader.octets (r : Reader) : Nat := r.cursor.flatten.length + r.incoming.flatten.flatten.length

/-- The size line, and its line feed. --/
def sizeLineGet (r : Reader) : Except Status (UInt32 × Reader) := do
  let (size, r) ← sizeLoop (r.octets + 1) false 0 r
  let r ← responseByteExpect lineFeed r
  .ok (size, r)

/-- `_nx_web_http_client_chunked_size_get`, where so much of a chunk is still to come. --/
def chunkedSizeGet (need : Nat) (r : Reader) : Except Status (Nat × Reader) := do
  let (size, r) ←
    if 0 < need then .ok (need, r)
    else do
      let (size, r) ← sizeLineGet r
      .ok (size.toNat, r)
  let r ← receive r
  .ok (size, r)

/-- The data of a chunk is skipped, over the buffers of the chain. --/
def skip : Nat → Chain → Option Chain
  | _, [] => none
  | size, buffer :: rest =>
    if buffer.length < size then if rest = [] then none else skip (size - buffer.length) rest
    else some (buffer.drop size :: rest)

/-- The last packet of the chain that is returned is found, and cut. --/
def trim : Nat → Chain → Chain
  | _, [] => []
  | length, buffer :: rest =>
    if rest ≠ [] ∧ buffer.length < length then buffer :: trim (length - buffer.length) rest else [buffer.take length]

/-- `nx_packet_data_append` to a new packet, of a pool whose packets hold `payload` octets. --/
def dataAppend (payload : Nat) : Nat → List UInt8 → Chain
  | 0, data => [data]
  | fuel + 1, data => if data.length ≤ payload then [data] else data.take payload :: dataAppend payload fuel (data.drop payload)

/-- What remains behind a chunk is kept: in the packet that was received for the end of the chunk, or in a new one, which
    gets the rest of the buffer and is linked to the buffers behind. --/
def keepRemaining (payload : Nat) (r : Reader) : Except Status Chain :=
  if r.remaining = 0 then .ok []
  else if r.held = true then .ok r.cursor
  else
    match r.cursor with
    | [] => .error .invalidPacket
    | buffer :: rest =>
      let copy := dataAppend payload buffer.length buffer
      if buffer.length < r.remaining then
        if rest = [] then .error .invalidPacket else .ok (copy.take 1 ++ rest)
      else .ok copy

/-- The chunk state of an HTTP client: `nx_web_http_client_response_packet`, from its prepend pointer on, with the
    remaining size and the two byte counters, and the packets of its socket. --/
structure Client where
  responsePacket : Chain
  remaining : Nat
  totalReceiveBytes : Nat
  actualBytesReceived : Nat
  incoming : List Chain
deriving DecidableEq, Repr

inductive Delivered
  | packet (p : Chain)
  | done
deriving DecidableEq, Repr

/-- `_nx_web_http_client_response_chunked_get` --/
def chunkedGet (payload : Nat) (c : Client) : Except Status (Delivered × Client) := do
  let (chunkSize, r) ←
    chunkedSizeGet (c.totalReceiveBytes - c.actualBytesReceived) ⟨c.responsePacket, true, c.remaining, c.incoming⟩
  if chunkSize = 0 then
    let r ← responseByteExpect carriageReturn r
    let r ← responseByteExpect lineFeed r
    .ok (.done, ⟨[], r.remaining, c.totalReceiveBytes, c.actualBytesReceived, r.incoming⟩)
  else if chunkSize ≤ r.remaining then
    match skip chunkSize r.cursor with
    | none => .error .invalidPacket
    | some cursor => do
      let chain := r.cursor
      let r ← responseByteExpect carriageReturn ⟨cursor, false, r.remaining - chunkSize, r.incoming⟩
      let r ← responseByteExpect lineFeed r
      let responsePacket ← keepRemaining payload r
      .ok (.packet (trim chunkSize chain), ⟨responsePacket, r.remaining, chunkSize, chunkSize, r.incoming⟩)
  else .ok (.packet (trim r.remaining r.cursor), ⟨[], 0, chunkSize, r.remaining, r.incoming⟩)

/-- How the calls end: with `NX_WEB_HTTP_GET_DONE`, with an error, or not at all. --/
inductive Ending
  | done
  | failed (status : Status)
  | running
deriving DecidableEq, Repr

/-- Successive calls, with what they deliver. --/
def getAll (payload : Nat) : Nat → Client → List UInt8 → List UInt8 × Ending
  | 0, _, delivered => (delivered, .running)
  | calls + 1, c, delivered =>
    match chunkedGet payload c with
    | .error status => (delivered, .failed status)
    | .ok (.done, _) => (delivered, .done)
    | .ok (.packet p, c) => getAll payload calls c (delivered ++ p.flatten)

/-- The client after the response header, of which a packet may hold the start of the body. --/
def bodyStart (first : Chain) (incoming : List Chain) : Client := ⟨first, first.flatten.length, 0, 0, incoming⟩

/-- "3\r\nabc\r\n0\r\n\r\n", cut within its lines and within its data. --/
example : getAll 600 10 (bodyStart [[0x33, 0x0D]] [[[0x0A, 0x61], [0x62]], [[0x63], [0x0D, 0x0A, 0x30]], [[0x0D, 0x0A, 0x0D]],
    [[0x0A]]]) [] = ([0x61, 0x62, 0x63], .done) := by
  decide +kernel

end Netxduo.Web
