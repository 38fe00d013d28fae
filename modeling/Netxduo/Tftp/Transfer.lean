import Mathlib.Data.List.Basic
import Mathlib.Data.List.TakeDrop
import Netxduo.Library.Runs

/-! A file that is read over TFTP: blocks and acknowledgements on a network that loses, repeats and reorders them. What
    the client reads is the file. -/

namespace Netxduo.Tftp

open Runs

/-! ### The source -/

/-- What a server sends to a client. --/
inductive ToClient
  | data (block : UInt16) (octets : List UInt8)
  | error
  deriving DecidableEq

inductive ToServer
  | readRequest
  | ack (block : UInt16)
  deriving DecidableEq

/-- `NX_TFTP_FILE_TRANSFER_MAX` --/
def transferMax : Nat := 512

/-- `NX_TFTP_MAX_CLIENT_RETRANSMITS` --/
def maxClientRetransmits : Nat := 2

/-- `NX_TFTP_SERVER_TIMEOUT_PERIOD` --/
def timeoutPeriod : Nat := 20

/-- `NX_TFTP_SERVER_RETRANSMIT_TIMEOUT` --/
def retransmitTimeout : Nat := 200

/-- `NX_TFTP_SERVER_MAX_RETRIES` --/
def maxRetries : Nat := 5

/-- `NX_TFTP_CLIENT_REQUEST` of a file that is read; `position` is where the file is read next. --/
structure Request where
  blockNumber : UInt16
  position : Nat
  fileSize : Nat
  remainingBytes : Nat
  previousWriteSize : Nat
  exactFit : Bool
  requestRetransmits : Nat
  retransmitTimeout : Nat
  retransmitRetries : Nat
  deriving DecidableEq

/-- What `fx_file_read` reads of a file. --/
def fileRead (file : List UInt8) (position : Nat) : List UInt8 := (file.drop position).take transferMax

section server
variable (retransmission : Bool) (file : List UInt8)

/-- `_nx_tftp_server_open_for_read_process` of a file that is there, into a cleared entry. --/
def openForReadProcess : Option Request → Option Request × Option ToClient
  -- a request of a client that has one is ignored
  | some request => (some request, none)
  | none =>
    let octets := fileRead file 0
    (some
      { blockNumber := 1
        position := octets.length
        fileSize := file.length
        remainingBytes := file.length - octets.length
        previousWriteSize := 0
        exactFit := file.length % transferMax == 0 && 0 < file.length
        requestRetransmits := 0
        retransmitTimeout := if retransmission then Tftp.retransmitTimeout else 0
        retransmitRetries := 0 },
      some (.data 1 octets))

/-- `_nx_tftp_server_send_data` --/
def sendData (retransmit : Bool) (request : Request) : Request × ToClient :=
  let (request, octets) :=
    if request.remainingBytes ≠ 0 then
      let position :=
        if retransmit then request.fileSize - request.remainingBytes - request.previousWriteSize
        else request.position
      let octets := fileRead file position
      ({ request with position := position + octets.length }, octets)
    else ({ request with exactFit := false }, [])
  let request :=
    if retransmit then request
    else
      { request with
        blockNumber := request.blockNumber + 1
        remainingBytes := request.remainingBytes - octets.length }
  ({ request with previousWriteSize := octets.length }, .data request.blockNumber octets)

/-- `_nx_tftp_server_ack_process`, in the build with retransmission or in the one without it. --/
def ackProcess (block : UInt16) : Option Request → Option Request × Option ToClient
  | none => (none, some .error)
  | some request =>
    if request.blockNumber ≠ block then
      if request.blockNumber = block + 1 then
        if retransmission then (some request, none)
        else
          let request := { request with requestRetransmits := request.requestRetransmits + 1 }
          if request.requestRetransmits ≤ maxClientRetransmits then (some request, none) else (none, some .error)
      else (none, some .error)
    else if request.remainingBytes = 0 ∧ request.exactFit = false then (none, none)
    else
      let request :=
        if retransmission then
          { request with retransmitRetries := 0, retransmitTimeout := Tftp.retransmitTimeout }
        else request
      let (request, data) := sendData file false request
      (some request, some data)

/-- `_nx_tftp_server_timer_process`, which the build without retransmission does not have. --/
def timerProcess : Option Request → Option Request × Option ToClient
  | none => (none, none)
  | some request =>
    if retransmission = false ∨ request.retransmitTimeout = 0 then (some request, none)
    else
      let request := { request with retransmitTimeout := request.retransmitTimeout - timeoutPeriod }
      if request.retransmitTimeout = 0 then
        if request.retransmitRetries < maxRetries then
          let (request, data) := sendData file true
            { request with
              retransmitTimeout := Tftp.retransmitTimeout
              retransmitRetries := request.retransmitRetries + 1 }
          (some request, some data)
        else (none, some .error)
      else (some request, none)

end server

inductive ClientState
  | opened
  | endOfFile
  | error
  deriving DecidableEq

structure Client where
  state : ClientState
  blockNumber : UInt16
  deriving DecidableEq

/-- `_nxd_tftp_client_file_read` of a datagram: the client, the acknowledgement, and the packet that the caller gets.
    Whether there is a packet for the acknowledgement, and whether it is sent, is given. --/
def clientFileRead (allocated sent : Bool) (c : Client) : ToClient → Client × Option UInt16 × Option (List UInt8)
  | .error => if c.state = .opened then ({ c with state := .error }, none, none) else (c, none, none)
  | .data block octets =>
    if c.state ≠ .opened then (c, none, none)
    else if c.blockNumber - 1 ≠ block ∧ c.blockNumber ≠ block then (c, none, none)
    else if allocated = false then ({ c with state := .error }, none, none)
    else if sent = false then (c, none, none)
    -- the acknowledgement of the block before was lost: only that is sent again
    else if c.blockNumber - 1 = block then (c, some block, none)
    else if octets.length < transferMax then ({ c with state := .endOfFile }, some block, some octets)
    else ({ c with blockNumber := c.blockNumber + 1 }, some block, some octets)

/-! ### Runs -/

/-- A transfer: what the client read, the blocks the server sent since it opened the file, and all that was ever sent,
    each datagram with the count of the block it is about. --/
structure Transfer where
  client : Client
  read : List (List UInt8)
  request : Option Request
  blocksSent : Nat
  toClient : List (Nat × ToClient)
  toServer : List (Nat × ToServer)

inductive Action
  | toServer (n : Nat) (d : ToServer)
  | toClient (n : Nat) (d : ToClient) (allocated sent : Bool)
  | timer

/-- The server goes on with a request, and what it sends is about a block. --/
def Transfer.served (s : Transfer) (n : Nat) : Option Request × Option ToClient → Transfer
  | (request, none) => { s with request := request }
  | (request, some .error) => { s with request := request, toClient := s.toClient ++ [(n, .error)] }
  | (request, some (.data block octets)) =>
    { s with request := request, blocksSent := n, toClient := s.toClient ++ [(n, .data block octets)] }

section transfer
variable (retransmission : Bool) (file : List UInt8)

def step (s : Transfer) : Action → Transfer
  | .toServer _ .readRequest => s.served 1 (openForReadProcess retransmission file s.request)
  | .toServer _ (.ack block) => s.served (s.blocksSent + 1) (ackProcess retransmission file block s.request)
  | .toClient n d allocated sent =>
    let (client, ack, packet) := clientFileRead allocated sent s.client d
    { s with
      client := client
      read := s.read ++ packet.toList
      toServer := s.toServer ++ ack.toList.map fun block => (n, .ack block) }
  | .timer => s.served s.blocksSent (timerProcess retransmission file s.request)

/-- The network makes nothing up: what arrives was sent, once or more, at any time before. Only, as the numbers of
    blocks have 16 bits, nothing arrives that is 65535 blocks late. --/
def Sound (s : Transfer) : Action → Prop
  | .toServer _ .readRequest => True
  | .toServer n (.ack block) => (n, .ack block) ∈ s.toServer ∧ s.blocksSent < n + 65536
  | .toClient n d _ _ => (n, d) ∈ s.toClient ∧ s.read.length < n + 65535
  | .timer => True

end transfer

/-- `_nx_tftp_client_file_open_internal` opened the file for reading. --/
def opened : Transfer := ⟨⟨.opened, 1⟩, [], none, 0, [], []⟩

/-! ### Blocks -/

section blocks
variable {file : List UInt8} {n : Nat}

theorem fileRead_length (file : List UInt8) (position : Nat) :
    (fileRead file position).length = min transferMax (file.length - position) := by
  simp [fileRead]

theorem fileRead_nil {position : Nat} (h : file.length ≤ position) : fileRead file position = [] := by
  simp [fileRead, List.drop_eq_nil_of_le h]

/-- The next block behind the blocks that were read. --/
theorem take_fileRead (file : List UInt8) (n : Nat) :
    file.take (transferMax * n) ++ fileRead file (transferMax * n) = file.take (transferMax * (n + 1)) := by
  rw [fileRead, ← List.take_add, Nat.mul_succ]

theorem toNat_block (n : Nat) : (UInt16.ofNat n).toNat = n % 65536 := by
  simp

theorem block_succ (n : Nat) : UInt16.ofNat n + 1 = UInt16.ofNat (n + 1) := by
  simp [UInt16.ofNat_add]

theorem block_pred (n : Nat) : UInt16.ofNat (n + 1) - 1 = UInt16.ofNat n := by
  rw [← block_succ]
  simp

/-- Two numbers of blocks that are near to one another say the same block only if they are one. --/
theorem block_le {m n : Nat} (hblock : UInt16.ofNat m = UInt16.ofNat n) (hnear : m < n + 65536) : m ≤ n := by
  have hmod := congrArg UInt16.toNat hblock
  rw [toNat_block, toNat_block] at hmod
  omega

/-- The server sent a number of blocks of the file. --/
structure Request.At (file : List UInt8) (n : Nat) (r : Request) : Prop where
  some_block : 1 ≤ n
  blockNumber : r.blockNumber = UInt16.ofNat n
  position : r.position = min (transferMax * n) file.length
  remaining : r.remainingBytes = file.length - transferMax * n
  exactFit : r.exactFit = true ↔ file.length % transferMax = 0 ∧ 0 < file.length ∧ transferMax * n ≤ file.length

/-- The first block is sent where the server opens the file. --/
theorem openForReadProcess_at (retransmission : Bool) (file : List UInt8) :
    ∃ r, openForReadProcess retransmission file none = (some r, some (.data (UInt16.ofNat 1) (fileRead file 0))) ∧
      r.At file 1 ∧ r.fileSize = file.length ∧ r.previousWriteSize = 0 ∧ r.retransmitRetries = 0 ∧
      r.retransmitTimeout = if retransmission then retransmitTimeout else 0 := by
  refine ⟨_, rfl, ⟨Nat.le_refl 1, rfl, ?_, ?_, ?_⟩, rfl, rfl, rfl, rfl⟩
  · rw [fileRead_length]
    simp
  · show file.length - (fileRead file 0).length = _
    rw [fileRead_length]
    omega
  · simp [transferMax]
    omega

/-- Where something is left to send, it is the next block. --/
theorem sendData_at {r : Request} (h : r.At file n) (hleft : ¬ (r.remainingBytes = 0 ∧ r.exactFit = false)) :
    ∃ r', sendData file false r = (r', .data (UInt16.ofNat (n + 1)) (fileRead file (transferMax * n))) ∧
      r'.At file (n + 1) := by
  have hposition := h.position
  have hremaining := h.remaining
  by_cases hzero : r.remainingBytes = 0
  · have hexact : r.exactFit = true := by
      simpa [hzero] using hleft
    obtain ⟨hmod, hpos, hbound⟩ := h.exactFit.mp hexact
    have hnil : fileRead file (transferMax * n) = [] := fileRead_nil (by omega)
    refine ⟨_, by simp [sendData, hzero, hnil, h.blockNumber, UInt16.ofNat_add]; rfl, ?_⟩
    refine ⟨by omega, by simp, ?_, ?_, ?_⟩
    · simp only [transferMax] at *
      omega
    · simp only [transferMax] at *
      omega
    · simp only [transferMax] at *
      simp
      omega
  · have hmin : min (transferMax * n) file.length = transferMax * n := by omega
    rw [hmin] at hposition
    refine ⟨_, by simp [sendData, hzero, hposition, h.blockNumber, UInt16.ofNat_add]; rfl, ?_⟩
    refine ⟨by omega, by simp, ?_, ?_, ?_⟩
    · simp only [fileRead_length, transferMax] at *
      omega
    · simp only [fileRead_length, transferMax] at *
      omega
    · show r.exactFit = true ↔ _
      rw [h.exactFit]
      simp only [transferMax] at *
      omega

end blocks

/-! ### What a transfer keeps -/

/-- What was read is the file as far as it goes, the server sends of it what comes next at most, and every datagram is
    about the block that it says. --/
structure Transfer.Carried (file : List UInt8) (s : Transfer) : Prop where
  read : s.read.flatten = file.take (transferMax * s.read.length)
  opened : s.client.state = .opened → transferMax * s.read.length ≤ file.length ∧
    s.client.blockNumber = UInt16.ofNat (s.read.length + 1)
  endOfFile : s.client.state = .endOfFile → file.length < transferMax * s.read.length
  request : ∀ r, s.request = some r → r.At file s.blocksSent ∧ s.blocksSent ≤ s.read.length + 1
  toClient : ∀ n block octets, (n, ToClient.data block octets) ∈ s.toClient →
    1 ≤ n ∧ n ≤ s.read.length + 1 ∧ block = UInt16.ofNat n ∧ octets = fileRead file (transferMax * (n - 1))
  toServer : ∀ n block, (n, ToServer.ack block) ∈ s.toServer → n ≤ s.read.length ∧ block = UInt16.ofNat n

section carried
variable {file : List UInt8} {s : Transfer} {n : Nat}

theorem carried_opened (file : List UInt8) : Transfer.Carried file Tftp.opened :=
  ⟨rfl, by simp [Tftp.opened], by simp [Tftp.opened], by simp [Tftp.opened], by simp [Tftp.opened],
    by simp [Tftp.opened]⟩

/-- The server goes on with the request it has, or without one, and sends no block. --/
theorem Transfer.Carried.served_none (h : s.Carried file) {request : Option Request} {out : Option ToClient}
    (hout : out = none ∨ out = some .error)
    (hrequest : ∀ r, request = some r → r.At file s.blocksSent ∧ s.blocksSent ≤ s.read.length + 1) :
    (s.served n (request, out)).Carried file := by
  rcases hout with rfl | rfl
  · exact ⟨h.read, h.opened, h.endOfFile, hrequest, h.toClient, h.toServer⟩
  · refine ⟨h.read, h.opened, h.endOfFile, hrequest, fun m block octets hmem => ?_, h.toServer⟩
    exact h.toClient m block octets (by simpa [Transfer.served] using hmem)

/-- The server sends a block that is not too far from what was read. --/
theorem Transfer.Carried.served_data (h : s.Carried file) {r : Request} (hr : r.At file (n + 1))
    (hn : n ≤ s.read.length) :
    (s.served (n + 1) (some r, some (.data (UInt16.ofNat (n + 1)) (fileRead file (transferMax * n))))).Carried file :=
      by
  refine ⟨h.read, h.opened, h.endOfFile, fun r' hr' => ?_, fun m block octets hmem => ?_, h.toServer⟩
  · obtain rfl : r = r' := by simpa [Transfer.served] using hr'
    exact ⟨hr, Nat.succ_le_succ hn⟩
  · rcases List.mem_append.mp hmem with hold | hnew
    · exact h.toClient m block octets hold
    · obtain ⟨rfl, rfl, rfl⟩ : m = n + 1 ∧ block = UInt16.ofNat (n + 1) ∧ octets = fileRead file (transferMax * n) := by
        simpa using hnew
      exact ⟨Nat.le_add_left 1 n, Nat.succ_le_succ hn, rfl, rfl⟩

/-- An acknowledgement has the server send the next block where it is one of the last block it sent. --/
theorem Transfer.Carried.ackProcess (h : s.Carried file) {block : UInt16} (hack : (n, .ack block) ∈ s.toServer)
    (hnear : s.blocksSent < n + 65536) :
    (s.served (s.blocksSent + 1) (ackProcess false file block s.request)).Carried file := by
  obtain ⟨hread, rfl⟩ := h.toServer n block hack
  rcases hrequest : s.request with _ | r
  · exact h.served_none (Or.inr rfl) (by simp)
  · obtain ⟨hat, hsent⟩ := h.request r hrequest
    simp only [Tftp.ackProcess, Bool.false_eq_true, if_false]
    split
    · split
      · split
        · exact h.served_none (Or.inl rfl) fun r' hr' => by
            obtain rfl := Option.some.inj hr'
            exact ⟨⟨hat.some_block, hat.blockNumber, hat.position, hat.remaining, hat.exactFit⟩, hsent⟩
        · exact h.served_none (Or.inr rfl) (by simp)
      · exact h.served_none (Or.inr rfl) (by simp)
    · rename_i hblock
      split
      · exact h.served_none (Or.inl rfl) (by simp)
      · rename_i hleft
        obtain ⟨r', hsend, hat'⟩ := sendData_at hat hleft
        rw [hsend]
        refine h.served_data hat' (Nat.le_trans (block_le ?_ hnear) hread)
        rw [← hat.blockNumber]
        exact Decidable.of_not_not hblock

/-- What a client makes of a datagram: nothing but an error, an acknowledgement of the block before, or a block that is
    read, which may be the last one. --/
theorem clientFileRead_cases (allocated sent : Bool) (c : Client) (d : ToClient) :
    (∃ c', clientFileRead allocated sent c d = (c', none, none) ∧ (c' = c ∨ c' = { c with state := .error })) ∨
    (∃ block octets, d = .data block octets ∧ c.state = .opened ∧ c.blockNumber - 1 = block ∧
      clientFileRead allocated sent c d = (c, some block, none)) ∨
    (∃ block octets, d = .data block octets ∧ c.state = .opened ∧ c.blockNumber = block ∧
      octets.length < transferMax ∧
      clientFileRead allocated sent c d = ({ c with state := .endOfFile }, some block, some octets)) ∨
    (∃ block octets, d = .data block octets ∧ c.state = .opened ∧ c.blockNumber = block ∧
      ¬ octets.length < transferMax ∧
      clientFileRead allocated sent c d = ({ c with blockNumber := c.blockNumber + 1 }, some block, some octets)) := by
  generalize hout : clientFileRead allocated sent c d = out
  cases d with
  | error =>
    refine Or.inl ?_
    simp only [clientFileRead] at hout
    split at hout
    · exact ⟨_, hout.symm, Or.inr rfl⟩
    · exact ⟨_, hout.symm, Or.inl rfl⟩
  | data block octets =>
    simp only [clientFileRead] at hout
    split at hout
    · exact Or.inl ⟨_, hout.symm, Or.inl rfl⟩
    rename_i hopened
    split at hout
    · exact Or.inl ⟨_, hout.symm, Or.inl rfl⟩
    rename_i hblock
    split at hout
    · exact Or.inl ⟨_, hout.symm, Or.inr rfl⟩
    split at hout
    · exact Or.inl ⟨_, hout.symm, Or.inl rfl⟩
    have hopened := Decidable.of_not_not hopened
    split at hout
    · rename_i hbefore
      exact Or.inr (Or.inl ⟨block, octets, rfl, hopened, hbefore, hout.symm⟩)
    · rename_i hnext
      have hblock : c.blockNumber = block := Decidable.of_not_not fun hne => hblock ⟨hnext, hne⟩
      split at hout
      · rename_i hshort
        exact Or.inr (Or.inr (Or.inl ⟨block, octets, rfl, hopened, hblock, hshort, hout.symm⟩))
      · rename_i hfull
        exact Or.inr (Or.inr (Or.inr ⟨block, octets, rfl, hopened, hblock, hfull, hout.symm⟩))

/-- A block that the client reads is the one that follows what it read. --/
theorem Transfer.Carried.next_block (h : s.Carried file) {block : UInt16} {octets : List UInt8}
    (hmem : (n, .data block octets) ∈ s.toClient) (hnear : s.read.length < n + 65535)
    (hopened : s.client.state = .opened) (hblock : s.client.blockNumber = block) :
    n = s.read.length + 1 ∧ octets = fileRead file (transferMax * s.read.length) := by
  obtain ⟨-, hle, rfl, rfl⟩ := h.toClient n block octets hmem
  obtain rfl : n = s.read.length + 1 :=
    Nat.le_antisymm hle (block_le (by rw [← hblock, (h.opened hopened).2]) (by omega))
  exact ⟨rfl, rfl⟩

/-- The client reads the next block. --/
theorem Transfer.Carried.read_block (h : s.Carried file) {c : Client} {block : UInt16} {octets : List UInt8}
    (hmem : (n, .data block octets) ∈ s.toClient) (hnear : s.read.length < n + 65535)
    (hopened : s.client.state = .opened) (hblock : s.client.blockNumber = block)
    (hc : octets.length < transferMax ∧ c.state = .endOfFile ∨
      ¬ octets.length < transferMax ∧ c.state = .opened ∧ c.blockNumber = s.client.blockNumber + 1) :
    Transfer.Carried file { s with
      client := c
      read := s.read ++ [octets]
      toServer := s.toServer ++ [(n, .ack block)] } := by
  obtain ⟨rfl, rfl⟩ := h.next_block hmem hnear hopened hblock
  obtain ⟨hbound, hnumber⟩ := h.opened hopened
  rw [fileRead_length] at hc
  refine ⟨?_, fun hstate => ?_, fun hstate => ?_, fun r hr => ?_, fun m b o hm => ?_, fun m b hm => ?_⟩
  · simpa [h.read] using take_fileRead file s.read.length
  · rcases hc with ⟨-, hend⟩ | ⟨hfull, -, hnext⟩
    · rw [hend] at hstate
      cases hstate
    · refine ⟨?_, ?_⟩
      · simp [transferMax] at *
        omega
      · rw [hnext, hnumber, block_succ]
        simp
  · rcases hc with ⟨hshort, -⟩ | ⟨-, hopen, -⟩
    · simp [transferMax] at *
      omega
    · rw [hopen] at hstate
      cases hstate
  · obtain ⟨hat, hsent⟩ := h.request r hr
    exact ⟨hat, by simp; omega⟩
  · obtain ⟨hsome, hle, hsame⟩ := h.toClient m b o hm
    exact ⟨hsome, by simp; omega, hsame⟩
  · rcases List.mem_append.mp hm with hold | hnew
    · obtain ⟨hle, hsame⟩ := h.toServer m b hold
      exact ⟨by simp; omega, hsame⟩
    · obtain ⟨rfl, rfl⟩ : m = s.read.length + 1 ∧ b = block := by simpa using hnew
      exact ⟨by simp, by rw [← hblock, hnumber]⟩

theorem Transfer.Carried.clientFileRead (h : s.Carried file) {d : ToClient} {allocated sent : Bool}
    (hmem : (n, d) ∈ s.toClient) (hnear : s.read.length < n + 65535) :
    (step false file s (.toClient n d allocated sent)).Carried file := by
  rcases clientFileRead_cases allocated sent s.client d with ⟨c, hread, hc⟩ |
    ⟨block, octets, rfl, hopened, hbefore, hread⟩ | ⟨block, octets, rfl, hopened, hblock, hshort, hread⟩ |
    ⟨block, octets, rfl, hopened, hblock, hfull, hread⟩
  · simp only [step, hread, Option.toList_none, List.map_nil, List.append_nil]
    rcases hc with rfl | rfl
    · exact h
    · exact ⟨h.read, by simp, by simp, h.request, h.toClient, h.toServer⟩
  · simp only [step, hread, Option.toList_none, Option.toList_some, List.map_cons, List.map_nil, List.append_nil]
    refine ⟨h.read, h.opened, h.endOfFile, h.request, h.toClient, fun m b hm => ?_⟩
    rcases List.mem_append.mp hm with hold | hnew
    · exact h.toServer m b hold
    · obtain ⟨rfl, rfl⟩ : m = n ∧ b = block := by simpa using hnew
      obtain ⟨hsome, hle, rfl, -⟩ := h.toClient m b octets hmem
      refine ⟨?_, rfl⟩
      rw [(h.opened hopened).2, block_pred] at hbefore
      refine Nat.le_of_lt_succ (Nat.lt_of_le_of_ne hle fun hnext => ?_)
      rw [hnext] at hbefore
      exact Nat.not_succ_le_self _ (block_le hbefore.symm (by omega))
  · simp only [step, hread, Option.toList_some, List.map_cons, List.map_nil]
    exact h.read_block hmem hnear hopened hblock (Or.inl ⟨hshort, rfl⟩)
  · simp only [step, hread, Option.toList_some, List.map_cons, List.map_nil]
    exact h.read_block hmem hnear hopened hblock (Or.inr ⟨hfull, hopened, rfl⟩)

/-- A request opens the file where the server has none of the client. --/
theorem Transfer.Carried.openForReadProcess (h : s.Carried file) :
    (s.served 1 (openForReadProcess false file s.request)).Carried file := by
  rcases hrequest : s.request with _ | r
  · obtain ⟨r, hopen, hat, -⟩ := openForReadProcess_at false file
    rw [hopen]
    exact h.served_data hat (Nat.zero_le _)
  · exact h.served_none (Or.inl rfl) fun r' hr' => h.request r' (by rw [hrequest, hr'])

/-- Every action keeps it. --/
theorem Transfer.Carried.step (h : s.Carried file) {a : Action} (ha : Sound s a) :
    (step false file s a).Carried file := by
  cases a with
  | toServer n d =>
    cases d with
    | readRequest => exact h.openForReadProcess
    | ack block => exact h.ackProcess ha.1 ha.2
  | toClient n d allocated sent => exact h.clientFileRead ha.1 ha.2
  | timer =>
    rcases hrequest : s.request with _ | r
    · simpa [Tftp.step, hrequest, timerProcess] using h.served_none (Or.inl rfl) (by simp)
    · simpa [Tftp.step, hrequest, timerProcess] using
        h.served_none (Or.inl rfl) fun r' hr' => h.request r' (by rw [hrequest, hr'])

end carried

/-! ### Runs of a transfer -/

section run
variable {file : List UInt8} {s : Transfer} {actions : List Action}

theorem carried_of_run (h : Run (step false file) Sound opened actions s) : s.Carried file :=
  h.invariant (P := fun _ s => s.Carried file) (carried_opened file) fun _ _ _ hcarried ha => hcarried.step ha

/-- From where the next block is under way the client gets to the end of the file. --/
theorem ends_from (d : Nat) (hrun : Run (step false file) Sound opened actions s)
    (hleft : file.length < transferMax * (s.read.length + d)) (hopened : s.client.state = .opened)
    (hsent : s.blocksSent = s.read.length + 1) (hrequest : s.request ≠ none)
    (hmem : (s.read.length + 1, .data (UInt16.ofNat (s.read.length + 1)) (fileRead file (transferMax * s.read.length)))
      ∈
      s.toClient) : ∃ actions s, Run (step false file) Sound opened actions s ∧ s.client.state = .endOfFile := by
  induction d generalizing actions s with
  | zero =>
    have hbound := ((carried_of_run hrun).opened hopened).1
    exact absurd hleft (Nat.not_lt_of_le hbound)
  | succ d ih =>
    obtain ⟨hbound, hnumber⟩ := (carried_of_run hrun).opened hopened
    have harrives : Sound s (.toClient (s.read.length + 1)
        (.data (UInt16.ofNat (s.read.length + 1)) (fileRead file (transferMax * s.read.length))) true true) :=
      ⟨hmem, by omega⟩
    have hnext := hrun.next harrives
    by_cases hshort : (fileRead file (transferMax * s.read.length)).length < transferMax
    · refine ⟨_, _, hnext, ?_⟩
      simp [step, clientFileRead, hopened, hnumber, hshort]
    · obtain ⟨r, hr⟩ := Option.ne_none_iff_exists'.mp hrequest
      have hat := ((carried_of_run hrun).request r hr).1
      rw [hsent] at hat
      have hmore : ¬ (r.remainingBytes = 0 ∧ r.exactFit = false) := by
        rintro ⟨hzero, hexact⟩
        have hfit := hat.exactFit.not.mp (by simp [hexact])
        rw [hat.remaining] at hzero
        rw [fileRead_length] at hshort
        simp only [transferMax] at *
        omega
      obtain ⟨r', hsend, hat'⟩ := sendData_at hat hmore
      have hread : clientFileRead true true s.client
          (.data (UInt16.ofNat (s.read.length + 1)) (fileRead file (transferMax * s.read.length))) =
          ({ s.client with blockNumber := s.client.blockNumber + 1 }, some (UInt16.ofNat (s.read.length + 1)),
            some (fileRead file (transferMax * s.read.length))) := by
        simp [clientFileRead, hopened, hnumber, hshort]
      simp only [step, hread, Option.toList_some, List.map_cons, List.map_nil] at hnext
      have hlast := hnext.next (a := .toServer (s.read.length + 1) (.ack (UInt16.ofNat (s.read.length + 1))))
        (by exact ⟨by simp, by simp [hsent]⟩)
      have hack : ackProcess false file (UInt16.ofNat (s.read.length + 1)) s.request =
          (some r', some (.data (UInt16.ofNat (s.read.length + 1 + 1))
            (fileRead file (transferMax * (s.read.length + 1))))) := by
        unfold ackProcess
        rw [hr]
        simp only [hat.blockNumber, ne_eq, not_true_eq_false, if_false, if_neg hmore, Bool.false_eq_true, hsend]
      simp only [step, hack, Transfer.served] at hlast
      refine ih hlast ?_ hopened ?_ (by simp) ?_
      · simp only [List.length_append, List.length_singleton]
        rwa [Nat.add_assoc, Nat.add_comm 1]
      · simp [hsent]
      · simp only [List.length_append, List.length_singleton, hsent]
        exact List.mem_append_right _ (List.mem_singleton.mpr rfl)

/-- For every file there is a run in which the client reads it to the end. --/
theorem transfer_ends (file : List UInt8) :
    ∃ actions s, Run (step false file) Sound opened actions s ∧ s.client.state = .endOfFile := by
  have hrun : Run (step false file) Sound opened [.toServer 0 .readRequest] _ := Run.single trivial
  refine ends_from (file.length + 1) hrun ?_ rfl rfl ?_ ?_
  · simp [step, openForReadProcess, opened, Transfer.served, transferMax]
    omega
  · simp [step, openForReadProcess, opened, Transfer.served]
  · simp [step, openForReadProcess, opened, Transfer.served]

/-- When the time of a request is over, what `_nx_tftp_server_send_data` takes for its last block is sent. --/
theorem timer_sends {r : Request} {k : Nat} (hrun : Run (step true file) Sound opened actions s)
    (hrequest : s.request = some r) (htimeout : r.retransmitTimeout = timeoutPeriod * (k + 1))
    (hretries : r.retransmitRetries < maxRetries) :
    ∃ actions, Run (step true file) Sound opened actions (s.served s.blocksSent
      (some (sendData file true
        { r with retransmitTimeout := retransmitTimeout, retransmitRetries := r.retransmitRetries + 1 }).1,
        some (sendData file true
          { r with retransmitTimeout := retransmitTimeout, retransmitRetries := r.retransmitRetries + 1 }).2)) := by
  have hne : r.retransmitTimeout ≠ 0 := by simp [htimeout, timeoutPeriod]
  induction k generalizing s r actions with
  | zero =>
    have hnext : Run (step true file) Sound opened (actions ++ [.timer]) _ := hrun.next trivial
    have hover : r.retransmitTimeout - timeoutPeriod = 0 := by simp [htimeout]
    refine ⟨actions ++ [.timer], ?_⟩
    simpa [step, hrequest, timerProcess, hne, hover, hretries] using hnext
  | succ k ih =>
    have hnext : Run (step true file) Sound opened (actions ++ [.timer]) _ := hrun.next trivial
    have hleft : r.retransmitTimeout - timeoutPeriod = timeoutPeriod * (k + 1) := by
      rw [htimeout, Nat.mul_succ, Nat.add_sub_cancel]
    have hmore : timeoutPeriod * (k + 1) ≠ 0 := by simp [timeoutPeriod]
    simp only [step, hrequest, timerProcess, Bool.true_eq_false, hne, or_self, if_false, hleft, hmore] at hnext
    obtain ⟨actions, hrun⟩ :=
      ih (r := { r with retransmitTimeout := timeoutPeriod * (k + 1) }) hnext rfl rfl hretries hmore
    exact ⟨actions, hrun⟩

/-- As nothing says how long the first block was, it is taken for empty. --/
theorem sendData_first {r : Request} (hat : r.At file 1) (hsize : r.fileSize = file.length)
    (hprevious : r.previousWriteSize = 0) : (sendData file true r).2 = .data 1 (fileRead file transferMax) := by
  have hremaining := hat.remaining
  by_cases hzero : r.remainingBytes = 0
  · have hnil : fileRead file transferMax = [] := fileRead_nil (by omega)
    simp [sendData, hzero, hnil, hat.blockNumber]
  · have hposition : r.fileSize - r.remainingBytes - r.previousWriteSize = transferMax := by omega
    simp [sendData, hzero, hposition, hat.blockNumber]

end run

end Netxduo.Tftp
